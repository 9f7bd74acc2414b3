import SecureNet.Library.TaskEvents
import SecureNet.Routes

/-!
# The vault's state as a replay of its trace

`Effect` says once what an operation, or the cancellation of one, can do to the process. What
later modules need of the state is the `Ledger`, and the ledger of a process is the replay of
the events so far.
-/

namespace SecureNet

open Hex (Bytes)
open EventMachine KeyedStore Tasks

abbrev VaultTraceEvent := Event Request Response VaultEvent

variable {D : Deployment} {file : List LogPiece} {clock : ℕ}

variable (D) in
/-- What serving or cancelling one operation does to the process, with its events. -/
inductive Effect (s : Process) : Process → List VaultEvent → Prop
  | lock (l : Option ℕ) : Effect s { s with logLock := l } []
  | register (nonce : Bytes) (elapsedAt : Bytes → ℕ) (now : ℕ)
      (hnow : s.clock ≤ now) :
    Effect s { s with
      appState.nonceStore := s.appState.nonceStore.register elapsedAt nonce now
      clock := now } [.registered nonce now]
  | consume (nonce : Bytes) (now : ℕ) (hnow : s.clock ≤ now) :
    Effect s { s with
      appState.nonceStore := (s.appState.nonceStore.consume nonce now).2
      clock := now } [.consumed nonce now (s.appState.nonceStore.consume nonce now).1]
  | issue (serviceName : String) (now : ℤ) (leafKey : Option KeyPair) (utcNow : ℤ) :
    Effect s { s with serialCounter := s.serialCounter + 1 }
      [.issueCalled serviceName
        (D.issuer.issue D.rcgen serviceName s.serialCounter now leafKey utcNow)]
  | append (pieces : List LogPiece) (l : Option ℕ) :
    Effect s { s with file := s.file ++ pieces, logLock := l } (pieces.map .appended)
  | revoke (serial reason : String) :
    Effect s { s with appState := s.appState.revokeCert serial reason } [.revoked serial reason]
  | list : Effect s s [.listed s.appState.revocationList]

lemma clockOk_le {s : Process} {inp : Input} (h : s.clockOk inp = true) :
    s.clock ≤ inp.instant := by
  rw [Process.clockOk, Bool.and_eq_true, decide_eq_true_eq] at h
  exact h.1

lemma reply_effect {s t : Process} {i : ℕ} {o : VaultOp} {inp : Input} {r : vaultSig.Reply o}
    {evs : List VaultEvent} (h : Process.reply D s i o inp = some (t, r, evs)) :
    Effect D s t evs := by
  cases o <;> simp only [Process.reply] at h
  case registerNonce nonce =>
    split at h
    · next hok =>
      cases h
      exact .register nonce inp.elapsedAt inp.instant (clockOk_le hok)
    · cases h
  case consumeNonce nonce =>
    split at h
    · next hok =>
      cases h
      exact .consume nonce inp.instant (clockOk_le hok)
    · cases h
  case lockLog =>
    split at h
    · cases h
      exact .lock (some i)
    · cases h
  all_goals cases h
  case issue serviceName => exact .issue serviceName inp.issueNow inp.leafKey inp.utcNow
  case writeAll entry => exact .append _ s.logLock
  case unlockLog => exact .lock none
  case revokeCert serial reason => exact .revoke serial reason
  case revocationList => exact .list
  all_goals exact .lock s.logLock

/-- The event that an operation emits when it is served. -/
def Emits (D : Deployment) (s : Process) (inp : Input) : VaultOp → VaultEvent → Prop
  | .registerNonce nonce, e => e = .registered nonce inp.instant
  | .consumeNonce nonce, e =>
    e = .consumed nonce inp.instant (s.appState.nonceStore.consume nonce inp.instant).1
  | .issue serviceName, e =>
    e = .issueCalled serviceName (D.issuer.issue D.rcgen serviceName s.serialCounter inp.issueNow
      inp.leafKey inp.utcNow)
  | .writeAll _, e => ∃ piece, e = .appended piece
  | .revokeCert serial reason, e => e = .revoked serial reason
  | .revocationList, e => e = .listed s.appState.revocationList
  | _, _ => False

lemma reply_emits {s t : Process} {i : ℕ} {o : VaultOp} {inp : Input} {r : vaultSig.Reply o}
    {evs : List VaultEvent} (h : Process.reply D s i o inp = some (t, r, evs)) {e : VaultEvent}
    (he : e ∈ evs) : Emits D s inp o e := by
  cases o <;> simp only [Process.reply] at h
  case registerNonce nonce =>
    split at h
    · cases h
      exact List.mem_singleton.mp he
    · cases h
  case consumeNonce nonce =>
    split at h
    · cases h
      exact List.mem_singleton.mp he
    · cases h
  case lockLog =>
    split at h
    · cases h
      cases he
    · cases h
  all_goals cases h
  case issue serviceName => exact List.mem_singleton.mp he
  case writeAll entry =>
    obtain ⟨piece, -, rfl⟩ := List.mem_map.mp he
    exact ⟨piece, rfl⟩
  case revokeCert serial reason => exact List.mem_singleton.mp he
  case revocationList => exact List.mem_singleton.mp he
  all_goals cases he

lemma reply_consumed {s t : Process} {i : ℕ} {o : VaultOp} {inp : Input} {r : vaultSig.Reply o}
    {evs : List VaultEvent} {nonce : Bytes} {u : ℕ} {fresh : Bool}
    (h : Process.reply D s i o inp = some (t, r, evs)) (he : .consumed nonce u fresh ∈ evs) :
    o = .consumeNonce nonce ∧ fresh = (s.appState.nonceStore.consume nonce inp.instant).1 := by
  have hemits := reply_emits h he
  cases o <;> simp only [Emits, reduceCtorEq, exists_false] at hemits
  case consumeNonce nonce' =>
    cases hemits
    exact ⟨rfl, rfl⟩

lemma reply_issueCalled {s t : Process} {i : ℕ} {o : VaultOp} {inp : Input}
    {r : vaultSig.Reply o} {evs : List VaultEvent} {serviceName : String}
    {result : Except String Issued} (h : Process.reply D s i o inp = some (t, r, evs))
    (he : .issueCalled serviceName result ∈ evs) :
    o = .issue serviceName ∧ result = D.issuer.issue D.rcgen serviceName s.serialCounter
      inp.issueNow inp.leafKey inp.utcNow := by
  have hemits := reply_emits h he
  cases o <;> simp only [Emits, reduceCtorEq, exists_false] at hemits
  case issue serviceName' =>
    cases hemits
    exact ⟨rfl, rfl⟩

lemma cancel_effect {s t : Process} {i : ℕ} {o : VaultOp} {inp : Input} {evs : List VaultEvent}
    (h : Process.cancel s i o inp = some (t, evs)) : Effect D s t evs := by
  cases o <;> simp only [Process.cancel] at h <;> cases h
  case writeAll entry => exact .append _ none
  case createDirAll path => exact .lock none
  case openLog => exact .lock none
  all_goals exact .lock s.logLock

lemma cancel_appended {s t : Process} {i : ℕ} {o : VaultOp} {inp : Input} {evs : List VaultEvent}
    (h : Process.cancel s i o inp = some (t, evs)) {e : VaultEvent} (he : e ∈ evs) :
    ∃ piece, e = .appended piece := by
  cases o <;> simp only [Process.cancel] at h <;> cases h
  case writeAll entry =>
    obtain ⟨piece, -, rfl⟩ := List.mem_map.mp he
    exact ⟨piece, rfl⟩
  all_goals cases he

/-- Except for the pieces of a write, every event is the only one of its operation. -/
lemma Effect.single {s t : Process} {evs : List VaultEvent} {e : VaultEvent}
    (h : Effect D s t evs) (he : e ∈ evs) (hne : ∀ piece, e ≠ .appended piece) : evs = [e] := by
  cases h with
  | lock l => cases he
  | append pieces l =>
    obtain ⟨piece, -, rfl⟩ := List.mem_map.mp he
    exact absurd rfl (hne piece)
  | _ => rw [List.mem_singleton.mp he]

lemma Effect.consumed {s t : Process} {nonce : Bytes} {now : ℕ} {fresh : Bool}
    (h : Effect D s t [.consumed nonce now fresh]) :
    s.clock ≤ now ∧ fresh = (s.appState.nonceStore.consume nonce now).1 := by
  generalize hout : [VaultEvent.consumed nonce now fresh] = out at h
  cases h with
  | consume nonce' now' hnow =>
    cases hout
    exact ⟨hnow, rfl⟩
  | append pieces l => cases pieces <;> simp at hout
  | _ => cases hout

lemma Effect.issueCalled {s t : Process} {serviceName : String} {result : Except String Issued}
    (h : Effect D s t [.issueCalled serviceName result]) : ∃ now leafKey utcNow,
      result = D.issuer.issue D.rcgen serviceName s.serialCounter now leafKey utcNow := by
  generalize hout : [VaultEvent.issueCalled serviceName result] = out at h
  cases h with
  | issue serviceName' now leafKey utcNow =>
    cases hout
    exact ⟨now, leafKey, utcNow, rfl⟩
  | append pieces l => cases pieces <;> simp at hout
  | _ => cases hout

lemma Effect.listed {s t : Process} {serials : List String}
    (h : Effect D s t [.listed serials]) : serials = s.appState.revocationList := by
  generalize hout : [VaultEvent.listed serials] = out at h
  cases h with
  | list =>
    cases hout
    rfl
  | append pieces l => cases pieces <;> simp at hout
  | _ => cases hout

/-- An invariant of the process and the trace, from what effects and restarts preserve. -/
theorem vault_invariant {I : VaultTrace → Process → Prop} (h₀ : I [] (Process.new file clock))
    (hidle : ∀ tr s (e : VaultTraceEvent), e.Idle → I tr s → I (tr ++ [e]) s)
    (heffect : ∀ tr s i t evs, I tr s → Effect D s t evs → I (tr ++ evs.map (.did i)) t)
    (hrestart : ∀ tr s now, I tr s → I (tr ++ [.restarted]) (Process.new s.file now))
    {as : List VaultAction} {s : VaultSystem} {tr : VaultTrace}
    (h : (vault D).exec (start file clock) as = some (s, tr)) : I tr s.shared :=
  exec_shared h₀ hidle (fun tr s i _ _ t _ evs ih hr => heffect tr s i t evs ih (reply_effect hr))
    (fun tr s i _ _ t evs ih hc => heffect tr s i t evs ih (cancel_effect (i := i) hc))
    (fun tr s inp ih => hrestart tr s inp.instant ih) h

lemma caused_effect {s : VaultSystem} {i : ℕ} {e : VaultEvent} {r : Request} {b : VaultAction}
    {evs₁ : List VaultEvent} (h : Caused (vaultEnv D) s i e r b evs₁) :
    ∃ t evs₂, Effect D s.shared t (evs₁ ++ e :: evs₂) := by
  cases h with
  | poll inp o k sh rep evs₁ evs₂ hi hr => exact ⟨sh, evs₂, reply_effect hr⟩
  | drop inp o k sh evs₁ evs₂ hi hc => exact ⟨sh, evs₂, cancel_effect (i := i) hc⟩

/-- Where an event of a task came from, unless it is a write: the state and the effect of the
step that caused it, right after the trace before it. -/
theorem vault_did {as : List VaultAction} {s : VaultSystem} {l m : VaultTrace} {i : ℕ}
    {e : VaultEvent} (hne : ∀ piece, e ≠ .appended piece)
    (h : (vault D).exec (start file clock) as = some (s, l ++ .did i e :: m)) :
    ∃ as₁ s₁ t, (vault D).exec (start file clock) as₁ = some (s₁, l) ∧
      Effect D s₁.shared t [e] := by
  obtain ⟨as₁, b, as₂, s₁, tr₁, r, evs₁, -, h₁, hcaused, rfl⟩ := exec_did h
  obtain ⟨t, evs₂, heff⟩ := caused_effect hcaused
  have hone := heff.single (List.mem_append_right _ List.mem_cons_self) hne
  obtain ⟨rfl, -, rfl⟩ := split_singleton hone
  rw [List.map_nil, List.append_nil]
  exact ⟨as₁, s₁, t, h₁, heff⟩

/-- The part of the process that its events determine. -/
structure Ledger where
  serialCounter : UInt64
  revoked : Store String String
  file : List LogPiece

def Process.ledger (s : Process) : Ledger := ⟨s.serialCounter, s.appState.revoked, s.file⟩

def Ledger.record (g : Ledger) : VaultTraceEvent → Ledger
  | .did _ (.issueCalled _ _) => { g with serialCounter := g.serialCounter + 1 }
  | .did _ (.revoked serial reason) => { g with revoked := g.revoked.insert serial reason }
  | .did _ (.appended piece) => { g with file := g.file ++ [piece] }
  | .restarted => ⟨1, ∅, g.file⟩
  | _ => g

def Ledger.replay (g : Ledger) (tr : VaultTrace) : Ledger := tr.foldl Ledger.record g

@[simp] lemma Ledger.replay_nil (g : Ledger) : g.replay [] = g := rfl

@[simp] lemma Ledger.replay_append (g : Ledger) (l m : VaultTrace) :
    g.replay (l ++ m) = (g.replay l).replay m := List.foldl_append

@[simp] lemma Ledger.replay_cons (g : Ledger) (e : VaultTraceEvent) (l : VaultTrace) :
    g.replay (e :: l) = (g.record e).replay l := rfl

lemma Ledger.replay_appended (g : Ledger) (i : ℕ) (pieces : List LogPiece) :
    g.replay ((pieces.map .appended).map (.did i)) = { g with file := g.file ++ pieces } := by
  induction pieces generalizing g with
  | nil => simp
  | cons piece pieces ih =>
    simp only [List.map_cons, Ledger.replay_cons, Ledger.record, ih, List.append_assoc,
      List.singleton_append]

lemma Effect.ledger {s t : Process} {evs : List VaultEvent} (h : Effect D s t evs) (i : ℕ) :
    t.ledger = s.ledger.replay (evs.map (.did i)) := by
  cases h with
  | append pieces l => rw [Ledger.replay_appended]; rfl
  | _ => rfl

variable (file) in
def Ledger.initial : Ledger := ⟨1, ∅, file⟩

/-- The ledger of the vault is the replay of its trace. -/
theorem ledger_eq_replay {as : List VaultAction} {s : VaultSystem} {tr : VaultTrace}
    (h : (vault D).exec (start file clock) as = some (s, tr)) :
    s.shared.ledger = (Ledger.initial file).replay tr := by
  refine vault_invariant (D := D) (I := fun tr s => s.ledger = (Ledger.initial file).replay tr)
    rfl ?_ ?_ ?_ h
  · intro tr s e he ih
    rw [Ledger.replay_append, ← ih, Ledger.replay_cons, Ledger.replay_nil]
    cases e with
    | did i e => exact he.elim
    | restarted => exact he.elim
    | _ => rfl
  · intro tr s i t evs ih heff
    rw [Ledger.replay_append, ← ih]
    exact heff.ledger i
  · intro tr s now ih
    rw [Ledger.replay_append, ← ih]
    rfl

end SecureNet
