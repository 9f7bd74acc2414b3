import SecureNet.Library.Purge
import SecureNet.GrantAudit
import SecureNet.NonceLedger
import SecureNet.Revocation
import SecureNet.VaultProgress

/-!
# Requests without power

A request that presents no outstanding nonce cannot reach what the vault does for others. It may hold
the mutex of the log for a while and write its rejection, and that is all: the run in which it is
never served gives everybody else the same certificates and the same answers.
-/

namespace SecureNet

open Hex (Bytes)
open EventMachine KeyedStore Tasks

variable {D : Deployment} {file : List LogPiece} {clock : ℕ} {as : List VaultAction}
  {s : VaultSystem} {tr l m : VaultTrace} {hidden : ℕ → Bool}

/-- The nonce was registered, and since then neither consumed nor forgotten in a restart. -/
def Outstanding (tr : VaultTrace) (nonce : Bytes) : Prop :=
  ∃ t, lastEffect (nonceEffect nonce) tr = some (some t)

/-- Requests that ask for no nonce and present none that is outstanding. Who may hide a revocation
may not look at the list. -/
structure Powerless (hidden : ℕ → Bool) (tr : VaultTrace) : Prop where
  nonce : ∀ i, hidden i = true → .arrived i .getNonce ∉ tr
  unpaid : ∀ l m i nonce t fresh, tr = l ++ .did i (.consumed nonce t fresh) :: m →
    hidden i = true → ¬Outstanding l nonce
  crl : ∀ i j body, hidden i = true → .arrived i (.postRevoke body) ∈ tr →
    .arrived j .getCrl ∈ tr → hidden j = true

section Events

/-- The only requests that have such an event. -/
def VaultEvent.By : VaultEvent → Request → Prop
  | .registered _ _, r => r = .getNonce
  | .revoked _ _, r => ∃ body, r = .postRevoke body
  | .listed _, r => r = .getCrl
  | _, _ => True

lemma Outcome.by {works : Prop} {r : Request} {h : List VaultEvent} {a : Response}
    (ho : Outcome D works r h a) {e : VaultEvent} (he : e ∈ h) : e.By r := by
  have hverified : ∀ {req pre v}, Verified D req pre v → e ∈ pre → e.By r := by
    intro req pre v hv he
    obtain ⟨nonce, t, fresh, rfl⟩ := hv.consumed he
    trivial
  have hlogged : ∀ {entry log}, Logged works entry log → e ∈ log → e.By r := by
    intro entry log hl he
    rcases hl.appended he with rfl | ⟨n, rfl⟩ <;> trivial
  cases ho with
  | nonce nonce t =>
    rw [List.mem_singleton.mp he]
    rfl
  | unsealRefused req e' pre log entry hv _ hl =>
    rcases List.mem_append.mp he with he | he
    · exact hverified hv he
    · exact hlogged hl he
  | renewRefused req e' _ hv => exact hverified hv he
  | issueFailed r req e' pre hr hv =>
    rcases List.mem_append.mp he with he | he
    · exact hverified hv he
    · rw [List.mem_singleton.mp he]
      trivial
  | granted r req c pre log entry hr hv _ hl =>
    rcases List.mem_append.mp he with he | he
    · exact hverified hv he
    · rcases List.mem_cons.mp he with rfl | he
      · trivial
      · exact hlogged hl he
  | revokeRefused body _ => cases he
  | revoked body serial _ =>
    rw [List.mem_singleton.mp he]
    exact ⟨body, rfl⟩
  | crl serials =>
    rw [List.mem_singleton.mp he]
    rfl
  | health issued => cases he

lemma did_by (h : (vault D).exec (start file clock) as = some (s, tr)) {i : ℕ} {e : VaultEvent}
    (he : .did i e ∈ tr) : ∃ r, .arrived i r ∈ tr ∧ e.By r := by
  obtain ⟨r, hr, rest, a, ho⟩ := run_history h he
  exact ⟨r, hr, ho.by (List.mem_append_left _ (mem_history.mpr he))⟩

lemma accepted_outstanding {i : ℕ} {nonce : Bytes} {t : ℕ}
    (h : (vault D).exec (start file clock) as =
      some (s, l ++ .did i (.consumed nonce t true) :: m)) : Outstanding l nonce := by
  obtain ⟨as₁, s₁, t', h₁, heff⟩ := vault_did (fun _ => by simp) h
  obtain ⟨t₀, hlook, -⟩ := NonceStore.consume_accepts.mp heff.consumed.2.symm
  exact ⟨t₀, (lookup_lastEffect h₁ hlook).1⟩

lemma consume_absent {store : NonceStore} {nonce : Bytes} (h : store.lookup nonce = none)
    (now : ℕ) : (store.consume nonce now).2 = store := by
  have hkeys : nonce ∉ store := AList.lookup_eq_none.mp h
  apply AList.ext
  exact List.kerase_of_notMem_keys hkeys

/-- A certificate is issued for an outstanding nonce. -/
lemma issued_outstanding (h : (vault D).exec (start file clock) as = some (s, tr)) {i : ℕ}
    {serviceName : String} {result : Except String Issued}
    (hissued : .did i (.issueCalled serviceName result) ∈ tr) :
    ∃ l m nonce t, tr = l ++ .did i (.consumed nonce t true) :: m ∧ Outstanding l nonce := by
  obtain ⟨l, m, rfl⟩ := List.append_of_mem hissued
  obtain ⟨r, req, -, -, -, hverified, -⟩ := run_issuance h
  obtain ⟨nonce, t, -, -, hhistory⟩ := hverified.accepted rfl
  have hconsumed : .did i (.consumed nonce t true) ∈ l := mem_history.mp (by simp [hhistory])
  obtain ⟨l₁, l₂, rfl⟩ := List.append_of_mem hconsumed
  rw [List.append_assoc, List.cons_append] at h ⊢
  exact ⟨l₁, _, nonce, t, rfl, accepted_outstanding h⟩

end Events

section Processes

variable (hidden) in
/-- What the visible requests can tell of the process. The list of revocations counts if one of them
may look at it. -/
structure SameTo (listed : Prop) (s x : Process) : Prop where
  store : x.appState.nonceStore = s.appState.nonceStore
  issued : x.appState.issued = s.appState.issued
  serial : x.serialCounter = s.serialCounter
  lock : x.logLock = s.logLock.filter (fun i => !hidden i)
  clock : x.clock ≤ s.clock
  revoked : listed → x.appState.revoked = s.appState.revoked

/-- The part of `Powerless` that a prefix of the trace inherits. -/
structure Harmless (hidden : ℕ → Bool) (listed : Prop) (tr : VaultTrace) : Prop where
  nonce : ∀ i, hidden i = true → .arrived i .getNonce ∉ tr
  unpaid : ∀ l m i nonce t fresh, tr = l ++ .did i (.consumed nonce t fresh) :: m →
    hidden i = true → ¬Outstanding l nonce
  revoke : listed → ∀ i body, hidden i = true → .arrived i (.postRevoke body) ∉ tr
  crl : ∀ j, hidden j = false → .arrived j .getCrl ∈ tr → listed

variable {listed : Prop} {sh x : Process}

lemma filter_lock {i : ℕ} (hi : hidden i = true) {s t : Process}
    (h : OnlyMoves Process.logLock i s t) :
    t.logLock.filter (fun i => !hidden i) = s.logLock.filter (fun i => !hidden i) := by
  apply Option.ext
  intro j
  rw [Option.filter_eq_some_iff, Option.filter_eq_some_iff]
  by_cases hj : j = i
  · simp [hj, hi]
  · rw [h j hj]

lemma SameTo.clockOk (h : SameTo hidden listed sh x) {inp : Input} (hok : sh.clockOk inp = true) :
    x.clockOk inp = true := by
  have hclock := h.clock
  simp only [Process.clockOk, h.store, Bool.and_eq_true, decide_eq_true_eq, List.all_eq_true] at hok ⊢
  refine ⟨by omega, ?_⟩
  intro n hn
  have hread := hok.2 n hn
  omega

lemma step_effect {t : VaultSystem} {a : VaultAction} {i : ℕ} {evs : VaultTrace}
    (hs : Step (vaultEnv D) (handle D) s a t evs) (ha : a.served = some i) :
    ∃ own rest, Effect D s.shared t.shared own ∧ evs = own.map (.did i) ++ rest := by
  cases hs with
  | arrive r => cases ha
  | restart inp => cases ha
  | respond j inp r b hj => exact ⟨[], _, .lock _, rfl⟩
  | perform j inp r o k sh rep evs hj hr =>
    cases ha
    exact ⟨evs, _, reply_effect hr, rfl⟩
  | drop j inp r o k sh evs hj hc =>
    cases ha
    exact ⟨evs, _, cancel_effect (i := i) hc, rfl⟩

/-- A hidden task does nothing that the others could tell. -/
lemma SameTo.hide {t : VaultSystem} {a : VaultAction} {i : ℕ} {evs : VaultTrace}
    (h : (vault D).exec (start file clock) as = some (s, tr)) (ha : a.served = some i)
    (hi : hidden i = true) (hs : (vault D).step s a = some (t, evs))
    (hharm : Harmless hidden listed (tr ++ evs)) (hsame : SameTo hidden listed s.shared x) :
    SameTo hidden listed t.shared x := by
  have hrun : (vault D).exec (start file clock) (as ++ [a]) = some (t, tr ++ evs) :=
    Machine.exec_snoc.mpr ⟨s, tr, evs, h, hs, rfl⟩
  have hlock : t.shared.logLock.filter (fun i => !hidden i) = x.logLock := by
    rw [hsame.lock]
    have hholding := exec_holding vault_guards (fun r => (handle_orderly r).1) rfl h
    exact filter_lock hi (hholding.onlyMoves vault_guards (step_cases hs) ha)
  obtain ⟨own, rest, heff, rfl⟩ := step_effect (step_cases hs) ha
  have hby : ∀ e ∈ own, ∃ r, .arrived i r ∈ tr ++ (own.map (.did i) ++ rest) ∧ e.By r := by
    intro e he
    exact did_by hrun (by simp [he])
  generalize t.shared = u at hlock heff ⊢
  cases heff with
  | lock l => exact ⟨hsame.store, hsame.issued, hsame.serial, hlock.symm, hsame.clock, hsame.revoked⟩
  | append pieces l =>
    exact ⟨hsame.store, hsame.issued, hsame.serial, hlock.symm, hsame.clock, hsame.revoked⟩
  | list => exact hsame
  | register nonce elapsedAt now hnow =>
    obtain ⟨r, hr, rfl⟩ := hby _ (List.mem_singleton_self _)
    exact absurd hr (hharm.nonce i hi)
  | consume nonce now hnow =>
    have habsent : s.shared.appState.nonceStore.lookup nonce = none := by
      apply Option.eq_none_iff_forall_ne_some.mpr
      intro t₀ hlook
      exact hharm.unpaid tr _ i nonce now _ rfl hi ⟨t₀, (lookup_lastEffect h hlook).1⟩
    have hstore := consume_absent habsent now
    exact ⟨by rw [hstore]; exact hsame.store, hsame.issued, hsame.serial, hlock.symm,
      Nat.le_trans hsame.clock hnow, hsame.revoked⟩
  | issue serviceName now leafKey utcNow =>
    obtain ⟨l, m, nonce, t, hsplit, hout⟩ := issued_outstanding hrun
      (List.mem_append_right tr (List.mem_append_left rest List.mem_cons_self))
    exact absurd hout (hharm.unpaid l m i nonce t true hsplit hi)
  | revoke serial reason =>
    obtain ⟨r, hr, body, rfl⟩ := hby _ (List.mem_singleton_self _)
    exact ⟨hsame.store, hsame.issued, hsame.serial, hlock.symm, hsame.clock,
      fun hlisted => absurd hr (hharm.revoke hlisted i body hi)⟩

/-- A visible task is served as before. Only a look at the list of revocations needs them. -/
lemma SameTo.reply {s t x : Process} {i : ℕ} {o : VaultOp} {inp : Input} {r : vaultSig.Reply o}
    {evs : List VaultEvent} (hi : hidden i = false) (hsame : SameTo hidden listed s x)
    (hlisted : ∀ serials, .listed serials ∈ evs → listed)
    (hr : Process.reply D s i o inp = some (t, r, evs)) :
    ∃ y, Process.reply D x i o inp = some (y, r, evs) ∧ SameTo hidden listed t y := by
  have hclock : s.clockOk inp = true → x.clockOk inp = true := hsame.clockOk
  cases o <;> simp only [Process.reply] at hr ⊢
  case registerNonce nonce =>
    split at hr
    · next hok =>
      cases hr
      rw [if_pos (hclock hok), hsame.store]
      exact ⟨_, rfl, rfl, hsame.issued, hsame.serial, hsame.lock, Nat.le_refl _, hsame.revoked⟩
    · cases hr
  case consumeNonce nonce =>
    split at hr
    · next hok =>
      cases hr
      rw [if_pos (hclock hok), hsame.store]
      exact ⟨_, rfl, rfl, hsame.issued, hsame.serial, hsame.lock, Nat.le_refl _, hsame.revoked⟩
    · cases hr
  case lockLog =>
    split at hr
    · next hfree =>
      cases hr
      have hxfree : x.logLock = none := by rw [hsame.lock, hfree, Option.filter_none]
      rw [hxfree]
      refine ⟨_, rfl, hsame.store, hsame.issued, hsame.serial, ?_, hsame.clock, hsame.revoked⟩
      change some i = (some i).filter (fun i => !hidden i)
      simp [Option.filter, hi]
    · cases hr
  case issue serviceName =>
    cases hr
    rw [hsame.serial]
    exact ⟨_, rfl, hsame.store, hsame.issued, rfl, hsame.lock, hsame.clock, hsame.revoked⟩
  case writeAll entry =>
    cases hr
    exact ⟨_, rfl, hsame.store, hsame.issued, hsame.serial, hsame.lock, hsame.clock, hsame.revoked⟩
  case unlockLog =>
    cases hr
    exact ⟨_, rfl, hsame.store, hsame.issued, hsame.serial, rfl, hsame.clock, hsame.revoked⟩
  case revokeCert serial reason =>
    cases hr
    refine ⟨_, rfl, hsame.store, hsame.issued, hsame.serial, hsame.lock, hsame.clock, ?_⟩
    intro hlisted
    simp only [AppState.revokeCert, hsame.revoked hlisted]
  case revocationList =>
    cases hr
    have hlist : x.appState.revocationList = s.appState.revocationList := by
      rw [AppState.revocationList, hsame.revoked (hlisted _ (List.mem_singleton_self _))]
      rfl
    rw [hlist]
    exact ⟨_, rfl, hsame⟩
  case issuedCount =>
    cases hr
    have hcount : x.appState.issuedCount = s.appState.issuedCount := hsame.issued
    rw [hcount]
    exact ⟨_, rfl, hsame⟩
  all_goals
    cases hr
    exact ⟨_, rfl, hsame⟩

lemma SameTo.cancel {s t x : Process} {i : ℕ} {o : VaultOp} {inp : Input} {evs : List VaultEvent}
    (hsame : SameTo hidden listed s x) (hc : Process.cancel s i o inp = some (t, evs)) :
    ∃ y, Process.cancel x i o inp = some (y, evs) ∧ SameTo hidden listed t y := by
  have hunlocked : ∀ files files', SameTo hidden listed { s with file := files, logLock := none }
      { x with file := files', logLock := none } := fun _ _ =>
    ⟨hsame.store, hsame.issued, hsame.serial, rfl, hsame.clock, hsame.revoked⟩
  cases o <;> simp only [Process.cancel] at hc ⊢ <;> cases hc
  case createDirAll path => exact ⟨_, rfl, hunlocked _ _⟩
  case openLog => exact ⟨_, rfl, hunlocked _ _⟩
  case writeAll entry => exact ⟨_, rfl, hunlocked _ _⟩
  all_goals exact ⟨_, rfl, hsame⟩

lemma Harmless.append_left (h : Harmless hidden listed (l ++ m)) : Harmless hidden listed l where
  nonce i hi hmem := h.nonce i hi (List.mem_append_left m hmem)
  unpaid := by
    intro l₁ l₂ i nonce t fresh hsplit
    refine h.unpaid l₁ (l₂ ++ m) i nonce t fresh ?_
    rw [hsplit, List.append_assoc, List.cons_append]
  revoke hlisted i body hi hmem := h.revoke hlisted i body hi (List.mem_append_left m hmem)
  crl j hj hmem := h.crl j hj (List.mem_append_left m hmem)

lemma vault_unnoticed : Unnoticed (vaultEnv D) (handle D) hidden (SameTo hidden listed)
    (Harmless hidden listed) (Process.new file clock) where
  hide h ha hi hs hharm hsame := hsame.hide h ha hi hs hharm
  reply := by
    intro as s t tr out i inp o sh x rep evs h hs hi hr hsub hharm hsame
    refine hsame.reply hi ?_ hr
    intro serials hmem
    have hrun : (vault D).exec (start file clock) (as ++ [.poll i inp]) = some (t, tr ++ out) :=
      Machine.exec_snoc.mpr ⟨s, tr, out, h, hs, rfl⟩
    have hlist : .did i (.listed serials) ∈ tr ++ out :=
      List.mem_append_right tr (hsub (List.mem_map_of_mem hmem))
    obtain ⟨r, hr, rfl⟩ := did_by hrun hlist
    exact hharm.crl i hi hr
  cancel := by
    intro s x t i o inp evs _ hc hsame
    exact hsame.cancel (i := i) hc
  restart _ _ := ⟨rfl, rfl, rfl, rfl, Nat.le_refl _, fun _ => rfl⟩

end Processes

/-- The vault without the powerless requests: everybody else has the same events and the same answers,
the outstanding nonces and the next serial are the same, and the log has the entries of the others. -/
theorem powerless_unnoticed (h : (vault D).exec (start file clock) as = some (s, tr))
    (hpower : Powerless hidden tr) :
    ∃ x, (vault D).exec (start file clock) (unserved hidden as) = some (x, purged hidden tr) ∧
      x.shared.appState.nonceStore = s.shared.appState.nonceStore ∧
      x.shared.serialCounter = s.shared.serialCounter ∧
      x.shared.file = file ++ appended (purged hidden tr) ∧
      ∀ i, hidden i = false → x.tasks[i]? = s.tasks[i]? := by
  have hharm : Harmless hidden (∃ j, hidden j = false ∧ .arrived j .getCrl ∈ tr) tr := by
    refine ⟨hpower.nonce, hpower.unpaid, ?_, fun j hj hcrl => ⟨j, hj, hcrl⟩⟩
    rintro ⟨j, hj, hcrl⟩ i body hi hrevoke
    rw [hpower.crl i j body hi hrevoke hcrl] at hj
    cases hj
  have hnew : SameTo hidden (∃ j, hidden j = false ∧ .arrived j .getCrl ∈ tr)
      (Process.new file clock) (Process.new file clock) :=
    ⟨rfl, rfl, rfl, rfl, Nat.le_refl _, fun _ => rfl⟩
  obtain ⟨x, hx, halike⟩ :=
    exec_unserved vault_unnoticed (fun _ _ hl => hl.append_left) hnew h hharm
  exact ⟨x, hx, halike.shared.store, halike.shared.serial, file_eq_appended hx, halike.visible⟩

section Sample

/-- The conditions of `Powerless`, event by event. -/
def checkPowerless (hidden : ℕ → Bool) (tr : VaultTrace) : Bool :=
  tr.all (fun
    | .arrived i .getNonce => !hidden i
    | .arrived i (.postRevoke _) => !hidden i || tr.all (fun
      | .arrived j .getCrl => hidden j
      | _ => true)
    | _ => true) &&
  (List.range tr.length).all (fun q =>
    match tr[q]? with
    | some (.did i (.consumed nonce _ _)) =>
      !hidden i || (lastEffect (nonceEffect nonce) (tr.take q)).all Option.isNone
    | _ => true)

lemma powerless_of_check (h : checkPowerless hidden tr = true) : Powerless hidden tr := by
  rw [checkPowerless, Bool.and_eq_true, List.all_eq_true, List.all_eq_true] at h
  obtain ⟨hevents, hconsumed⟩ := h
  constructor
  · intro i hi hmem
    have hevent := hevents _ hmem
    simp [hi] at hevent
  · rintro l m i nonce t fresh rfl hi ⟨t₀, hlast⟩
    have hplace := hconsumed l.length (by simp)
    simp [hi, hlast] at hplace
  · intro i j body hi hrevoke hcrl
    have hevent := hevents _ hrevoke
    simp only [hi, Bool.not_true, Bool.false_or, List.all_eq_true] at hevent
    exact hevent _ hcrl

/-- Two requests come with the same nonce. The one that is refused holds the mutex of the log while
the certificate is issued to the other, after somebody has revoked the serial of that certificate. -/
def replayedRun : List VaultAction :=
  fetchNonce 0 ++ serve 1 1 (.postRevoke (revokeBody "01")) ++
    [.arrive (.postUnseal sampleRequest), .arrive (.postUnseal sampleRequest)] ++
    List.replicate 1 (.poll 2 (sampleInput 0)) ++ List.replicate 4 (.poll 3 (sampleInput 0)) ++
    List.replicate 2 (.poll 2 (sampleInput 0)) ++ List.replicate 4 (.poll 3 (sampleInput 0)) ++
    List.replicate 5 (.poll 2 (sampleInput 0))

def replayedHidden (i : ℕ) : Bool := i == 1 || i == 3

def isGranted (t : Task vaultSig Request Response) : Bool :=
  match t.status with
  | .finished (.unsealed _) => true
  | _ => false

def isReplayed (p : VaultSystem × VaultTrace) : Bool :=
  checkPowerless replayedHidden p.2 && decide (p.1.shared.file.length = 2) &&
    decide ((appended (purged replayedHidden p.2)).length = 1) && (p.1.tasks[2]?).any isGranted

theorem powerless_unnoticed_replay :
    ∃ s tr x t, (vault sampleDeployment).exec (start [] 0) replayedRun = some (s, tr) ∧
      (vault sampleDeployment).exec (start [] 0) (unserved replayedHidden replayedRun) =
        some (x, purged replayedHidden tr) ∧
      s.shared.file.length = 2 ∧ x.shared.file.length = 1 ∧ x.tasks[2]? = some t ∧
      isGranted t = true := by
  have hrun : ((vault sampleDeployment).exec (start [] 0) replayedRun).any isReplayed = true := by
    decide +kernel
  obtain ⟨s, tr, h, htest⟩ := Machine.exec_any hrun
  simp only [isReplayed, Bool.and_eq_true, decide_eq_true_eq, Option.any_eq_true] at htest
  obtain ⟨⟨⟨hpower, hfile⟩, hothers⟩, t, ht, hgranted⟩ := htest
  obtain ⟨x, hx, -, -, hxfile, hvisible⟩ := powerless_unnoticed h (powerless_of_check hpower)
  refine ⟨s, tr, x, t, h, hx, hfile, ?_, (hvisible 2 rfl).trans ht, hgranted⟩
  rw [hxfile, List.nil_append]
  exact hothers

end Sample

end SecureNet
