import SecureNet.Library.Mutex
import SecureNet.VaultReplay

/-!
# Progress of the vault

Every append to the issuance log holds the log's mutex across three awaits, and a client that goes
away drops its request at any of them. The guard is released then, so the mutex always belongs to a
request that is still running, and no request waits for it for ever.
-/

namespace SecureNet

open EventMachine Tasks

variable {D : Deployment} {file : List LogPiece} {clock : ℕ}

/-- What an operation does to the mutex of the issuance log. -/
def logUse : VaultOp → LockUse
  | .lockLog => .acquire
  | .createDirAll _ => .inside
  | .openLog => .inside
  | .writeAll _ => .inside
  | .unlockLog => .release
  | _ => .outside

lemma vault_guards : Guards (vaultEnv D) Process.logLock logUse where
  acquire := by
    intro s i o inp t r evs huse hr
    cases o <;> simp only [logUse, reduceCtorEq] at huse
    case lockLog =>
      simp only [vaultEnv, Process.reply] at hr
      split at hr
      · next hfree =>
        cases hr
        exact ⟨hfree, rfl⟩
      · cases hr
  inside := by
    intro s i o inp t r evs huse hr
    cases o <;> simp only [logUse, reduceCtorEq] at huse <;> cases hr <;> rfl
  release := by
    intro s i o inp t r evs huse hr
    cases o <;> simp only [logUse, reduceCtorEq] at huse
    case unlockLog =>
      cases hr
      rfl
  outside := by
    intro s i o inp t r evs huse hr
    cases o <;> simp only [logUse, reduceCtorEq] at huse <;> simp only [vaultEnv, Process.reply] at hr
    case registerNonce nonce =>
      split at hr <;> cases hr
      rfl
    case consumeNonce nonce =>
      split at hr <;> cases hr
      rfl
    all_goals cases hr; rfl
  dropInside := by
    intro s i o inp t evs huse hc
    cases o <;> simp only [logUse, LockUse.after, ne_eq, not_true_eq_false] at huse <;> cases hc <;> rfl
  dropOutside := by
    intro s i o inp t evs huse hc
    cases o <;> simp only [logUse, LockUse.after, ne_eq, not_true_eq_false] at huse <;> cases hc <;> rfl
  restart := rfl

/-- Every operation but the taking of the mutex can always be served. -/
lemma vault_serves : Serves (vaultEnv D) Process.logLock logUse := by
  intro s i o hfree
  have hclock : s.clockOk { sampleInput s.clock with elapsedAt := fun _ => s.clock } = true := by
    simp [Process.clockOk, sampleInput]
  refine ⟨{ sampleInput s.clock with elapsedAt := fun _ => s.clock }, ?_⟩
  cases o with
  | registerNonce nonce => simp [vaultEnv, Process.reply, hclock]
  | consumeNonce nonce => simp [vaultEnv, Process.reply, hclock]
  | lockLog => simp [vaultEnv, Process.reply, hfree rfl]
  | _ => simp [vaultEnv, Process.reply]

instance : Inhabited Input := ⟨sampleInput 0⟩

section Handlers

/-- A program that leaves the mutex alone unless it takes and releases it, with at most `n` calls. -/
def Orderly {α : Type} (n : ℕ) (p : Vault α) : Prop := Bracketed logUse false false p ∧ AtMost n p

lemma Orderly.bind {α β : Type} {m n : ℕ} {p : Vault α} {f : α → Vault β} (hp : Orderly m p)
    (hf : ∀ a, Orderly n (f a)) : Orderly (m + n) (p >>= f) :=
  ⟨hp.1.bind fun a => (hf a).1, hp.2.bind fun a => (hf a).2⟩

lemma orderly_pure {α : Type} {n : ℕ} (a : α) : Orderly n (pure a : Vault α) := by
  refine ⟨rfl, ?_⟩
  cases n <;> trivial

lemma orderly_perform {o : VaultOp} (ho : logUse o = .outside) :
    Orderly 1 (Prog.perform (S := vaultSig) o) := by
  refine ⟨⟨false, ?_, fun _ => rfl⟩, fun _ => trivial⟩
  rw [ho]
  rfl

lemma append_orderly (entry : IssuanceLogEntry) : Orderly 5 (append D entry) := by
  have hunlock : Bracketed logUse false true (Prog.perform (S := vaultSig) .unlockLog) :=
    ⟨false, rfl, fun _ => rfl⟩
  have hwrite : ∀ opened : Bool, Bracketed logUse false true
      (if opened then do
        let _ ← Prog.perform (S := vaultSig) (.writeAll entry)
        Prog.perform (S := vaultSig) .unlockLog
      else Prog.perform (S := vaultSig) .unlockLog) := by
    intro opened
    cases opened with
    | false => exact hunlock
    | true => exact ⟨true, rfl, fun _ => hunlock⟩
  have hopen : ∀ made : Bool, Bracketed logUse false true
      (if made then do
        let opened : Bool ← Prog.perform (S := vaultSig) .openLog
        if opened then do
          let _ ← Prog.perform (S := vaultSig) (.writeAll entry)
          Prog.perform (S := vaultSig) .unlockLog
        else Prog.perform (S := vaultSig) .unlockLog
      else Prog.perform (S := vaultSig) .unlockLog) := by
    intro made
    cases made with
    | false => exact hunlock
    | true => exact ⟨true, rfl, hwrite⟩
  unfold append
  cases D.logParent with
  | none =>
    refine ⟨⟨true, rfl, fun _ => hopen true⟩, fun _ opened => ?_⟩
    cases opened
    · exact fun _ => trivial
    · exact fun _ _ => trivial
  | some parent =>
    refine ⟨⟨true, rfl, fun _ => ⟨true, rfl, hopen⟩⟩, fun _ made => ?_⟩
    cases made with
    | false => exact fun _ => trivial
    | true =>
      intro opened
      cases opened
      · exact fun _ => trivial
      · exact fun _ _ => trivial

lemma grant_orderly (req : UnsealRequest) : Orderly 7 (grant D req) := by
  refine (orderly_perform rfl).bind (n := 6) fun issued => ?_
  cases issued with
  | error e => exact orderly_pure _
  | ok bundle =>
    refine Orderly.bind (m := 6) (n := 0) ?_ fun _ => orderly_pure _
    exact (orderly_perform rfl).bind fun timestamp => append_orderly _

lemma recordRejection_orderly (serviceName machineId reason : String) :
    Orderly 7 (recordRejection D serviceName machineId reason) :=
  (orderly_perform rfl).bind (n := 6) fun _ => (orderly_perform rfl).bind fun _ => append_orderly _

lemma verify_orderly (req : UnsealRequest) : Orderly 1 (verify D req) := by
  unfold verify
  cases verifyRequest D req with
  | error e => exact orderly_pure _
  | ok nonceBytes =>
    refine (orderly_perform rfl).bind (n := 0) fun fresh => ?_
    cases fresh <;> exact orderly_pure _

/-- No handler makes more than eight calls, and each releases the mutex of the log that it takes. -/
theorem handle_orderly (r : Request) : Orderly 8 (handle D r) := by
  cases r with
  | getNonce =>
    have hfresh : Orderly 2 freshNonce :=
      (orderly_perform rfl).bind (n := 1) fun _ =>
        (orderly_perform rfl).bind (n := 0) fun _ => orderly_pure _
    exact hfresh.bind (n := 6) fun _ => orderly_pure _
  | postUnseal req =>
    refine (verify_orderly req).bind (n := 7) fun v => ?_
    cases v with
    | error e => exact (recordRejection_orderly _ _ _).bind (n := 0) fun _ => orderly_pure _
    | ok u => exact grant_orderly req
  | postRenew req =>
    refine (verify_orderly req).bind (n := 7) fun v => ?_
    cases v with
    | error e => exact orderly_pure _
    | ok u => exact grant_orderly req
  | postRevoke body =>
    simp only [handle, Routes.revoke]
    cases (body.get "serial").bind Value.asStr with
    | none => exact orderly_pure _
    | some serial => exact (orderly_perform rfl).bind (n := 7) fun _ => orderly_pure _
  | getCrl => exact (orderly_perform rfl).bind (n := 7) fun _ => orderly_pure _
  | getHealth => exact (orderly_perform rfl).bind (n := 7) fun _ => orderly_pure _

end Handlers

/-- The request stands between the locking and the unlocking of the log's mutex. -/
def InAppend (t : Task vaultSig Request Response) : Prop :=
  ∃ r o k, t = ⟨r, .running (.call o k)⟩ ∧ (logUse o = .inside ∨ logUse o = .release)

lemma holds_iff_inAppend {t : Task vaultSig Request Response} {held : Bool}
    (h : Holds logUse t held) : held = true ↔ InAppend t := by
  obtain ⟨r, st⟩ := t
  constructor
  · rintro rfl
    cases st with
    | running p =>
      cases p with
      | done a => cases h
      | call o k =>
        obtain ⟨next, hnext, -⟩ := h
        refine ⟨r, o, k, rfl, ?_⟩
        cases huse : logUse o <;> simp [huse, LockUse.after] at hnext <;> simp
    | _ => cases h
  · rintro ⟨r', o, k, heq, huse⟩
    cases heq
    obtain ⟨next, hnext, -⟩ := h
    cases held with
    | true => rfl
    | false => rcases huse with huse | huse <;> simp [huse, LockUse.after] at hnext

/-- In every reachable state the mutex of the log belongs to exactly the request that stands inside
an append, and polls alone, eight at most for each running request, bring all of them to their
answers. -/
theorem log_mutex_progress {as : List VaultAction} {s : VaultSystem} {tr : VaultTrace}
    (h : (vault D).exec (start file clock) as = some (s, tr)) :
    (∀ i, s.shared.logLock = some i ↔ ∃ t, s.tasks[i]? = some t ∧ InAppend t) ∧
      ∃ bs t tr', (vault D).exec s bs = some (t, tr') ∧
        bs.length ≤ 8 * s.tasks.countP Task.isRunning ∧ (∀ b ∈ bs, b.IsPoll) ∧
        t.tasks.length = s.tasks.length ∧
        ∀ (i : ℕ) u, s.tasks[i]? = some u → ∃ v, t.tasks[i]? = some v ∧ Finishes u v := by
  have hbracketed := fun r => (handle_orderly (D := D) r).1
  have hholding : Holding Process.logLock logUse s := exec_holding vault_guards hbracketed rfl h
  refine ⟨?_, drains vault_guards vault_serves hbracketed (by omega) hholding
    (exec_short (fun r => (handle_orderly r).2) h)⟩
  intro i
  obtain ⟨htasks, hrest⟩ := hholding
  constructor
  · intro hi
    have hlt : i < s.tasks.length := by
      by_contra hge
      exact hrest i (Nat.le_of_not_lt hge) hi
    have hget : s.tasks[i]? = some s.tasks[i] := List.getElem?_eq_getElem hlt
    obtain ⟨held, hheld, hiff⟩ := htasks i _ hget
    exact ⟨_, hget, (holds_iff_inAppend hheld).mp (hiff.mpr hi)⟩
  · rintro ⟨t, hget, hin⟩
    obtain ⟨held, hheld, hiff⟩ := htasks i _ hget
    exact hiff.mp ((holds_iff_inAppend hheld).mpr hin)

/-- An unseal has just been dropped inside its append while a second one waits for the mutex. -/
def contendedRun : List VaultAction :=
  fetchNonce 0 ++ serve 1 4 (.postUnseal sampleRequest) ++ serve 2 3 (.postUnseal sampleRequest) ++
    [.drop 1 (sampleInput 0)]

theorem log_mutex_progress_contended :
    ∃ s tr, (vault sampleDeployment).exec (start [] 0) contendedRun = some (s, tr) ∧
      s.shared.logLock = none ∧ ∃ bs t tr', (vault sampleDeployment).exec s bs = some (t, tr') ∧
        bs.length ≤ 8 ∧ ∃ r a, t.tasks[2]? = some ⟨r, .finished a⟩ := by
  have hrun : ((vault sampleDeployment).exec (start [] 0) contendedRun).any
      (fun p => decide (p.1.tasks.countP Task.isRunning = 1 ∧ p.1.shared.logLock = none) &&
        (p.1.tasks[2]?).any Task.isRunning) = true := by
    decide +kernel
  obtain ⟨s, tr, h, htest⟩ := Machine.exec_any hrun
  rw [Bool.and_eq_true, decide_eq_true_eq, Option.any_eq_true] at htest
  obtain ⟨⟨hcount, hfree⟩, ⟨r, st⟩, hget, hrunning⟩ := htest
  obtain ⟨-, bs, t, tr', hbs, hlen, -, -, hdone⟩ := log_mutex_progress h
  rw [hcount] at hlen
  obtain ⟨v, hv, hfinishes⟩ := hdone 2 _ hget
  refine ⟨s, tr, h, hfree, bs, t, tr', hbs, hlen, ?_⟩
  cases st with
  | running p =>
    obtain ⟨a, rfl⟩ := hfinishes
    exact ⟨r, a, hv⟩
  | _ => cases hrunning

end SecureNet
