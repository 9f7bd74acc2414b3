import SecureNet.Outcomes

/-!
# The number of issued certificates

`GET /vault/health` reports the counter of `state.rs`. The handlers that issue certificates never
increment it.
-/

namespace SecureNet

open EventMachine Tasks

/-- The part of a trace that the current process has written. -/
def sinceStart (tr : VaultTrace) : VaultTrace :=
  (tr.reverse.takeWhile (fun e => !e.isRestart)).reverse

def issuerOf : Event Request Response VaultEvent → Option ℕ
  | .did i (.issueCalled _ (.ok _)) => some i
  | _ => none

/-- The requests for which the current process has issued a certificate, in their order. -/
def issuers (tr : VaultTrace) : List ℕ := (sinceStart tr).filterMap issuerOf

def endsTask (i : ℕ) : Event Request Response VaultEvent → Bool
  | .responded j _ => j == i
  | .dropped j => j == i
  | _ => false

def isFinished (tr : VaultTrace) (i : ℕ) : Bool := tr.any (endsTask i)

/-- A count of the issued certificates, which may leave out requests that are not finished. -/
structure CountAccurate (tr : VaultTrace) (count : UInt64) : Prop where
  no_more : count.toNat ≤ (issuers tr).length
  no_less : (issuers tr).length ≤ count.toNat + (issuers tr).countP (fun i => !isFinished tr i)

variable {D : Deployment} {file : List LogPiece} {clock : ℕ} {as : List VaultAction}
  {s : VaultSystem} {tr : VaultTrace}

lemma countAccurate_zero :
    CountAccurate tr 0 ↔ ∀ i ∈ issuers tr, isFinished tr i = false := by
  have hall : (issuers tr).length ≤ (issuers tr).countP (fun i => !isFinished tr i) ↔
      ∀ i ∈ issuers tr, isFinished tr i = false := by
    constructor
    · intro hle
      have heq := Nat.le_antisymm List.countP_le_length hle
      rw [List.countP_eq_length] at heq
      simpa using heq
    · intro hnone
      rw [List.countP_eq_length.mpr (by simpa using hnone)]
  rw [← hall]
  constructor
  · intro haccurate
    simpa using haccurate.no_less
  · intro hle
    exact ⟨by simp, by simpa using hle⟩

/-- No call of a handler writes the counter. -/
lemma reply_issued {s t : Process} {i : ℕ} {o : VaultOp} {inp : Input} {r : vaultSig.Reply o}
    {evs : List VaultEvent} (h : Process.reply D s i o inp = some (t, r, evs)) :
    t.appState.issued = s.appState.issued := by
  cases o <;> simp only [Process.reply] at h
  case registerNonce nonce | consumeNonce nonce | lockLog =>
    split at h
    · cases h
      rfl
    · cases h
  all_goals
    cases h
    rfl

lemma cancel_issued {s t : Process} {i : ℕ} {o : VaultOp} {inp : Input} {evs : List VaultEvent}
    (h : Process.cancel s i o inp = some (t, evs)) :
    t.appState.issued = s.appState.issued := by
  cases o <;> cases h <;> rfl

lemma issued_zero (h : (vault D).exec (start file clock) as = some (s, tr)) :
    s.shared.appState.issued = 0 := by
  refine exec_shared (I := fun _ s => s.appState.issued = 0) rfl ?_ ?_ ?_ ?_ h
  · intro tr s e _ ih
    exact ih
  · intro tr s i o inp t r evs ih hr
    rw [reply_issued hr, ih]
  · intro tr s i o inp t evs ih hc
    rw [cancel_issued (i := i) hc, ih]
  · intro tr s inp _
    rfl

/-- What a health request is answered with while the counter is 0. -/
def HealthZero : Request → List VaultEvent → Response → Prop
  | .getHealth, _, a => a = .json (healthBody 0)
  | _, _, _ => True

lemma handle_healthZero (r : Request) :
    Safe (vaultEnv D) (fun s _ _ => s.appState.issued = 0) (fun _ => True) (HealthZero r)
      (handle D r) [] := by
  cases r with
  | getHealth =>
    refine ⟨trivial, ?_, fun _ _ _ _ _ _ _ => trivial⟩
    intro s i inp t count evs hzero hr
    cases hr
    exact congrArg (fun n => Response.json (healthBody n)) hzero
  | _ => exact safe_true

/-- In every reachable state and at every answer of the health endpoint, the count is accurate
exactly if no request of this process that issued a certificate has finished. -/
theorem issued_count_iff (h : (vault D).exec (start file clock) as = some (s, tr)) :
    (CountAccurate tr s.shared.appState.issuedCount ↔
        ∀ i ∈ issuers tr, isFinished tr i = false) ∧
      ∀ l m i a, tr = l ++ .responded i a :: m → .arrived i .getHealth ∈ l →
        ∃ count, a = .json (healthBody count) ∧
          (CountAccurate l count ↔ ∀ j ∈ issuers l, isFinished l j = false) := by
  constructor
  · rw [AppState.issuedCount, issued_zero h]
    exact countAccurate_zero
  · rintro l m i a rfl harr
    obtain ⟨as₁, b, as₂, s₁, tr₁, r, sh, evs, -, -, -, hl, harr', -, hanswer⟩ :=
      exec_responded (Φ := fun _ _ => True) (Ψ := HealthZero) (fun _ => trivial)
        handle_healthZero h (meets_of_shared (fun _ _ _ hrun => issued_zero hrun) as)
    have hr : r = .getHealth :=
      arrived_unique h (List.mem_append_left _ (by rw [hl]; exact List.mem_append_left _ harr'))
        (List.mem_append_left _ harr)
    subst hr
    exact ⟨0, hanswer, countAccurate_zero⟩

section Sample

/-- The health endpoint is asked while the certificate of a service has been issued and its entry is
not yet in the log. -/
def healthBeforeLog : List VaultAction :=
  fetchNonce 0 ++ serve 1 2 (.postUnseal sampleRequest) ++ serve 2 1 .getHealth

/-- The health endpoint is asked after a service was unsealed. -/
def healthAfterUnseal : List VaultAction :=
  fetchNonce 0 ++ serve 1 8 (.postUnseal sampleRequest) ++ serve 2 1 .getHealth

end Sample

theorem issued_count_iff_beforeLog :
    ∃ s tr, (vault sampleDeployment).exec (start [] 0) healthBeforeLog = some (s, tr) ∧
      issuers tr = [1] ∧ CountAccurate tr s.shared.appState.issuedCount := by
  have hrun : ((vault sampleDeployment).exec (start [] 0) healthBeforeLog).any
      (fun p => decide (issuers p.2 = [1] ∧ isFinished p.2 1 = false)) = true := by
    decide +kernel
  obtain ⟨s, tr, h, htest⟩ := Machine.exec_any hrun
  obtain ⟨hissuers, hrunning⟩ := of_decide_eq_true htest
  refine ⟨s, tr, h, hissuers, (issued_count_iff h).1.mpr ?_⟩
  intro i hi
  rw [hissuers] at hi
  rw [List.mem_singleton.mp hi]
  exact hrunning

/-- One certificate was issued, its request was answered, and the endpoint reports 0. -/
theorem issued_count_misses :
    ∃ s tr, (vault sampleDeployment).exec (start [] 0) healthAfterUnseal = some (s, tr) ∧
      tr[9]? = some (.responded 2 (.json (healthBody 0))) ∧ issuers (tr.take 9) = [1] ∧
      isFinished (tr.take 9) 1 = true ∧ ¬CountAccurate (tr.take 9) 0 := by
  have hrun : ∃ s tr, (vault sampleDeployment).exec (start [] 0) healthAfterUnseal = some (s, tr) ∧
      tr[9]? = some (.responded 2 (.json (healthBody 0))) ∧ issuers (tr.take 9) = [1] ∧
      isFinished (tr.take 9) 1 = true :=
    ⟨_, _, rfl, rfl, rfl, rfl⟩
  obtain ⟨s, tr, h, hanswer, hissuers, hfinished⟩ := hrun
  refine ⟨s, tr, h, hanswer, hissuers, hfinished, ?_⟩
  intro haccurate
  have hrunning := countAccurate_zero.mp haccurate 1 (by rw [hissuers]; simp)
  rw [hfinished] at hrunning
  cases hrunning

end SecureNet
