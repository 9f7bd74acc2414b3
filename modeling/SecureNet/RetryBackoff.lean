import SecureNet.RotationSchedule
import SecureNet.RotationTask

/-!
# The back-off of a renewal

`retry_renew` of `shared/src/rotation.rs` for any number of attempts: its calls and its sleeps in
their order, and the overflow of its delay.
-/

namespace SecureNet

open Tasks Tasks.Prog

/-- `delay *= 2`, which panics if the seconds no longer fit into 64 bits. -/
def doubled (delay : ℕ) : Option ℕ :=
  if delay * 2 < seconds (2 ^ 64) then some (delay * 2) else none

namespace RotationTask

variable (serviceName : String)

/-- `RotationTask.retryLoop` with the panic of the delay, which is the answer `none`. -/
def checkedLoop (maxAttempts : ℕ) : ℕ → ℕ → ℕ → TlsTask (Option (Except AppError CertBundle))
  | 0, _, _ =>
    return some (.error (.vaultUnreachable
      ("cert renewal failed after " ++ toString maxAttempts ++ " attempts")))
  | remaining + 1, attempt, delay => do
    let renewed : Except AppError CertBundle ← perform (S := tlsSig) (.renew serviceName)
    match renewed with
    | .ok bundle => return some (.ok bundle)
    | .error _ =>
      if attempt < maxAttempts then
        let _ ← perform (S := tlsSig) (.sleep delay)
        match doubled delay with
        | some delay => checkedLoop maxAttempts remaining (attempt + 1) delay
        | none => return none
      else checkedLoop maxAttempts remaining (attempt + 1) delay

def checkedRenew (maxAttempts : ℕ) : TlsTask (Option (Except AppError CertBundle)) :=
  checkedLoop serviceName maxAttempts maxAttempts 1 (seconds 2)

end RotationTask

section Schedule

/-- `n` calls from the given attempt on. Attempt `i` is followed by a sleep of `2 ^ i` seconds, if
it is not the last one. -/
def backoff (serviceName : String) (attempt : ℕ) : ℕ → List TlsOp
  | 0 => []
  | 1 => [.renew serviceName]
  | n + 2 => .renew serviceName :: .sleep (seconds (2 ^ attempt)) ::
      backoff serviceName (attempt + 1) (n + 1)

def TlsOp.isRenew : TlsOp → Bool
  | .renew _ => true
  | _ => false

def TlsOp.sleepNanos : TlsOp → ℕ
  | .sleep nanos => nanos
  | _ => 0

def totalSleep (ops : List TlsOp) : ℕ := (ops.map TlsOp.sleepNanos).sum

variable (serviceName : String)

lemma backoff_calls (attempt n : ℕ) :
    (backoff serviceName attempt n).countP TlsOp.isRenew = n := by
  fun_induction backoff serviceName attempt n with
  | case1 => rfl
  | case2 => rfl
  | case3 attempt n ih => simp [List.countP_cons, TlsOp.isRenew, ih]

lemma seconds_pow_succ (n : ℕ) : seconds (2 ^ (n + 1)) = seconds (2 ^ n) + seconds (2 ^ n) := by
  rw [Nat.pow_succ, Nat.mul_two]
  exact Nat.add_mul _ _ _

lemma totalSleep_cons (op : TlsOp) (ops : List TlsOp) :
    totalSleep (op :: ops) = op.sleepNanos + totalSleep ops := by
  rw [totalSleep, List.map_cons, List.sum_cons]
  rfl

lemma backoff_sleep (attempt n : ℕ) :
    totalSleep (backoff serviceName attempt (n + 1)) + seconds (2 ^ attempt) =
      seconds (2 ^ (attempt + n)) := by
  induction n generalizing attempt with
  | zero => rw [Nat.add_zero]; exact Nat.zero_add _
  | succ n ih =>
    have hrest := ih (attempt + 1)
    have hdouble := seconds_pow_succ attempt
    rw [backoff, totalSleep_cons, totalSleep_cons, ← Nat.add_assoc attempt n 1,
      Nat.add_right_comm attempt n 1, ← hrest, hdouble]
    simp only [TlsOp.sleepNanos]
    omega

lemma totalSleep_backoff {j : ℕ} (hj : 1 ≤ j) :
    totalSleep (backoff serviceName 1 j) = seconds (2 ^ j - 2) := by
  obtain ⟨n, rfl⟩ : ∃ n, j = n + 1 := ⟨j - 1, by omega⟩
  have hsleep := backoff_sleep serviceName 1 n
  have hpos : seconds (2 ^ (n + 1) - 2) = seconds (2 ^ (n + 1)) - seconds 2 := Nat.sub_mul _ _ _
  rw [Nat.add_comm 1 n] at hsleep
  rw [hpos, ← hsleep]
  exact (Nat.add_sub_cancel _ _).symm

end Schedule

section Outcomes

/-- Attempt `k` is the first one from `first` on that succeeds. -/
structure FirstSuccess (calls : ℕ → RenewCall) (first k : ℕ) (bundle : CertBundle) : Prop where
  from_first : first ≤ k
  here : (calls k).result = .ok bundle
  before : ∀ i, first ≤ i → i < k → ∃ e, (calls i).result = .error e

def unreachable (maxAttempts : ℕ) : AppError :=
  .vaultUnreachable ("cert renewal failed after " ++ toString maxAttempts ++ " attempts")

variable {calls : ℕ → RenewCall}

lemma attemptsFrom_error {attempt : ℕ} {e : AppError} (he : (calls attempt).result = .error e)
    (remaining : ℕ) : attemptsFrom calls (remaining + 1) attempt =
      attemptsFrom calls remaining (attempt + 1) + 1 := by
  rw [attemptsFrom, he]

lemma retryLoop_error (maxAttempts : ℕ) {attempt : ℕ} {e : AppError}
    (he : (calls attempt).result = .error e) (remaining delay : ℕ) : ∃ delay',
    (retryLoop calls maxAttempts (remaining + 1) attempt delay).1 =
      (retryLoop calls maxAttempts remaining (attempt + 1) delay').1 := by
  rw [retryLoop, he]
  by_cases hlt : attempt < maxAttempts
  · exact ⟨delay * 2, by rw [if_pos hlt]⟩
  · exact ⟨delay, by rw [if_neg hlt]⟩

lemma retryLoop_success {first k : ℕ} {bundle : CertBundle}
    (h : FirstSuccess calls first k bundle) (maxAttempts remaining delay : ℕ) :
    attemptsFrom calls remaining first = min (k + 1 - first) remaining ∧
      (retryLoop calls maxAttempts remaining first delay).1 =
        if k < first + remaining then .ok bundle else .error (unreachable maxAttempts) := by
  induction remaining generalizing first delay with
  | zero =>
    have hlater : ¬k < first + 0 := Nat.not_lt.mpr h.from_first
    rw [if_neg hlater, Nat.min_zero]
    exact ⟨rfl, rfl⟩
  | succ remaining ih =>
    by_cases hk : k = first
    · subst hk
      have hnow : k < k + (remaining + 1) := by omega
      rw [attemptsFrom, retryLoop, h.here, if_pos hnow]
      refine ⟨?_, rfl⟩
      simp only
      omega
    · have hfirst := h.from_first
      obtain ⟨e, he⟩ := h.before first (Nat.le_refl _) (by omega)
      obtain ⟨delay', hdelay⟩ := retryLoop_error maxAttempts he remaining delay
      have hnext : FirstSuccess calls (first + 1) k bundle :=
        ⟨by omega, h.here, fun i hi hik => h.before i (by omega) hik⟩
      obtain ⟨hcount, hresult⟩ := ih hnext delay'
      rw [attemptsFrom_error he, hcount, hdelay, hresult, Nat.add_right_comm first 1 remaining]
      exact ⟨by omega, rfl⟩

lemma retryLoop_failure {attempt remaining : ℕ}
    (h : ∀ i, attempt ≤ i → i < attempt + remaining → ∃ e, (calls i).result = .error e)
    (maxAttempts delay : ℕ) : attemptsFrom calls remaining attempt = remaining ∧
      (retryLoop calls maxAttempts remaining attempt delay).1 = .error (unreachable maxAttempts) := by
  induction remaining generalizing attempt delay with
  | zero => exact ⟨rfl, rfl⟩
  | succ remaining ih =>
    obtain ⟨e, he⟩ := h attempt (Nat.le_refl _) (by omega)
    obtain ⟨delay', hdelay⟩ := retryLoop_error maxAttempts he remaining delay
    have hlater : ∀ i, attempt + 1 ≤ i → i < attempt + 1 + remaining →
        ∃ e, (calls i).result = .error e := fun i hi hir => h i (by omega) (by omega)
    obtain ⟨hcount, hresult⟩ := ih hlater delay'
    rw [attemptsFrom_error he, hcount, hdelay, hresult]
    exact ⟨rfl, rfl⟩

end Outcomes

section Runs

variable (serviceName : String) {maxAttempts : ℕ}

lemma double_delay {delay n : ℕ} (hdelay : delay = seconds (2 ^ n)) :
    delay * 2 = seconds (2 ^ (n + 1)) := by
  rw [Nat.mul_two, hdelay, seconds_pow_succ]

lemma doubled_delay {delay n : ℕ} (hdelay : delay = seconds (2 ^ n)) (h : n < 63) :
    doubled delay = some (delay * 2) := by
  have hpow : 2 ^ (n + 1) < 2 ^ 64 := Nat.pow_lt_pow_right (by decide) (by omega)
  have hlt : seconds (2 ^ (n + 1)) < seconds (2 ^ 64) := Nat.mul_lt_mul_of_pos_right hpow (by decide)
  rw [← double_delay hdelay] at hlt
  rw [doubled, if_pos hlt]

lemma call_congr {α : Type} {o : TlsOp} {f g : tlsSig.Reply o → TlsTask α} (h : ∀ r, f r = g r) :
    Prog.call (S := tlsSig) o f = Prog.call (S := tlsSig) o g := congrArg _ (funext h)

/-- The delay is `2 ^ attempt` seconds at the head of the loop and is never more than `2 ^ 62`. -/
lemma checkedLoop_eq (hmax : maxAttempts ≤ 62) {remaining attempt delay : ℕ}
    (h : attempt + remaining = maxAttempts + 1) (hdelay : delay = seconds (2 ^ attempt)) :
    RotationTask.checkedLoop serviceName maxAttempts remaining attempt delay =
      RotationTask.retryLoop serviceName maxAttempts remaining attempt delay >>=
        fun result => pure (some result) := by
  induction remaining generalizing attempt delay with
  | zero => rfl
  | succ remaining ih =>
    unfold RotationTask.checkedLoop RotationTask.retryLoop
    apply call_congr (o := TlsOp.renew serviceName)
    intro renewed
    cases renewed with
    | ok bundle => rfl
    | error e =>
      by_cases hlt : attempt < maxAttempts
      · have hleft : attempt + 1 + remaining = maxAttempts + 1 := by omega
        have hnext := ih hleft (double_delay hdelay)
        simp only [hlt, ↓reduceIte]
        apply call_congr (o := TlsOp.sleep delay)
        intro slept
        rw [doubled_delay hdelay (by omega)]
        exact hnext
      · obtain rfl : remaining = 0 := by omega
        simp only [hlt, ↓reduceIte]
        rfl

/-- The environment of a single renewal, which writes down what the task calls. Its state is the
number of the next attempt. -/
def retryReply (calls : ℕ → RenewCall) (attempt : ℕ) :
    (o : TlsOp) → Option (ℕ × tlsSig.Reply o × List TlsOp)
  | .renew service => some (attempt + 1, (calls attempt).result, [.renew service])
  | .sleep nanos => some (attempt, (), [.sleep nanos])
  | _ => none

def retryEnv (calls : ℕ → RenewCall) : Environment tlsSig ℕ Unit TlsOp where
  reply attempt _ o _ := retryReply calls attempt o
  cancel _ _ _ _ := none
  restart attempt _ := attempt

variable (calls : ℕ → RenewCall)

lemma run_backoff {remaining attempt delay : ℕ} (h : attempt + remaining = maxAttempts + 1)
    (hdelay : delay = seconds (2 ^ attempt)) :
    Prog.run (retryEnv calls) 0 () attempt
        (RotationTask.retryLoop serviceName maxAttempts remaining attempt delay) =
      some (attempt + attemptsFrom calls remaining attempt,
        (retryLoop calls maxAttempts remaining attempt delay).1,
        backoff serviceName attempt (attemptsFrom calls remaining attempt)) := by
  induction remaining generalizing attempt delay with
  | zero => rfl
  | succ remaining ih =>
    unfold RotationTask.retryLoop
    cases hresult : (calls attempt).result with
    | ok bundle =>
      rw [attemptsFrom, retryLoop, hresult]
      refine Prog.run_call.mpr ⟨_, _, _, [], rfl, ?_, rfl⟩
      rw [hresult]
      rfl
    | error e =>
      by_cases hlt : attempt < maxAttempts
      · obtain ⟨more, rfl⟩ : ∃ more, remaining = more + 1 := ⟨remaining - 1, by omega⟩
        obtain ⟨n, hn⟩ : ∃ n, attemptsFrom calls (more + 1) (attempt + 1) = n + 1 :=
          ⟨_, (Nat.succ_pred_eq_of_pos (attemptsFrom_pos calls more (attempt + 1))).symm⟩
        have hleft : attempt + 1 + (more + 1) = maxAttempts + 1 := by omega
        have hnext := ih hleft (double_delay hdelay)
        rw [hn, Nat.add_right_comm attempt 1 (n + 1)] at hnext
        rw [attemptsFrom_error hresult, hn, retryLoop, hresult, backoff, ← hdelay]
        simp only [hlt, ↓reduceIte]
        refine Prog.run_call.mpr ⟨_, _, _, _, rfl, ?_, rfl⟩
        rw [hresult]
        exact Prog.run_call.mpr ⟨_, _, _, _, rfl, hnext, rfl⟩
      · obtain rfl : remaining = 0 := by omega
        rw [attemptsFrom_error hresult, retryLoop, hresult]
        simp only [hlt, ↓reduceIte]
        refine Prog.run_call.mpr ⟨_, _, _, [], rfl, ?_, rfl⟩
        rw [hresult]
        rfl

/-- The run of `retry_renew` with at most 62 attempts, in closed form. -/
theorem retryRenew_backoff (serviceName : String) {maxAttempts : ℕ} (hmax : maxAttempts ≤ 62)
    (calls : ℕ → RenewCall) :
    ∃ j result, Prog.run (retryEnv calls) 0 () 1
          (RotationTask.checkedRenew serviceName maxAttempts) =
        some (j + 1, some result, backoff serviceName 1 j) ∧
      (∀ k bundle, FirstSuccess calls 1 k bundle → j = min k maxAttempts ∧
        result = if k ≤ maxAttempts then .ok bundle else .error (unreachable maxAttempts)) ∧
      ((∀ i, 1 ≤ i → i ≤ maxAttempts → ∃ e, (calls i).result = .error e) →
        j = maxAttempts ∧ result = .error (unreachable maxAttempts)) ∧
      (backoff serviceName 1 j).countP TlsOp.isRenew = j ∧
      (1 ≤ j → totalSleep (backoff serviceName 1 j) = seconds (2 ^ j - 2)) := by
  refine ⟨attemptsFrom calls maxAttempts 1, (retryRenew calls maxAttempts).1, ?_, ?_, ?_,
    backoff_calls serviceName 1 _, totalSleep_backoff serviceName⟩
  · have hstart : 1 + maxAttempts = maxAttempts + 1 := Nat.add_comm _ _
    have hdelay : seconds 2 = seconds (2 ^ 1) := by rw [Nat.pow_one]
    have hrun := run_backoff serviceName calls hstart hdelay
    rw [RotationTask.checkedRenew, checkedLoop_eq serviceName hmax hstart hdelay, Nat.add_comm _ 1]
    exact Prog.run_bind.mpr ⟨_, _, _, [], hrun, rfl, (List.append_nil _).symm⟩
  · intro k bundle hfirst
    obtain ⟨hcount, hresult⟩ := retryLoop_success hfirst maxAttempts maxAttempts (seconds 2)
    rw [hcount, retryRenew, hresult, Nat.add_sub_cancel]
    refine ⟨rfl, ?_⟩
    simp only [Nat.add_comm 1 maxAttempts, Nat.lt_succ_iff]
  · intro hnone
    exact retryLoop_failure (fun i hi hlt => hnone i hi (by omega)) maxAttempts (seconds 2)

/-- What the schedule of the rotation adds to the calls is the sleeps of the run. -/
theorem retryRenew_time (serviceName : String) {maxAttempts : ℕ} (hpos : 1 ≤ maxAttempts)
    (calls : ℕ → RenewCall) :
    (retryRenew calls maxAttempts).2 = callTimeFrom calls maxAttempts 1 +
      totalSleep (backoff serviceName 1 (attemptsFrom calls maxAttempts 1)) := by
  obtain ⟨more, rfl⟩ : ∃ more, maxAttempts = more + 1 := ⟨maxAttempts - 1, by omega⟩
  obtain ⟨n, hn⟩ : ∃ n, attemptsFrom calls (more + 1) 1 = n + 1 :=
    ⟨_, (Nat.succ_pred_eq_of_pos (attemptsFrom_pos calls more 1)).symm⟩
  have htime := retryLoop_elapsed calls (more + 1) more 1 (seconds 2) (Nat.add_comm _ _)
  have hsleep := backoff_sleep serviceName 1 n
  have hpow : seconds (2 ^ (1 + n)) = seconds 2 * 2 ^ n := by
    rw [Nat.pow_add, Nat.pow_one]
    exact Nat.mul_right_comm _ _ _
  rw [hn, Nat.add_sub_cancel] at htime
  rw [hpow, Nat.pow_one] at hsleep
  unfold retryRenew
  rw [hn]
  omega

end Runs

section Sample

/-- The vault refuses two attempts. -/
def refusedTwice (attempt : ℕ) : RenewCall :=
  ⟨0, if attempt < 3 then .error (.vaultUnreachable "refused") else .ok (sampleBundle "B" 570)⟩

end Sample

theorem retryRenew_backoff_refusedTwice :
    Prog.run (retryEnv refusedTwice) 0 () 1 (RotationTask.checkedRenew "order-service" 5) =
      some (4, some (.ok (sampleBundle "B" 570)),
        [.renew "order-service", .sleep (seconds 2), .renew "order-service", .sleep (seconds 4),
          .renew "order-service"]) := by
  have hmax : 5 ≤ 62 := by decide
  obtain ⟨j, result, hrun, hfirst, -⟩ := retryRenew_backoff "order-service" hmax refusedTwice
  have hthird : FirstSuccess refusedTwice 1 3 (sampleBundle "B" 570) := by
    refine ⟨by decide, rfl, ?_⟩
    intro i _ hi
    exact ⟨_, if_pos hi⟩
  obtain ⟨rfl, rfl⟩ := hfirst 3 _ hthird
  exact hrun

end SecureNet
