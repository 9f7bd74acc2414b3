import SecureNet.Issuer
import SecureNet.Library.Timeline
import SecureNet.Rotation

/-!
# The rotation schedule

When the rounds of `rotation_loop` end, compared with the expiry of the bundle whose
configuration is installed.
-/

namespace SecureNet

/-- The number of calls that the loop of `retry_renew` makes. -/
def attemptsFrom (calls : ℕ → RenewCall) : ℕ → ℕ → ℕ
  | 0, _ => 0
  | remaining + 1, attempt =>
    match (calls attempt).result with
    | .ok _ => 1
    | .error _ => attemptsFrom calls remaining (attempt + 1) + 1

def callTimeFrom (calls : ℕ → RenewCall) : ℕ → ℕ → ℕ
  | 0, _ => 0
  | remaining + 1, attempt =>
    match (calls attempt).result with
    | .ok _ => (calls attempt).latency
    | .error _ => (calls attempt).latency + callTimeFrom calls remaining (attempt + 1)

def attempts (calls : ℕ → RenewCall) : ℕ := attemptsFrom calls 3 1

def callTime (calls : ℕ → RenewCall) : ℕ := callTimeFrom calls 3 1

section Retries

variable (calls : ℕ → RenewCall)

lemma attemptsFrom_pos (remaining attempt : ℕ) : 0 < attemptsFrom calls (remaining + 1) attempt := by
  unfold attemptsFrom
  split <;> omega

lemma attemptsFrom_le (remaining attempt : ℕ) : attemptsFrom calls remaining attempt ≤ remaining := by
  induction remaining generalizing attempt with
  | zero => simp [attemptsFrom]
  | succ remaining ih =>
    have hrest := ih (attempt + 1)
    unfold attemptsFrom
    split <;> omega

variable {calls} in
lemma callTimeFrom_zero (h : ∀ attempt, (calls attempt).latency = 0) (remaining attempt : ℕ) :
    callTimeFrom calls remaining attempt = 0 := by
  induction remaining generalizing attempt with
  | zero => rfl
  | succ remaining ih =>
    unfold callTimeFrom
    split
    · exact h attempt
    · rw [h attempt, ih (attempt + 1)]

/-- The delay before the `k`th call is `2 ^ (k - 2)` times the first delay, and there is none
after the last call. -/
lemma retryLoop_elapsed (maxAttempts remaining attempt delay : ℕ)
    (h : attempt + remaining = maxAttempts) :
    (retryLoop calls maxAttempts (remaining + 1) attempt delay).2 + delay =
      callTimeFrom calls (remaining + 1) attempt +
        delay * 2 ^ (attemptsFrom calls (remaining + 1) attempt - 1) := by
  induction remaining generalizing attempt delay with
  | zero =>
    have hlast : ¬attempt < maxAttempts := by omega
    rw [retryLoop, callTimeFrom, attemptsFrom]
    cases (calls attempt).result with
    | ok bundle => simp
    | error e => simp [hlast, retryLoop, callTimeFrom, attemptsFrom]
  | succ remaining ih =>
    have hmore : attempt < maxAttempts := by omega
    have hrest := ih (attempt + 1) (delay * 2) (by omega)
    have hpos := attemptsFrom_pos calls remaining (attempt + 1)
    rw [retryLoop, callTimeFrom, attemptsFrom]
    cases (calls attempt).result with
    | ok bundle => simp
    | error e =>
      simp only [hmore, if_true]
      rw [Nat.mul_assoc, Nat.mul_comm 2, Nat.two_pow_pred_mul_two hpos] at hrest
      rw [Nat.add_sub_cancel]
      omega

lemma attempts_cases : attempts calls = 1 ∨ attempts calls = 2 ∨ attempts calls = 3 := by
  have hpos : 0 < attemptsFrom calls 3 1 := attemptsFrom_pos calls 2 1
  have hle := attemptsFrom_le calls 3 1
  unfold attempts
  omega

/-- What `retry_renew` sleeps when it makes `k` calls. -/
def pause (k : ℕ) : ℕ := seconds (2 ^ k - 2)

lemma retryRenew_elapsed : (retryRenew calls 3).2 = callTime calls + pause (attempts calls) := by
  have helapsed : (retryLoop calls 3 3 1 (seconds 2)).2 + seconds 2 =
      callTimeFrom calls 3 1 + seconds 2 * 2 ^ (attemptsFrom calls 3 1 - 1) :=
    retryLoop_elapsed calls 3 2 1 (seconds 2) rfl
  have hattempts := attempts_cases calls
  unfold attempts at hattempts
  unfold retryRenew callTime attempts pause
  unfold seconds at *
  obtain h | h | h := hattempts <;> rw [h] at helapsed ⊢ <;> omega

end Retries

variable (T : Rustls) (isGateway : Bool) (env : ℕ → ℕ → RenewCall) (boot : CertBundle)
  (s₀ : RotationState)

def During (n : ℕ) (τ : ℤ) : Prop :=
  (rotationLoop T isGateway env s₀ n).now ≤ τ ∧ τ ≤ (rotationLoop T isGateway env s₀ (n + 1)).now

/-- At every instant the installed configuration is that of a bundle which has not expired. At
the instant of a swap this is asked of both bundles. -/
def ContinuouslyValid : Prop :=
  ∀ τ, s₀.now ≤ τ → (∃ n, During T isGateway env s₀ n τ) ∧
    ∀ n, During T isGateway env s₀ n τ →
      buildConfig T isGateway (lastBuilt T isGateway env boot n) =
        .ok (rotationLoop T isGateway env s₀ n).inner ∧
      τ ≤ (lastBuilt T isGateway env boot n).expiresAt

variable {T isGateway env boot s₀}

lemma now_succ (n : ℕ) : (rotationLoop T isGateway env s₀ (n + 1)).now =
    (rotationLoop T isGateway env s₀ n).now +
      seconds (sleepSecs (rotationLoop T isGateway env s₀ n).ttl) + callTime (env n) +
      pause (attempts (env n)) := by
  rw [rotationLoop, round_now, retryRenew_elapsed]
  omega

lemma now_le_add (n k : ℕ) :
    (rotationLoop T isGateway env s₀ n).now ≤ (rotationLoop T isGateway env s₀ (n + k)).now := by
  induction k with
  | zero => exact Int.le_refl _
  | succ k ih =>
    rw [← Nat.add_assoc, now_succ (n + k)]
    omega

variable (s₀) in
lemma ttl_installed {n : ℕ} {bundle : CertBundle} (h : installed T isGateway (env n) = some bundle) :
    (rotationLoop T isGateway env s₀ (n + 1)).ttl =
      bundle.ttlSecs (rotationLoop T isGateway env s₀ (n + 1)).now := by
  obtain ⟨config, -, hround⟩ := round_installed (rotationLoop T isGateway env s₀ n) h
  rw [rotationLoop, hround]

variable (s₀) in
lemma ttl_failed {n : ℕ} (h : installed T isGateway (env n) = none) :
    (rotationLoop T isGateway env s₀ (n + 1)).ttl = 30 := by
  rw [rotationLoop, round_failed h]

variable (boot) in
lemma lastBuilt_installed {n : ℕ} {bundle : CertBundle}
    (h : installed T isGateway (env n) = some bundle) :
    lastBuilt T isGateway env boot (n + 1) = bundle := by
  rw [lastBuilt, h, Option.getD_some]

variable (boot) in
lemma lastBuilt_failed {n : ℕ} (h : installed T isGateway (env n) = none) :
    lastBuilt T isGateway env boot (n + 1) = lastBuilt T isGateway env boot n := by
  rw [lastBuilt, h, Option.getD_none]

/-- It is enough to look at the ends of the rounds, provided that every round takes time. -/
lemma continuouslyValid_iff (hboot : Boots T isGateway boot s₀)
    (hstep : ∀ n, (rotationLoop T isGateway env s₀ n).now + seconds 1 ≤
      (rotationLoop T isGateway env s₀ (n + 1)).now) :
    ContinuouslyValid T isGateway env boot s₀ ↔
      ∀ n, (rotationLoop T isGateway env s₀ (n + 1)).now ≤
        (lastBuilt T isGateway env boot n).expiresAt := by
  have hlater : ∀ n, s₀.now ≤ (rotationLoop T isGateway env s₀ n).now := by
    intro n
    have hle := Timeline.le_of_step (by decide) hstep n
    change s₀.now + n ≤ _ at hle
    omega
  have hmono : ∀ n, (rotationLoop T isGateway env s₀ n).now ≤
      (rotationLoop T isGateway env s₀ (n + 1)).now := by
    intro n
    have hn := hstep n
    omega
  refine Iff.trans ?_ (Timeline.forall_interval_iff
    (t := fun n => (rotationLoop T isGateway env s₀ n).now) hmono)
  constructor
  · intro hvalid n τ hfrom hto
    exact ((hvalid τ (Int.le_trans (hlater n) hfrom)).2 n ⟨hfrom, hto⟩).2
  · intro hbound τ hτ
    refine ⟨?_, ?_⟩
    · obtain ⟨n, hfrom, hto⟩ := Timeline.exists_interval (by decide) hstep hτ
      exact ⟨n, hfrom, by omega⟩
    · intro n hduring
      exact ⟨(rotationLoop_invariant hboot env n).1, hbound n τ hduring.1 hduring.2⟩

/-- Runs in which every bundle has the vault's lifetime left when it is received, the vault
answers at once, and no two rounds in a row fail. -/
structure SingleFailures (T : Rustls) (isGateway : Bool) (env : ℕ → ℕ → RenewCall)
    (boot : CertBundle) (s₀ : RotationState) : Prop where
  ttl : s₀.ttl = boot.ttlSecs s₀.now
  life : boot.ttlSecs s₀.now = certTtlSecs
  received : ∀ n bundle, (retryRenew (env n) 3).1 = .ok bundle →
    bundle.ttlSecs (rotationLoop T isGateway env s₀ (n + 1)).now = certTtlSecs
  latency : ∀ n attempt, (env n attempt).latency = 0
  single : ∀ n, installed T isGateway (env n) = none → installed T isGateway (env (n + 1)) ≠ none

section Sample

/-- The head at `secs` after a round that installed the bundle `A`. -/
def sampleHead (secs : ℕ) : RotationState := ⟨300, seconds secs, sampleRotating.inner, "A"⟩

/-- The vault answers at `secs` with a bundle that expires 300 s later. -/
def renewalAt (secs _attempt : ℕ) : RenewCall := ⟨0, .ok (sampleBundle "A" (secs + 300))⟩

/-- Every round succeeds at its first call. The rounds start at the head at `secs`. -/
def steadyRenewals (secs n : ℕ) : ℕ → RenewCall := renewalAt (secs + 270 * n + 270)

/-- Only round 0 may fail, and the next one succeeds at `secs`. -/
def recovery (first : ℕ → RenewCall) (secs : ℕ) : ℕ → ℕ → RenewCall
  | 0 => first
  | 1 => renewalAt secs
  | n + 2 => steadyRenewals secs n

def outage (_attempt : ℕ) : RenewCall := ⟨0, .error (.vaultUnreachable "refused")⟩

def badBundle (_attempt : ℕ) : RenewCall := ⟨0, .ok { sampleBundle "A" 570 with keyPem := "" }⟩

lemma serverConfig_sample (secs : ℕ) :
    serverConfig sampleRustls (sampleBundle "A" secs) = .ok sampleRotating.inner := by
  have hchain : parseCertChain sampleRustls "A" = .ok [[65]] := rfl
  have hkey : parsePrivateKey sampleRustls "K" = .ok [75] := rfl
  have hroots : buildRootStore sampleRustls "C" = .ok [[67]] := rfl
  unfold serverConfig sampleBundle
  rw [hchain, hkey, hroots]
  rfl

lemma boots_sample : Boots sampleRustls false (sampleBundle "A" 300) (sampleHead 0) :=
  ⟨serverConfig_sample 300, rfl⟩

lemma installed_sample (secs : ℕ) : installed sampleRustls false (renewalAt secs) =
    some (sampleBundle "A" (secs + 300)) := by
  unfold installed buildConfig
  simp only [retryRenew, retryLoop, renewalAt, serverConfig_sample, Bool.false_eq_true, if_false,
    Except.isOk, Except.toBool, if_true]

lemma ttlSecs_sample (secs : ℕ) : (sampleBundle "A" (secs + 300)).ttlSecs (seconds secs) = 300 := by
  apply CertBundle.ttlSecs_of_expiresAt
  change (seconds (secs + 300) : ℤ) = _
  unfold seconds
  omega

lemma round_sample (secs : ℕ) :
    rotationRound sampleRustls false (renewalAt (secs + 270)) (sampleHead secs) =
      sampleHead (secs + 270) := by
  obtain ⟨config, hconfig, hround⟩ :=
    round_installed (sampleHead secs) (installed_sample (secs + 270))
  obtain rfl : sampleRotating.inner = config :=
    Except.ok.inj ((serverConfig_sample _).symm.trans hconfig)
  have hnow : (sampleHead secs).now + seconds (sleepSecs (sampleHead secs).ttl) +
      (retryRenew (renewalAt (secs + 270)) 3).2 = seconds (secs + 270) := by
    have helapsed : (retryRenew (renewalAt (secs + 270)) 3).2 = 0 := rfl
    rw [helapsed]
    change (seconds secs : ℤ) + seconds (sleepSecs 300) + (0 : ℕ) = _
    unfold sleepSecs seconds
    omega
  rw [hround, hnow, ttlSecs_sample]
  rfl

lemma steady_heads (env : ℕ → ℕ → RenewCall) (s₀ : RotationState) (m secs : ℕ)
    (hhead : rotationLoop sampleRustls false env s₀ m = sampleHead secs)
    (henv : ∀ n, env (n + m) = steadyRenewals secs n) (n : ℕ) :
    rotationLoop sampleRustls false env s₀ (n + m) = sampleHead (secs + 270 * n) := by
  induction n with
  | zero => rw [Nat.zero_add, hhead, Nat.mul_zero, Nat.add_zero]
  | succ n ih =>
    rw [Nat.add_right_comm, rotationLoop, ih, henv, steadyRenewals, round_sample, Nat.mul_succ,
      Nat.add_assoc]

lemma recovery_succ (first : ℕ → RenewCall) (secs n : ℕ) :
    recovery first secs (n + 1) = renewalAt (secs + 270 * n) := by
  cases n with
  | zero => rfl
  | succ n => rw [recovery, steadyRenewals, Nat.mul_succ, Nat.add_assoc]

lemma recovery_run (first : ℕ → RenewCall) (secs : ℕ)
    (hlatency : ∀ attempt, (first attempt).latency = 0)
    (hreceived : ∀ bundle, (retryRenew first 3).1 = .ok bundle → bundle.ttlSecs
      (rotationLoop sampleRustls false (recovery first secs) (sampleHead 0) 1).now = certTtlSecs)
    (hhead : rotationLoop sampleRustls false (recovery first secs) (sampleHead 0) 2 =
      sampleHead secs) :
    SingleFailures sampleRustls false (recovery first secs) (sampleBundle "A" 300)
      (sampleHead 0) := by
  have hheads := steady_heads (recovery first secs) (sampleHead 0) 2 secs hhead (fun _ => rfl)
  constructor
  · exact (ttlSecs_sample 0).symm
  · exact ttlSecs_sample 0
  · intro n bundle hok
    cases n with
    | zero => exact hreceived bundle hok
    | succ n =>
      rw [recovery_succ] at hok
      cases hok
      rw [hheads]
      exact ttlSecs_sample _
  · intro n attempt
    cases n with
    | zero => exact hlatency attempt
    | succ n =>
      rw [recovery_succ]
      rfl
  · intro n _
    rw [recovery_succ, installed_sample]
    exact Option.some_ne_none _

end Sample

section Margin

def Scheduled (T : Rustls) (isGateway : Bool) (env : ℕ → ℕ → RenewCall) (boot : CertBundle)
    (s₀ : RotationState) (n : ℕ) : Prop :=
  (rotationLoop T isGateway env s₀ n).ttl =
    (lastBuilt T isGateway env boot n).ttlSecs (rotationLoop T isGateway env s₀ n).now

lemma scheduled_installed {n : ℕ} {bundle : CertBundle}
    (h : installed T isGateway (env n) = some bundle) :
    Scheduled T isGateway env boot s₀ (n + 1) := by
  unfold Scheduled
  rw [ttl_installed s₀ h, lastBuilt_installed boot h]

/-- If every bundle builds and has at least 60 s left when it is received, and the calls of a
round leave 6 s of the last tenth of the TTL for the pauses, the installed certificate never
expires. -/
theorem margin_suffices (hboot : Boots T isGateway boot s₀)
    (httl : s₀.ttl = boot.ttlSecs s₀.now) (hlong : 60 ≤ boot.ttlSecs s₀.now)
    (hrounds : ∀ n, ∃ bundle, installed T isGateway (env n) = some bundle ∧
      60 ≤ bundle.ttlSecs (rotationLoop T isGateway env s₀ (n + 1)).now)
    (hcalls : ∀ n, 10 * callTime (env n) + seconds 60 ≤
      seconds ((lastBuilt T isGateway env boot n).ttlSecs
        (rotationLoop T isGateway env s₀ n).now)) :
    ContinuouslyValid T isGateway env boot s₀ := by
  have hhead : ∀ n, Scheduled T isGateway env boot s₀ n ∧
      60 ≤ (lastBuilt T isGateway env boot n).ttlSecs (rotationLoop T isGateway env s₀ n).now := by
    intro n
    cases n with
    | zero => exact ⟨httl, hlong⟩
    | succ n =>
      obtain ⟨bundle, hinstalled, hlong⟩ := hrounds n
      refine ⟨scheduled_installed hinstalled, ?_⟩
      rw [lastBuilt_installed boot hinstalled]
      exact hlong
  have hend : ∀ n, (rotationLoop T isGateway env s₀ n).now + seconds 1 ≤
        (rotationLoop T isGateway env s₀ (n + 1)).now ∧
      (rotationLoop T isGateway env s₀ (n + 1)).now ≤
        (lastBuilt T isGateway env boot n).expiresAt := by
    intro n
    obtain ⟨hscheduled, hlong⟩ := hhead n
    have hexpires := (CertBundle.expiresAt_of_ttlSecs (Nat.lt_of_lt_of_le (by decide) hlong)).1
    have hcall := hcalls n
    have hpause : pause (attempts (env n)) ≤ seconds 6 := by
      obtain h | h | h := attempts_cases (env n) <;> rw [h] <;> decide
    rw [now_succ, hscheduled]
    unfold sleepSecs seconds at *
    omega
  exact (continuouslyValid_iff hboot (fun n => (hend n).1)).mpr (fun n => (hend n).2)

theorem margin_suffices_steady :
    ContinuouslyValid sampleRustls false (steadyRenewals 0) (sampleBundle "A" 300)
      (sampleHead 0) := by
  have hheads : ∀ n, rotationLoop sampleRustls false (steadyRenewals 0) (sampleHead 0) n =
      sampleHead (0 + 270 * n) :=
    steady_heads (steadyRenewals 0) (sampleHead 0) 0 0 rfl (fun _ => rfl)
  have hinstalled : ∀ n, installed sampleRustls false (steadyRenewals 0 n) =
      some (sampleBundle "A" (0 + 270 * (n + 1) + 300)) := by
    intro n
    rw [steadyRenewals, installed_sample, Nat.mul_succ, Nat.add_assoc 0]
  have hlast : ∀ n, lastBuilt sampleRustls false (steadyRenewals 0) (sampleBundle "A" 300) n =
      sampleBundle "A" (0 + 270 * n + 300) := by
    intro n
    cases n with
    | zero => rfl
    | succ n => rw [lastBuilt_installed _ (hinstalled n)]
  have hlife : ∀ n, 60 ≤ (sampleBundle "A" (0 + 270 * n + 300)).ttlSecs
      (rotationLoop sampleRustls false (steadyRenewals 0) (sampleHead 0) n).now := by
    intro n
    rw [hheads, sampleHead, ttlSecs_sample]
    decide
  apply margin_suffices boots_sample (ttlSecs_sample 0).symm
  · exact hlife 0
  · intro n
    exact ⟨_, hinstalled n, hlife (n + 1)⟩
  · intro n
    rw [hlast]
    have hn := hlife n
    have hcall : callTime (steadyRenewals 0 n) = 0 := rfl
    rw [hcall]
    unfold seconds
    omega

end Margin

section Recovery

def Fresh (T : Rustls) (isGateway : Bool) (env : ℕ → ℕ → RenewCall) (boot : CertBundle)
    (s₀ : RotationState) (n : ℕ) : Prop :=
  (rotationLoop T isGateway env s₀ n).ttl = 300 ∧
    (lastBuilt T isGateway env boot n).ttlSecs (rotationLoop T isGateway env s₀ n).now = 300

lemma Fresh.expiresAt {n : ℕ} (h : Fresh T isGateway env boot s₀ n) :
    (rotationLoop T isGateway env s₀ n).now + seconds 300 ≤
        (lastBuilt T isGateway env boot n).expiresAt ∧
      (lastBuilt T isGateway env boot n).expiresAt <
        (rotationLoop T isGateway env s₀ n).now + seconds 301 := by
  have hexpires := CertBundle.expiresAt_of_ttlSecs (Nat.lt_of_lt_of_eq (by decide) h.2.symm)
  rw [h.2] at hexpires
  exact hexpires

lemma Fresh.now_succ {n : ℕ} (h : Fresh T isGateway env boot s₀ n)
    (hlatency : ∀ n attempt, (env n attempt).latency = 0) :
    (rotationLoop T isGateway env s₀ (n + 1)).now =
      (rotationLoop T isGateway env s₀ n).now + seconds 270 + pause (attempts (env n)) := by
  rw [SecureNet.now_succ, h.1, callTime, callTimeFrom_zero (hlatency n)]
  unfold sleepSecs seconds
  omega

/-- The round after a failed one, whose TTL of 30 s is scaled as well. -/
lemma now_backOff {n : ℕ} (h : installed T isGateway (env n) = none)
    (hlatency : ∀ n attempt, (env n attempt).latency = 0) :
    (rotationLoop T isGateway env s₀ (n + 2)).now =
      (rotationLoop T isGateway env s₀ (n + 1)).now + seconds 27 +
        pause (attempts (env (n + 1))) := by
  rw [SecureNet.now_succ, ttl_failed s₀ h, callTime, callTimeFrom_zero (hlatency _)]
  unfold sleepSecs seconds
  omega

lemma pauses_cases (env : ℕ → ℕ → RenewCall) (n : ℕ) :
    attempts (env n) + attempts (env (n + 1)) ≤ 3 ∧
        pause (attempts (env n)) + pause (attempts (env (n + 1))) ≤ seconds 2 ∨
      3 < attempts (env n) + attempts (env (n + 1)) ∧
        seconds 4 ≤ pause (attempts (env n)) + pause (attempts (env (n + 1))) := by
  obtain h | h | h := attempts_cases (env n) <;>
    obtain h' | h' | h' := attempts_cases (env (n + 1)) <;> rw [h, h'] <;> decide

section

variable (hrun : SingleFailures T isGateway env boot s₀)

include hrun

lemma fresh_or_failed (n : ℕ) : Fresh T isGateway env boot s₀ n ∨
    ∃ m, n = m + 1 ∧ installed T isGateway (env m) = none ∧ Fresh T isGateway env boot s₀ m := by
  induction n with
  | zero => exact .inl ⟨hrun.ttl.trans hrun.life, hrun.life⟩
  | succ n ih =>
    cases h : installed T isGateway (env n) with
    | none =>
      refine .inr ⟨n, rfl, h, ?_⟩
      obtain hfresh | ⟨m, rfl, hfailed, -⟩ := ih
      · exact hfresh
      · exact absurd h (hrun.single m hfailed)
    | some bundle =>
      have hlife := hrun.received n bundle (installed_some h).1
      refine .inl ⟨(ttl_installed s₀ h).trans hlife, ?_⟩
      rw [lastBuilt_installed boot h]
      exact hlife

lemma fresh_of_failed {n : ℕ} (h : installed T isGateway (env n) = none) :
    Fresh T isGateway env boot s₀ n := by
  obtain hfresh | ⟨m, rfl, hfailed, -⟩ := fresh_or_failed hrun n
  · exact hfresh
  · exact absurd h (hrun.single m hfailed)

/-- With certificates that live for 300 s and no two failures in a row, the installed certificate
never expires exactly if a failed round and the next one make at most three calls together: the
back-off round starts 27 s after the failed one, which leaves 3 s for the pauses of
both. -/
theorem recovers_iff (hboot : Boots T isGateway boot s₀) :
    ContinuouslyValid T isGateway env boot s₀ ↔
      ∀ n, installed T isGateway (env n) = none → attempts (env n) + attempts (env (n + 1)) ≤ 3 := by
  have hstep : ∀ n, (rotationLoop T isGateway env s₀ n).now + seconds 1 ≤
      (rotationLoop T isGateway env s₀ (n + 1)).now := by
    intro n
    obtain hfresh | ⟨m, rfl, hfailed, -⟩ := fresh_or_failed hrun n
    · rw [hfresh.now_succ hrun.latency]
      unfold seconds
      omega
    · rw [now_backOff hfailed hrun.latency]
      unfold seconds
      omega
  rw [continuouslyValid_iff hboot hstep]
  constructor
  · intro hvalid n hfailed
    have hfresh := fresh_of_failed hrun hfailed
    have hend := hvalid (n + 1)
    have hexpires := hfresh.expiresAt.2
    rw [lastBuilt_failed boot hfailed, now_backOff hfailed hrun.latency,
      hfresh.now_succ hrun.latency] at hend
    have hpauses := pauses_cases env n
    unfold seconds at *
    omega
  · intro hpauses n
    obtain hfresh | ⟨m, rfl, hfailed, hfresh⟩ := fresh_or_failed hrun n
    · have hexpires := hfresh.expiresAt.1
      have hpause : pause (attempts (env n)) ≤ seconds 6 := by
        obtain h | h | h := attempts_cases (env n) <;> rw [h] <;> decide
      rw [hfresh.now_succ hrun.latency]
      unfold seconds at *
      omega
    · have hexpires := hfresh.expiresAt.1
      have hpause := hpauses m hfailed
      have hcases := pauses_cases env m
      rw [lastBuilt_failed boot hfailed, now_backOff hfailed hrun.latency,
        hfresh.now_succ hrun.latency]
      unfold seconds at *
      omega

end

/-- All three calls of round 0 fail. The back-off round installs its bundle 303 s after the start,
and the boot bundle expires after 300 s. -/
theorem outage_outlives_certificate :
    Boots sampleRustls false (sampleBundle "A" 300) (sampleHead 0) ∧
      SingleFailures sampleRustls false (recovery outage 303) (sampleBundle "A" 300)
        (sampleHead 0) ∧
      ¬ContinuouslyValid sampleRustls false (recovery outage 303) (sampleBundle "A" 300)
        (sampleHead 0) := by
  refine ⟨boots_sample, ?_, ?_⟩
  · exact recovery_run outage 303 (fun _ => rfl) (fun bundle hok => by cases hok) rfl
  · intro hvalid
    have hlate := ((hvalid (seconds 303) (by decide)).2 1 ⟨by decide, by decide⟩).2
    exact absurd hlate (by decide)

theorem recovers_iff_badBundle :
    ContinuouslyValid sampleRustls false (recovery badBundle 297) (sampleBundle "A" 300)
      (sampleHead 0) := by
  have hrun : SingleFailures sampleRustls false (recovery badBundle 297) (sampleBundle "A" 300)
      (sampleHead 0) := by
    refine recovery_run badBundle 297 (fun _ => rfl) ?_ rfl
    intro bundle hok
    cases hok
    rfl
  refine (recovers_iff hrun boots_sample).mpr ?_
  intro n hfailed
  cases n with
  | zero => decide
  | succ n =>
    rw [recovery_succ, installed_sample] at hfailed
    cases hfailed

end Recovery

end SecureNet
