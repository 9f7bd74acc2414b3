import SecureNet.RotationSchedule

/-!
# How often the loop renews

A round sleeps before its first call and between its calls. The TTL that the vault's bundle has left
may be too short for the first sleep to take any time.
-/

namespace SecureNet

/-- What a round sleeps in all: the 90 % of the TTL, and the part of `retry_renew` that is not spent
in calls. -/
def slept (calls : ℕ → RenewCall) (ttl : ℕ) : ℕ :=
  seconds (sleepSecs ttl) + ((retryRenew calls 3).2 - callTime calls)

variable (T : Rustls) (isGateway : Bool) (env : ℕ → ℕ → RenewCall) (s₀ : RotationState)

/-- At the head of the round there are at least two seconds left, or its first call fails. -/
def Paced (n : ℕ) : Prop :=
  2 ≤ (rotationLoop T isGateway env s₀ n).ttl ∨ ∃ e, (env n 1).result = .error e

/-- In every window of `W` seconds at most `W + 1` rounds install a bundle. -/
def RateBounded : Prop :=
  ∀ (W : ℕ) (u : ℤ) (rounds : Finset ℕ),
    (∀ n ∈ rounds, installed T isGateway (env n) ≠ none ∧
      u ≤ (rotationLoop T isGateway env s₀ (n + 1)).now ∧
      (rotationLoop T isGateway env s₀ (n + 1)).now ≤ u + seconds W) → rounds.card ≤ W + 1

variable {T isGateway env s₀}

lemma slept_eq (calls : ℕ → RenewCall) (ttl : ℕ) :
    slept calls ttl = seconds (sleepSecs ttl) + pause (attempts calls) := by
  rw [slept, retryRenew_elapsed, Nat.add_sub_cancel_left]

lemma pause_first {calls : ℕ → RenewCall} {bundle : CertBundle}
    (h : (calls 1).result = .ok bundle) : pause (attempts calls) = 0 := by
  have hone : attempts calls = 1 := by
    rw [attempts, attemptsFrom, h]
  rw [hone]
  decide

lemma pause_retry {calls : ℕ → RenewCall} {e : AppError} (h : (calls 1).result = .error e) :
    seconds 2 ≤ pause (attempts calls) := by
  have hmore : attempts calls = attemptsFrom calls 2 2 + 1 := by
    rw [attempts, attemptsFrom, h]
  have hpos : 0 < attemptsFrom calls 2 2 := attemptsFrom_pos calls 1 2
  obtain hone | htwo | hthree := attempts_cases calls
  · omega
  · rw [htwo]
    decide
  · rw [hthree]
    decide

/-- A round sleeps for a second exactly if it is paced. -/
lemma slept_iff (n : ℕ) :
    seconds 1 ≤ slept (env n) (rotationLoop T isGateway env s₀ n).ttl ↔
      Paced T isGateway env s₀ n := by
  rw [slept_eq, Paced]
  cases hfirst : (env n 1).result with
  | ok bundle =>
    rw [pause_first hfirst, or_iff_left (by simp)]
    unfold sleepSecs seconds
    omega
  | error e =>
    have hpause := pause_retry hfirst
    refine iff_of_true ?_ (.inr ⟨e, rfl⟩)
    unfold seconds at *
    omega

/-- A round sleeps for at least a second exactly if at its head there are two seconds of the TTL
left, or its first call fails. If that is so in every round, no window of `W` seconds has more than
`W + 1` installed bundles. -/
theorem renewal_rate_iff (T : Rustls) (isGateway : Bool) (env : ℕ → ℕ → RenewCall)
    (s₀ : RotationState) :
    (∀ n, seconds 1 ≤ slept (env n) (rotationLoop T isGateway env s₀ n).ttl ↔
      Paced T isGateway env s₀ n) ∧
      ((∀ n, Paced T isGateway env s₀ n) → RateBounded T isGateway env s₀) := by
  refine ⟨slept_iff, ?_⟩
  intro hpaced W u rounds hrounds
  have hstep : ∀ n, (rotationLoop T isGateway env s₀ (n + 1)).now + seconds 1 ≤
      (rotationLoop T isGateway env s₀ (n + 1 + 1)).now := by
    intro n
    have hslept := (slept_iff (n + 1)).mpr (hpaced (n + 1))
    rw [slept_eq] at hslept
    rw [now_succ (n + 1)]
    omega
  refine Timeline.card_window_le (t := fun n => (rotationLoop T isGateway env s₀ (n + 1)).now)
    (by decide) hstep (u := u) ?_
  intro n hn
  obtain ⟨-, hfrom, hto⟩ := hrounds n hn
  refine ⟨hfrom, ?_⟩
  unfold seconds at hto ⊢
  push_cast at hto ⊢
  omega

section Sample

/-- The vault only sends bundles that have expired by the clock of the service. -/
def expiredRenewals (_round _attempt : ℕ) : RenewCall := ⟨0, .ok (sampleBundle "A" 0)⟩

def expiredHead : RotationState := ⟨0, 10, sampleRotating.inner, "A"⟩

lemma installed_expired (n : ℕ) :
    installed sampleRustls false (expiredRenewals n) = some (sampleBundle "A" 0) := by
  unfold installed buildConfig
  simp only [retryRenew, retryLoop, expiredRenewals, serverConfig_sample, Bool.false_eq_true,
    if_false, Except.isOk, Except.toBool, if_true]

lemma expired_heads (n : ℕ) :
    rotationLoop sampleRustls false expiredRenewals expiredHead n = expiredHead := by
  induction n with
  | zero => rfl
  | succ n ih =>
    obtain ⟨config, hconfig, hround⟩ := round_installed expiredHead (installed_expired n)
    obtain rfl : sampleRotating.inner = config :=
      Except.ok.inj ((serverConfig_sample _).symm.trans hconfig)
    rw [rotationLoop, ih, hround]
    rfl

end Sample

theorem renewal_rate_iff_steady :
    RateBounded sampleRustls false (steadyRenewals 0) (sampleHead 0) := by
  apply (renewal_rate_iff sampleRustls false (steadyRenewals 0) (sampleHead 0)).2
  intro n
  have hhead := steady_heads (steadyRenewals 0) (sampleHead 0) 0 0 rfl (fun _ => rfl) n
  refine .inl ?_
  rw [Nat.add_zero] at hhead
  rw [hhead]
  exact (by decide : 2 ≤ 300)

/-- Every round installs a bundle, and no round takes any time. -/
theorem expired_bundles_spin :
    (∀ n, slept (expiredRenewals n)
        (rotationLoop sampleRustls false expiredRenewals expiredHead n).ttl = 0 ∧
      installed sampleRustls false (expiredRenewals n) = some (sampleBundle "A" 0) ∧
      (rotationLoop sampleRustls false expiredRenewals expiredHead n).now = 10) ∧
      ¬RateBounded sampleRustls false expiredRenewals expiredHead := by
  have hnow : ∀ n, (rotationLoop sampleRustls false expiredRenewals expiredHead n).now = 10 := by
    intro n
    rw [expired_heads]
    rfl
  refine ⟨?_, ?_⟩
  · intro n
    refine ⟨?_, installed_expired n, hnow n⟩
    rw [expired_heads, slept_eq, pause_first rfl]
    decide
  · intro hbounded
    have hcard := hbounded 0 10 (Finset.range 2) (by
      intro n _
      rw [installed_expired, hnow]
      exact ⟨by simp, Int.le_refl _, by simp [seconds]⟩)
    simp at hcard

end SecureNet
