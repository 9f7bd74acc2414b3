import SecureNet.Tls

/-!
# Certificate rotation

`shared/src/rotation.rs`. The environment gives, for every round and attempt, what
`vault.renew` returns and how long it takes. Sleeping takes the time asked for, and
`ttl as f64 * 0.9` is taken exactly before it is truncated.
-/

namespace SecureNet

structure RenewCall where
  latency : ℕ
  result : Except AppError CertBundle

/-- The loop of `retry_renew` with its remaining attempts, the number of the next one and the
current delay: the result and the time taken. -/
def retryLoop (calls : ℕ → RenewCall) (maxAttempts : ℕ) :
    ℕ → ℕ → ℕ → Except AppError CertBundle × ℕ
  | 0, _, _ =>
    (.error (.vaultUnreachable
      ("cert renewal failed after " ++ toString maxAttempts ++ " attempts")), 0)
  | remaining + 1, attempt, delay =>
    match (calls attempt).result with
    | .ok bundle => (.ok bundle, (calls attempt).latency)
    | .error _ =>
      if attempt < maxAttempts then
        let rest := retryLoop calls maxAttempts remaining (attempt + 1) (delay * 2)
        (rest.1, (calls attempt).latency + delay + rest.2)
      else
        let rest := retryLoop calls maxAttempts remaining (attempt + 1) delay
        (rest.1, (calls attempt).latency + rest.2)

def retryRenew (calls : ℕ → RenewCall) (maxAttempts : ℕ) : Except AppError CertBundle × ℕ :=
  retryLoop calls maxAttempts maxAttempts 1 (seconds 2)

structure RotatingTlsConfig where
  inner : ServerConfig
  serial : String
  isGateway : Bool

/-- What the rotation task has in hand at the head of its loop. -/
structure RotationState where
  ttl : ℕ
  now : ℤ
  inner : ServerConfig
  serial : String

variable (T : Rustls)

def RotatingTlsConfig.new (bundle : CertBundle) : Except AppError RotatingTlsConfig := do
  let config ← serverConfig T bundle
  return ⟨config, bundle.serial, false⟩

def RotatingTlsConfig.newGateway (bundle : CertBundle) : Except AppError RotatingTlsConfig := do
  let config ← gatewayServerConfig T bundle
  return ⟨config, bundle.serial, true⟩

/-- 90 % of the TTL in whole seconds. -/
def sleepSecs (ttl : ℕ) : ℕ := ttl * 9 / 10

def buildConfig (isGateway : Bool) (bundle : CertBundle) : Except AppError ServerConfig :=
  if isGateway then gatewayServerConfig T bundle else serverConfig T bundle

def rotationRound (isGateway : Bool) (calls : ℕ → RenewCall) (s : RotationState) :
    RotationState :=
  let woken := s.now + seconds (sleepSecs s.ttl)
  let (newBundle, elapsed) := retryRenew calls 3
  let now := woken + elapsed
  match newBundle with
  | .ok bundle =>
    match buildConfig T isGateway bundle with
    | .ok config => ⟨bundle.ttlSecs now, now, config, bundle.serial⟩
    | .error _ => { s with ttl := 30, now := now }
  | .error _ => { s with ttl := 30, now := now }

/-- The state at each head of `rotation_loop`. -/
def rotationLoop (isGateway : Bool) (env : ℕ → ℕ → RenewCall) (s : RotationState) :
    ℕ → RotationState
  | 0 => s
  | n + 1 => rotationRound T isGateway (env n) (rotationLoop isGateway env s n)

/-- The task that `spawn_rotation_task` starts at time `now`. -/
def RotatingTlsConfig.spawnRotationTask (self : RotatingTlsConfig) (env : ℕ → ℕ → RenewCall)
    (now : ℤ) (initialTtl : ℕ) : ℕ → RotationState :=
  rotationLoop T self.isGateway env ⟨initialTtl, now, self.inner, self.serial⟩

section Installed

/-- The bundle that a round installs: the one it received, if that builds. -/
def installed (isGateway : Bool) (calls : ℕ → RenewCall) : Option CertBundle :=
  match (retryRenew calls 3).1 with
  | .ok bundle => if (buildConfig T isGateway bundle).isOk then some bundle else none
  | .error _ => none

/-- The last bundle before round `n` that built successfully, the boot bundle at first. -/
def lastBuilt (isGateway : Bool) (env : ℕ → ℕ → RenewCall) (boot : CertBundle) : ℕ → CertBundle
  | 0 => boot
  | n + 1 => (installed T isGateway (env n)).getD (lastBuilt isGateway env boot n)

end Installed

variable {T} {isGateway : Bool} {calls : ℕ → RenewCall}

lemma installed_some {bundle : CertBundle} (h : installed T isGateway calls = some bundle) :
    (retryRenew calls 3).1 = .ok bundle ∧ ∃ config, buildConfig T isGateway bundle = .ok config := by
  unfold installed at h
  split at h
  · next b hb =>
    split at h
    · next hok =>
      cases h
      refine ⟨hb, ?_⟩
      cases hc : buildConfig T isGateway bundle with
      | ok config => exact ⟨config, rfl⟩
      | error e =>
        rw [hc] at hok
        cases hok
    · cases h
  · cases h

lemma round_installed (s : RotationState) {bundle : CertBundle}
    (h : installed T isGateway calls = some bundle) :
    ∃ config, buildConfig T isGateway bundle = .ok config ∧
      rotationRound T isGateway calls s =
        ⟨bundle.ttlSecs (s.now + seconds (sleepSecs s.ttl) + (retryRenew calls 3).2),
          s.now + seconds (sleepSecs s.ttl) + (retryRenew calls 3).2, config, bundle.serial⟩ := by
  obtain ⟨hresult, config, hconfig⟩ := installed_some h
  refine ⟨config, hconfig, ?_⟩
  unfold rotationRound
  simp only [hresult, hconfig]

lemma round_failed {s : RotationState} (h : installed T isGateway calls = none) :
    rotationRound T isGateway calls s =
      ⟨30, s.now + seconds (sleepSecs s.ttl) + (retryRenew calls 3).2, s.inner, s.serial⟩ := by
  unfold installed at h
  unfold rotationRound
  split at h
  · next bundle hb =>
    split at h
    · cases h
    · next hnot =>
      cases hc : buildConfig T isGateway bundle with
      | ok config =>
        rw [hc] at hnot
        exact absurd rfl hnot
      | error e => simp only [hb, hc]
  · next e he => simp only [he]

lemma round_now (s : RotationState) : (rotationRound T isGateway calls s).now =
    s.now + seconds (sleepSecs s.ttl) + (retryRenew calls 3).2 := by
  cases h : installed T isGateway calls with
  | none => rw [round_failed h]
  | some bundle =>
    obtain ⟨config, -, hround⟩ := round_installed s h
    rw [hround]

variable {env : ℕ → ℕ → RenewCall} {boot : CertBundle} {s₀ : RotationState}

/-- A loop that starts with the configuration and the serial of `boot`. -/
structure Boots (T : Rustls) (isGateway : Bool) (boot : CertBundle) (s₀ : RotationState) :
    Prop where
  inner : buildConfig T isGateway boot = .ok s₀.inner
  serial : s₀.serial = boot.serial

/-- At every head the cells hold the configuration and the serial of the last bundle that
built, whatever the outcomes of the rounds. -/
theorem rotationLoop_invariant (hboot : Boots T isGateway boot s₀) (env : ℕ → ℕ → RenewCall)
    (n : ℕ) :
    buildConfig T isGateway (lastBuilt T isGateway env boot n) =
        .ok (rotationLoop T isGateway env s₀ n).inner ∧
      (rotationLoop T isGateway env s₀ n).serial = (lastBuilt T isGateway env boot n).serial := by
  induction n with
  | zero => exact ⟨hboot.inner, hboot.serial⟩
  | succ n ih =>
    rw [rotationLoop, lastBuilt]
    cases h : installed T isGateway (env n) with
    | none =>
      rw [round_failed h]
      exact ih
    | some bundle =>
      obtain ⟨config, hconfig, hround⟩ := round_installed (rotationLoop T isGateway env s₀ n) h
      rw [hround]
      exact ⟨hconfig, rfl⟩

lemma rotationLoop_failed {n : ℕ} (h : installed T isGateway (env n) = none) :
    (rotationLoop T isGateway env s₀ (n + 1)).inner = (rotationLoop T isGateway env s₀ n).inner ∧
      (rotationLoop T isGateway env s₀ (n + 1)).serial =
        (rotationLoop T isGateway env s₀ n).serial := by
  rw [rotationLoop, round_failed h]
  exact ⟨rfl, rfl⟩

lemma new_ok {rotating : RotatingTlsConfig} (h : RotatingTlsConfig.new T boot = .ok rotating) :
    rotating.isGateway = false ∧
      ∀ now ttl, Boots T false boot ⟨ttl, now, rotating.inner, rotating.serial⟩ := by
  unfold RotatingTlsConfig.new at h
  obtain ⟨config, hconfig, h⟩ := except_bind_ok.mp h
  cases h
  exact ⟨rfl, fun _ _ => ⟨hconfig, rfl⟩⟩

lemma newGateway_ok {rotating : RotatingTlsConfig}
    (h : RotatingTlsConfig.newGateway T boot = .ok rotating) :
    rotating.isGateway = true ∧
      ∀ now ttl, Boots T true boot ⟨ttl, now, rotating.inner, rotating.serial⟩ := by
  unfold RotatingTlsConfig.newGateway at h
  obtain ⟨config, hconfig, h⟩ := except_bind_ok.mp h
  cases h
  exact ⟨rfl, fun _ _ => ⟨hconfig, rfl⟩⟩

lemma created_boots {rotating : RotatingTlsConfig}
    (h : RotatingTlsConfig.new T boot = .ok rotating ∨
      RotatingTlsConfig.newGateway T boot = .ok rotating) (now : ℤ) (ttl : ℕ) :
    Boots T rotating.isGateway boot ⟨ttl, now, rotating.inner, rotating.serial⟩ := by
  obtain hnew | hnew := h
  · obtain ⟨hflag, hboot⟩ := new_ok hnew
    rw [hflag]
    exact hboot now ttl
  · obtain ⟨hflag, hboot⟩ := newGateway_ok hnew
    rw [hflag]
    exact hboot now ttl

/-- The rotation invariant for both constructors. A service that was created by `new` always
asks for a client certificate, and one that was created by `new_gateway` never does. -/
theorem rotation_keeps_last_built (T : Rustls) (env : ℕ → ℕ → RenewCall) (boot : CertBundle)
    (now : ℤ) (ttl : ℕ) (rotating : RotatingTlsConfig) :
    (RotatingTlsConfig.new T boot = .ok rotating →
      ∀ n, let s := rotating.spawnRotationTask T env now ttl
        serverConfig T (lastBuilt T false env boot n) = .ok (s n).inner ∧
        (s n).serial = (lastBuilt T false env boot n).serial ∧
        (s n).inner.clientAuth ≠ none ∧
        (installed T false (env n) = none →
          (s (n + 1)).inner = (s n).inner ∧ (s (n + 1)).serial = (s n).serial)) ∧
    (RotatingTlsConfig.newGateway T boot = .ok rotating →
      ∀ n, let s := rotating.spawnRotationTask T env now ttl
        gatewayServerConfig T (lastBuilt T true env boot n) = .ok (s n).inner ∧
        (s n).serial = (lastBuilt T true env boot n).serial ∧
        (s n).inner.clientAuth = none ∧
        (installed T true (env n) = none →
          (s (n + 1)).inner = (s n).inner ∧ (s (n + 1)).serial = (s n).serial)) := by
  constructor
  · intro hnew n
    obtain ⟨hflag, hboot⟩ := new_ok hnew
    unfold RotatingTlsConfig.spawnRotationTask
    rw [hflag]
    have hlast := rotationLoop_invariant (hboot now ttl) env n
    exact ⟨hlast.1, hlast.2, (serverConfig_ok hlast.1).2, rotationLoop_failed⟩
  · intro hnew n
    obtain ⟨hflag, hboot⟩ := newGateway_ok hnew
    unfold RotatingTlsConfig.spawnRotationTask
    rw [hflag]
    have hlast := rotationLoop_invariant (hboot now ttl) env n
    exact ⟨hlast.1, hlast.2, (gatewayServerConfig_ok hlast.1).2, rotationLoop_failed⟩

section Sample

/-- A bundle with the given leaf, which expires `secs` after the epoch. -/
def sampleBundle (leaf : String) (secs : ℕ) : CertBundle :=
  ⟨leaf, "K", "C", seconds secs, leaf⟩

def sampleRotating : RotatingTlsConfig := ⟨⟨[[65]], [75], some [[67]]⟩, "A", false⟩

/-- Round 0 gives the bundle `B`, and from then on the vault cannot be reached. -/
def sampleRenewals (round _attempt : ℕ) : RenewCall :=
  ⟨0, if round = 0 then .ok (sampleBundle "B" 570) else .error (.vaultUnreachable "refused")⟩

end Sample

theorem rotation_keeps_last_built_sample :
    let s := sampleRotating.spawnRotationTask sampleRustls sampleRenewals 0 300
    serverConfig sampleRustls (lastBuilt sampleRustls false sampleRenewals
        (sampleBundle "A" 300) 1) = .ok (s 1).inner ∧
      (s 1).inner.clientAuth ≠ none ∧ (s 2).inner = (s 1).inner := by
  obtain ⟨hinner, -, hauth, hfailed⟩ := (rotation_keeps_last_built sampleRustls sampleRenewals
    (sampleBundle "A" 300) 0 300 sampleRotating).1 rfl 1
  exact ⟨hinner, hauth, (hfailed rfl).1⟩

end SecureNet
