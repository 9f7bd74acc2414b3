import SecureNet.UserService

/-!
# The serial in the health answer

Each service copies the serial of its boot bundle into the state of its handlers, and nothing
writes that copy again. The rotation goes on to replace the certificate.
-/

namespace SecureNet

open Hex (Bytes)

variable (T : Rustls) (host : Host) (leafSerial : List Bytes → String)

/-- The serial of the bundle is that of the leaf of its chain. -/
def CertBundle.Labelled (bundle : CertBundle) : Prop :=
  ∀ chain, parseCertChain T bundle.certPem = .ok chain → leafSerial chain = bundle.serial

/-- Every bundle that the vault hands out bears the serial of its certificate. -/
structure LabelledBundles : Prop where
  unsealed : ∀ bundle, host.unsealed = .ok bundle → bundle.Labelled T leafSerial
  renewed : ∀ n attempt bundle, (host.renewals n attempt).result = .ok bundle →
    bundle.Labelled T leafSerial

/-- In the first `N` rounds no rotation installs a bundle with another serial. -/
def SerialKept (boot : BootResult) (N : ℕ) : Prop :=
  ∀ n < N, ∀ bundle, installed T boot.tlsConfig.isGateway (host.renewals n) = some bundle →
    bundle.serial = boot.bundle.serial

/-- The reported serial is that of the certificate which new connections get at head `n` of the
rotation loop. -/
def ReportsPresented (boot : BootResult) (reported : Option String) (n : ℕ) : Prop :=
  reported = some (leafSerial (boot.rotation n).inner.certChain)

variable {T host leafSerial}

lemma retryLoop_ok {calls : ℕ → RenewCall} {maxAttempts remaining attempt delay : ℕ}
    {bundle : CertBundle}
    (h : (retryLoop calls maxAttempts remaining attempt delay).1 = .ok bundle) :
    ∃ k, (calls k).result = .ok bundle := by
  induction remaining generalizing attempt delay with
  | zero => cases h
  | succ remaining ih =>
    rw [retryLoop] at h
    cases hresult : (calls attempt).result with
    | ok b =>
      rw [hresult] at h
      exact ⟨attempt, by rw [hresult, ← h]⟩
    | error e =>
      rw [hresult] at h
      by_cases hlt : attempt < maxAttempts
      · simp only [hlt, ↓reduceIte] at h
        exact ih h
      · simp only [hlt, ↓reduceIte] at h
        exact ih h

lemma installed_labelled (h : LabelledBundles T host leafSerial) {isGateway : Bool} {n : ℕ}
    {bundle : CertBundle} (hb : installed T isGateway (host.renewals n) = some bundle) :
    bundle.Labelled T leafSerial := by
  obtain ⟨k, hk⟩ := retryLoop_ok (installed_some hb).1
  exact h.renewed n k bundle hk

lemma lastBuilt_labelled (h : LabelledBundles T host leafSerial) {isGateway : Bool}
    {boot : CertBundle} (hboot : boot.Labelled T leafSerial) (n : ℕ) :
    (lastBuilt T isGateway host.renewals boot n).Labelled T leafSerial := by
  induction n with
  | zero => exact hboot
  | succ n ih =>
    cases hb : installed T isGateway (host.renewals n) with
    | none =>
      rw [lastBuilt_failed boot hb]
      exact ih
    | some bundle =>
      rw [lastBuilt_installed boot hb]
      exact installed_labelled h hb

lemma buildConfig_chain {isGateway : Bool} {bundle : CertBundle} {config : ServerConfig}
    (h : buildConfig T isGateway bundle = .ok config) :
    parseCertChain T bundle.certPem = .ok config.certChain := by
  cases isGateway with
  | false => exact (serverConfig_ok h).1
  | true => exact (gatewayServerConfig_ok h).1

/-- The serials of the installed bundles stay that of the boot bundle exactly as long as no round
installs another one. -/
lemma serialKept_iff {boot : BootResult} {N : ℕ} :
    (∀ n ≤ N, (boot.installedBundle T host n).serial = boot.bundle.serial) ↔
      SerialKept T host boot N := by
  constructor
  · intro h n hn bundle hb
    have hnext := h (n + 1) hn
    unfold BootResult.installedBundle at hnext
    rwa [lastBuilt_installed _ hb] at hnext
  · intro h n hn
    unfold BootResult.installedBundle
    induction n with
    | zero => rfl
    | succ n ih =>
      cases hb : installed T boot.tlsConfig.isGateway (host.renewals n) with
      | none =>
        rw [lastBuilt_failed _ hb]
        exact ih (by omega)
      | some bundle =>
        rw [lastBuilt_installed _ hb]
        exact h n hn bundle hb

/-- What every boot gives: the serial that was copied at boot is reported truly exactly as long as
it is kept. -/
lemma reports_iff {create : CertBundle → Except AppError RotatingTlsConfig}
    {failure vaultUrl : String} {isGateway : Bool} {boot : BootResult}
    (hcreate : ∀ {bundle rotating}, create bundle = .ok rotating →
      rotating.isGateway = isGateway ∧
        ∀ now ttl, Boots T isGateway bundle ⟨ttl, now, rotating.inner, rotating.serial⟩)
    (hrun : bootWith T host create failure vaultUrl = .ok boot)
    (hlabel : LabelledBundles T host leafSerial) (N : ℕ) :
    (∀ n ≤ N, ReportsPresented leafSerial boot (some boot.bundle.serial) n) ↔
      SerialKept T host boot N := by
  have hboot : boot.bundle.Labelled T leafSerial := by
    unfold bootWith at hrun
    obtain ⟨bundle, hunsealed, hrun⟩ := except_bind_ok.mp hrun
    obtain ⟨tlsConfig, -, hrun⟩ := except_bind_ok.mp hrun
    cases hrun
    exact hlabel.unsealed bundle (withContext_ok.mp hunsealed)
  have hserial : ∀ n, leafSerial (boot.rotation n).inner.certChain =
      (boot.installedBundle T host n).serial := by
    intro n
    have hchain := buildConfig_chain (bootWith_installed hcreate hrun n)
    exact lastBuilt_labelled hlabel hboot n _ hchain
  rw [← serialKept_iff]
  apply forall_congr'
  intro n
  apply imp_congr Iff.rfl
  unfold ReportsPresented
  rw [hserial n, Option.some.injEq, eq_comm]

/-- In all three services `GET /health` reports the serial of the presented certificate exactly as
long as no rotation changes the serial. -/
theorem health_serial_iff (T : Rustls) (host : Host) (leafSerial : List Bytes → String)
    (hlabel : LabelledBundles T host leafSerial) (N : ℕ) :
    (∀ users, UserService.main T host = .ok users →
      ((∀ n ≤ N, ReportsPresented leafSerial users.boot (UserService.health users.state).certSerial
          n) ↔ SerialKept T host users.boot N)) ∧
    (∀ orders, OrderService.main T host = .ok orders →
      ((∀ n ≤ N, ReportsPresented leafSerial orders.boot
          (OrderService.health orders.state).certSerial n) ↔ SerialKept T host orders.boot N)) ∧
    (∀ gateway, ApiGateway.main T host = .ok gateway →
      ((∀ n ≤ N, ReportsPresented leafSerial gateway.boot
          (((ApiGateway.health gateway.state).get "cert_serial").bind Value.asStr) n) ↔
        SerialKept T host gateway.boot N)) := by
  refine ⟨?_, ?_, ?_⟩
  · intro users hmain
    unfold UserService.main at hmain
    obtain ⟨boot, hboot, hmain⟩ := except_bind_ok.mp hmain
    cases hmain
    exact reports_iff new_ok hboot hlabel N
  · intro orders hmain
    unfold OrderService.main at hmain
    obtain ⟨boot, hboot, hmain⟩ := except_bind_ok.mp hmain
    obtain ⟨client, -, hmain⟩ := except_bind_ok.mp hmain
    cases hmain
    exact reports_iff new_ok hboot hlabel N
  · intro gateway hmain
    unfold ApiGateway.main at hmain
    obtain ⟨boot, hboot, hmain⟩ := except_bind_ok.mp hmain
    obtain ⟨client, -, hmain⟩ := except_bind_ok.mp hmain
    cases hmain
    exact reports_iff newGateway_ok hboot hlabel N

section Sample

/-- The serial of a leaf of one byte is the letter of that byte. -/
def sampleSerial (chain : List Bytes) : String :=
  if chain.head? = some [66] then "B" else "A"

lemma labelled_sample : LabelledBundles sampleRustls sampleHost sampleSerial := by
  constructor
  · intro bundle hb chain hchain
    cases hb
    cases hchain
    rfl
  · intro n attempt bundle hb chain hchain
    cases n with
    | zero =>
      cases hb
      cases hchain
      rfl
    | succ n => cases hb

lemma labelled_kept : LabelledBundles sampleRustls keptHost sampleSerial := by
  have hlabelled : (sampleBundle "B" 300).Labelled sampleRustls sampleSerial := by
    intro chain hchain
    cases hchain
    rfl
  constructor
  · intro bundle hb
    cases hb
    exact hlabelled
  · intro n attempt bundle hb
    obtain _ | _ | n := n <;> cases hb
    exact hlabelled

end Sample

/-- After a round that has failed and one that has brought the old certificate. -/
theorem health_serial_iff_kept :
    ∃ gateway, ApiGateway.main sampleRustls keptHost = .ok gateway ∧
      ∀ n ≤ 2, ReportsPresented sampleSerial gateway.boot
        (((ApiGateway.health gateway.state).get "cert_serial").bind Value.asStr) n := by
  refine ⟨_, rfl, ((health_serial_iff sampleRustls keptHost sampleSerial labelled_kept 2).2.2 _
    rfl).mpr ?_⟩
  intro n _ bundle hinstalled
  rw [installed_kept hinstalled]

/-- After the rotation from `B` to `A` the gateway, the user service and the order service all
still report `B`. -/
theorem health_reports_old_serial :
    LabelledBundles sampleRustls sampleHost sampleSerial ∧
      (∃ users, UserService.main sampleRustls sampleHost = .ok users ∧
        (UserService.health users.state).certSerial = some "B" ∧
        sampleSerial (users.boot.rotation 1).inner.certChain = "A") ∧
      (∃ orders, OrderService.main sampleRustls sampleHost = .ok orders ∧
        (OrderService.health orders.state).certSerial = some "B" ∧
        sampleSerial (orders.boot.rotation 1).inner.certChain = "A") ∧
      ∃ gateway, ApiGateway.main sampleRustls sampleHost = .ok gateway ∧
        ((ApiGateway.health gateway.state).get "cert_serial").bind Value.asStr = some "B" ∧
        sampleSerial (gateway.boot.rotation 1).inner.certChain = "A" :=
  ⟨labelled_sample, ⟨_, rfl, rfl, rfl⟩, ⟨_, rfl, rfl, rfl⟩, ⟨_, rfl, rfl, rfl⟩⟩

end SecureNet
