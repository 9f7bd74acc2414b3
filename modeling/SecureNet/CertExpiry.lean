import SecureNet.Routes

/-!
# Two expiry times

`issue` reads the clock twice: before it builds the certificate, whose `notAfter` is derived from the
first reading, and after the signature, for the `expires_at` of the bundle. Peers go by the
certificate, and the service goes by the bundle.
-/

namespace SecureNet

/-- The time that stands in a certificate, which has no fractions of a second. -/
def x509Time (τ : ℤ) : ℤ := τ - τ % seconds 1

lemma x509Time_add_seconds (τ : ℤ) (n : ℕ) : x509Time (τ + seconds n) = x509Time τ + seconds n := by
  unfold x509Time seconds
  omega

variable {rc : Rcgen} {self : Issuer} {serviceName : String} {serial : UInt64} {now utcNow : ℤ}
  {leafKey : Option KeyPair} {c : Issued}

/-- How much later than the certificate the bundle expires: the time that the key and the signatures
take, and what the certificate's time loses. -/
lemma expiry_gap (h : self.issue rc serviceName serial now leafKey utcNow = .ok c) :
    c.bundle.expiresAt =
      x509Time c.certificate.params.notAfter + (utcNow - now) + now % seconds 1 := by
  obtain ⟨⟨names, hparams⟩, -, -, hexpires⟩ := Issuer.issue_ok h
  rw [hexpires, hparams, Issuer.leafParams, x509Time_add_seconds, x509Time]
  omega

/-- The bundle does not expire after its certificate exactly if the clock stands still from the
first reading to the second, and on a whole second. -/
theorem expires_in_time_iff (h : self.issue rc serviceName serial now leafKey utcNow = .ok c)
    (hclock : now ≤ utcNow) :
    c.bundle.expiresAt ≤ x509Time c.certificate.params.notAfter ↔
      utcNow = now ∧ (seconds 1 : ℤ) ∣ now := by
  have hgap := expiry_gap h
  have hlost : 0 ≤ now % (seconds 1 : ℤ) := Int.emod_nonneg _ (by decide)
  rw [Int.dvd_iff_emod_eq_zero]
  omega

/-- A service counts down whole seconds, so it takes its certificate for valid for too long only
if the two times are more than a second apart. -/
theorem ttl_in_time_iff (h : self.issue rc serviceName serial now leafKey utcNow = .ok c) :
    (∀ τ, 0 < c.bundle.ttlSecs τ → τ ≤ x509Time c.certificate.params.notAfter) ↔
      utcNow - now + now % seconds 1 ≤ seconds 1 := by
  have hgap := expiry_gap h
  simp only [CertBundle.ttlSecs_pos_iff]
  constructor
  · intro hvalid
    have hlast := hvalid (c.bundle.expiresAt - seconds 1) (by omega)
    omega
  · intro hle τ hτ
    omega

section Sample

def issuedAt (now utcNow : ℤ) : Except String Issued :=
  sampleDeployment.issuer.issue sampleRcgen "order-service" 1 now (some ⟨"LEAF KEY"⟩) utcNow

end Sample

theorem expires_in_time_iff_instant : ∃ c, issuedAt 0 0 = .ok c ∧
    c.bundle.expiresAt ≤ x509Time c.certificate.params.notAfter := by
  refine ⟨_, rfl, ?_⟩
  exact (expires_in_time_iff (rfl : issuedAt 0 0 = .ok _) (Int.le_refl _)).mpr
    ⟨rfl, Int.dvd_zero _⟩

/-- The key and the signatures take 5 ms. -/
theorem bundle_outlives_certificate : ∃ c, issuedAt 0 5000000 = .ok c ∧
    x509Time c.certificate.params.notAfter = 300000000000 ∧
    c.bundle.expiresAt = 300005000000 ∧
    ¬c.bundle.expiresAt ≤ x509Time c.certificate.params.notAfter :=
  ⟨_, rfl, rfl, rfl, by decide⟩

end SecureNet
