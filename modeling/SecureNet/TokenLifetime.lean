import SecureNet.GatewayProvenance
import SecureNet.Library.SoloRuns

/-!
# The lifetime of a token

`sign` and `validate` of `jwt.rs` at two times, and the lifetime that `auth_token` announces. Times
are in seconds.
-/

namespace SecureNet.ApiGateway

open Tasks Tasks.Prog

/-- What `validate` asks of `decode`. -/
structure Validation where
  leeway : ℤ
  iss : String

/-- `Validation::new` with the issuer set. It allows a minute past the expiry. -/
def validation : Validation := ⟨60, issuer⟩

/-- `jsonwebtoken` with the keys of the gateway. `decode` is given the time at which it is called. -/
structure JsonWebToken where
  encode : Claims → Except String String
  decode : Validation → ℤ → String → Except String Claims

namespace JsonWebToken

/-- The keys belong together: a token that was encoded is decoded to its claims, unless it is of
another issuer or has expired. -/
structure Matching (J : JsonWebToken) : Prop where
  accepts : ∀ v now claims token, J.encode claims = .ok token → claims.iss = v.iss →
    now - v.leeway ≤ claims.exp → J.decode v now token = .ok claims
  expired : ∀ v now claims token, J.encode claims = .ok token → claims.exp < now - v.leeway →
    ∃ e, J.decode v now token = .error e

variable (J : JsonWebToken)

/-- What the handlers meet at a time. They reach no backend. -/
def input (now : ℤ) : GatewayInput where
  now := now
  encoded := J.encode
  decoded := J.decode validation now
  sent _ := .error "connection refused"

/-- A program that runs at the given time returns `a`. -/
def Answers {α : Type} (now : ℤ) (p : Prog gatewaySig α) (a : α) : Prop :=
  ∃ evs, Prog.run gatewayEnv 0 (J.input now) () p = some ((), a, evs)

/-- What a lifetime promises for a token that was signed at `t₀` and is validated at `t`. -/
def Lifetime (secs : ℤ) (username : String) (roles : List String) (t₀ t : ℤ) (token : String) :
    Prop :=
  ∃ result, J.Answers t (validate token) result ∧
    (t ≤ t₀ + secs → ∃ claims, result = .ok claims ∧ claims.sub = username ∧ claims.roles = roles) ∧
    (t₀ + secs < t → ∃ reason, result = .error (.authInvalidToken reason))

variable {J} {username token : String} {roles : List String} {t₀ t : ℤ}

lemma Answers.unique {α : Type} {p : Prog gatewaySig α} {a b : α} (ha : J.Answers t p a)
    (hb : J.Answers t p b) : a = b := by
  obtain ⟨evs, ha⟩ := ha
  obtain ⟨evs', hb⟩ := hb
  have hsame := Option.some.inj (ha.symm.trans hb)
  exact congrArg (fun done => done.2.1) hsame

lemma signed_claims (h : J.Answers t₀ (sign username roles) (.ok token)) :
    J.encode ⟨username, t₀, t₀ + tokenExpirySecs, issuer, roles⟩ = .ok token := by
  have hsign : J.Answers t₀ (sign username roles)
      (mapErr (J.encode ⟨username, t₀, t₀ + tokenExpirySecs, issuer, roles⟩) .internal) :=
    ⟨_, rfl⟩
  have hmap := hsign.unique h
  cases hencode : J.encode ⟨username, t₀, t₀ + tokenExpirySecs, issuer, roles⟩ with
  | ok other =>
    rw [hencode] at hmap
    cases hmap
    rfl
  | error e =>
    rw [hencode] at hmap
    cases hmap

lemma answers_validate : J.Answers t (validate token)
    (mapErr (J.decode validation t token) .authInvalidToken) := ⟨_, rfl⟩

/-- A token that was signed at `t₀` is valid to the end of the lifetime and the leeway. -/
lemma validate_signed (hJ : J.Matching) (hsign : J.Answers t₀ (sign username roles) (.ok token)) :
    (t ≤ t₀ + tokenExpirySecs + validation.leeway → J.Answers t (validate token)
        (.ok ⟨username, t₀, t₀ + tokenExpirySecs, issuer, roles⟩)) ∧
      (t₀ + tokenExpirySecs + validation.leeway < t →
        ∃ reason, J.Answers t (validate token) (.error (.authInvalidToken reason))) := by
  have hencode := signed_claims hsign
  have hvalidate : J.Answers t (validate token)
      (mapErr (J.decode validation t token) .authInvalidToken) := answers_validate
  constructor
  · intro hle
    rw [hJ.accepts validation t _ token hencode rfl (by simp only; omega)] at hvalidate
    exact hvalidate
  · intro hlt
    obtain ⟨e, hexpired⟩ := hJ.expired validation t _ token hencode (by simp only; omega)
    rw [hexpired] at hvalidate
    exact ⟨e, hvalidate⟩

/-- The answer of `auth_token` announces an hour for the token that it has signed. -/
lemma authToken_announces {G : Gateway} {req : Http.Request} {resp : TokenResponse}
    (h : J.Answers t₀ (authToken G req) (.token resp)) :
    resp.expiresIn = 3600 ∧
      ∃ username roles, J.Answers t₀ (sign username roles) (.ok resp.accessToken) := by
  obtain ⟨evs, hrun⟩ := h
  unfold authToken at hrun
  split at hrun
  · obtain ⟨-, hresp, -⟩ := run_done.mp hrun
    cases hresp
  · next login _ =>
    split at hrun
    · obtain ⟨-, hresp, -⟩ := run_done.mp hrun
      cases hresp
    · next roles _ =>
      obtain ⟨⟨⟩, signed, pre, rest, hsign, hrest, -⟩ := Prog.run_bind.mp hrun
      cases signed with
      | error e =>
        obtain ⟨-, hresp, -⟩ := run_done.mp hrest
        cases hresp
      | ok token =>
        obtain ⟨-, hresp, -⟩ := run_done.mp hrest
        cases hresp
        exact ⟨rfl, login.username, roles, pre, hsign⟩

end JsonWebToken

open JsonWebToken

/-- `validate` keeps the lifetime that `auth_token` announces, except in the minute after its end,
in which it still accepts the token. -/
theorem token_lifetime_iff (J : JsonWebToken) (hJ : J.Matching) :
    (∀ username roles t₀ t token, J.Answers t₀ (sign username roles) (.ok token) →
      (J.Lifetime 3600 username roles t₀ t token ↔ t ≤ t₀ + 3600 ∨ t₀ + 3660 < t)) ∧
    ∀ G req resp t₀, J.Answers t₀ (authToken G req) (.token resp) →
      resp.expiresIn = 3600 ∧
        ∃ username roles, J.Answers t₀ (sign username roles) (.ok resp.accessToken) := by
  refine ⟨?_, fun G req resp t₀ h => authToken_announces h⟩
  intro username roles t₀ t token hsign
  have hend : t₀ + tokenExpirySecs + validation.leeway = t₀ + 3660 := by
    change t₀ + 3600 + 60 = t₀ + 3660
    omega
  have hvalidate := validate_signed (t := t) hJ hsign
  rw [hend] at hvalidate
  obtain ⟨hvalid, hexpired⟩ := hvalidate
  constructor
  · rintro ⟨result, hresult, -, hrefuses⟩
    by_contra hminute
    obtain ⟨reason, rfl⟩ := hrefuses (by omega)
    have hsame := hresult.unique (hvalid (by omega))
    cases hsame
  · rintro (hle | hlt)
    · refine ⟨_, hvalid (by omega), ?_, ?_⟩
      · intro _
        exact ⟨_, rfl, rfl, rfl⟩
      · intro hover
        omega
    · obtain ⟨reason, hreason⟩ := hexpired hlt
      refine ⟨_, hreason, ?_, ?_⟩
      · intro hle
        omega
      · intro _
        exact ⟨reason, rfl⟩

section Sample

/-- The library with one token in use. -/
def sampleJwt : JsonWebToken where
  encode claims := if claims = sampleClaims then .ok "t" else .error "InvalidKeyFormat"
  decode v now token :=
    if token = "t" then
      if sampleClaims.exp < now - v.leeway then .error "ExpiredSignature"
      else if sampleClaims.iss = v.iss then .ok sampleClaims
      else .error "InvalidIssuer"
    else .error "InvalidToken"

lemma sampleJwt_encode {claims : Claims} {token : String}
    (h : sampleJwt.encode claims = .ok token) : claims = sampleClaims ∧ token = "t" := by
  simp only [sampleJwt] at h
  split at h
  · next heq =>
    cases h
    exact ⟨heq, rfl⟩
  · cases h

lemma sampleJwt_matching : sampleJwt.Matching where
  accepts := by
    intro v now claims token hencode hiss hle
    obtain ⟨rfl, rfl⟩ := sampleJwt_encode hencode
    have hvalid : ¬sampleClaims.exp < now - v.leeway := by omega
    simp only [sampleJwt, hvalid, hiss, if_true, if_false]
  expired := by
    intro v now claims token hencode hlt
    obtain ⟨rfl, rfl⟩ := sampleJwt_encode hencode
    refine ⟨"ExpiredSignature", ?_⟩
    simp only [sampleJwt, hlt, if_true]

lemma sampleJwt_signs : sampleJwt.Answers 10 (sign "alice" ["user"]) (.ok "t") := ⟨_, rfl⟩

end Sample

theorem token_lifetime_iff_alice :
    sampleJwt.Lifetime 3600 "alice" ["user"] 10 3610 "t" ∧
      ¬sampleJwt.Lifetime 3600 "alice" ["user"] 10 3611 "t" ∧
      ∃ username roles, sampleJwt.Answers 10 (sign username roles) (.ok "t") := by
  obtain ⟨hlifetime, hannounced⟩ := token_lifetime_iff sampleJwt sampleJwt_matching
  have hiff := hlifetime "alice" ["user"] 10
  refine ⟨(hiff 3610 "t" sampleJwt_signs).mpr (by decide), ?_, ?_⟩
  · intro hminute
    exact absurd ((hiff 3611 "t" sampleJwt_signs).mp hminute) (by decide)
  · exact (hannounced sampleApp loginRequest ⟨"t", "Bearer", 3600⟩ 10 ⟨_, rfl⟩).2

/-- A second after the hour `validate` still returns the claims. -/
theorem expired_token_accepted :
    sampleJwt.Matching ∧ sampleJwt.Answers 10 (sign "alice" ["user"]) (.ok "t") ∧
      sampleJwt.Answers 3611 (validate "t") (.ok sampleClaims) ∧ sampleClaims.exp = 3610 ∧
      ¬sampleJwt.Lifetime 3600 "alice" ["user"] 10 3611 "t" := by
  have haccepted : sampleJwt.Answers 3611 (validate "t") (.ok sampleClaims) := ⟨_, rfl⟩
  refine ⟨sampleJwt_matching, sampleJwt_signs, haccepted, rfl, ?_⟩
  rintro ⟨result, hresult, -, hrefuses⟩
  obtain ⟨reason, rfl⟩ := hrefuses (by decide)
  cases hresult.unique haccepted

end SecureNet.ApiGateway
