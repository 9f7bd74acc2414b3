import SecureNet.Lookup
import SecureNet.TokenLifetime

/-!
# Sessions

Who reads what through the gateway: a login opens a session, which lasts for the lifetime of its
token and the leeway, and only requests with the token of such a session reach the services.
-/

namespace SecureNet.ApiGateway

open EventMachine Http Tasks Tasks.Prog

/-- `jsonwebtoken` with the keys of the gateway, and the clock that it reads. -/
structure JsonWebToken.Serves (J : JsonWebToken) (inp : GatewayInput) : Prop where
  encoded : inp.encoded = J.encode
  decoded : inp.decoded = J.decode validation inp.now

/-- The claims that `sign` signs at the time. -/
def signedAt (username : String) (roles : List String) (now : ℤ) : Claims :=
  ⟨username, now, now + tokenExpirySecs, issuer, roles⟩

/-- Request `i` began to be served at the time. -/
def Began (as : List (Action Http.Request GatewayInput)) (i : ℕ) (now : ℤ) : Prop :=
  (pollsOf i as).head?.map GatewayInput.now = some now

/-- A login at the time `t₀`, by a user whose password the store accepts, was answered with the
token. -/
def Session (G : Gateway) (as : List (Action Http.Request GatewayInput)) (tr : GatewayTrace)
    (token : String) (t₀ : ℤ) : Prop :=
  ∃ j login username roles password, .arrived j login ∈ tr ∧ Began as j t₀ ∧
    Login G login (signedAt username roles t₀) password ∧
    .responded j (.token ⟨token, "Bearer", 3600⟩) ∈ tr

/-- The request bears the token of a session that has not ended at the time `t`. -/
def Live (G : Gateway) (as : List (Action Http.Request GatewayInput)) (tr : GatewayTrace)
    (req : Http.Request) (t : ℤ) : Prop :=
  ∃ token t₀, bearerToken req.headers = .ok token ∧ Session G as tr token t₀ ∧ t ≤ t₀ + 3660

section Identity

variable {h₁ h₂ : String}

lemma seeded_roles {username : String} {roles : List String}
    (h : (UserStore.seeded h₁ h₂).rolesOf username = some roles) :
    (username = "alice" ∧ roles = ["user"]) ∨ (username = "admin" ∧ roles = ["user", "admin"]) := by
  rw [UserStore.rolesOf, Option.map_eq_some_iff] at h
  obtain ⟨⟨hash, roles⟩, hlook, rfl⟩ := h
  rw [UserStore.seeded] at hlook
  by_cases hadmin : username = "admin"
  · rw [hadmin, AList.lookup_insert] at hlook
    cases hlook
    exact .inr ⟨hadmin, rfl⟩
  · rw [AList.lookup_insert_ne hadmin] at hlook
    by_cases halice : username = "alice"
    · rw [halice, AList.lookup_insert] at hlook
      cases hlook
      exact .inl ⟨halice, rfl⟩
    · rw [AList.lookup_insert_ne halice] at hlook
      cases hlook

/-- The users of the store and their roles go into headers. -/
lemma injectIdentity_seeded {claims : Claims} (headers : HeaderMap)
    (h : (UserStore.seeded h₁ h₂).rolesOf claims.sub = some claims.roles) :
    ∃ headers', injectIdentity headers claims = .ok headers' := by
  have hfits : (HeaderValue.fromStr claims.sub).isSome = true ∧
      (HeaderValue.fromStr (joinRoles claims.roles)).isSome = true := by
    rcases seeded_roles h with ⟨hsub, hroles⟩ | ⟨hsub, hroles⟩
    · rw [hsub, hroles]
      decide +kernel
    · rw [hsub, hroles]
      decide +kernel
  obtain ⟨sub, hsub⟩ := Option.isSome_iff_exists.mp hfits.1
  obtain ⟨roles, hroles⟩ := Option.isSome_iff_exists.mp hfits.2
  refine ⟨(headers.insert "x-user-id" sub).insert "x-user-roles" roles, ?_⟩
  simp only [injectIdentity, hsub, hroles]

end Identity

section Handlers

variable {J : JsonWebToken} {G : Gateway} {req : Http.Request} {inps : List GatewayInput}
  {a : GatewayResponse} {evs : List GatewayEvent}

/-- What a login that the store accepts does. -/
lemma authToken_eq {claims : Claims} {password : String} (hlogin : Login G req claims password) :
    authToken G req = .call .timestamp fun now =>
      .call (.encode (signedAt claims.sub claims.roles now)) fun encoded => .done <|
        match encoded with
        | .ok token => .token ⟨token, "Bearer", 3600⟩
        | .error e => .failed (.internal e) := by
  simp only [authToken, hlogin.parsed, hlogin.accepted]
  refine congrArg (Prog.call _) (funext fun now => congrArg (Prog.call _) ?_)
  funext encoded
  cases encoded <;> rfl

/-- The token of a login is signed at the time of its first poll. -/
lemma authToken_fed {claims : Claims} {password : String} (hlogin : Login G req claims password)
    (hserves : ∀ inp ∈ inps, J.Serves inp)
    (hfed : GatewayTask.fed (authToken G req) inps = some (a, evs)) :
    ∃ now, inps.head?.map GatewayInput.now = some now ∧
      ((∃ token, J.encode (signedAt claims.sub claims.roles now) = .ok token ∧
        a = .token ⟨token, "Bearer", 3600⟩ ∧
        evs = [.signed (signedAt claims.sub claims.roles now) token]) ∨
      (∃ e, a = .failed e ∧ evs = [])) := by
  rw [authToken_eq hlogin] at hfed
  obtain ⟨inp, rest, evs₁, rfl, hrest, rfl⟩ := fed_call.mp hfed
  obtain ⟨inp', rest', evs₂, rfl, hdone, rfl⟩ := fed_call.mp hrest
  obtain ⟨rfl, rfl⟩ := fed_done.mp hdone
  refine ⟨inp.now, rfl, ?_⟩
  simp only [GatewayInput.answer, GatewayOp.events, (hserves inp' (by simp)).encoded]
  cases hsigned : J.encode (signedAt claims.sub claims.roles inp.now) with
  | error e => exact .inr ⟨_, rfl, rfl⟩
  | ok token => exact .inl ⟨token, rfl, rfl, rfl⟩

lemma bearerToken_error {headers : HeaderMap} {e : AppError} (h : bearerToken headers = .error e) :
    e = .authMissingToken := by
  unfold bearerToken at h
  split at h
  · cases h
    rfl
  · split at h
    · cases h
      rfl
    · cases h

end Handlers

section Runs

variable {A : Type} {B : Backends A} {lossy : Prop} {J : JsonWebToken} {G : Gateway}
  {h₁ h₂ : String} {as : List (Action Http.Request GatewayInput)}
  {s : System gatewaySig Unit Http.Request GatewayResponse} {tr : GatewayTrace}

lemma serves_polls (hserves : ∀ a ∈ as, ∀ inp ∈ a.inputs, J.Serves inp) (i : ℕ) :
    ∀ inp ∈ pollsOf i as, J.Serves inp := by
  intro inp hinp
  obtain ⟨a, ha, hinput⟩ := mem_pollsOf hinp
  exact hserves a ha inp hinput

/-- The token of a session was signed when the session began. -/
lemma session_signed (h : (gateway G).exec ⟨(), []⟩ as = some (s, tr))
    (hserves : ∀ a ∈ as, ∀ inp ∈ a.inputs, J.Serves inp) {token : String} {t₀ : ℤ}
    (hsession : Session G as tr token t₀) :
    ∃ username roles, J.encode (signedAt username roles t₀) = .ok token := by
  obtain ⟨j, login, username, roles, password, harrived, hbegan, hlogin, hresponded⟩ := hsession
  have hfed := responded_fed stateless_gateway h harrived hresponded
  rw [hlogin.served] at hfed
  obtain ⟨now, hnow, ⟨token', hsigned, heq, -⟩ | ⟨e, heq, -⟩⟩ :=
    authToken_fed hlogin (serves_polls hserves j) hfed
  · cases heq
    cases hnow.symm.trans hbegan
    exact ⟨username, roles, hsigned⟩
  · cases heq

/-- A token that is validated belongs to a session of a user in the store. -/
lemma validated_session (h : (gateway G).exec ⟨(), []⟩ as = some (s, tr))
    (hserves : ∀ a ∈ as, ∀ inp ∈ a.inputs, J.Serves inp) (hforge : Unforgeable tr) {i : ℕ}
    {token : String} {claims : Claims} (hvalidated : .did i (.validated token claims) ∈ tr) :
    ∃ t₀, claims.exp = t₀ + tokenExpirySecs ∧ J.encode claims = .ok token ∧
      Session G as tr token t₀ ∧ G.userStore.rolesOf claims.sub = some claims.roles := by
  obtain ⟨l, m, hsplit⟩ := List.append_of_mem hvalidated
  obtain ⟨j, hsigned⟩ := hforge l m i token claims hsplit
  have hmem : .did j (.signed claims token) ∈ tr := by simp [hsplit, hsigned]
  obtain ⟨login, password, harrived, hlogin, hresponded⟩ := signed_returned h hmem
  have hfed := responded_fed stateless_gateway h harrived hresponded
  rw [hlogin.served] at hfed
  obtain ⟨t₀, hbegan, ⟨token', hencoded, -, hevents⟩ | ⟨e, heq, -⟩⟩ :=
    authToken_fed hlogin (serves_polls hserves j) hfed
  · have hhistory : .signed claims token ∈ history j tr := mem_history.mpr hmem
    rw [hevents, List.mem_singleton] at hhistory
    obtain ⟨hclaims, rfl⟩ := GatewayEvent.signed.inj hhistory
    rw [← hclaims] at hencoded
    refine ⟨t₀, by rw [hclaims]; rfl, hencoded, ?_, UserStore.authenticate_roles hlogin.accepted⟩
    exact ⟨j, login, claims.sub, claims.roles, password, harrived, hbegan,
      ⟨hlogin.served, hlogin.parsed, hlogin.accepted⟩, hresponded⟩
  · cases heq

/-- A GET request for a proxied path is let through with the token of a session that has not ended, and
refused with the status 401 otherwise. -/
lemma live_or_refused (h : (gateway G).exec ⟨(), []⟩ as = some (s, tr)) (hJ : J.Matching)
    (hserves : ∀ a ∈ as, ∀ inp ∈ a.inputs, J.Serves inp) (hforge : Unforgeable tr)
    (hstore : G.userStore = UserStore.seeded h₁ h₂) {i : ℕ} {req : Http.Request}
    (harrived : .arrived i req ∈ tr) (hmethod : req.method = .get) {route : ProxyRoute}
    (hroute : Routed req.path route) {t : ℤ} (hbegan : Began as i t) {a : GatewayResponse}
    (ha : .responded i a ∈ tr) :
    (¬Live G as tr req t ∧ a.intoResponse.status.1 = 401) ∨
      (Live G as tr req t ∧ ∃ inp ∈ pollsOf i as, a = .proxied (proxyGet G.fromSlice
        (proxy G.state route).url (inp.sent (proxy G.state route).url))) := by
  have hfed := responded_fed stateless_gateway h harrived ha
  rw [app_routed hroute] at hfed
  cases htoken : bearerToken req.headers with
  | error e =>
    simp only [jwtMiddleware, htoken] at hfed
    obtain ⟨rfl, -⟩ := fed_done.mp hfed
    refine .inl ⟨?_, by rw [bearerToken_error htoken]; rfl⟩
    rintro ⟨token, t₀, hok, -⟩
    rw [htoken] at hok
    cases hok
  | ok token =>
    obtain ⟨inp, rest, hpolls, hdecision⟩ := jwtMiddleware_fed htoken hmethod hfed
    have hnow : inp.now = t := by
      rw [Began, hpolls] at hbegan
      exact Option.some.inj hbegan
    have hdecodes : inp.decoded token = J.decode validation t token := by
      have hinp : inp ∈ pollsOf i as := by simp [hpolls]
      rw [(serves_polls hserves i inp hinp).decoded, hnow]
    rcases hdecision with ⟨e, hdecoded, rfl⟩ | ⟨claims, hdecoded, hvalidated, hproxied⟩
    all_goals rw [hdecodes] at hdecoded
    · refine .inl ⟨?_, rfl⟩
      rintro ⟨token', t₀, hok, hsession, hlive⟩
      cases htoken.symm.trans hok
      obtain ⟨username, roles, hsigned⟩ := session_signed h hserves hsession
      have haccepted := hJ.accepts validation t _ token hsigned rfl
        (show t - 60 ≤ t₀ + 3600 by omega)
      rw [hdecoded] at haccepted
      cases haccepted
    · obtain ⟨t₀, hexp, hencoded, hsession, hroles⟩ :=
        validated_session h hserves hforge (mem_history.mp hvalidated)
      have hlive : t ≤ t₀ + 3660 := by
        by_contra hlate
        obtain ⟨e, hexpired⟩ := hJ.expired validation t claims token hencoded (by
          rw [hexp]
          show t₀ + 3600 < t - 60
          omega)
        rw [hdecoded] at hexpired
        cases hexpired
      -- The users of the store have names and roles that go into headers.
      rw [hstore] at hroles
      obtain ⟨headers, hinject⟩ := injectIdentity_seeded req.headers hroles
      rcases hproxied with ⟨e, herror, -⟩ | ⟨headers', -, hanswer⟩
      · rw [hinject] at herror
        cases herror
      · exact .inr ⟨⟨token, t₀, htoken, hsession, hlive⟩, hanswer⟩

/-- If `jsonwebtoken` is unforgeable, a client that asks for a proxied path gets the status 200 only if
its request bears the token of a session that has not ended and the services have stored a resource
under the route. If moreover the network loses nothing and the certificates are accepted while the
gateway serves the request, it gets that status exactly if both are so. Without such a token the client
gets the status 401, whatever is stored and whatever is lost. -/
theorem access_iff (h : (gateway G).exec ⟨(), []⟩ as = some (s, tr)) (hJ : J.Matching)
    (hserves : ∀ a ∈ as, ∀ inp ∈ a.inputs, J.Serves inp) (hforge : Unforgeable tr)
    (hstore : G.userStore = UserStore.seeded h₁ h₂) (hplaced : Placed B G.state)
    (hparse : Parses G.fromSlice) {i : ℕ} (hnet : ∀ inp ∈ pollsOf i as, Replied B lossy G inp)
    {req : Http.Request} (harrived : .arrived i req ∈ tr) (hmethod : req.method = .get)
    {route : ProxyRoute} (hroute : Routed req.path route) (hplain : route.Plain) {t : ℤ}
    (hbegan : Began as i t) {a : GatewayResponse} (ha : .responded i a ∈ tr) :
    (a.intoResponse.status = .ok → Live G as tr req t ∧ (B.lookup route).isSome) ∧
      (¬lossy → (∀ inp ∈ pollsOf i as, B.Trusted G.state.mtlsClient.certChain inp.now) →
        (a.intoResponse.status = .ok ↔ Live G as tr req t ∧ (B.lookup route).isSome)) ∧
      (¬Live G as tr req t → a.intoResponse.status.1 = 401) := by
  rcases live_or_refused h hJ hserves hforge hstore harrived hmethod hroute hbegan ha with
    ⟨hdead, h401⟩ | ⟨hlive, inp, hinp, rfl⟩
  · have hrefused : a.intoResponse.status ≠ .ok := by
      intro hok
      rw [hok] at h401
      exact absurd h401 (by decide)
    exact ⟨fun hok => absurd hok hrefused,
      fun _ _ => iff_of_false hrefused (fun hboth => hdead hboth.1), fun _ => h401⟩
  · have hrelays := relays_lookup hplaced hparse hplain (hnet inp hinp _)
    refine ⟨?_, ?_, fun hdead => absurd hlive hdead⟩
    · intro hok
      obtain ⟨res, bytes, hres, -, -⟩ := hrelays.sound hok
      exact ⟨hlive, Option.isSome_iff_exists.mpr ⟨res, hres⟩⟩
    · intro hlossy htrusted
      have hstatus := hrelays.status (by simp [hlossy, htrusted inp hinp])
      exact hstatus.trans (and_iff_right hlive).symm

section Sample

def accessInput (now : ℤ) : GatewayInput where
  now := now
  encoded := sampleJwt.encode
  decoded := sampleJwt.decode validation now
  sent := sendAll sampleBackends now sampleClient.certChain

/-- `alice` logs in and looks up an order in the last second of the gateway's certificate, and again
after her session. -/
def accessRun : List (Action Http.Request GatewayInput) :=
  [.arrive loginRequest, .poll 0 (accessInput 10), .poll 0 (accessInput 10), .arrive lookupRequest,
    .poll 1 (accessInput 299), .poll 1 (accessInput 299), .poll 1 (accessInput 300),
    .arrive lookupRequest, .poll 2 (accessInput 3671)]

/-- A login, a request that is let in with its token, and one that is not. -/
def isAccess : GatewayTrace → Bool
  | [.arrived 0 _, .did 0 (.signed c₀ u₀), .responded 0 _, .arrived 1 r₁,
      .did 1 (.validated u₁ c₁), .did 1 (.entered _ _), .responded 1 _, .arrived 2 r₂,
      .responded 2 _] => decide (u₁ = u₀ ∧ c₁ = c₀ ∧ r₁.method = .get ∧ r₂.method = .get)
  | _ => false

lemma accessRun_inputs {a : Action Http.Request GatewayInput} (ha : a ∈ accessRun)
    {inp : GatewayInput} (hinp : inp ∈ a.inputs) : ∃ now, inp = accessInput now := by
  simp only [accessRun, List.mem_cons, List.not_mem_nil, or_false] at ha
  rcases ha with rfl | rfl | rfl | rfl | rfl | rfl | rfl | rfl | rfl <;>
    simp only [Action.inputs, List.mem_singleton, List.not_mem_nil] at hinp <;> exact ⟨_, hinp⟩

end Sample

theorem access_iff_alice :
    ∃ s tr a b, (gateway lookupApp).exec ⟨(), []⟩ accessRun = some (s, tr) ∧
      .responded 1 a ∈ tr ∧ a.intoResponse.status = .ok ∧
      .responded 2 b ∈ tr ∧ b.intoResponse.status.1 = 401 := by
  have hrun : ((gateway lookupApp).exec ⟨(), []⟩ accessRun).any
      (fun p => isAccess p.2) = true := by
    decide +kernel
  obtain ⟨s, tr, h, htest⟩ := Machine.exec_any hrun
  have hserves : ∀ a ∈ accessRun, ∀ inp ∈ a.inputs, sampleJwt.Serves inp := by
    intro a ha inp hinp
    obtain ⟨now, rfl⟩ := accessRun_inputs ha hinp
    exact ⟨rfl, rfl⟩
  have hnet : ∀ i, ∀ inp ∈ pollsOf i accessRun, Replied sampleBackends False lookupApp inp := by
    intro i inp hinp url
    obtain ⟨a, ha, hinput⟩ := mem_pollsOf hinp
    obtain ⟨now, rfl⟩ := accessRun_inputs ha hinput
    exact sendAll_reply placed_sample.orderUsers now _ url
  have htrusted : ∀ inp ∈ pollsOf 1 accessRun,
      sampleBackends.Trusted lookupApp.state.mtlsClient.certChain inp.now := by
    have hpolls : pollsOf 1 accessRun = [accessInput 299, accessInput 299, accessInput 300] := rfl
    intro inp hinp
    simp only [hpolls, List.mem_cons, List.not_mem_nil, or_false] at hinp
    rcases hinp with rfl | rfl | rfl <;> exact trusted_sample (by decide)
  unfold isAccess at htest
  split at htest
  · next r₀ c₀ u₀ a₀ r₁ u₁ c₁ route headers a₁ r₂ a₂ htr =>
    have htr : tr = [.arrived 0 r₀, .did 0 (.signed c₀ u₀), .responded 0 a₀, .arrived 1 r₁,
      .did 1 (.validated u₁ c₁), .did 1 (.entered route headers), .responded 1 a₁, .arrived 2 r₂,
      .responded 2 a₂] := htr
    obtain ⟨rfl, rfl, hget₁, hget₂⟩ := of_decide_eq_true htest
    have hforge : Unforgeable tr := by
      intro l m i token claims hsplit
      rw [htr] at hsplit
      rcases l with _ | ⟨e₀, _ | ⟨e₁, _ | ⟨e₂, _ | ⟨e₃, _ | ⟨e₄, l⟩⟩⟩⟩⟩ <;> simp at hsplit
      · obtain ⟨rfl, rfl, rfl, rfl, ⟨rfl, rfl, rfl⟩, -⟩ := hsplit
        exact ⟨0, by simp⟩
      · have hmem : (.did i (.validated token claims) : Event _ _ _) ∈
            l ++ .did i (.validated token claims) :: m := by simp
        rw [← hsplit.2.2.2.2.2] at hmem
        simp at hmem
    have hlookup : ∀ i req, .arrived i req ∈ tr → req.method = .get → req = lookupRequest := by
      intro i req hreq hget
      have hone : req = loginRequest ∨ req = lookupRequest := by
        simpa [accessRun] using arrived_arrive h hreq
      rcases hone with rfl | rfl
      · cases hget
      · rfl
    have harrived₁ : .arrived 1 r₁ ∈ tr := by simp [htr]
    have harrived₂ : .arrived 2 r₂ ∈ tr := by simp [htr]
    obtain rfl := hlookup 1 r₁ harrived₁ hget₁
    obtain rfl := hlookup 2 r₂ harrived₂ hget₂
    have ha₁ : .responded 1 a₁ ∈ tr := by simp [htr]
    have ha₂ : .responded 2 a₂ ∈ tr := by simp [htr]
    have hbegan₁ : Began accessRun 1 299 := rfl
    have hbegan₂ : Began accessRun 2 3671 := rfl
    obtain ⟨-, hfirst, -⟩ := access_iff h sampleJwt_matching hserves hforge rfl placed_sample
      lookupApp_parses (hnet 1) harrived₁ rfl routed_sample orderId_plain hbegan₁ ha₁
    obtain ⟨-, -, hsecond⟩ := access_iff h sampleJwt_matching hserves hforge rfl placed_sample
      lookupApp_parses (hnet 2) harrived₂ rfl routed_sample orderId_plain hbegan₂ ha₂
    refine ⟨s, tr, a₁, a₂, h, ha₁, (hfirst not_false htrusted).mpr ⟨?_, by rw [lookup_sample]; rfl⟩, ha₂,
      hsecond ?_⟩
    · obtain ⟨t₀, hexp, hencoded, hsession, -⟩ :=
        validated_session h hserves hforge (show .did 1 (.validated u₁ c₁) ∈ tr by simp [htr])
      obtain ⟨rfl, rfl⟩ := sampleJwt_encode hencoded
      have hexp : (3610 : ℤ) = t₀ + 3600 := hexp
      exact ⟨"t", t₀, by decide +kernel, hsession, by omega⟩
    · rintro ⟨token, t₀, -, hsession, hlive⟩
      obtain ⟨username, roles, hsigned⟩ := session_signed h hserves hsession
      have hexp : t₀ + 3600 = 3610 := congrArg Claims.exp (sampleJwt_encode hsigned).1
      omega
  · cases htest

end Runs

end SecureNet.ApiGateway
