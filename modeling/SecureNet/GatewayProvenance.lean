import SecureNet.Gateway
import SecureNet.Library.CallRules
import SecureNet.Library.TaskEvents

/-!
# Where an identity comes from

A proxy handler only runs behind the middleware, which lets a request pass for the claims of a valid
token. A valid token was signed for a user who logged in, and the roles in it are those of the
store.
-/

namespace SecureNet.ApiGateway

open Hex (Bytes)
open EventMachine Http Tasks Tasks.Prog

/-- `jsonwebtoken` validates no token that this gateway has not signed, and gives the claims that
were signed. -/
def Unforgeable (tr : GatewayTrace) : Prop :=
  ∀ l m i token claims, tr = l ++ .did i (.validated token claims) :: m →
    ∃ j, .did j (.signed claims token) ∈ l

/-- There is one header of each name, with the user and the roles of the claims. -/
structure Injected (headers : HeaderMap) (claims : Claims) : Prop where
  userId : ∃ value, headers.getAll "x-user-id" = [value] ∧ value.1 = Utf8.encode claims.sub
  userRoles : ∃ value, headers.getAll "x-user-roles" = [value] ∧
    value.1 = Utf8.encode (joinRoles claims.roles)

lemma injectIdentity_ok {headers headers' : HeaderMap} {claims : Claims}
    (h : injectIdentity headers claims = .ok headers') : Injected headers' claims := by
  unfold injectIdentity at h
  split at h
  · cases h
  · next sub hsub =>
    split at h
    · cases h
    · next roles hroles =>
      cases h
      constructor
      · refine ⟨sub, ?_, HeaderValue.fromStr_bytes hsub⟩
        rw [HeaderMap.getAll_insert_ne _ (by decide), HeaderMap.getAll_insert_self]
      · exact ⟨roles, HeaderMap.getAll_insert_self _ _ _, HeaderValue.fromStr_bytes hroles⟩

/-- The bearer token of the request was validated, and its claims are in the headers. -/
def Proven (req : Http.Request) (h : List GatewayEvent) (headers : HeaderMap) : Prop :=
  ∃ token claims, bearerToken req.headers = .ok token ∧ .validated token claims ∈ h ∧
    Injected headers claims

/-- Whenever a proxy handler began to run, its headers were proven. -/
def Guarded (req : Http.Request) (h : List GatewayEvent) : Prop :=
  ∀ h₁ h₂ route headers, h = h₁ ++ .entered route headers :: h₂ → Proven req h₁ headers

/-- What a task has done as long as it runs. -/
def Running (req : Http.Request) (h : List GatewayEvent) : Prop :=
  Guarded req h ∧ ∀ claims token, .signed claims token ∉ h

/-- A request that `auth_token` serves and answers with a token for a user whose password the
store accepts. -/
structure Login (G : Gateway) (req : Http.Request) (claims : Claims) (password : String) :
    Prop where
  served : (app G).call req = authToken G req
  parsed : G.parseLogin req = .ok ⟨claims.sub, password⟩
  accepted : G.userStore.authenticate G.verify claims.sub password = some claims.roles

/-- What a task has done when it has answered: if it has signed a token, it was a login that
succeeded, and it answers with that token. -/
def Answered (G : Gateway) (req : Http.Request) (h : List GatewayEvent) (a : GatewayResponse) :
    Prop :=
  Guarded req h ∧ ∀ claims token, .signed claims token ∈ h →
    a = .token ⟨token, "Bearer", 3600⟩ ∧ ∃ password, Login G req claims password

variable {G : Gateway} {req : Http.Request} {h : List GatewayEvent}

lemma Running.nil : Running req [] := by
  constructor
  · intro h₁ h₂ route headers hsplit
    simp at hsplit
  · simp

lemma Running.answered (hr : Running req h) (a : GatewayResponse) : Answered G req h a :=
  ⟨hr.1, fun claims token hsigned => absurd hsigned (hr.2 claims token)⟩

variable (G req) in
lemma answered_nil (a : GatewayResponse) : Answered G req [] a := Running.nil.answered a

lemma Guarded.snoc {e : GatewayEvent} (hg : Guarded req h)
    (he : ∀ route headers, e = .entered route headers → Proven req h headers) :
    Guarded req (h ++ [e]) := by
  intro h₁ h₂ route headers hsplit
  rcases List.eq_nil_or_concat h₂ with rfl | ⟨h₃, e', rfl⟩
  · obtain ⟨rfl, hlast⟩ := List.append_inj' hsplit rfl
    exact he route headers (List.cons.inj hlast).1
  · have hassoc : h₁ ++ .entered route headers :: h₃.concat e' =
        (h₁ ++ .entered route headers :: h₃) ++ [e'] := by simp
    rw [hassoc] at hsplit
    exact hg h₁ h₃ route headers (List.append_inj' hsplit rfl).1

lemma Running.snoc {e : GatewayEvent} (hr : Running req h)
    (he : ∀ route headers, e = .entered route headers → Proven req h headers)
    (hsigned : ∀ claims token, e ≠ .signed claims token) : Running req (h ++ [e]) := by
  refine ⟨hr.1.snoc he, ?_⟩
  intro claims token hmem
  rcases List.mem_append.mp hmem with hmem | hmem
  · exact hr.2 claims token hmem
  · exact hsigned claims token (List.mem_singleton.mp hmem).symm

lemma Proven.append {headers : HeaderMap} (hp : Proven req h headers) (g : List GatewayEvent) :
    Proven req (h ++ g) headers := by
  obtain ⟨token, claims, htoken, hvalidated, hinjected⟩ := hp
  exact ⟨token, claims, htoken, List.mem_append_left g hvalidated, hinjected⟩

section Safety

variable (G) in
/-- What holds at a call. A backend is only called for a route whose handler began to run. -/
def Calling (req : Http.Request) (h : List GatewayEvent) (o : GatewayOp) : Prop :=
  Running req h ∧ ∀ outbound, o = .send outbound → ∃ route headers,
    .entered route headers ∈ h ∧ Proven req h headers ∧ outbound = proxy G.state route

variable (G) in
/-- A program that behaves well for the request. -/
abbrev Behaves (req : Http.Request) (p : GatewayTask) (h : List GatewayEvent) : Prop :=
  Calls gatewayEnv (Calling G req) (Answered G req) p h

lemma gateway_cancel {s t : Unit} {i : ℕ} {o : GatewayOp} {inp : GatewayInput}
    {evs : List GatewayEvent} (hc : gatewayEnv.cancel s i o inp = some (t, evs)) : evs = [] := by
  cases o <;> cases hc
  rfl

lemma behaves_call {o : GatewayOp} {k : gatewaySig.Reply o → GatewayTask} (hr : Calling G req h o)
    (hk : ∀ inp : GatewayInput, Behaves G req (k (inp.answer o)) (h ++ o.events inp)) :
    Behaves G req (.call o k) h := by
  refine ⟨hr, ?_⟩
  intro s i inp t r evs hreply
  cases hreply
  exact hk inp

lemma authToken_behaves (hserved : (app G).call req = authToken G req) :
    Behaves G req (authToken G req) [] := by
  unfold authToken
  cases hlogin : G.parseLogin req with
  | error status => exact answered_nil G req _
  | ok login =>
    cases hroles : G.userStore.authenticate G.verify login.username login.password with
    | none =>
      simp only [hroles]
      exact answered_nil G req _
    | some roles =>
      simp only [hroles]
      refine behaves_call ⟨Running.nil, by simp⟩ ?_
      intro inp
      refine behaves_call ⟨Running.nil, by simp⟩ ?_
      intro inp'
      simp only [GatewayInput.answer, GatewayOp.events]
      cases hencoded : inp'.encoded ⟨login.username, inp.now, inp.now + tokenExpirySecs, issuer,
          roles⟩ with
      | error e => exact answered_nil G req _
      | ok token =>
        refine ⟨Running.nil.1.snoc (by simp), ?_⟩
        intro claims token' hsigned
        cases List.mem_singleton.mp hsigned
        exact ⟨rfl, login.password, hserved, hlogin, hroles⟩

lemma proxyHandler_behaves {route : ProxyRoute} {headers : HeaderMap} (hr : Running req h)
    (hp : Proven req h headers) :
    Behaves G req (proxyHandler G route { req with headers := headers }) h := by
  refine behaves_call ⟨hr, by simp⟩ ?_
  intro inp
  have hentered : Running req (h ++ [.entered route headers]) := by
    refine hr.snoc ?_ (by simp)
    intro route' headers' heq
    cases heq
    exact hp
  refine behaves_call ⟨hentered, ?_⟩ ?_
  · intro outbound heq
    cases heq
    exact ⟨route, headers, by simp [GatewayOp.events], hp.append _, rfl⟩
  intro inp'
  rw [show GatewayOp.events inp' (.send (proxy G.state route)) = [] from rfl, List.append_nil]
  exact hentered.answered _

variable (G) in
/-- A service that may only be reached with proven headers. -/
def BehavesProven (service : GatewayService) : Prop :=
  ∀ req h headers, Running req h → Proven req h headers →
    Behaves G req (service { req with headers := headers }) h

lemma withPath_behaves {handler : String → GatewayService}
    (hhandler : ∀ id, BehavesProven G (handler id)) (params : List Bytes) :
    BehavesProven G (withPath handler params) := by
  intro req h headers hr hp
  unfold withPath
  split
  · split
    · next id _ => exact hhandler id req h headers hr hp
    · exact hr.answered _
  · exact hr.answered _

lemma get_behaves {handler : List Bytes → GatewayService} {params : List Bytes}
    (hhandler : BehavesProven G (handler params)) :
    BehavesProven G (Router.get refused handler params) := by
  intro req h headers hr hp
  unfold Router.get
  split
  · exact hhandler req h headers hr hp
  · exact hr.answered _

lemma jwtMiddleware_behaves {next : GatewayService} (hnext : BehavesProven G next)
    (req : Http.Request) : Behaves G req (jwtMiddleware next req) [] := by
  unfold jwtMiddleware
  cases htoken : bearerToken req.headers with
  | error e => exact answered_nil G req _
  | ok token =>
    refine behaves_call ⟨Running.nil, by simp⟩ ?_
    intro inp
    simp only [GatewayInput.answer, GatewayOp.events]
    cases hdecoded : inp.decoded token with
    | error e => exact answered_nil G req _
    | ok claims =>
      have hvalidated : Running req ([] ++ [.validated token claims]) :=
        Running.nil.snoc (by simp) (by simp)
      cases hinject : injectIdentity req.headers claims with
      | error e =>
        simp only [Prog.bind, mapErr, pure, hinject]
        exact hvalidated.answered _
      | ok headers =>
        simp only [Prog.bind, mapErr, pure, hinject]
        exact hnext req _ headers hvalidated
          ⟨token, claims, htoken, List.mem_singleton_self _, injectIdentity_ok hinject⟩

/-- The fallback of the router, a middleware around the answer 404. -/
lemma refused_behaves (status : ℕ) : BehavesProven G (fun _ => refused status) :=
  fun _ _ _ hr _ => hr.answered _

lemma protectedRoutes_behaves {r : Route GatewayTask} (hr : r ∈ (protectedRoutes G).routes)
    (params : List Bytes) (req : Http.Request) : Behaves G req (r.service params req) [] := by
  obtain ⟨r', hr', rfl⟩ := List.mem_map.mp hr
  refine jwtMiddleware_behaves ?_ req
  have hproxy : ∀ route, BehavesProven G (proxyHandler G route) :=
    fun _ _ _ _ hr hp => proxyHandler_behaves hr hp
  simp only [Router.route, Router.new, List.nil_append, List.cons_append, List.mem_cons,
    List.not_mem_nil, or_false] at hr'
  rcases hr' with rfl | rfl | rfl | rfl
  · exact get_behaves (withPath_behaves (fun id => hproxy (.user id)) params)
  · exact get_behaves (hproxy .users)
  · exact get_behaves (withPath_behaves (fun id => hproxy (.order id)) params)
  · exact get_behaves (hproxy .orders)

lemma publicRoutes_behaves {r : Route GatewayTask} (hr : r ∈ (publicRoutes G).routes)
    {params : List Bytes} {req : Http.Request} (hcall : (app G).call req = r.service params req) :
    Behaves G req ((app G).call req) [] := by
  simp only [publicRoutes, Router.route, Router.new, List.nil_append, List.cons_append,
    List.mem_cons, List.not_mem_nil, or_false] at hr
  rcases hr with rfl | rfl
  · simp only [Router.post] at hcall
    split at hcall
    · rw [hcall]
      exact authToken_behaves hcall
    · rw [hcall]
      exact answered_nil G req _
  · simp only [Router.get] at hcall
    split at hcall
    · rw [hcall]
      exact answered_nil G req _
    · rw [hcall]
      exact answered_nil G req _

variable (G) in
/-- Every handler behind the router behaves. -/
theorem app_behaves (req : Http.Request) : Behaves G req ((app G).call req) [] := by
  rcases Router.call_cases (app G) req with ⟨r, hr, params, -, hcall⟩ | hcall
  · rcases List.mem_append.mp hr with hr | hr
    · exact publicRoutes_behaves hr hcall
    · rw [hcall]
      exact protectedRoutes_behaves hr params req
  · rw [hcall]
    exact jwtMiddleware_behaves (refused_behaves 404) req

end Safety

section Runs

variable {as : List (Action Http.Request GatewayInput)}
  {s : System gatewaySig Unit Http.Request GatewayResponse} {tr l m : GatewayTrace}

lemma run_tracked (h : (gateway G).exec ⟨(), []⟩ as = some (s, tr)) :
    AllTracked gatewayEnv (fun _ _ _ _ => True) Running (Answered G) s tr :=
  exec_history (fun _ => Running.nil)
    (fun req => (app_behaves G req).safe (fun _ _ _ _ _ _ hc => gateway_cancel hc)
      (fun _ _ hcall => hcall.1)) h (meets_true _ _)

/-- A proxy handler has only run for a request whose token was validated before. -/
lemma entered_proven {i : ℕ} {route : ProxyRoute} {headers : HeaderMap}
    (h : (gateway G).exec ⟨(), []⟩ as = some (s, l ++ .did i (.entered route headers) :: m)) :
    ∃ req, .arrived i req ∈ l ∧ Proven req (history i l) headers := by
  obtain ⟨req, harr⟩ := did_arrived h
  refine ⟨req, harr, ?_⟩
  obtain ⟨⟨r, st⟩, ht, rfl⟩ := (exec_arrived h i req).mp (List.mem_append_left _ harr)
  have htracked := (run_tracked h).1 i _ ht
  have hguarded : Guarded r (history i (l ++ .did i (.entered route headers) :: m)) := by
    cases st with
    | running p => exact htracked.1.1
    | finished a => exact htracked.1
    | dropped => exact htracked.1
  refine hguarded (history i l) (history i m) route headers ?_
  simp

/-- A token that was signed has been returned to the login that it was signed for: the poll that
signs it also answers. -/
lemma signed_returned {j : ℕ} {claims : Claims} {token : String}
    (h : (gateway G).exec ⟨(), []⟩ as = some (s, tr))
    (hsigned : .did j (.signed claims token) ∈ tr) :
    ∃ req password, .arrived j req ∈ tr ∧ Login G req claims password ∧
      .responded j (.token ⟨token, "Bearer", 3600⟩) ∈ tr := by
  have hmem := mem_history.mpr hsigned
  obtain ⟨l, m, hsplit⟩ := List.append_of_mem hsigned
  obtain ⟨req, harr⟩ : ∃ req, .arrived j req ∈ tr := by
    rw [hsplit] at h ⊢
    obtain ⟨req, harr⟩ := did_arrived h
    exact ⟨req, List.mem_append_left _ harr⟩
  obtain ⟨⟨r, st⟩, ht, rfl⟩ := (exec_arrived h j req).mp harr
  have htracked := (run_tracked h).1 j _ ht
  cases st with
  | running p => exact absurd hmem (htracked.1.2 claims token)
  | finished a =>
    obtain ⟨rfl, password, hlogin⟩ := htracked.2 claims token hmem
    exact ⟨r, password, harr, hlogin, exec_finished h ht⟩
  | dropped => exact absurd hmem (htracked.2 claims token)

lemma events_length_le (inp : GatewayInput) (o : GatewayOp) : (o.events inp).length ≤ 1 := by
  cases o <;> simp only [GatewayOp.events] <;> first | split | skip
  all_goals simp

/-- The run up to an event of a handler: no step has a second one. -/
lemma exec_before {i : ℕ} {e : GatewayEvent}
    (h : (gateway G).exec ⟨(), []⟩ as = some (s, l ++ .did i e :: m)) :
    ∃ as₁ s₁, (gateway G).exec ⟨(), []⟩ as₁ = some (s₁, l) := by
  obtain ⟨as₁, s₁, tr₁, o, inp, t, r, evs₁, evs₂, h₁, hr, rfl⟩ :=
    exec_replied (fun _ _ _ _ _ _ hc => gateway_cancel hc) h
  have hlen := events_length_le inp o
  have hevs : o.events inp = evs₁ ++ e :: evs₂ :=
    (Prod.mk.inj (Prod.mk.inj (Option.some.inj hr)).2).2
  have hnil : evs₁ = [] := by
    rw [hevs, List.length_append, List.length_cons] at hlen
    exact List.length_eq_zero_iff.mp (by omega)
  subst hnil
  rw [List.map_nil, List.append_nil]
  exact ⟨as₁, s₁, h₁⟩

/-- Whenever a proxy handler runs, the bearer token of its request was returned earlier to a login
of a user, and the headers carry that user and the user's roles in the store, once each. -/
theorem gateway_provenance {i : ℕ} {route : ProxyRoute} {headers : HeaderMap}
    (h : (gateway G).exec ⟨(), []⟩ as = some (s, l ++ .did i (.entered route headers) :: m))
    (hforge : Unforgeable (l ++ .did i (.entered route headers) :: m)) :
    ∃ req token claims, .arrived i req ∈ l ∧ bearerToken req.headers = .ok token ∧
      (∃ j login password, .arrived j login ∈ l ∧ Login G login claims password ∧
        .responded j (.token ⟨token, "Bearer", 3600⟩) ∈ l) ∧
      G.userStore.rolesOf claims.sub = some claims.roles ∧ Injected headers claims := by
  obtain ⟨req, harr, token, claims, htoken, hvalidated, hinjected⟩ := entered_proven h
  obtain ⟨l₁, m₁, hl⟩ := List.append_of_mem (mem_history.mp hvalidated)
  obtain ⟨j, hsigned⟩ := hforge l₁ (m₁ ++ .did i (.entered route headers) :: m) i token claims
    (by rw [hl]; simp)
  obtain ⟨as₁, s₁, h₁⟩ := exec_before h
  obtain ⟨login, password, hj, hlogin, hresponded⟩ :=
    signed_returned h₁ (show .did j (.signed claims token) ∈ l by rw [hl]; simp [hsigned])
  exact ⟨req, token, claims, harr, htoken, ⟨j, login, password, hj, hlogin, hresponded⟩,
    UserStore.authenticate_roles hlogin.accepted, hinjected⟩

section Sample

/-- A gateway whose only good login is `alice` with `hunter2`. -/
def sampleApp : Gateway where
  state := sampleGateway.state
  userStore := UserStore.seeded "hash1" "hash2"
  verify password hash := .ok (password = "hunter2" && hash = "hash1")
  parseLogin req :=
    if req.body = Utf8.encode "alice" then .ok ⟨"alice", "hunter2"⟩ else .error 422
  fromSlice _ := .error "EOF while parsing a value"

def sampleClaims : Claims := ⟨"alice", 10, 3610, issuer, ["user"]⟩

def sampleInput : GatewayInput where
  now := 10
  encoded _ := .ok "t"
  decoded _ := .ok sampleClaims
  sent _ := .error "connection refused"

def sampleHeader (name s : String) : String × HeaderValue :=
  (name, (HeaderValue.fromStr s).getD ⟨[], by simp⟩)

def loginRequest : Http.Request :=
  ⟨.post, Utf8.encode "/auth/token", [], Utf8.encode "alice"⟩

/-- A request with a valid token and headers that claim to be somebody else. -/
def forgedRequest : Http.Request where
  method := .get
  path := Utf8.encode "/users"
  headers := [sampleHeader "x-user-id" "admin", sampleHeader "authorization" "Bearer t",
    sampleHeader "x-user-id" "bob", sampleHeader "x-user-roles" "admin"]
  body := []

def sampleRun : List (Action Http.Request GatewayInput) :=
  [.arrive loginRequest, .poll 0 sampleInput, .poll 0 sampleInput, .arrive forgedRequest,
    .poll 1 sampleInput, .poll 1 sampleInput]

def sampleTrace : GatewayTrace :=
  [.arrived 0 loginRequest, .did 0 (.signed sampleClaims "t"),
    .responded 0 (.token ⟨"t", "Bearer", 3600⟩), .arrived 1 forgedRequest,
    .did 1 (.validated "t" sampleClaims)]

def sampleInjected : HeaderMap :=
  [sampleHeader "authorization" "Bearer t", sampleHeader "x-user-id" "alice",
    sampleHeader "x-user-roles" "user"]

lemma sampleRun_exec : ∃ s, (gateway sampleApp).exec ⟨(), []⟩ sampleRun =
    some (s, sampleTrace ++ .did 1 (.entered .users sampleInjected) :: []) :=
  ⟨_, rfl⟩

lemma unforgeable_sample :
    Unforgeable (sampleTrace ++ .did 1 (.entered .users sampleInjected) :: []) := by
  intro l m i token claims hsplit
  simp only [sampleTrace] at hsplit
  rcases l with _ | ⟨e₀, _ | ⟨e₁, _ | ⟨e₂, _ | ⟨e₃, _ | ⟨e₄, _ | ⟨e₅, l⟩⟩⟩⟩⟩⟩ <;> simp at hsplit
  obtain ⟨rfl, rfl, rfl, rfl, ⟨rfl, rfl, rfl⟩, -⟩ := hsplit
  exact ⟨0, by simp⟩

end Sample

theorem gateway_provenance_forged :
    ∃ req token claims, .arrived 1 req ∈ sampleTrace ∧ bearerToken req.headers = .ok token ∧
      (∃ j login password, .arrived j login ∈ sampleTrace ∧ Login sampleApp login claims password ∧
        .responded j (.token ⟨token, "Bearer", 3600⟩) ∈ sampleTrace) ∧
      sampleApp.userStore.rolesOf claims.sub = some claims.roles ∧
      Injected sampleInjected claims := by
  obtain ⟨s, hrun⟩ := sampleRun_exec
  exact gateway_provenance hrun unforgeable_sample

end Runs

end SecureNet.ApiGateway
