import SecureNet.Backends
import SecureNet.GatewayProvenance
import SecureNet.Library.Stateless

/-!
# Lookups through the gateway

What a client of the gateway reads under a route, against what the two services have stored. Between
them are the URLs that the gateway and the order service format, four routers, three texts in JSON, and
client certificates that nobody replaces.
-/

namespace SecureNet

open Hex (Bytes)
open EventMachine Tasks
open Http (Router)

section Stored

/-- What is stored under a route. -/
inductive Resource
  | user (found : UserService.User)
  | users (all : List UserService.User)
  | order (found : OrderWithUser)
  | orders (all : List OrderService.Order)

/-- A client that expects the type of the resource reads it from the text. -/
def Resource.Reads : Resource → Bytes → Prop
  | .user found, bs => UserService.User.format.fromSlice bs = some found
  | .users all, bs => UserService.usersFormat.fromSlice bs = some all
  | .order found, bs => OrderWithUser.format.fromSlice bs = some found
  | .orders all, bs => OrderService.ordersFormat.fromSlice bs = some all

/-- The text that a service writes. -/
def Resource.toVec : Resource → Bytes
  | .user found => UserService.User.format.toVec found
  | .users all => UserService.usersFormat.toVec all
  | .order found => OrderWithUser.format.toVec found
  | .orders all => OrderService.ordersFormat.toVec all

def Resource.Valid : Resource → Prop
  | .user found => UserService.User.format.Valid found
  | .users all => UserService.usersFormat.Valid all
  | .order found => OrderWithUser.format.Valid found
  | .orders all => OrderService.ordersFormat.Valid all

/-- The resources that a service writes in a format. -/
structure Resource.Typed {α : Type} (format : Json.Format α) (resource : α → Resource) : Prop where
  text : ∀ a, (resource a).toVec = format.toVec a
  valid : ∀ a, format.Valid a → (resource a).Valid
  reads : ∀ a bs, format.fromSlice bs = some a → (resource a).Reads bs

/-- The parser reads the texts of the services, whose numbers are small integers, like
`Value.fromSlice`. -/
def ApiGateway.Parses (fromSlice : Bytes → Except String Value) : Prop :=
  ∀ res : Resource, res.Valid → (fromSlice res.toVec).toOption = Value.fromSlice res.toVec

variable {A : Type} (B : Backends A)

def Backends.lookup : ApiGateway.ProxyRoute → Option Resource
  | .user id => (B.findUser id).map .user
  | .users => some (.users B.users.users)
  | .order id => (B.findOrder id).map .order
  | .orders => some (.orders B.orders.orders)

/-- The id of the route goes into a URL as it is. -/
def ApiGateway.ProxyRoute.Plain : ApiGateway.ProxyRoute → Prop
  | .user id => id ≠ "" ∧ Url.PlainSegment (Utf8.encode id)
  | .users => True
  | .order id => id ≠ "" ∧ Url.PlainSegment (Utf8.encode id)
  | .orders => True

end Stored

namespace ApiGateway

def TokenResponse.serialize (self : TokenResponse) : Json :=
  .object [("access_token", .string self.accessToken), ("token_type", .string self.tokenType),
    ("expires_in", .number self.expiresIn)]

/-- What the client of the gateway gets, unless it asked by HEAD: then the framework leaves the body
out. -/
def GatewayResponse.intoResponse : GatewayResponse → HttpAnswer
  | .token resp => .json200 resp.serialize.text
  | .proxied (.ok body) => .json200 body.toVec
  | .proxied (.error (status, body)) => ⟨status, .ok body.toVec⟩
  | .health body => .json200 body.toVec
  | .failed e => e.intoResponse
  | .refused status => .refused status

/-- The gateway proxies requests for the path by this route. -/
inductive Routed (path : Bytes) : ProxyRoute → Prop
  | user {seg : Bytes} {id : String} (hpath : Http.pathSegments path = [Utf8.encode "users", seg])
    (hseg : seg ≠ []) (hid : Utf8.decode (Percent.decode seg) = some id) : Routed path (.user id)
  | users (hpath : Http.pathSegments path = [Utf8.encode "users"]) : Routed path .users
  | order {seg : Bytes} {id : String} (hpath : Http.pathSegments path = [Utf8.encode "orders", seg])
    (hseg : seg ≠ []) (hid : Utf8.decode (Percent.decode seg) = some id) : Routed path (.order id)
  | orders (hpath : Http.pathSegments path = [Utf8.encode "orders"]) : Routed path .orders

section Router

variable {G : Gateway} {req : Http.Request}

/-- A handler behind `Path<String>`, once the id is decoded. -/
lemma withPath_segment {handler : String → GatewayService} {seg : Bytes} {id : String}
    (hid : Utf8.decode (Percent.decode seg) = some id) :
    Router.get refused (withPath handler) [seg] = Router.get refused (fun _ => handler id) [] := by
  funext req
  simp only [Router.get, withPath, hid]

/-- The handler that a request for a proxied path reaches. -/
theorem app_routed {route : ProxyRoute} (hroute : Routed req.path route) :
    (app G).call req =
      jwtMiddleware (Router.get refused (fun _ => proxyHandler G route) []) req := by
  cases hroute with
  | @user seg id hpath hseg hid =>
    have hcall : (app G).call req = jwtMiddleware (Router.get refused (proxyUser G) [seg]) req := by
      rw [Router.call, hpath]
      simp [app, publicRoutes, protectedRoutes, Router.route, Router.new, Router.merge, Router.layer,
        Router.find, Http.matchSegments, hseg, Utf8.encode_inj]
    rw [hcall, proxyUser, withPath_segment hid]
  | users hpath =>
    rw [Router.call, hpath]
    simp [app, publicRoutes, protectedRoutes, Router.route, Router.new, Router.merge, Router.layer,
      Router.find, Http.matchSegments, Utf8.encode_inj]
    rfl
  | @order seg id hpath hseg hid =>
    have hcall : (app G).call req = jwtMiddleware (Router.get refused (proxyOrder G) [seg]) req := by
      rw [Router.call, hpath]
      simp [app, publicRoutes, protectedRoutes, Router.route, Router.new, Router.merge, Router.layer,
        Router.find, Http.matchSegments, hseg, Utf8.encode_inj]
    rw [hcall, proxyOrder, withPath_segment hid]
  | orders hpath =>
    rw [Router.call, hpath]
    simp [app, publicRoutes, protectedRoutes, Router.route, Router.new, Router.merge, Router.layer,
      Router.find, Http.matchSegments, Utf8.encode_inj]
    rfl

end Router

section Relay

variable {A : Type} {B : Backends A} {lossy impaired : Prop} {now : ℤ} {chain : List Bytes}
  {fromSlice : Bytes → Except String Value} {answer : Except String HttpAnswer}

/-- What `proxy_get` makes of an answer that carries a value. -/
lemma proxyGet_carries {α : Type} {format : Json.Format α} {result : Option α} (url : String)
    (hparse : ∀ a, result = some a →
      (fromSlice (format.toVec a)).toOption = Value.fromSlice (format.toVec a))
    (hanswer : Carries format.toVec answer result) (hvalid : ∀ a, result = some a → format.Valid a) :
    (∃ body a, proxyGet fromSlice url answer = .ok body ∧ result = some a ∧
      format.fromSlice body.toVec = some a) ∨
    ∃ status body, proxyGet fromSlice url answer = .error (status, body) ∧ status ≠ .ok ∧
      result = none := by
  have hbad : StatusCode.badGateway ≠ .ok := by decide
  cases result with
  | some a =>
    obtain ⟨body, hbody, hread⟩ := Value.fromSlice_relayed (hvalid a rfl)
    have hvalue : fromSlice (format.toVec a) = .ok body := by
      have hoption := hparse a rfl
      rw [hbody] at hoption
      cases hresult : fromSlice (format.toVec a) with
      | error e =>
        rw [hresult] at hoption
        cases hoption
      | ok v =>
        rw [hresult] at hoption
        exact congrArg Except.ok (Option.some.inj hoption)
    have hsuccess : isSuccess StatusCode.ok.1 = true := rfl
    have hcarried : answer = .ok ⟨.ok, .ok (format.toVec a)⟩ := hanswer
    refine .inl ⟨body, a, ?_, rfl, hread⟩
    simp only [hcarried, proxyGet, HttpAnswer.json, hvalue, hsuccess, Bool.not_true,
      Bool.false_eq_true, ↓reduceIte]
  | none =>
    refine .inr ?_
    have hfails : Fails answer := hanswer
    cases answer with
    | error e => exact ⟨.badGateway, _, rfl, hbad, rfl⟩
    | ok resp =>
      rw [proxyGet]
      cases hjson : resp.json fromSlice with
      | error e => exact ⟨_, _, rfl, hbad, rfl⟩
      | ok body =>
        rcases hfails with hstatus | ⟨e, he⟩
        · simp only [hstatus, Bool.not_false, ↓reduceIte, StatusCode.fromU16_val, Option.getD_some]
          refine ⟨_, _, rfl, ?_, trivial⟩
          intro hok
          rw [hok] at hstatus
          exact absurd hstatus (by decide)
        · rw [HttpAnswer.json, he] at hjson
          cases hjson

/-- The services that the gateway and the order service call are where their URLs lead. -/
structure Placed (B : Backends A) (state : AppState) : Prop where
  users : B.At .users state.userSvcUrl
  orders : B.At .orders state.orderSvcUrl
  orderUsers : B.At .users B.orders.userSvcUrl

variable (impaired fromSlice) in
/-- The gateway relays the resource, or, where it is missing or the way to it impaired, a failure. -/
def Relays (url : String) (answer : Except String HttpAnswer) (found : Option Resource) : Prop :=
  (∃ body res, proxyGet fromSlice url answer = .ok body ∧ found = some res ∧ res.Reads body.toVec) ∨
    ∃ status body, proxyGet fromSlice url answer = .error (status, body) ∧ status ≠ .ok ∧
      (¬impaired → found = none)

lemma relays_carried {α : Type} {format : Json.Format α} {found : Option α} (resource : α → Resource)
    (htyped : Resource.Typed format resource) {url : String} (hparse : Parses fromSlice)
    (hvalid : ∀ a, found = some a → format.Valid a)
    (hanswer : ∃ result, Arrived impaired found result ∧ Carries format.toVec answer result) :
    Relays impaired fromSlice url answer (found.map resource) := by
  obtain ⟨result, harrived, hcarries⟩ := hanswer
  have hresult : ∀ a, result = some a → format.Valid a :=
    fun a ha => hvalid a (harrived.eq_some ha)
  have htext : ∀ a, result = some a →
      (fromSlice (format.toVec a)).toOption = Value.fromSlice (format.toVec a) := by
    intro a ha
    have hres := hparse (resource a) (htyped.valid a (hresult a ha))
    rwa [htyped.text] at hres
  rcases proxyGet_carries url htext hcarries hresult with
    ⟨body, a, hbody, ha, hread⟩ | ⟨status, body, hbody, hstatus, hnone⟩
  · refine .inl ⟨body, resource a, hbody, ?_, htyped.reads a _ hread⟩
    rw [harrived.eq_some ha, Option.map_some]
  · refine .inr ⟨status, body, hbody, hstatus, ?_⟩
    intro hclear
    have hall := harrived.resolve_right (fun h => hclear h.1)
    rw [← hall, hnone, Option.map_none]

/-- A client that gets the status 200 reads what was found. -/
lemma Relays.sound {url : String} {found : Option Resource}
    (h : Relays impaired fromSlice url answer found)
    (hok : (GatewayResponse.proxied (proxyGet fromSlice url answer)).intoResponse.status = .ok) :
    ∃ res bytes, found = some res ∧
      (GatewayResponse.proxied (proxyGet fromSlice url answer)).intoResponse.body = .ok bytes ∧
      res.Reads bytes := by
  rcases h with ⟨body, res, hbody, hfound, hread⟩ | ⟨status, body, hbody, hstatus, -⟩
  · refine ⟨res, body.toVec, hfound, ?_, hread⟩
    rw [hbody]
    rfl
  · rw [hbody] at hok
    exact absurd hok hstatus

/-- The status that the client gets, where nothing is impaired. -/
lemma Relays.status {url : String} {found : Option Resource}
    (h : Relays impaired fromSlice url answer found) (hclear : ¬impaired) :
    (GatewayResponse.proxied (proxyGet fromSlice url answer)).intoResponse.status = .ok ↔
      found.isSome = true := by
  rcases h with ⟨body, res, hbody, hfound, -⟩ | ⟨status, body, hbody, hstatus, hmissing⟩
  · rw [hbody, hfound]
    exact iff_of_true rfl rfl
  · rw [hbody, hmissing hclear]
    exact iff_of_false hstatus (by simp)

/-- The answer to a call is lost only if the network loses something or a certificate has ended. -/
theorem relays_lookup {state : AppState} (hplaced : Placed B state) (hparse : Parses fromSlice)
    {route : ProxyRoute} (hplain : route.Plain)
    (hr : B.Reply lossy now chain (proxy state route).url answer) :
    Relays (lossy ∨ ¬B.Trusted chain now) fromSlice (proxy state route).url answer
      (B.lookup route) := by
  have hclient : ∀ listener, lossy ∨ B.trustedUntil listener chain < now →
      lossy ∨ ¬B.Trusted chain now := by
    intro listener h
    refine h.imp_right ?_
    intro hended htrusted
    exact absurd (htrusted.client listener) (by omega)
  cases route with
  | user id =>
    obtain ⟨result, harrived, hcarries⟩ := reply_user hplaced.users hplain.2 hplain.1 hr
    exact relays_carried Resource.user ⟨fun _ => rfl, fun _ h => h, fun _ _ h => h⟩ hparse
      (fun _ => findUser_valid) ⟨result, harrived.mono (hclient .users), hcarries⟩
  | users =>
    have hvalid : ∀ all, some B.users.users = some all → UserService.usersFormat.Valid all := by
      rintro all ⟨⟩
      exact B.users_valid
    obtain ⟨result, harrived, hcarries⟩ := reply_users hplaced.users hr
    exact relays_carried Resource.users ⟨fun _ => rfl, fun _ h => h, fun _ _ h => h⟩ hparse
      hvalid ⟨result, harrived.mono (hclient .users), hcarries⟩
  | order id =>
    obtain ⟨result, harrived, hcarries⟩ :=
      reply_order hplaced.orders hplaced.orderUsers hplain.2 hplain.1 hr
    refine relays_carried Resource.order ⟨fun _ => rfl, fun _ h => h, fun _ _ h => h⟩ hparse
      (fun _ => findOrder_valid) ⟨result, harrived.mono ?_, hcarries⟩
    rintro (h | hended)
    · exact hclient .orders h
    · exact .inr (fun htrusted => absurd htrusted.orders (by omega))
  | orders =>
    have hvalid : ∀ all, some B.orders.orders = some all → OrderService.ordersFormat.Valid all := by
      rintro all ⟨⟩
      exact B.orders_valid
    obtain ⟨result, harrived, hcarries⟩ := reply_orders hplaced.orders hr
    exact relays_carried Resource.orders ⟨fun _ => rfl, fun _ h => h, fun _ _ h => h⟩ hparse
      hvalid ⟨result, harrived.mono (hclient .orders), hcarries⟩

end Relay

section Handlers

/-- What a handler makes of the inputs of its polls. -/
abbrev GatewayTask.fed (p : GatewayTask) (inps : List GatewayInput) :
    Option (GatewayResponse × List GatewayEvent) :=
  Prog.fed (fun o inp => inp.answer o) (fun o inp => GatewayOp.events inp o) p inps

lemma stateless_gateway :
    Stateless gatewayEnv (fun o inp => inp.answer o) (fun o inp => GatewayOp.events inp o) where
  replies _ _ _ _ := rfl
  quiet _ _ _ _ _ _ hc := gateway_cancel hc

variable {G : Gateway} {req : Http.Request} {route : ProxyRoute} {inps : List GatewayInput}
  {a : GatewayResponse} {evs : List GatewayEvent}

/-- What a request with a bearer token for a proxied path does. -/
lemma jwtMiddleware_eq {token : String} (htoken : bearerToken req.headers = .ok token)
    (hmethod : req.method = .get) :
    jwtMiddleware (Router.get refused (fun _ => proxyHandler G route) []) req =
      .call (.decode token issuer) fun decoded =>
        match decoded with
        | .error e => .done (.failed (.authInvalidToken e))
        | .ok claims =>
          match injectIdentity req.headers claims with
          | .error e => .done (.failed e)
          | .ok headers => .call (.enter route headers) fun _ =>
            .call (.send (proxy G.state route)) fun sent =>
              .done (.proxied (proxyGet G.fromSlice (proxy G.state route).url sent)) := by
  simp only [jwtMiddleware, htoken]
  refine congrArg (Prog.call _) (funext fun decoded => ?_)
  cases decoded with
  | error e => rfl
  | ok claims =>
    cases hinject : injectIdentity req.headers claims with
    | error e =>
      simp only [mapErr, pure, Prog.bind, hinject]
    | ok headers =>
      simp only [mapErr, pure, Prog.bind, hinject, Router.get, hmethod, true_or, if_true]
      rfl

/-- A bearer token is decoded in the first poll, and what is proxied is the reply of a later one. -/
lemma jwtMiddleware_fed {token : String} (htoken : bearerToken req.headers = .ok token)
    (hmethod : req.method = .get)
    (hfed : GatewayTask.fed
      (jwtMiddleware (Router.get refused (fun _ => proxyHandler G route) []) req) inps =
        some (a, evs)) :
    ∃ inp rest, inps = inp :: rest ∧
      ((∃ e, inp.decoded token = .error e ∧ a = .failed (.authInvalidToken e)) ∨
      (∃ claims, inp.decoded token = .ok claims ∧ .validated token claims ∈ evs ∧
        ((∃ e, injectIdentity req.headers claims = .error e ∧ a = .failed e) ∨
        (∃ headers, injectIdentity req.headers claims = .ok headers ∧ ∃ inp' ∈ inps,
          a = .proxied (proxyGet G.fromSlice (proxy G.state route).url
            (inp'.sent (proxy G.state route).url)))))) := by
  rw [jwtMiddleware_eq htoken hmethod] at hfed
  obtain ⟨inp, rest, evs₁, rfl, hrest, rfl⟩ := Prog.fed_call.mp hfed
  refine ⟨inp, rest, rfl, ?_⟩
  simp only [GatewayInput.answer, GatewayOp.events] at hrest ⊢
  cases hdecoded : inp.decoded token with
  | error e =>
    rw [hdecoded] at hrest
    obtain ⟨rfl, -⟩ := Prog.fed_done.mp hrest
    exact .inl ⟨e, rfl, rfl⟩
  | ok claims =>
    refine .inr ⟨claims, rfl, by simp, ?_⟩
    cases hinject : injectIdentity req.headers claims with
    | error e =>
      simp only [hdecoded, hinject] at hrest
      obtain ⟨rfl, -⟩ := Prog.fed_done.mp hrest
      exact .inl ⟨e, rfl, rfl⟩
    | ok headers =>
      simp only [hdecoded, hinject] at hrest
      obtain ⟨inp₁, rest₁, evs₂, rfl, hsend, rfl⟩ := Prog.fed_call.mp hrest
      obtain ⟨inp₂, rest₂, evs₃, rfl, hdone, rfl⟩ := Prog.fed_call.mp hsend
      obtain ⟨rfl, -⟩ := Prog.fed_done.mp hdone
      exact .inr ⟨headers, rfl, inp₂, by simp, rfl⟩

lemma failed_status (e : AppError) : (GatewayResponse.failed e).intoResponse.status ≠ .ok := by
  rw [GatewayResponse.intoResponse, AppError.intoResponse]
  cases e <;> simp [AppError.statusCode, StatusCode.ok, StatusCode.notFound]

/-- What answers a request for a proxied path: what `proxy_get` makes of a reply, or a refusal. -/
lemma relayed_or_failed (hmethod : req.method = .get)
    (hfed : GatewayTask.fed
      (jwtMiddleware (Router.get refused (fun _ => proxyHandler G route) []) req) inps =
        some (a, evs)) :
    (∃ inp ∈ inps, a = .proxied (proxyGet G.fromSlice (proxy G.state route).url
      (inp.sent (proxy G.state route).url))) ∨ ∃ e, a = .failed e := by
  cases htoken : bearerToken req.headers with
  | error e =>
    simp only [jwtMiddleware, htoken] at hfed
    obtain ⟨rfl, -⟩ := Prog.fed_done.mp hfed
    exact .inr ⟨e, rfl⟩
  | ok token =>
    obtain ⟨inp, rest, -, ⟨e, -, rfl⟩ | ⟨claims, -, -, ⟨e, -, rfl⟩ | ⟨headers, -, hproxied⟩⟩⟩ :=
      jwtMiddleware_fed htoken hmethod hfed
    · exact .inr ⟨_, rfl⟩
    · exact .inr ⟨e, rfl⟩
    · exact .inl hproxied

end Handlers

section Runs

variable {A : Type} {B : Backends A} {lossy : Prop} {G : Gateway}

variable (B lossy G) in
/-- The backends have answered the calls that the gateway makes with its certificate. -/
def Replied (inp : GatewayInput) : Prop :=
  ∀ url, B.Reply lossy inp.now G.state.mtlsClient.certChain url (inp.sent url)

variable {as : List (Action Http.Request GatewayInput)}
  {s : System gatewaySig Unit Http.Request GatewayResponse} {tr : GatewayTrace}

/-- In every run, whatever the network loses and whichever certificates have ended, a client that gets
the status 200 for a proxied path reads the resource that the services have stored under it. If
nothing is lost and the certificates are accepted while the gateway serves the request, a client whose
token is accepted gets that status exactly if there is such a resource. -/
theorem lookup_refined (h : (gateway G).exec ⟨(), []⟩ as = some (s, tr)) {i : ℕ}
    (hnet : ∀ inp ∈ pollsOf i as, Replied B lossy G inp) (hplaced : Placed B G.state)
    (hparse : Parses G.fromSlice) {req : Http.Request} (harrived : .arrived i req ∈ tr)
    (hmethod : req.method = .get) {route : ProxyRoute} (hroute : Routed req.path route)
    (hplain : route.Plain) {a : GatewayResponse} (ha : .responded i a ∈ tr) :
    (a.intoResponse.status = .ok → ∃ res bytes, B.lookup route = some res ∧
      a.intoResponse.body = .ok bytes ∧ res.Reads bytes) ∧
    (¬lossy → (∀ inp ∈ pollsOf i as, B.Trusted G.state.mtlsClient.certChain inp.now) →
      ∀ result, a = .proxied result →
        (a.intoResponse.status = .ok ↔ (B.lookup route).isSome)) := by
  have hfed := responded_fed stateless_gateway h harrived ha
  rw [app_routed hroute] at hfed
  rcases relayed_or_failed hmethod hfed with ⟨inp, hinp, rfl⟩ | ⟨e, rfl⟩
  · have hrelays := relays_lookup hplaced hparse hplain (hnet inp hinp _)
    exact ⟨hrelays.sound, fun hlossy htrusted _ _ =>
      hrelays.status (by simp [hlossy, htrusted inp hinp])⟩
  · exact ⟨fun hok => absurd hok (failed_status e), fun _ _ result hresult => by cases hresult⟩

section Sample

/-- A network that loses nothing, for the calls of the order service and for those of the gateway.
Every call opens a connection. -/
def sendUsers (B : Backends A) (now : ℤ) (chain : List Bytes) (url : String) :
    Except String HttpAnswer :=
  match B.reach url with
  | some (.users, req) =>
    if B.trustedUntil .users chain < now then .error "certificate expired"
    else .ok ((UserService.app B.rejection B.users).call req)
  | _ => .error "connection refused"

def sendAll (B : Backends A) (now : ℤ) (chain : List Bytes) (url : String) :
    Except String HttpAnswer :=
  match B.reach url with
  | some (.users, _) => sendUsers B now chain url
  | some (.orders, req) =>
    if B.trustedUntil .orders chain < now then .error "certificate expired"
    else .ok ((OrderService.app B.rejection (sendUsers B now B.orders.mtlsClient.certChain)
      B.orders).call req)
  | none => .error "connection refused"

lemma sendUsers_reply {url : String} {req : Http.Request} (hreach : B.reach url = some (.users, req))
    (now : ℤ) (chain : List Bytes) : B.Reply lossy now chain url (sendUsers B now chain url) := by
  rw [sendUsers, hreach]
  simp only
  split
  · next hended => exact .untrusted hreach hended _
  · exact .users hreach chain

lemma sendAll_reply (husers : B.At .users B.orders.userSvcUrl) (now : ℤ) (chain : List Bytes)
    (url : String) : B.Reply lossy now chain url (sendAll B now chain url) := by
  rw [sendAll]
  split
  · next req hreach => exact sendUsers_reply hreach now chain
  · next req hreach =>
    split
    · next hended => exact .untrusted hreach hended _
    · refine .orders hreach ?_ chain
      intro order horder
      have hvalid := (B.orders_valid order horder).2.chars
      obtain ⟨req', -, hreach', -⟩ :=
        reach_segment husers plainName_routes.1 (plainSegment_chars hvalid.2) hvalid.1
      have hurl : B.reach (B.orders.userUrl order) = some (.users, req') := hreach'
      exact sendUsers_reply hurl now _
  · next hreach => exact .unserved hreach chain _

/-- Two services that trust the certificate of `sampleClient` until the second 300. -/
def sampleBackends : Backends Bytes where
  users := sampleUsers
  orders := ⟨OrderService.seedOrders, sampleGateway.state.userSvcUrl, sampleClient, "B"⟩
  rejection _ := []
  parseAuthority := sampleAuthority
  listener _ host :=
    if host = Utf8.encode "localhost:8001" then some .users
    else if host = Utf8.encode "localhost:8002" then some .orders
    else none
  trustedUntil _ chain := if chain = sampleClient.certChain then 300 else 0
  users_valid := by decide +kernel
  orders_valid := by
    have hall : ∀ order ∈ OrderService.seedOrders,
        Uuid.Hyphenated order.id ∧ Uuid.Hyphenated order.userId := by decide +kernel
    exact hall

def lookupApp : Gateway :=
  { sampleApp with fromSlice := fun bs => context (Value.fromSlice bs) "expected value" }

def orderId : String := "660e8400-e29b-41d4-a716-446655440002"

def lookupRequest : Http.Request where
  method := .get
  path := Utf8.encode ("/orders/" ++ orderId)
  headers := [sampleHeader "authorization" "Bearer t"]
  body := []

def lookupInput : GatewayInput :=
  { sampleInput with sent := sendAll sampleBackends sampleInput.now sampleClient.certChain }

def lookupRun : List (Action Http.Request GatewayInput) :=
  [.arrive lookupRequest, .poll 0 lookupInput, .poll 0 lookupInput, .poll 0 lookupInput]

/-- One request, which is proxied after two calls. -/
def isLookup : GatewayTrace → Bool
  | [.arrived 0 _, .did 0 _, .did 0 _, .responded 0 (.proxied _)] => true
  | _ => false

lemma placed_sample : Placed sampleBackends lookupApp.state := by
  have husers : sampleBackends.At .users sampleGateway.state.userSvcUrl :=
    ⟨_, _, plainOrigin_sample.1, rfl⟩
  exact ⟨husers, ⟨_, _, plainOrigin_sample.2, rfl⟩, husers⟩

lemma routed_sample : Routed lookupRequest.path (.order orderId) := by
  have hpath : Http.pathSegments lookupRequest.path = [Utf8.encode "orders", Utf8.encode orderId] := by
    decide +kernel
  exact .order hpath (by decide +kernel) (by decide +kernel)

lemma lookup_sample : sampleBackends.lookup (.order orderId) =
    some (.order ⟨⟨orderId, "550e8400-e29b-41d4-a716-446655440002", "Neural Interface Headset", 2⟩,
      ⟨"550e8400-e29b-41d4-a716-446655440002", "Bob Santos", "bob@securenet.dev"⟩⟩) := by
  have horder : Uuid.parseStr "660e8400-e29b-41d4-a716-446655440002" =
      some "660e8400-e29b-41d4-a716-446655440002" := by decide +kernel
  have huser : Uuid.parseStr "550e8400-e29b-41d4-a716-446655440002" =
      some "550e8400-e29b-41d4-a716-446655440002" := by decide +kernel
  simp [Backends.lookup, Backends.findOrder, Backends.findUser, horder, huser, sampleBackends,
    OrderService.seedOrders, sampleUsers, UserService.seedUsers, orderId]

lemma lookupApp_parses : Parses lookupApp.fromSlice := by
  intro res _
  change (context (Value.fromSlice res.toVec) "expected value").toOption = _
  cases Value.fromSlice res.toVec <;> rfl

lemma trusted_sample {now : ℤ} (hnow : now ≤ 300) :
    sampleBackends.Trusted lookupApp.state.mtlsClient.certChain now := by
  have huntil : ∀ listener, sampleBackends.trustedUntil listener sampleClient.certChain = 300 :=
    fun _ => rfl
  exact ⟨fun listener => (huntil listener).symm ▸ hnow, (huntil .users).symm ▸ hnow⟩

lemma orderId_plain : (ProxyRoute.order orderId).Plain := by
  have hvalid : Uuid.Hyphenated orderId := by decide +kernel
  exact ⟨hvalid.chars.1, plainSegment_chars hvalid.chars.2⟩

end Sample

/-- `alice` looks up the order of `Bob Santos`. -/
theorem lookup_refined_order :
    ∃ s tr a bytes, (gateway lookupApp).exec ⟨(), []⟩ lookupRun = some (s, tr) ∧
      .responded 0 a ∈ tr ∧ a.intoResponse = .json200 bytes ∧
      OrderWithUser.format.fromSlice bytes =
        some ⟨⟨orderId, "550e8400-e29b-41d4-a716-446655440002", "Neural Interface Headset", 2⟩,
          ⟨"550e8400-e29b-41d4-a716-446655440002", "Bob Santos", "bob@securenet.dev"⟩⟩ := by
  have hrun : ((gateway lookupApp).exec ⟨(), []⟩ lookupRun).any
      (fun p => isLookup p.2) = true := by
    decide +kernel
  obtain ⟨s, tr, h, htest⟩ := Machine.exec_any hrun
  have hpolls : ∀ inp ∈ pollsOf 0 lookupRun, inp = lookupInput := by
    simp [lookupRun, pollsOf, Action.own]
  have hnet : ∀ inp ∈ pollsOf 0 lookupRun, Replied sampleBackends False lookupApp inp := by
    intro inp hinp url
    rw [hpolls inp hinp]
    exact sendAll_reply placed_sample.orderUsers _ _ url
  have htrusted : ∀ inp ∈ pollsOf 0 lookupRun,
      sampleBackends.Trusted lookupApp.state.mtlsClient.certChain inp.now := by
    intro inp hinp
    rw [hpolls inp hinp]
    exact trusted_sample (by decide)
  unfold isLookup at htest
  split at htest
  · next req e e' result htr =>
    have htr : tr = [.arrived 0 req, .did 0 e, .did 0 e', .responded 0 (.proxied result)] := htr
    have harrived : .arrived 0 req ∈ tr := by simp [htr]
    have hreq : req = lookupRequest := by simpa [lookupRun] using arrived_arrive h harrived
    rw [hreq] at harrived
    have ha : .responded 0 (.proxied result) ∈ tr := by simp [htr]
    obtain ⟨hsound, hcomplete⟩ := lookup_refined h hnet placed_sample lookupApp_parses harrived rfl
      routed_sample orderId_plain ha
    have hstatus := (hcomplete not_false htrusted result rfl).mpr (by rw [lookup_sample]; rfl)
    obtain ⟨res, bytes, hres, hbody, hread⟩ := hsound hstatus
    rw [lookup_sample] at hres
    cases hres
    refine ⟨s, tr, _, bytes, h, ha, ?_, hread⟩
    rw [HttpAnswer.json200, ← hstatus, ← hbody]
  · cases htest

end Runs

end ApiGateway

end SecureNet
