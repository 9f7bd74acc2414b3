import SecureNet.Library.Http
import SecureNet.Library.KeyedStore
import SecureNet.Library.Tasks
import SecureNet.Proxy

/-!
# The gateway

`jwt.rs`, `middleware.rs` and the router of `api-gateway/src/main.rs`. The outside world decides what
`jsonwebtoken` answers and what the backends send; signing and validating are events of the trace.
-/

namespace SecureNet.ApiGateway

open Hex (Bytes)
open Http KeyedStore Tasks Tasks.Prog

structure Claims where
  sub : String
  iat : ℤ
  exp : ℤ
  iss : String
  roles : List String
  deriving DecidableEq

structure LoginRequest where
  username : String
  password : String

structure TokenResponse where
  accessToken : String
  tokenType : String
  expiresIn : ℤ
  deriving DecidableEq

def tokenExpirySecs : ℤ := 3600

def issuer : String := "securenet-gateway"

/-- The users with their bcrypt hashes and roles. -/
structure UserStore where
  users : Store String (String × List String)

namespace UserStore

/-- `hunter2` and `admin123` are the hashes of these two passwords. -/
def seeded (hunter2 admin123 : String) : UserStore :=
  ⟨((∅ : Store String (String × List String)).insert "alice" (hunter2, ["user"])).insert "admin"
    (admin123, ["user", "admin"])⟩

/-- `verify` is `bcrypt::verify`. -/
def authenticate (verify : String → String → Except String Bool) (self : UserStore)
    (username password : String) : Option (List String) :=
  match self.users.lookup username with
  | none => none
  | some (hash, roles) =>
    match verify password hash with
    | .ok true => some roles
    | _ => none

def rolesOf (self : UserStore) (username : String) : Option (List String) :=
  (self.users.lookup username).map Prod.snd

lemma authenticate_roles {verify : String → String → Except String Bool} {self : UserStore}
    {username password : String} {roles : List String}
    (h : self.authenticate verify username password = some roles) :
    self.rolesOf username = some roles := by
  unfold authenticate at h
  unfold rolesOf
  split at h
  · cases h
  · next hash roles' hlook =>
    split at h
    · cases h
      rw [hlook]
      rfl
    · cases h

end UserStore

inductive GatewayOp
  | timestamp
  | encode (claims : Claims)
  | decode (token issuer : String)
  | enter (route : ProxyRoute) (headers : HeaderMap)
  | send (outbound : OutboundCall)

/-- The calls of the handlers and what they return. A proxy handler begins with `enter`, which puts
the headers of its request into the trace. -/
abbrev gatewaySig : Signature where
  Op := GatewayOp
  Reply
    | .timestamp => ℤ
    | .encode _ => Except String String
    | .decode _ _ => Except String Claims
    | .enter _ _ => Unit
    | .send _ => Except String HttpAnswer

structure GatewayInput where
  now : ℤ
  encoded : Claims → Except String String
  decoded : String → Except String Claims
  sent : String → Except String HttpAnswer

inductive GatewayEvent
  | signed (claims : Claims) (token : String)
  | validated (token : String) (claims : Claims)
  | entered (route : ProxyRoute) (headers : HeaderMap)

def GatewayInput.answer (inp : GatewayInput) : (o : GatewayOp) → gatewaySig.Reply o
  | .timestamp => inp.now
  | .encode claims => inp.encoded claims
  | .decode token _ => inp.decoded token
  | .enter _ _ => ()
  | .send outbound => inp.sent outbound.url

def GatewayOp.events (inp : GatewayInput) : GatewayOp → List GatewayEvent
  | .encode claims =>
    match inp.encoded claims with
    | .ok token => [.signed claims token]
    | .error _ => []
  | .decode token _ =>
    match inp.decoded token with
    | .ok claims => [.validated token claims]
    | .error _ => []
  | .enter route headers => [.entered route headers]
  | _ => []

/-- The handlers share no mutable state. Only the call of a backend is an await. -/
def gatewayEnv : Environment gatewaySig Unit GatewayInput GatewayEvent where
  reply s _ o inp := some (s, inp.answer o, o.events inp)
  cancel s _ o _ :=
    match o with
    | .send _ => some (s, [])
    | _ => none
  restart s _ := s

inductive GatewayResponse
  | token (resp : TokenResponse)
  | proxied (answer : Except (StatusCode × Value) Value)
  | health (body : Value)
  | failed (e : AppError)
  /-- An answer of the framework. -/
  | refused (status : ℕ)

abbrev GatewayTask := Prog gatewaySig GatewayResponse

abbrev GatewayService := Http.Service GatewayTask

/-- What a running gateway is made of. `parseLogin` is the extractor of the login body, with the
status of its rejection, and `fromSlice` the JSON parser. -/
structure Gateway where
  state : AppState
  userStore : UserStore
  verify : String → String → Except String Bool
  parseLogin : Http.Request → Except ℕ LoginRequest
  fromSlice : Bytes → Except String Value

section Jwt

def sign (username : String) (roles : List String) : Prog gatewaySig (Except AppError String) := do
  let now : ℤ ← perform (S := gatewaySig) .timestamp
  let encoded : Except String String ←
    perform (S := gatewaySig) (.encode ⟨username, now, now + tokenExpirySecs, issuer, roles⟩)
  return mapErr encoded .internal

def validate (token : String) : Prog gatewaySig (Except AppError Claims) := do
  let decoded : Except String Claims ← perform (S := gatewaySig) (.decode token issuer)
  return mapErr decoded .authInvalidToken

end Jwt

section Middleware

/-- `str::strip_prefix` -/
def stripPrefix (start s : String) : Option String :=
  if start.toList.isPrefixOf s.toList then some (String.ofList (s.toList.drop start.toList.length))
  else none

def bearerToken (headers : HeaderMap) : Except AppError String :=
  match (headers.get "authorization").bind HeaderValue.toStr with
  | none => .error .authMissingToken
  | some authHeader =>
    match stripPrefix "Bearer " authHeader with
    | none => .error .authMissingToken
    | some token => .ok token

def joinRoles (roles : List String) : String := String.intercalate "," roles

/-- The headers with the identity that a token proves. -/
def injectIdentity (headers : HeaderMap) (claims : Claims) : Except AppError HeaderMap :=
  match HeaderValue.fromStr claims.sub with
  | none => .error (.internal "bad sub")
  | some sub =>
    let headers := headers.insert "x-user-id" sub
    match HeaderValue.fromStr (joinRoles claims.roles) with
    | none => .error (.internal "bad roles")
    | some roles => .ok (headers.insert "x-user-roles" roles)

def jwtMiddleware (next : GatewayService) : GatewayService := fun req =>
  match bearerToken req.headers with
  | .error e => return .failed e
  | .ok token => do
    match ← validate token with
    | .error e => return .failed e
    | .ok claims =>
      match injectIdentity req.headers claims with
      | .error e => return .failed e
      | .ok headers => next { req with headers := headers }

end Middleware

section Handlers

variable (G : Gateway)

def authToken : GatewayService := fun req =>
  match G.parseLogin req with
  | .error status => return .refused status
  | .ok login =>
    match G.userStore.authenticate G.verify login.username login.password with
    | none => return .failed .authBadCredentials
    | some roles => do
      match ← sign login.username roles with
      | .error e => return .failed e
      | .ok token => return .token ⟨token, "Bearer", 3600⟩

def proxyHandler (route : ProxyRoute) : GatewayService := fun req => do
  let _ ← perform (S := gatewaySig) (.enter route req.headers)
  let sent : Except String HttpAnswer ← perform (S := gatewaySig) (.send (proxy G.state route))
  return .proxied (proxyGet G.fromSlice (proxy G.state route).url sent)

/-- The extractor `Path<String>`, which decodes the one parameter of the route. -/
def withPath (handler : String → GatewayService) (params : List Bytes) :
    GatewayService := fun req =>
  match params with
  | [segment] =>
    match Utf8.decode (Percent.decode segment) with
    | some id => handler id req
    | none => return .refused 400
  | _ => return .refused 500

def proxyUser : List Bytes → GatewayService := withPath (fun id => proxyHandler G (.user id))

def proxyUsers (_ : List Bytes) : GatewayService := proxyHandler G .users

def proxyOrder : List Bytes → GatewayService := withPath (fun id => proxyHandler G (.order id))

def proxyOrders (_ : List Bytes) : GatewayService := proxyHandler G .orders

def healthHandler (_ : List Bytes) : GatewayService := fun _ => return .health (health G.state)

end Handlers

section Routers

variable (G : Gateway)

def refused (status : ℕ) : GatewayTask := .done (.refused status)

def publicRoutes : Router GatewayTask :=
  ((Router.new refused).route [.lit "auth", .lit "token"]
    (Router.post refused (fun _ => authToken G))).route [.lit "health"]
    (Router.get refused (healthHandler G))

def protectedRoutes : Router GatewayTask :=
  (((((Router.new refused).route [.lit "users", .param]
    (Router.get refused (proxyUser G))).route [.lit "users"]
    (Router.get refused (proxyUsers G))).route [.lit "orders", .param]
    (Router.get refused (proxyOrder G))).route [.lit "orders"]
    (Router.get refused (proxyOrders G))).layer jwtMiddleware

def app : Router GatewayTask := ((Router.new refused).merge (publicRoutes G)).merge (protectedRoutes G)

end Routers

def gateway (G : Gateway) := machine gatewayEnv (app G).call

abbrev GatewayTrace := List (Event Http.Request GatewayResponse GatewayEvent)

end SecureNet.ApiGateway
