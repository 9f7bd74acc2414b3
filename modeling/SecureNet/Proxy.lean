import SecureNet.UserService
import SecureNet.VaultClient

/-!
# The proxy and its backends

`proxy_get` of `api-gateway/src/main.rs`, and `get_user` and `get_order` behind it. The gateway reads
the body of an answer before it looks at the status, and the two handlers refuse with a status and
no body.
-/

namespace SecureNet

open Hex (Bytes)

/-- `http::StatusCode` -/
abbrev StatusCode := { n : ℕ // 100 ≤ n ∧ n < 1000 }

namespace StatusCode

def ok : StatusCode := ⟨200, by decide⟩

def badRequest : StatusCode := ⟨400, by decide⟩

def notFound : StatusCode := ⟨404, by decide⟩

def badGateway : StatusCode := ⟨502, by decide⟩

def fromU16 (n : ℕ) : Option StatusCode := if h : 100 ≤ n ∧ n < 1000 then some ⟨n, h⟩ else none

@[simp] lemma fromU16_val (status : StatusCode) : fromU16 status.1 = some status := by
  unfold fromU16
  rw [dif_pos status.2]

end StatusCode

/-- An HTTP answer. The body is given by its bytes, or by the error text if it breaks off. -/
structure HttpAnswer where
  status : StatusCode
  body : Except String Bytes

/-- `Response::json` with the deserializer for the wanted type. -/
def HttpAnswer.json {α : Type} (fromSlice : Bytes → Except String α) (answer : HttpAnswer) :
    Except String α :=
  match answer.body with
  | .ok bytes => fromSlice bytes
  | .error e => .error e

namespace ApiGateway

def upstreamError (message url : String) : Value :=
  .object [("error", .string "UPSTREAM_ERROR"), ("message", .string message), ("url", .string url)]

def parseError (message : String) : Value :=
  .object [("error", .string "PARSE_ERROR"), ("message", .string message)]

/-- `sent` is what the backend answers, or the text of the error of `send`. -/
def proxyGet (fromSlice : Bytes → Except String Value) (url : String)
    (sent : Except String HttpAnswer) : Except (StatusCode × Value) Value :=
  match sent with
  | .error e => .error (.badGateway, upstreamError e url)
  | .ok resp =>
    match resp.json fromSlice with
    | .error e => .error (.badGateway, parseError e)
    | .ok body =>
      if !isSuccess resp.status.1 then
        .error ((StatusCode.fromU16 resp.status.1).getD .badGateway, body)
      else .ok body

/-- The status that the client of the gateway gets. -/
def clientStatus : Except (StatusCode × Value) Value → StatusCode
  | .ok _ => .ok
  | .error (status, _) => status

end ApiGateway

/-- A handler with a `Path<Uuid>`. `pathUuid` gives the hyphenated form of the id, or the text that
the framework answers with. `toVec` is the serializer. -/
def serveUuid {α : Type} (pathUuid : String → Except Bytes String) (toVec : α → Bytes)
    (handler : String → Except StatusCode α) (id : String) : HttpAnswer :=
  match pathUuid id with
  | .error text => ⟨.badRequest, .ok text⟩
  | .ok uuid =>
    match handler uuid with
    | .ok a => ⟨.ok, .ok (toVec a)⟩
    | .error status => ⟨status, .ok []⟩

def UserService.getUser (state : UserService.AppState) (id : String) :
    Except StatusCode UserService.User :=
  match state.users.find? (fun user => user.id == id) with
  | some user => .ok user
  | none => .error .notFound

structure OrderWithUser where
  order : OrderService.Order
  user : UserService.User

/-- The handler that sends `getOrder`. `send` is what the user service answers to a URL. -/
def OrderService.serveOrder (fromSlice : Bytes → Except String UserService.User)
    (send : String → Except String HttpAnswer) (state : OrderService.AppState) (id : String) :
    Except StatusCode OrderWithUser :=
  match state.orders.find? (fun order => order.id == id) with
  | none => .error .notFound
  | some order =>
    match send (state.userSvcUrl ++ "/users/" ++ order.userId) with
    | .error _ => .error .badGateway
    | .ok response =>
      if !isSuccess response.status.1 then .error .badGateway
      else
        match response.json fromSlice with
        | .error _ => .error .badGateway
        | .ok user => .ok ⟨order, user⟩

variable {α : Type} {pathUuid : String → Except Bytes String} {toVec : α → Bytes}
  {handler : String → Except StatusCode α} {fromSlice : Bytes → Except String Value}

/-- A handler that answers 404 answers with no body. -/
lemma serveUuid_notFound {id : String}
    (h : (serveUuid pathUuid toVec handler id).status = .notFound) :
    (serveUuid pathUuid toVec handler id).body = .ok [] := by
  unfold serveUuid at *
  cases hid : pathUuid id with
  | error text =>
    rw [hid] at h
    cases h
  | ok uuid =>
    rw [hid] at h
    simp only at h ⊢
    cases hanswer : handler uuid with
    | error status => rfl
    | ok a =>
      rw [hanswer] at h
      cases h

lemma proxyGet_status (url : String) {status : StatusCode} (hstatus : isSuccess status.1 = false)
    (body : Bytes) :
    ApiGateway.clientStatus (ApiGateway.proxyGet fromSlice url (.ok ⟨status, .ok body⟩)) =
      if (fromSlice body).isOk then status else .badGateway := by
  unfold ApiGateway.proxyGet HttpAnswer.json
  cases hparse : fromSlice body with
  | error e =>
    simp only [hparse]
    rfl
  | ok v =>
    simp only [hparse, hstatus, Bool.not_false, ↓reduceIte, StatusCode.fromU16_val,
      Option.getD_some]
    rfl

/-- An answer with status 404 and no body reaches the client as 502. -/
lemma bare_notFound (hempty : ∀ v, fromSlice [] ≠ .ok v) (url : String) {answer : HttpAnswer}
    (hstatus : answer.status = .notFound) (hbody : answer.body = .ok []) :
    ApiGateway.clientStatus (ApiGateway.proxyGet fromSlice url (.ok answer)) = .badGateway := by
  obtain ⟨status, body⟩ := answer
  subst hstatus hbody
  rw [proxyGet_status url rfl]
  cases hparse : fromSlice [] with
  | error e => rfl
  | ok v => exact absurd hparse (hempty v)

/-- The gateway answers with the status of a failed backend exactly if the body is JSON or the
status is 502 anyway. Both backends answer an unknown id with 404 and no body, so for every such id
the gateway answers 502. -/
theorem upstream_status_iff (fromSlice : Bytes → Except String Value)
    (hempty : ∀ v, fromSlice [] ≠ .ok v) :
    (∀ (url : String) (status : StatusCode) (body : Bytes), isSuccess status.1 = false →
      (ApiGateway.clientStatus (ApiGateway.proxyGet fromSlice url (.ok ⟨status, .ok body⟩)) =
          status ↔ status = .badGateway ∨ ∃ v, fromSlice body = .ok v)) ∧
    (∀ (url : String) (pathUuid : String → Except Bytes String) (toVec : UserService.User → Bytes)
      (state : UserService.AppState) (id : String),
      (serveUuid pathUuid toVec (UserService.getUser state) id).status = .notFound →
      ApiGateway.clientStatus (ApiGateway.proxyGet fromSlice url
        (.ok (serveUuid pathUuid toVec (UserService.getUser state) id))) = .badGateway) ∧
    (∀ (url : String) (pathUuid : String → Except Bytes String) (toVec : OrderWithUser → Bytes)
      (fromUser : Bytes → Except String UserService.User) (send : String → Except String HttpAnswer)
      (state : OrderService.AppState) (id : String),
      (serveUuid pathUuid toVec (OrderService.serveOrder fromUser send state) id).status =
        .notFound →
      ApiGateway.clientStatus (ApiGateway.proxyGet fromSlice url
        (.ok (serveUuid pathUuid toVec (OrderService.serveOrder fromUser send state) id))) =
          .badGateway) := by
  refine ⟨?_, ?_, ?_⟩
  · intro url status body hstatus
    rw [proxyGet_status url hstatus]
    cases hparse : fromSlice body with
    | error e => simp [Except.isOk, Except.toBool, eq_comm]
    | ok v => simp [Except.isOk, Except.toBool]
  · intro url pathUuid toVec state id hstatus
    exact bare_notFound hempty url hstatus (serveUuid_notFound hstatus)
  · intro url pathUuid toVec fromUser send state id hstatus
    exact bare_notFound hempty url hstatus (serveUuid_notFound hstatus)

section Sample

/-- A parser that knows the body `null`. -/
def sampleFromSlice (bytes : Bytes) : Except String Value :=
  if bytes = Utf8.encode "null" then .ok .null
  else .error "EOF while parsing a value at line 1 column 0"

def sampleUsers : UserService.AppState := ⟨UserService.seedUsers, "B", false⟩

def unknownUser : HttpAnswer :=
  serveUuid .ok (fun user => Utf8.encode user.name) (UserService.getUser sampleUsers)
    "550e8400-e29b-41d4-a716-446655440004"

end Sample

theorem upstream_status_iff_unknown :
    ApiGateway.clientStatus (ApiGateway.proxyGet sampleFromSlice "https://localhost:8001/users/x"
      (.ok unknownUser)) = .badGateway :=
  (upstream_status_iff sampleFromSlice (fun v h => by cases h)).2.1 _ _ _ sampleUsers _ rfl

/-- The user service answers an unknown id with 404, and the client of the gateway gets 502. -/
theorem unknown_user_badGateway :
    unknownUser.status = .notFound ∧ unknownUser.body = .ok [] ∧
      ApiGateway.clientStatus (ApiGateway.proxyGet sampleFromSlice
        "https://localhost:8001/users/550e8400-e29b-41d4-a716-446655440004" (.ok unknownUser)) ≠
          .notFound :=
  ⟨rfl, rfl, by decide⟩

end SecureNet
