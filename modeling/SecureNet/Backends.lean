import SecureNet.Gateway
import SecureNet.ProxyConfinement
import SecureNet.Wire

/-!
# The services behind the gateway

The routers of `user-service/src/main.rs` and `order-service/src/main.rs` around their handlers. The
network brings a request to whoever listens at the origin of its URL, or loses it or its answer. A
client presents the certificate that it was built with, which ends some day.
-/

namespace SecureNet

open Hex (Bytes)
open Http (Router)
open Percent (ascii)

section Framework

/-- An answer of the framework. -/
def HttpAnswer.refused (status : ℕ) : HttpAnswer :=
  ⟨(StatusCode.fromU16 status).getD .badGateway, .ok []⟩

/-- `Deserialize` of a `Uuid` in a path, with the text of the rejection. -/
def Uuid.fromPath (rejection : Bytes) (id : String) : Except Bytes String :=
  match Uuid.parseStr id with
  | some uuid => .ok uuid
  | none => .error rejection

/-- The extractor `Path<Uuid>` before a handler. What it answers to other segments is a text that
depends on the segment. -/
def serveSegment {α : Type} (rejection : Bytes → Bytes) (toVec : α → Bytes)
    (handler : String → Except StatusCode α) (params : List Bytes) : Http.Service HttpAnswer :=
  fun _ =>
    match params with
    | [segment] =>
      match Utf8.decode (Percent.decode segment) with
      | some id => serveUuid (Uuid.fromPath (rejection segment)) toVec handler id
      | none => ⟨.badRequest, .ok (rejection segment)⟩
    | _ => .refused 500

def HttpAnswer.json200 (text : Bytes) : HttpAnswer := ⟨.ok, .ok text⟩

def HealthResponse.serialize (self : HealthResponse) : Json :=
  .object [("status", .string self.status), ("service", .string self.service),
    ("version", .string self.version), ("sealed", .bool self.isSealed),
    ("cert_serial", (self.certSerial.map Json.string).getD .null)]

end Framework

variable (rejection : Bytes → Bytes)

namespace UserService

/-- The users in the order in which the map gives them. -/
def listUsers (state : AppState) : List User := state.users

def usersFormat : Json.Format (List User) := .list User.format (fun _ => (by decide : 1 ≤ 126))

def app (state : AppState) : Router HttpAnswer :=
  (((Router.new HttpAnswer.refused).route [.lit "users", .param]
    (Router.get .refused (serveSegment rejection User.format.toVec (getUser state)))).route
    [.lit "users"]
    (Router.get .refused (fun _ _ => .json200 (usersFormat.toVec (listUsers state))))).route
    [.lit "health"] (Router.get .refused (fun _ _ => .json200 (health state).serialize.text))

end UserService

namespace OrderService

def listOrders (state : AppState) : List Order := state.orders

def ordersFormat : Json.Format (List Order) := .list Order.format (fun _ => (by decide : 1 ≤ 126))

/-- `Response::json` for a `User` -/
def readUser (bs : Bytes) : Except String UserService.User :=
  context (UserService.User.format.fromSlice bs) "error decoding response body"

/-- `send` is what the user service answers to a URL. -/
def app (send : String → Except String HttpAnswer) (state : AppState) : Router HttpAnswer :=
  (((Router.new HttpAnswer.refused).route [.lit "orders", .param]
    (Router.get .refused
      (serveSegment rejection OrderWithUser.format.toVec (serveOrder readUser send state)))).route
    [.lit "orders"]
    (Router.get .refused (fun _ _ => .json200 (ordersFormat.toVec (listOrders state))))).route
    [.lit "health"] (Router.get .refused (fun _ _ => .json200 (health state).serialize.text))

/-- The URL that `get_order` calls for an order. -/
def AppState.userUrl (state : AppState) (order : Order) : String :=
  state.userSvcUrl ++ "/users/" ++ order.userId

end OrderService

section Network

/-- `client.get(url)` as the service at the origin of the URL receives it. -/
def getRequest {A : Type} (url : Url A) : Http.Request :=
  ⟨.get, ascii '/' :: [ascii '/'].intercalate url.path, [], []⟩

inductive Listener
  | users
  | orders

/-- The two services as they run, and who listens where. A client that presents the chain and the
listener accept each other's certificates until the time `trustedUntil`. -/
structure Backends (A : Type) where
  users : UserService.AppState
  orders : OrderService.AppState
  rejection : Bytes → Bytes
  parseAuthority : Bytes → Bytes → Option A
  listener : Bytes → A → Option Listener
  trustedUntil : Listener → List Bytes → ℤ
  users_valid : ∀ user ∈ users.users, Uuid.Hyphenated user.id
  orders_valid : ∀ order ∈ orders.orders, order.Valid

variable {A : Type} (B : Backends A)

/-- The request that a GET of the URL becomes, and the service that receives it. -/
def Backends.reach (url : String) : Option (Listener × Http.Request) :=
  (Url.parse B.parseAuthority (Utf8.encode url)).bind fun parsed =>
    (B.listener parsed.scheme parsed.authority).map fun listener => (listener, getRequest parsed)

/-- The certificates of a call with the chain, and of the call that the order service makes for it,
are accepted at the time. -/
structure Backends.Trusted (chain : List Bytes) (now : ℤ) : Prop where
  client : ∀ listener, now ≤ B.trustedUntil listener chain
  orders : now ≤ B.trustedUntil .users B.orders.mtlsClient.certChain

/-- What a GET of a URL, by a client that presents the chain, may have returned at the time `now`.
Only a lossy network fails to deliver a request or its answer, or breaks off a body, and a handshake
fails only over a certificate that has ended. Calls that reuse a connection are still answered
then. -/
inductive Backends.Reply {A : Type} (B : Backends A) (lossy : Prop) (now : ℤ) :
    List Bytes → String → Except String HttpAnswer → Prop
  | lost (h : lossy) (chain : List Bytes) (url e : String) : Reply B lossy now chain url (.error e)
  | unserved {url : String} (h : B.reach url = none) (chain : List Bytes) (e : String) :
    Reply B lossy now chain url (.error e)
  | untrusted {chain : List Bytes} {url : String} {listener : Listener} {req : Http.Request}
    (h : B.reach url = some (listener, req)) (hended : B.trustedUntil listener chain < now)
    (e : String) : Reply B lossy now chain url (.error e)
  | users {url : String} {req : Http.Request} (h : B.reach url = some (.users, req))
    (chain : List Bytes) :
    Reply B lossy now chain url (.ok ((UserService.app B.rejection B.users).call req))
  | orders {url : String} {req : Http.Request} {send : String → Except String HttpAnswer}
    (h : B.reach url = some (.orders, req))
    (hsend : ∀ order ∈ B.orders.orders, Reply B lossy now B.orders.mtlsClient.certChain
      (B.orders.userUrl order) (send (B.orders.userUrl order))) (chain : List Bytes) :
    Reply B lossy now chain url (.ok ((OrderService.app B.rejection send B.orders).call req))
  | cut (h : lossy) {chain : List Bytes} {url : String} {answer : HttpAnswer}
    (hanswer : Reply B lossy now chain url (.ok answer)) (e : String) :
    Reply B lossy now chain url (.ok ⟨answer.status, .error e⟩)

end Network

section Ids

/-- The characters of an id in its hyphenated form. -/
lemma Uuid.Hyphenated.chars {s : String} (hs : Uuid.Hyphenated s) :
    s ≠ "" ∧ ∀ c ∈ s.toList, c = '-' ∨ ∃ v < 16, c = Nat.digitChar v := by
  obtain ⟨ds, hds, rfl⟩ := Option.map_eq_some_iff.mp hs
  obtain ⟨-, hhex⟩ := Option.filter_eq_some_iff.mp hds
  rw [List.all_eq_true] at hhex
  have hdigit : ∀ c ∈ ds.map Char.toLower, ∃ v < 16, c = Nat.digitChar v := by
    intro c hc
    obtain ⟨d, hd, rfl⟩ := List.mem_map.mp hc
    obtain ⟨v, hv⟩ := Option.isSome_iff_exists.mp (hhex d hd)
    obtain ⟨hlt, hlower⟩ := Hex.digitValue_eq_some.mp hv
    exact ⟨v, hlt, hlower⟩
  generalize ds.map Char.toLower = cs at hdigit
  constructor
  · intro hempty
    have hnil := congrArg String.toList hempty
    rw [String.toList_ofList, hyphenate] at hnil
    simp at hnil
  · intro c hc
    rw [String.toList_ofList] at hc
    have htake : ∀ n m, ∀ d ∈ (cs.drop n).take m, ∃ v < 16, d = Nat.digitChar v :=
      fun n m d hd => hdigit d (List.mem_of_mem_drop (List.mem_of_mem_take hd))
    simp only [hyphenate, List.append_assoc, List.cons_append, List.mem_append, List.mem_cons] at hc
    rcases hc with hc | hc | hc | hc | hc | hc | hc | hc | hc
    · exact .inr (hdigit c (List.mem_of_mem_take hc))
    · exact .inl hc
    · exact .inr (htake 8 4 c hc)
    · exact .inl hc
    · exact .inr (htake 12 4 c hc)
    · exact .inl hc
    · exact .inr (htake 16 4 c hc)
    · exact .inl hc
    · exact .inr (hdigit c (List.mem_of_mem_drop hc))

lemma plainSegment_chars {s : String} (hs : ∀ c ∈ s.toList, c = '-' ∨ ∃ v < 16, c = Nat.digitChar v) :
    Url.PlainSegment (Utf8.encode s) := by
  have hbyte : ∀ b ∈ Utf8.encode s, Url.endsAuthority b = false ∧ Url.isTabOrNewline b = false ∧
      Url.isC0OrSpace b = false ∧ b ≠ ascii '%' ∧ b ≠ ascii '.' := by
    intro b hb
    obtain ⟨c, hc, hcb⟩ := List.mem_flatMap.mp hb
    have hdash : ∀ b ∈ String.utf8EncodeChar '-', Url.endsAuthority b = false ∧
        Url.isTabOrNewline b = false ∧ Url.isC0OrSpace b = false ∧ b ≠ ascii '%' ∧ b ≠ ascii '.' := by
      decide +kernel
    have hdigits : ∀ v < 16, ∀ b ∈ String.utf8EncodeChar (Nat.digitChar v),
        Url.endsAuthority b = false ∧ Url.isTabOrNewline b = false ∧ Url.isC0OrSpace b = false ∧
          b ≠ ascii '%' ∧ b ≠ ascii '.' := by
      decide +kernel
    rcases hs c hc with rfl | ⟨v, hv, rfl⟩
    · exact hdash b hcb
    · exact hdigits v hv b hcb
  have hescape : ∀ bs : Bytes, (∀ b ∈ bs, b ≠ ascii '%') → Percent.hasEscape bs = false := by
    intro bs hbs
    induction bs with
    | nil => rfl
    | cons b bs ih =>
      obtain ⟨hb, hrest⟩ := List.forall_mem_cons.mp hbs
      rw [Percent.hasEscape, ih hrest, beq_eq_false_iff_ne.mpr hb]
      rfl
  have hdot : ∀ t : Bytes, ascii '.' ∈ t → Utf8.encode s ≠ t := by
    rintro t ht rfl
    exact (hbyte _ ht).2.2.2.2 rfl
  exact ⟨fun b hb => ⟨(hbyte b hb).1, (hbyte b hb).2.1⟩,
    fun b hb => (hbyte b (List.mem_of_getLast? hb)).2.2.1,
    hescape _ (fun b hb => (hbyte b hb).2.2.2.1), hdot _ (by decide), hdot _ (by decide)⟩

end Ids

section Routers

variable {req : Http.Request} (hget : req.method = .get) {seg : Bytes}

include hget

lemma UserService.app_user (state : AppState)
    (hpath : Http.pathSegments req.path = [Utf8.encode "users", seg]) (hseg : seg ≠ []) :
    (app rejection state).call req =
      serveSegment rejection User.format.toVec (getUser state) [seg] req := by
  rw [Router.call, hpath]
  simp only [app, Router.route, Router.new, List.nil_append, List.cons_append, Router.find,
    Http.matchSegments, ↓reduceIte, if_neg hseg, Option.map_some, Router.get, hget, true_or]

lemma UserService.app_users (state : AppState)
    (hpath : Http.pathSegments req.path = [Utf8.encode "users"]) :
    (app rejection state).call req = .json200 (usersFormat.toVec state.users) := by
  rw [Router.call, hpath]
  simp only [app, Router.route, Router.new, List.nil_append, List.cons_append, Router.find,
    Http.matchSegments, ↓reduceIte, Router.get, hget, true_or, listUsers]

lemma OrderService.app_order (send : String → Except String HttpAnswer) (state : AppState)
    (hpath : Http.pathSegments req.path = [Utf8.encode "orders", seg]) (hseg : seg ≠ []) :
    (app rejection send state).call req =
      serveSegment rejection OrderWithUser.format.toVec (serveOrder readUser send state) [seg]
        req := by
  rw [Router.call, hpath]
  simp only [app, Router.route, Router.new, List.nil_append, List.cons_append, Router.find,
    Http.matchSegments, ↓reduceIte, if_neg hseg, Option.map_some, Router.get, hget, true_or]

lemma OrderService.app_orders (send : String → Except String HttpAnswer) (state : AppState)
    (hpath : Http.pathSegments req.path = [Utf8.encode "orders"]) :
    (app rejection send state).call req = .json200 (ordersFormat.toVec state.orders) := by
  rw [Router.call, hpath]
  simp only [app, Router.route, Router.new, List.nil_append, List.cons_append, Router.find,
    Http.matchSegments, ↓reduceIte, Router.get, hget, true_or, listOrders]

end Routers

section Reach

variable {A : Type} {B : Backends A}

/-- A service listens at a plain origin. -/
def Backends.At (B : Backends A) (listener : Listener) (base : String) : Prop :=
  ∃ scheme authority, Url.PlainOrigin B.parseAuthority (Utf8.encode base) scheme authority ∧
    B.listener scheme authority = some listener

lemma pathSegments_getRequest {url : Url A} (hpath : url.path ≠ [])
    (hslash : ∀ seg ∈ url.path, ascii '/' ∉ seg) :
    Http.pathSegments (getRequest url).path = url.path := by
  rw [Http.pathSegments, getRequest, List.drop_one, List.tail_cons, ← List.splitOn_eq_splitOnP]
  exact List.splitOn_intercalate _ hslash hpath

lemma slash_name {name : Bytes} (hname : Url.PlainName name) : ascii '/' ∉ name := by
  have hslash := hname.segment.slash
  rwa [hname.encode] at hslash

/-- A plain id reaches the service as it is. -/
lemma reach_segment {listener : Listener} {base name id : String} (hat : B.At listener base)
    (hname : Url.PlainName (Utf8.encode name)) (hid : Url.PlainSegment (Utf8.encode id))
    (hne : id ≠ "") :
    ∃ req seg, B.reach (base ++ ("/" ++ name ++ "/") ++ id) = some (listener, req) ∧
      req.method = .get ∧ Http.pathSegments req.path = [Utf8.encode name, seg] ∧ seg ≠ [] ∧
      Utf8.decode (Percent.decode seg) = some id := by
  obtain ⟨scheme, authority, horigin, hlisten⟩ := hat
  obtain ⟨hparse, hdecode⟩ := Url.parse_segment horigin hname hid
  have hslash := hid.slash
  generalize Percent.encode Url.inPathSet (Utf8.encode id) = seg at *
  refine ⟨getRequest ⟨scheme, authority, [Utf8.encode name, seg], none, none⟩, seg, ?_, rfl, ?_, ?_,
    ?_⟩
  · rw [Backends.reach, encode_proxyUrl, hparse, Option.bind_some, hlisten, Option.map_some]
  · apply pathSegments_getRequest (by simp)
    intro s hs
    rcases List.mem_pair.mp hs with rfl | rfl
    · exact slash_name hname
    · exact hslash
  · intro hnil
    rw [hnil] at hdecode
    have hempty := congrArg Utf8.decode hdecode
    rw [Utf8.decode_encode] at hempty
    exact hne (Option.some.inj hempty).symm
  · rw [hdecode, Utf8.decode_encode]

lemma reach_name {listener : Listener} {base name : String} (hat : B.At listener base)
    (hname : Url.PlainName (Utf8.encode name)) :
    ∃ req, B.reach (base ++ ("/" ++ name)) = some (listener, req) ∧
      req.method = .get ∧ Http.pathSegments req.path = [Utf8.encode name] := by
  obtain ⟨scheme, authority, horigin, hlisten⟩ := hat
  have hparse := Url.parse_name horigin hname
  refine ⟨getRequest ⟨scheme, authority, [Utf8.encode name], none, none⟩, ?_, rfl, ?_⟩
  · have hurl : Utf8.encode (base ++ ("/" ++ name)) =
        Utf8.encode base ++ ascii '/' :: Utf8.encode name := by
      rw [Utf8.encode_append, Utf8.encode_append]
      rfl
    rw [Backends.reach, hurl, hparse, Option.bind_some, hlisten, Option.map_some]
  · apply pathSegments_getRequest (by simp)
    intro seg hseg
    rw [List.mem_singleton.mp hseg]
    exact slash_name hname

end Reach

section Answers

/-- The answer brings no value. -/
def Fails : Except String HttpAnswer → Prop
  | .error _ => True
  | .ok answer => isSuccess answer.status.1 = false ∨ ∃ e, answer.body = .error e

/-- The answer brings the value, if there is one, and otherwise fails. -/
def Carries {α : Type} (toVec : α → Bytes) (answer : Except String HttpAnswer) : Option α → Prop
  | some a => answer = .ok ⟨.ok, .ok (toVec a)⟩
  | none => Fails answer

/-- What came of something that was found. -/
def Arrived {α : Type} (impaired : Prop) (found result : Option α) : Prop :=
  result = found ∨ impaired ∧ result = none

lemma serveSegment_carries {α : Type} (toVec : α → Bytes) (handler : String → Except StatusCode α)
    (hstatus : ∀ uuid status, handler uuid = .error status → isSuccess status.1 = false)
    {seg : Bytes} {id : String} (hid : Utf8.decode (Percent.decode seg) = some id)
    (req : Http.Request) :
    Carries toVec (.ok (serveSegment rejection toVec handler [seg] req))
      ((Uuid.parseStr id).bind fun uuid => (handler uuid).toOption) := by
  simp only [serveSegment, hid]
  rw [serveUuid, Uuid.fromPath]
  cases Uuid.parseStr id with
  | none => exact .inl rfl
  | some uuid =>
    rw [Option.bind_some]
    simp only
    cases hanswer : handler uuid with
    | error status => exact .inl (hstatus uuid status hanswer)
    | ok a => rfl

lemma getUser_status {state : UserService.AppState} {uuid : String} {status : StatusCode}
    (h : UserService.getUser state uuid = .error status) : isSuccess status.1 = false := by
  unfold UserService.getUser at h
  split at h
  · cases h
  · cases h
    rfl

lemma getUser_toOption (state : UserService.AppState) (uuid : String) :
    (UserService.getUser state uuid).toOption = state.users.find? (fun user => user.id == uuid) := by
  rw [UserService.getUser]
  cases state.users.find? (fun user => user.id == uuid) <;> rfl

section Orders

open OrderService

variable {send : String → Except String HttpAnswer} {state : OrderService.AppState} {uuid : String}

lemma serveOrder_status {status : StatusCode}
    (h : serveOrder readUser send state uuid = .error status) : isSuccess status.1 = false := by
  unfold serveOrder at h
  split at h
  · cases h
    rfl
  split at h
  · cases h
    rfl
  split at h
  · cases h
    rfl
  split at h
  · cases h
    rfl
  · cases h

lemma serveOrder_unknown (hfind : state.orders.find? (fun order => order.id == uuid) = none) :
    (serveOrder readUser send state uuid).toOption = none := by
  rw [serveOrder, hfind]
  rfl

/-- A known order is answered if the user service has answered. -/
lemma serveOrder_known {order : Order} {user : Option UserService.User}
    (hfind : state.orders.find? (fun order => order.id == uuid) = some order)
    (hsend : Carries UserService.User.format.toVec (send (state.userUrl order)) user)
    (huser : ∀ u, user = some u → Uuid.Hyphenated u.id) :
    (serveOrder readUser send state uuid).toOption = user.map (OrderWithUser.mk order) := by
  have hurl : state.userSvcUrl ++ "/users/" ++ order.userId = state.userUrl order := rfl
  rw [serveOrder, hfind]
  simp only [hurl]
  cases user with
  | some u =>
    have hread : readUser (UserService.User.format.toVec u) = .ok u :=
      context_ok_iff.mpr (Json.Format.fromSlice_toVec (huser u rfl))
    have hsuccess : isSuccess StatusCode.ok.1 = true := rfl
    have hanswer : send (state.userUrl order) = .ok ⟨.ok, .ok (UserService.User.format.toVec u)⟩ :=
      hsend
    simp only [hanswer, hsuccess, Bool.not_true, Bool.false_eq_true, ↓reduceIte, HttpAnswer.json,
      hread]
    rfl
  | none =>
    have hfails : Fails (send (state.userUrl order)) := hsend
    cases hanswer : send (state.userUrl order) with
    | error e => rfl
    | ok answer =>
      rw [hanswer] at hfails
      rcases hfails with hstatus | ⟨e, he⟩
      · simp only [hstatus, Bool.not_false, ↓reduceIte]
        rfl
      · simp only [HttpAnswer.json, he]
        split <;> rfl

end Orders

end Answers

section Replies

variable {A : Type} {B : Backends A} {lossy impaired : Prop} {now : ℤ} {chain : List Bytes}
  {url : String} {req : Http.Request} {answer : Except String HttpAnswer}

/-- The user that the user service finds for an id in a path. -/
def Backends.findUser (B : Backends A) (id : String) : Option UserService.User :=
  (Uuid.parseStr id).bind fun uuid => B.users.users.find? (fun user => user.id == uuid)

/-- The order for an id in a path, with the user that the user service finds for it. -/
def Backends.findOrder (B : Backends A) (id : String) : Option OrderWithUser :=
  (Uuid.parseStr id).bind fun uuid =>
    (B.orders.orders.find? (fun order => order.id == uuid)).bind fun order =>
      (B.findUser order.userId).map (OrderWithUser.mk order)

lemma Backends.Reply.of_users (hr : B.Reply lossy now chain url answer)
    (hreach : B.reach url = some (.users, req)) :
    ((lossy ∨ B.trustedUntil .users chain < now) ∧ Fails answer) ∨
      answer = .ok ((UserService.app B.rejection B.users).call req) := by
  cases hr with
  | lost h => exact .inl ⟨.inl h, trivial⟩
  | unserved h =>
    rw [hreach] at h
    cases h
  | untrusted h hended =>
    rw [hreach] at h
    cases h
    exact .inl ⟨.inr hended, trivial⟩
  | users h =>
    rw [hreach] at h
    cases h
    exact .inr rfl
  | orders h =>
    rw [hreach] at h
    cases h
  | cut h _ e => exact .inl ⟨.inl h, .inr ⟨e, rfl⟩⟩

lemma Backends.Reply.of_orders (hr : B.Reply lossy now chain url answer)
    (hreach : B.reach url = some (.orders, req)) :
    ((lossy ∨ B.trustedUntil .orders chain < now) ∧ Fails answer) ∨ ∃ send,
      answer = .ok ((OrderService.app B.rejection send B.orders).call req) ∧
      ∀ order ∈ B.orders.orders, B.Reply lossy now B.orders.mtlsClient.certChain
        (B.orders.userUrl order) (send (B.orders.userUrl order)) := by
  cases hr with
  | lost h => exact .inl ⟨.inl h, trivial⟩
  | unserved h =>
    rw [hreach] at h
    cases h
  | untrusted h hended =>
    rw [hreach] at h
    cases h
    exact .inl ⟨.inr hended, trivial⟩
  | users h =>
    rw [hreach] at h
    cases h
  | orders h hsend =>
    rw [hreach] at h
    cases h
    exact .inr ⟨_, rfl, hsend⟩
  | cut h _ e => exact .inl ⟨.inl h, .inr ⟨e, rfl⟩⟩

/-- The user service answers a plain id with the user that has it. -/
theorem reply_user {base id : String} (hat : B.At .users base)
    (hid : Url.PlainSegment (Utf8.encode id)) (hne : id ≠ "")
    (hr : B.Reply lossy now chain (base ++ "/users/" ++ id) answer) :
    ∃ result, Arrived (lossy ∨ B.trustedUntil .users chain < now) (B.findUser id) result ∧
      Carries UserService.User.format.toVec answer result := by
  obtain ⟨req, seg, hreach, hget, hpath, hseg, hdecode⟩ := reach_segment hat plainName_routes.1 hid hne
  rcases hr.of_users hreach with ⟨himpaired, hfails⟩ | rfl
  · exact ⟨none, .inr ⟨himpaired, rfl⟩, hfails⟩
  · refine ⟨_, .inl rfl, ?_⟩
    rw [UserService.app_user _ hget _ hpath hseg]
    have hcarries := serveSegment_carries B.rejection UserService.User.format.toVec
      (UserService.getUser B.users) (fun _ _ => getUser_status) hdecode req
    simp only [getUser_toOption] at hcarries
    exact hcarries

lemma findUser_valid {id : String} {user : UserService.User} (h : B.findUser id = some user) :
    Uuid.Hyphenated user.id := by
  obtain ⟨uuid, -, hfind⟩ := Option.bind_eq_some_iff.mp h
  exact B.users_valid user (List.mem_of_find?_eq_some hfind)

lemma findOrder_valid {id : String} {order : OrderWithUser} (h : B.findOrder id = some order) :
    order.order.Valid ∧ Uuid.Hyphenated order.user.id := by
  obtain ⟨uuid, -, h⟩ := Option.bind_eq_some_iff.mp h
  obtain ⟨o, hfind, h⟩ := Option.bind_eq_some_iff.mp h
  obtain ⟨user, huser, rfl⟩ := Option.map_eq_some_iff.mp h
  exact ⟨B.orders_valid o (List.mem_of_find?_eq_some hfind), findUser_valid huser⟩

lemma Arrived.eq_some {α : Type} {found result : Option α} (h : Arrived impaired found result)
    {a : α} (ha : result = some a) : found = some a := by
  rcases h with rfl | ⟨-, rfl⟩
  · exact ha
  · cases ha

lemma Arrived.map {α β : Type} {found result : Option α} (h : Arrived impaired found result)
    (f : α → β) : Arrived impaired (found.map f) (result.map f) := by
  rcases h with rfl | ⟨himpaired, rfl⟩
  · exact .inl rfl
  · exact .inr ⟨himpaired, rfl⟩

lemma Arrived.mono {α : Type} {found result : Option α} {worse : Prop}
    (h : Arrived impaired found result) (himp : impaired → worse) : Arrived worse found result :=
  h.imp_right (And.imp_left himp)

/-- The order service answers a plain id with the order that has it and that order's user. -/
theorem reply_order {base id : String} (hat : B.At .orders base)
    (husers : B.At .users B.orders.userSvcUrl)
    (hid : Url.PlainSegment (Utf8.encode id)) (hne : id ≠ "")
    (hr : B.Reply lossy now chain (base ++ "/orders/" ++ id) answer) :
    ∃ result, Arrived ((lossy ∨ B.trustedUntil .orders chain < now) ∨
        B.trustedUntil .users B.orders.mtlsClient.certChain < now) (B.findOrder id) result ∧
      Carries OrderWithUser.format.toVec answer result := by
  obtain ⟨req, seg, hreach, hget, hpath, hseg, hdecode⟩ := reach_segment hat plainName_routes.2 hid hne
  rcases hr.of_orders hreach with ⟨himpaired, hfails⟩ | ⟨send, rfl, hsend⟩
  · exact ⟨none, .inr ⟨.inl himpaired, rfl⟩, hfails⟩
  · rw [OrderService.app_order _ hget _ _ hpath hseg]
    have hcarries := serveSegment_carries B.rejection OrderWithUser.format.toVec
      (OrderService.serveOrder OrderService.readUser send B.orders) (fun _ _ => serveOrder_status)
      hdecode req
    refine ⟨_, ?_, hcarries⟩
    rw [Backends.findOrder]
    cases Uuid.parseStr id with
    | none => exact .inl rfl
    | some uuid =>
      rw [Option.bind_some, Option.bind_some]
      cases hfind : B.orders.orders.find? (fun order => order.id == uuid) with
      | none => exact .inl (serveOrder_unknown hfind)
      | some order =>
        have hmem := List.mem_of_find?_eq_some hfind
        have hvalid := (B.orders_valid order hmem).2
        obtain ⟨user, huser, hanswer⟩ := reply_user husers (plainSegment_chars hvalid.chars.2)
          hvalid.chars.1 (hsend order hmem)
        rw [Option.bind_some, serveOrder_known hfind hanswer
          (fun u hu => findUser_valid (huser.eq_some hu))]
        refine (huser.map (OrderWithUser.mk order)).mono ?_
        rintro (hlossy | hended)
        · exact .inl (.inl hlossy)
        · exact .inr hended

theorem reply_users {base : String} (hat : B.At .users base)
    (hr : B.Reply lossy now chain (base ++ "/users") answer) :
    ∃ result, Arrived (lossy ∨ B.trustedUntil .users chain < now) (some B.users.users) result ∧
      Carries UserService.usersFormat.toVec answer result := by
  obtain ⟨req, hreach, hget, hpath⟩ := reach_name hat plainName_routes.1
  rcases hr.of_users hreach with ⟨himpaired, hfails⟩ | rfl
  · exact ⟨none, .inr ⟨himpaired, rfl⟩, hfails⟩
  · rw [UserService.app_users _ hget _ hpath]
    exact ⟨_, .inl rfl, rfl⟩

theorem reply_orders {base : String} (hat : B.At .orders base)
    (hr : B.Reply lossy now chain (base ++ "/orders") answer) :
    ∃ result, Arrived (lossy ∨ B.trustedUntil .orders chain < now) (some B.orders.orders) result ∧
      Carries OrderService.ordersFormat.toVec answer result := by
  obtain ⟨req, hreach, hget, hpath⟩ := reach_name hat plainName_routes.2
  rcases hr.of_orders hreach with ⟨himpaired, hfails⟩ | ⟨send, rfl, -⟩
  · exact ⟨none, .inr ⟨himpaired, rfl⟩, hfails⟩
  · rw [OrderService.app_orders _ hget _ _ hpath]
    exact ⟨_, .inl rfl, rfl⟩

end Replies

end SecureNet
