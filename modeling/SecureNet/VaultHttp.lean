import SecureNet.Gateway
import SecureNet.Outcomes
import SecureNet.Wire

/-!
# The vault behind HTTP

The router of `vault-service/src/main.rs` with the `Json` extractor, the answers of its handlers as
`into_response` makes them, and the requests that reqwest makes of the calls of its clients.
-/

namespace SecureNet

open Hex (Bytes)
open Http (HeaderMap HeaderValue Router)

section Extractor

/-- Whether a request says that its body is JSON. -/
def isJsonContent (headers : HeaderMap) : Bool :=
  match (headers.get "content-type").bind HeaderValue.toStr with
  | none => false
  | some mime =>
    let essence := (mime.toList.takeWhile (· != ';')).map Char.toLower
    decide (essence = "application/json".toList) ||
      ("application/".toList.isPrefixOf essence && "+json".toList.isSuffixOf essence)

/-- The extractor `Json<T>` in front of a handler, with the status of its rejection. -/
def withJson {α : Type} (read : Json → Option α) (handler : α → Request) (_ : List Bytes) :
    Http.Service (Except ℕ Request) := fun req =>
  if !isJsonContent req.headers then .error 415
  else
    match Json.parse req.body with
    | none => .error 400
    | some body =>
      match read body with
      | none => .error 422
      | some a => .ok (handler a)

end Extractor

/-- Which handler a request reaches, or the status that the framework answers with. -/
def vaultRouter : Router (Except ℕ Request) :=
  ((((((Router.new .error).route [.lit "vault", .lit "nonce"]
    (Router.get .error (fun _ _ => .ok .getNonce))).route [.lit "vault", .lit "unseal"]
    (Router.post .error (withJson UnsealRequest.deserialize .postUnseal))).route
    [.lit "vault", .lit "renew"]
    (Router.post .error (withJson UnsealRequest.deserialize .postRenew))).route
    [.lit "vault", .lit "revoke"]
    (Router.post .error (withJson (fun body => some (Value.ofJson body)) .postRevoke))).route
    [.lit "vault", .lit "crl"]
    (Router.get .error (fun _ _ => .ok .getCrl))).route [.lit "vault", .lit "health"]
    (Router.get .error (fun _ _ => .ok .getHealth))

/-- What the client of a handler gets. -/
def Response.intoResponse (F : TimeFormat) : Response → HttpAnswer
  | .json body => ⟨.ok, .ok body.toVec⟩
  | .unsealed resp => ⟨.ok, .ok ((UnsealResponse.format F).toVec resp)⟩
  | .failed e => e.intoResponse

section Requests

lemma applicationJson_valid :
    (Utf8.encode "application/json").all Http.isValidByte = true := by decide

def applicationJson : HeaderValue :=
  ⟨Utf8.encode "application/json", List.all_eq_true.mp applicationJson_valid⟩

/-- The request that a call of a client of the vault at `vaultUrl` sends. The path of a URL is what
follows the address of the vault. -/
def ClientOp.httpRequest (vaultUrl : String) : ClientOp → Option Http.Request
  | .get url =>
    (ApiGateway.stripPrefix vaultUrl url).map fun path => ⟨.get, Utf8.encode path, [], []⟩
  | .post url req =>
    (ApiGateway.stripPrefix vaultUrl url).map fun path =>
      ⟨.post, Utf8.encode path, [("content-type", applicationJson)], UnsealRequest.format.toVec req⟩
  | _ => none

/-- The handler of the vault that a call reaches. -/
def ClientOp.request (vaultUrl : String) (o : ClientOp) : Option Request :=
  (o.httpRequest vaultUrl).bind fun req => (vaultRouter.call req).toOption

lemma stripPrefix_append (start s : String) : ApiGateway.stripPrefix start (start ++ s) = some s := by
  have hprefix : start.toList.isPrefixOf (start ++ s).toList = true := by
    rw [List.isPrefixOf_iff_prefix, String.toList_append]
    exact List.prefix_append _ _
  rw [ApiGateway.stripPrefix, if_pos hprefix, String.toList_append, List.drop_left,
    String.ofList_toList]

variable (vaultUrl : String)

lemma matchSegments_pair (a b c d : String) :
    Http.matchSegments [.lit a, .lit b] [Utf8.encode c, Utf8.encode d] =
      if c = a ∧ d = b then some [] else none := by
  simp only [Http.matchSegments, Utf8.encode_inj]
  by_cases hc : c = a
  · by_cases hd : d = b <;> simp [hc, hd]
  · simp [hc]

/-- What the router makes of a path of the vault. -/
lemma vaultRouter_call {req : Http.Request} {name : String}
    (hpath : Http.pathSegments req.path = [Utf8.encode "vault", Utf8.encode name]) :
    vaultRouter.call req =
      if name = "nonce" then Router.get .error (fun _ _ => .ok .getNonce) [] req
      else if name = "unseal" then
        Router.post .error (withJson UnsealRequest.deserialize .postUnseal) [] req
      else if name = "renew" then
        Router.post .error (withJson UnsealRequest.deserialize .postRenew) [] req
      else if name = "revoke" then
        Router.post .error (withJson (fun body => some (Value.ofJson body)) .postRevoke) [] req
      else if name = "crl" then Router.get .error (fun _ _ => .ok .getCrl) [] req
      else if name = "health" then Router.get .error (fun _ _ => .ok .getHealth) [] req
      else .error 404 := by
  unfold Router.call vaultRouter
  simp only [Router.route, Router.new, List.nil_append, List.cons_append, Router.find, hpath,
    matchSegments_pair, true_and]
  by_cases h₁ : name = "nonce"
  · simp only [if_pos h₁]
  by_cases h₂ : name = "unseal"
  · simp only [if_neg h₁, if_pos h₂]
  by_cases h₃ : name = "renew"
  · simp only [if_neg h₁, if_neg h₂, if_pos h₃]
  by_cases h₄ : name = "revoke"
  · simp only [if_neg h₁, if_neg h₂, if_neg h₃, if_pos h₄]
  by_cases h₅ : name = "crl"
  · simp only [if_neg h₁, if_neg h₂, if_neg h₃, if_neg h₄, if_pos h₅]
  by_cases h₆ : name = "health"
  · simp only [if_neg h₁, if_neg h₂, if_neg h₃, if_neg h₄, if_neg h₅, if_pos h₆]
  simp only [if_neg h₁, if_neg h₂, if_neg h₃, if_neg h₄, if_neg h₅, if_neg h₆]

lemma request_nonce : (ClientOp.get (vaultUrl ++ "/vault/nonce")).request vaultUrl = some .getNonce := by
  have hpath : Http.pathSegments (Utf8.encode "/vault/nonce") =
      [Utf8.encode "vault", Utf8.encode "nonce"] := by decide
  rw [ClientOp.request, ClientOp.httpRequest, stripPrefix_append, Option.map_some, Option.bind_some,
    vaultRouter_call hpath]
  rfl

lemma withJson_text (handler : UnsealRequest → Request) (req : UnsealRequest) (path : Bytes) :
    withJson UnsealRequest.deserialize handler []
      ⟨.post, path, [("content-type", applicationJson)], UnsealRequest.format.toVec req⟩ =
      .ok (handler req) := by
  have hparse : Json.parse (UnsealRequest.format.toVec req) = some req.serialize :=
    Json.parse_text (UnsealRequest.format.shallow req)
  have hread : UnsealRequest.deserialize req.serialize = some req :=
    UnsealRequest.format.deserialize_serialize trivial
  have hcontent : isJsonContent [("content-type", applicationJson)] = true := by decide
  simp only [withJson, hcontent, Bool.not_true, Bool.false_eq_true, ↓reduceIte, hparse, hread]

/-- The vault's handlers get the requests that the clients have made. -/
theorem request_unseal (req : UnsealRequest) :
    (ClientOp.post (vaultUrl ++ "/vault/unseal") req).request vaultUrl = some (.postUnseal req) := by
  have hpath : Http.pathSegments (Utf8.encode "/vault/unseal") =
      [Utf8.encode "vault", Utf8.encode "unseal"] := by decide
  have hname : ("unseal" : String) ≠ "nonce" := by decide
  rw [ClientOp.request, ClientOp.httpRequest, stripPrefix_append, Option.map_some, Option.bind_some,
    vaultRouter_call hpath, if_neg hname, if_pos rfl, Router.post, if_pos rfl, withJson_text]
  rfl

theorem request_renew (req : UnsealRequest) :
    (ClientOp.post (vaultUrl ++ "/vault/renew") req).request vaultUrl = some (.postRenew req) := by
  have hpath : Http.pathSegments (Utf8.encode "/vault/renew") =
      [Utf8.encode "vault", Utf8.encode "renew"] := by decide
  have hnonce : ("renew" : String) ≠ "nonce" := by decide
  have hunseal : ("renew" : String) ≠ "unseal" := by decide
  rw [ClientOp.request, ClientOp.httpRequest, stripPrefix_append, Option.map_some, Option.bind_some,
    vaultRouter_call hpath, if_neg hnonce, if_neg hunseal, if_pos rfl, Router.post, if_pos rfl,
    withJson_text]
  rfl

end Requests

section Answers

variable (F : TimeFormat)

/-- What a client reads from the body of an answer. -/
def HttpAnswer.parsed {α : Type} (fromSlice : Bytes → Option α) (answer : HttpAnswer) : Option α :=
  answer.body.toOption.bind fromSlice

def Response.value (a : Response) : Option Value := (a.intoResponse F).parsed Value.fromSlice

def Response.bundle (a : Response) : Option UnsealResponse :=
  (a.intoResponse F).parsed (UnsealResponse.format F).fromSlice

/-- The members of the object that is the body of an answer. -/
inductive Response.Members : Response → List (String × Json) → Prop
  | json (fields : List (String × Value)) :
    Members (.json (.object fields)) (Json.sortedMap (Value.fieldsToJson fields))
  | unsealed (resp : UnsealResponse) :
    Members (.unsealed resp) [("bundle", resp.bundle.serialize F)]
  | failed (e : AppError) :
    Members (.failed e) (Json.sortedMap [("error", .string e.code), ("message", .string e.message)])

variable {F}

lemma get_ofJson {ms : List (String × Json)} (hkeys : (ms.map Prod.fst).Nodup) (key : String) :
    (Value.ofJson (.object ms)).get key = (ms.lookup key).map Value.ofJson := by
  rw [Value.ofJson, Value.get, Json.lookup_sortedMap, Value.membersOfJson_eq_map, ← List.map_reverse,
    Json.lookup_map, Json.lookup_reverse hkeys]

lemma Response.Members.keys {a : Response} {ms : List (String × Json)} (h : a.Members F ms) :
    (ms.map Prod.fst).Nodup := by
  have hsorted : ∀ l : List (String × Json), ((Json.sortedMap l).map Prod.fst).Nodup :=
    fun l => (Json.sorted_sortedMap l).imp (fun hlt => ne_of_lt hlt)
  cases h with
  | json fields => exact hsorted _
  | unsealed resp => simp
  | failed e => exact hsorted _

variable {a : Response} {ms : List (String × Json)}

lemma Response.Members.parse (h : a.Members F ms) (hdepth : (Json.object ms).depth ≤ 127) :
    ∃ bytes, (a.intoResponse F).body = .ok bytes ∧ Json.parse bytes = some (.object ms) := by
  refine ⟨(Json.object ms).text, ?_, Json.parse_text hdepth⟩
  cases h <;> rfl

/-- What a client reads of an untyped field. -/
lemma Response.Members.value_get (h : a.Members F ms) (hdepth : (Json.object ms).depth ≤ 127)
    {body : Value} (hbody : a.value F = some body) (key : String) :
    body.get key = (ms.lookup key).map Value.ofJson := by
  obtain ⟨bytes, hbytes, hparse⟩ := h.parse hdepth
  have hvalue : a.value F = some (Value.ofJson (.object ms)) := by
    simp only [Response.value, HttpAnswer.parsed, hbytes, Except.toOption, Option.bind_some,
      Value.fromSlice, hparse, Option.map_some]
  rw [hvalue] at hbody
  cases hbody
  exact get_ofJson h.keys key

lemma Response.Members.bundle_lookup (h : a.Members F ms) (hdepth : (Json.object ms).depth ≤ 127)
    {resp : UnsealResponse} (hresp : a.bundle F = some resp) :
    ∃ j, ms.lookup "bundle" = some j ∧ CertBundle.deserialize F j = some resp.bundle := by
  obtain ⟨bytes, hbytes, hparse⟩ := h.parse hdepth
  simp only [Response.bundle, HttpAnswer.parsed, hbytes, Except.toOption, Option.bind_some,
    Json.Format.fromSlice, hparse] at hresp
  have hread : UnsealResponse.deserialize F (.object ms) = some resp := hresp
  rw [UnsealResponse.deserialize, Json.fields_object h.keys] at hread
  simp only [UnsealResponse.fieldNames, List.map_cons, List.map_nil] at hread
  cases hlookup : ms.lookup "bundle" with
  | none =>
    rw [hlookup] at hread
    cases hread
  | some j =>
    rw [hlookup] at hread
    obtain ⟨bundle, hbundle, hret⟩ := Option.bind_eq_some_iff.mp hread
    cases hret
    exact ⟨j, rfl, hbundle⟩

lemma value_nonce (n : Bytes) : Response.value F (.json (nonceBody n)) = some (nonceBody n) := by
  have hparse : Json.parse (nonceBody n).toVec = some (.object [("nonce", .string (Hex.encode n))]) :=
    Json.parse_text (v := .object [("nonce", .string (Hex.encode n))]) (by decide : 1 ≤ 127)
  simp only [Response.value, HttpAnswer.parsed, Response.intoResponse, Except.toOption,
    Option.bind_some, Value.fromSlice, hparse]
  rfl

lemma bundle_unsealed (resp : UnsealResponse) : Response.bundle F (.unsealed resp) = some resp := by
  have hread : (UnsealResponse.format F).fromSlice ((UnsealResponse.format F).toVec resp) = some resp :=
    Json.Format.fromSlice_toVec trivial
  simpa only [Response.bundle, HttpAnswer.parsed, Response.intoResponse, Except.toOption,
    Option.bind_some] using hread

end Answers

section Outcomes

variable {F : TimeFormat} {D : Deployment} {works : Prop} {r : Request} {h : List VaultEvent}
  {a : Response}

lemma depth_sortedMap {ms : List (String × Json)} {d : ℕ} (h : Json.memberDepths ms ≤ d) :
    (Json.object (Json.sortedMap ms)).depth ≤ d + 1 := by
  rw [Json.depth]
  apply Nat.succ_le_succ
  rw [Json.memberDepths_le] at h ⊢
  exact fun m hm => h m (Json.mem_sortedMap hm)

/-- What an answered request has left for its client to read: only the answer to a nonce request has
a nonce in it, and only a grant has a bundle. -/
structure Readable (F : TimeFormat) (r : Request) (h : List VaultEvent) (a : Response)
    (ms : List (String × Json)) : Prop where
  members : a.Members F ms
  depth : (Json.object ms).depth ≤ 127
  nonce : ∀ j, ms.lookup "nonce" = some j →
    ∃ n t, r = .getNonce ∧ h = [.registered n t] ∧ a = .json (nonceBody n) ∧ j = .string (Hex.encode n)
  bundle : ∀ j, ms.lookup "bundle" = some j → ∃ resp, a = .unsealed resp ∧ j = resp.bundle.serialize F

lemma readable_failed (e : AppError) : ∃ ms, Readable F r h (.failed e) ms := by
  refine ⟨_, .failed e, Nat.le_trans (depth_sortedMap (Nat.le_refl 0)) (by decide), ?_, ?_⟩
  all_goals
    intro j hj
    rw [Json.lookup_sortedMap] at hj
    simp [Json.lookup_cons_ite] at hj

/-- The body of an answer without a nonce and a bundle. -/
lemma readable_json {fields : List (String × Value)}
    (hdepth : Json.memberDepths (Value.fieldsToJson fields) ≤ 126)
    (hnonce : (Value.fieldsToJson fields).reverse.lookup "nonce" = none)
    (hbundle : (Value.fieldsToJson fields).reverse.lookup "bundle" = none) :
    ∃ ms, Readable F r h (.json (.object fields)) ms := by
  refine ⟨_, .json fields, depth_sortedMap hdepth, ?_, ?_⟩
  · intro j hj
    rw [Json.lookup_sortedMap, hnonce] at hj
    cases hj
  · intro j hj
    rw [Json.lookup_sortedMap, hbundle] at hj
    cases hj

lemma depths_strings (ss : List String) : Json.depths (Value.toJsons (ss.map .string)) = 0 := by
  induction ss with
  | nil => rfl
  | cons s ss ih => rw [List.map_cons, Value.toJsons, Json.depths, ih]; rfl

theorem Outcome.readable (ho : Outcome D works r h a) : ∃ ms, Readable F r h a ms := by
  cases ho with
  | nonce n t =>
    refine ⟨_, .json _, depth_sortedMap (Nat.zero_le 126), ?_, ?_⟩
    · intro j hj
      rw [Json.lookup_sortedMap] at hj
      cases hj
      exact ⟨n.1, t, rfl, rfl, rfl, rfl⟩
    · intro j hj
      rw [Json.lookup_sortedMap] at hj
      cases hj
  | granted r req c pre log entry hr hv he hl =>
    refine ⟨_, .unsealed _, (by decide : 2 ≤ 127), ?_, ?_⟩
    · intro j hj
      cases hj
    · intro j hj
      cases hj
      exact ⟨_, rfl, rfl⟩
  | revoked body serial _ => exact readable_json (Nat.zero_le 126) rfl rfl
  | crl serials =>
    refine readable_json ?_ rfl rfl
    simp [Value.fieldsToJson, Value.toJson, Json.memberDepths, Json.depth, depths_strings]
  | health issued => exact readable_json (Nat.zero_le 126) rfl rfl
  | _ => exact readable_failed _

/-- A nonce that a client reads was registered for its own request. -/
theorem Outcome.read_nonce (ho : Outcome D works r h a) {body : Value} (hbody : a.value F = some body)
    {nonce : String} (hnonce : (body.index "nonce").asStr = some nonce) :
    ∃ n t, r = .getNonce ∧ h = [.registered n t] ∧ a = .json (nonceBody n) ∧ nonce = Hex.encode n := by
  obtain ⟨ms, hms⟩ := ho.readable (F := F)
  rw [Value.index, hms.members.value_get hms.depth hbody] at hnonce
  cases hlookup : ms.lookup "nonce" with
  | none =>
    rw [hlookup] at hnonce
    cases hnonce
  | some j =>
    obtain ⟨n, t, hr, hh, ha, rfl⟩ := hms.nonce j hlookup
    rw [hlookup] at hnonce
    exact ⟨n, t, hr, hh, ha, (Option.some.inj hnonce).symm⟩

/-- A bundle that a client reads is the one that was granted to its request. -/
theorem Outcome.read_bundle (ho : Outcome D works r h a) {resp : UnsealResponse}
    (hresp : a.bundle F = some resp) : a = .unsealed resp := by
  obtain ⟨ms, hms⟩ := ho.readable (F := F)
  obtain ⟨j, hlookup, hread⟩ := hms.members.bundle_lookup hms.depth hresp
  obtain ⟨resp', rfl, rfl⟩ := hms.bundle j hlookup
  rw [(resp'.bundle.deserialize_serialize F).1] at hread
  cases resp'
  cases resp
  cases hread
  rfl

end Outcomes

end SecureNet
