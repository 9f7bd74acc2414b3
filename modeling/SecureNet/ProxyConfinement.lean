import SecureNet.Library.Url
import SecureNet.ServiceBoot

/-!
# Where a proxied request goes

`proxy_user` and `proxy_order` format the decoded id into a URL, which is then parsed. An id that is
no plain segment changes the path, the query or the fragment of that URL.
-/

namespace SecureNet

open Hex (Bytes)
open Percent (ascii)

/-- The parameter of a route `/…/:id`: one nonempty segment of the request path, decoded. -/
def routeParam (segment : Bytes) : Option String :=
  if segment = [] ∨ ascii '/' ∈ segment then none else Utf8.decode (Percent.decode segment)

variable {A : Type} (parseAuthority : Bytes → Bytes → Option A)

/-- The URL leads to `name/id` at the given origin and nowhere else. -/
def Confined (scheme : Bytes) (authority : A) (name id url : String) : Prop :=
  ∃ seg, Url.parse parseAuthority (Utf8.encode url) =
      some ⟨scheme, authority, [Utf8.encode name, seg], none, none⟩ ∧
    Percent.decode seg = Utf8.encode id

/-- The URL leads to some resource of the given origin. -/
def SameOrigin (scheme : Bytes) (authority : A) (url : String) : Prop :=
  ∃ path query fragment, Url.parse parseAuthority (Utf8.encode url) =
    some ⟨scheme, authority, path, query, fragment⟩

variable {parseAuthority}

lemma encode_proxyUrl (base name id : String) :
    Utf8.encode (base ++ ("/" ++ name ++ "/") ++ id) =
      Utf8.encode base ++ ascii '/' :: (Utf8.encode name ++ ascii '/' :: Utf8.encode id) := by
  have hslash : Utf8.encode "/" = [ascii '/'] := rfl
  simp only [Utf8.encode_append, hslash, List.append_assoc, List.cons_append, List.nil_append]

lemma plainName_routes :
    Url.PlainName (Utf8.encode "users") ∧ Url.PlainName (Utf8.encode "orders") := by
  constructor
  · exact ⟨by decide, by decide +kernel⟩
  · exact ⟨by decide, by decide +kernel⟩

/-- An id that is formatted into a URL after a plain origin and the name of a route. -/
lemma confined_iff {base name : String} {scheme : Bytes} {authority : A}
    (hbase : Url.PlainOrigin parseAuthority (Utf8.encode base) scheme authority)
    (hname : Url.PlainName (Utf8.encode name)) (id : String) :
    SameOrigin parseAuthority scheme authority (base ++ ("/" ++ name ++ "/") ++ id) ∧
      (Confined parseAuthority scheme authority name id (base ++ ("/" ++ name ++ "/") ++ id) ↔
        Url.PlainSegment (Utf8.encode id)) := by
  unfold SameOrigin Confined
  rw [encode_proxyUrl]
  exact ⟨⟨_, _, _, Url.parse_named hbase hname (Utf8.encode id)⟩,
    Url.parse_segment_iff hbase hname⟩

/-- For every id, the proxied request stays at the configured origin, and it goes to the one
resource that the route names exactly if the id is a plain segment. -/
theorem proxy_confined_iff {state : ApiGateway.AppState} {scheme scheme' : Bytes}
    {authority authority' : A}
    (husers : Url.PlainOrigin parseAuthority (Utf8.encode state.userSvcUrl) scheme authority)
    (horders : Url.PlainOrigin parseAuthority (Utf8.encode state.orderSvcUrl) scheme' authority')
    (id : String) :
    (SameOrigin parseAuthority scheme authority (ApiGateway.proxy state (.user id)).url ∧
      (Confined parseAuthority scheme authority "users" id (ApiGateway.proxy state (.user id)).url ↔
        Url.PlainSegment (Utf8.encode id))) ∧
    SameOrigin parseAuthority scheme' authority' (ApiGateway.proxy state (.order id)).url ∧
      (Confined parseAuthority scheme' authority' "orders" id
          (ApiGateway.proxy state (.order id)).url ↔
        Url.PlainSegment (Utf8.encode id)) := by
  constructor
  · exact confined_iff husers plainName_routes.1 id
  · exact confined_iff horders plainName_routes.2 id

section Sample

/-- An authority parser that accepts any host and port as it is written. -/
def sampleAuthority (_ host : Bytes) : Option Bytes := if host = [] then none else some host

lemma plainOrigin_sample :
    Url.PlainOrigin sampleAuthority (Utf8.encode sampleGateway.state.userSvcUrl)
        (Utf8.encode "https") (Utf8.encode "localhost:8001") ∧
      Url.PlainOrigin sampleAuthority (Utf8.encode sampleGateway.state.orderSvcUrl)
        (Utf8.encode "https") (Utf8.encode "localhost:8002") :=
  ⟨⟨.inr rfl, Utf8.encode "localhost:8001", rfl, by decide, by decide +kernel, rfl⟩,
    ⟨.inr rfl, Utf8.encode "localhost:8002", rfl, by decide, by decide +kernel, rfl⟩⟩

end Sample

theorem proxy_confined_iff_uuid :
    Confined sampleAuthority (Utf8.encode "https") (Utf8.encode "localhost:8001") "users"
      "550e8400-e29b-41d4-a716-446655440001" (ApiGateway.proxy sampleGateway.state
        (.user "550e8400-e29b-41d4-a716-446655440001")).url :=
  (proxy_confined_iff plainOrigin_sample.1 plainOrigin_sample.2
    "550e8400-e29b-41d4-a716-446655440001").1.2.mpr
      ⟨by decide +kernel, by decide +kernel, by decide, by decide, by decide⟩

/-- The request path `/users/..%2Fhealth` reaches the health route of the user service. -/
theorem proxy_escapes :
    routeParam (Utf8.encode "..%2Fhealth") = some "../health" ∧
      Url.parse sampleAuthority (Utf8.encode (ApiGateway.proxy sampleGateway.state
          (.user "../health")).url) =
        some ⟨Utf8.encode "https", Utf8.encode "localhost:8001", [Utf8.encode "health"], none,
          none⟩ ∧
      ¬Confined sampleAuthority (Utf8.encode "https") (Utf8.encode "localhost:8001") "users"
        "../health" (ApiGateway.proxy sampleGateway.state (.user "../health")).url := by
  have hparse : Url.parse sampleAuthority (Utf8.encode (ApiGateway.proxy sampleGateway.state
      (.user "../health")).url) =
      some ⟨Utf8.encode "https", Utf8.encode "localhost:8001", [Utf8.encode "health"], none,
        none⟩ := rfl
  refine ⟨by decide, hparse, ?_⟩
  rintro ⟨seg, hconfined, -⟩
  rw [hparse] at hconfined
  cases hconfined

end SecureNet
