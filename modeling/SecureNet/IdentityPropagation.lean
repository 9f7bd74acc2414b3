import SecureNet.GatewayProvenance

/-!
# What the backends are told about the user

The middleware writes the identity into the headers of the request that the gateway received. The
request that `proxy_get` sends is a new one.
-/

namespace SecureNet.ApiGateway

open EventMachine Http Tasks

structure UpstreamRequest where
  url : String
  headers : HeaderMap

/-- `client.get(url).send()` as a backend receives it. The client has no default headers of the
gateway: `accept` is one of `reqwest`, and `host` one of `hyper`. -/
def clientGet (accept host : HeaderValue) (outbound : OutboundCall) : UpstreamRequest :=
  ⟨outbound.url, [("accept", accept), ("host", host)]⟩

lemma clientGet_anonymous (accept host : HeaderValue) (outbound : OutboundCall) :
    (clientGet accept host outbound).headers.getAll "x-user-id" = [] ∧
      (clientGet accept host outbound).headers.getAll "x-user-roles" = [] := by
  simp [clientGet, HeaderMap.getAll]

variable {G : Gateway} {as : List (Action Http.Request GatewayInput)}
  {s : System gatewaySig Unit Http.Request GatewayResponse} {tr : GatewayTrace}

/-- A backend is only called for a request with a valid token, whose claims are in the headers that
the handler was given. The request that the backend receives has no identity, whatever the route
and the claims are. -/
theorem identity_not_propagated {i : ℕ} {req : Http.Request} {outbound : OutboundCall}
    {k : gatewaySig.Reply (.send outbound) → GatewayTask}
    (h : (gateway G).exec ⟨(), []⟩ as = some (s, tr))
    (hi : s.tasks[i]? = some ⟨req, .running (.call (.send outbound) k)⟩) :
    ∃ route token claims headers, bearerToken req.headers = .ok token ∧
      .did i (.validated token claims) ∈ tr ∧ .did i (.entered route headers) ∈ tr ∧
      Injected headers claims ∧ outbound = proxy G.state route ∧
      ∀ accept host, ¬Injected (clientGet accept host outbound).headers claims := by
  have hobeys := (exec_calls (app_behaves G) h).1 i _ hi
  obtain ⟨route, headers, hentered, ⟨token, claims, htoken, hvalidated, hinjected⟩, houtbound⟩ :=
    hobeys.1.2 outbound rfl
  refine ⟨route, token, claims, headers, htoken, mem_history.mp hvalidated,
    mem_history.mp hentered, hinjected, houtbound, ?_⟩
  rintro accept host ⟨⟨value, hvalue, -⟩, -⟩
  rw [(clientGet_anonymous accept host outbound).1] at hvalue
  cases hvalue

section Sample

/-- A request of `alice` for her orders, which reaches the call of the backend. -/
def ordersRequest : Http.Request where
  method := .get
  path := Utf8.encode "/orders"
  headers := [sampleHeader "authorization" "Bearer t"]
  body := []

def ordersRun : List (Action Http.Request GatewayInput) :=
  [.arrive ordersRequest, .poll 0 sampleInput, .poll 0 sampleInput]

def ordersTrace : GatewayTrace :=
  [.arrived 0 ordersRequest, .did 0 (.validated "t" sampleClaims),
    .did 0 (.entered .orders sampleInjected)]

lemma ordersRun_exec : ∃ s k, (gateway sampleApp).exec ⟨(), []⟩ ordersRun = some (s, ordersTrace) ∧
    s.tasks[0]? = some ⟨ordersRequest, .running (.call (.send (proxy sampleApp.state .orders)) k)⟩ :=
  ⟨_, _, rfl, rfl⟩

end Sample

theorem identity_not_propagated_orders :
    ∃ route token claims headers, bearerToken ordersRequest.headers = .ok token ∧
      .did 0 (.validated token claims) ∈ ordersTrace ∧
      .did 0 (.entered route headers) ∈ ordersTrace ∧ Injected headers claims ∧
      proxy sampleApp.state .orders = proxy sampleApp.state route ∧
      ∀ accept host, ¬Injected
        (clientGet accept host (proxy sampleApp.state .orders)).headers claims := by
  obtain ⟨s, k, hrun, hi⟩ := ordersRun_exec
  exact identity_not_propagated hrun hi

/-- The claims of `alice` are validated, and the order service gets a request without her. -/
theorem orders_request_anonymous :
    ∃ s k, (gateway sampleApp).exec ⟨(), []⟩ ordersRun = some (s, ordersTrace) ∧
      s.tasks[0]? =
        some ⟨ordersRequest, .running (.call (.send (proxy sampleApp.state .orders)) k)⟩ ∧
      .did 0 (.validated "t" sampleClaims) ∈ ordersTrace ∧ sampleClaims.sub = "alice" ∧
      ∀ accept host, (clientGet accept host (proxy sampleApp.state .orders)).headers.getAll
        "x-user-id" = [] := by
  obtain ⟨s, k, hrun, hi⟩ := ordersRun_exec
  exact ⟨s, k, hrun, hi, by simp [ordersTrace], rfl, fun accept host =>
    (clientGet_anonymous accept host _).1⟩

end SecureNet.ApiGateway
