import Mathlib.Data.Set.Basic
import SecureNet.RotationSchedule

/-!
# Services that call other services

The boot sequence of `shared/src/boot.rs` and the outbound calls of `api-gateway` and
`order-service`. An `anyhow` error is its outermost context. Telemetry, JWT keys and the listener
are left out.
-/

namespace SecureNet

open Hex (Bytes)

/-- What a service meets in its environment and on the network. -/
structure Host where
  var : String → Option String
  unsealed : Except AppError CertBundle
  /-- What `renew` returns in each round and attempt of the rotation task. -/
  renewals : ℕ → ℕ → RenewCall
  /-- The time at which the rotation task starts. -/
  now : ℤ
  /-- `reqwest::ClientBuilder::build` with a preconfigured TLS. -/
  buildClient : ClientConfig → Except String Unit

/-- `BootResult`, with the heads of the rotation loop that it has spawned. -/
structure BootResult where
  bundle : CertBundle
  tlsConfig : RotatingTlsConfig
  rotation : ℕ → RotationState

def withContext {ε α : Type} (result : Except ε α) (message : String) : Except String α :=
  match result with
  | .ok a => .ok a
  | .error _ => .error message

variable (T : Rustls) (host : Host)

/-- The boot sequence with the constructor of the TLS configuration and the context of its
failure. -/
def bootWith (create : CertBundle → Except AppError RotatingTlsConfig) (failure vaultUrl : String) :
    Except String BootResult := do
  let bundle ← withContext host.unsealed ("failed to unseal with vault at " ++ vaultUrl)
  let tlsConfig ← withContext (create bundle) failure
  let initialTtl := bundle.ttlSecs host.now
  return ⟨bundle, tlsConfig, tlsConfig.spawnRotationTask T host.renewals host.now initialTtl⟩

def run (vaultUrl : String) : Except String BootResult :=
  bootWith T host (RotatingTlsConfig.new T) "failed to build TLS config from cert bundle" vaultUrl

def runGateway (vaultUrl : String) : Except String BootResult :=
  bootWith T host (RotatingTlsConfig.newGateway T) "failed to build gateway TLS config" vaultUrl

def mtlsClient (bundle : CertBundle) : Except String ClientConfig := do
  let clientConfig ← withContext (clientConfig T bundle) "failed to build rustls ClientConfig"
  withContext (host.buildClient clientConfig) "failed to build mTLS reqwest client"
  return clientConfig

structure OutboundCall where
  url : String
  certChain : List Bytes

def sendGet (client : ClientConfig) (url : String) : OutboundCall := ⟨url, client.certChain⟩

namespace ApiGateway

structure AppState where
  mtlsClient : ClientConfig
  userSvcUrl : String
  orderSvcUrl : String
  certSerial : String

structure Service where
  boot : BootResult
  state : AppState

def main : Except String Service := do
  let vaultUrl := (host.var "VAULT_URL").getD "http://localhost:8003"
  let boot ← runGateway T host vaultUrl
  let mtlsClient ← mtlsClient T host boot.bundle
  return ⟨boot, {
    mtlsClient := mtlsClient
    userSvcUrl := (host.var "USER_SERVICE_URL").getD "https://localhost:8001"
    orderSvcUrl := (host.var "ORDER_SERVICE_URL").getD "https://localhost:8002"
    certSerial := boot.bundle.serial }⟩

inductive ProxyRoute
  | user (id : String)
  | users
  | order (id : String)
  | orders

def proxy (state : AppState) : ProxyRoute → OutboundCall
  | .user id => sendGet state.mtlsClient (state.userSvcUrl ++ "/users/" ++ id)
  | .users => sendGet state.mtlsClient (state.userSvcUrl ++ "/users")
  | .order id => sendGet state.mtlsClient (state.orderSvcUrl ++ "/orders/" ++ id)
  | .orders => sendGet state.mtlsClient (state.orderSvcUrl ++ "/orders")

end ApiGateway

namespace OrderService

/-- An order with its ids in their hyphenated form. -/
structure Order where
  id : String
  userId : String
  item : String
  qty : UInt32

def seedOrders : List Order :=
  [⟨"660e8400-e29b-41d4-a716-446655440001", "550e8400-e29b-41d4-a716-446655440001",
      "Neuralink N1 Implant", 1⟩,
    ⟨"660e8400-e29b-41d4-a716-446655440002", "550e8400-e29b-41d4-a716-446655440002",
      "Neural Interface Headset", 2⟩]

structure AppState where
  orders : List Order
  userSvcUrl : String
  mtlsClient : ClientConfig
  certSerial : String

structure Service where
  boot : BootResult
  state : AppState

def main : Except String Service := do
  let vaultUrl := (host.var "VAULT_URL").getD "http://localhost:8003"
  let boot ← run T host vaultUrl
  let mtlsClient ← mtlsClient T host boot.bundle
  return ⟨boot, {
    orders := seedOrders
    userSvcUrl := (host.var "USER_SERVICE_URL").getD "https://localhost:8001"
    mtlsClient := mtlsClient
    certSerial := boot.bundle.serial }⟩

/-- The call that `get_order` sends, if it knows the order. -/
def getOrder (state : AppState) (id : String) : Option OutboundCall :=
  (state.orders.find? (fun order => order.id == id)).map (fun order =>
    sendGet state.mtlsClient (state.userSvcUrl ++ "/users/" ++ order.userId))

end OrderService

def clientChain (bundle : CertBundle) : Except AppError (List Bytes) :=
  parseCertChain T (bundle.certPem ++ bundle.caPem)

/-- The bundle that is installed at head `n` of the rotation loop. -/
def BootResult.installedBundle (boot : BootResult) (n : ℕ) : CertBundle :=
  lastBuilt T boot.tlsConfig.isGateway host.renewals boot.bundle n

def BootResult.ValidUntil (boot : BootResult) (τ : ℤ) : Prop :=
  ∀ n u, (boot.rotation n).now ≤ u → u ≤ (boot.rotation (n + 1)).now → u ≤ τ →
    u ≤ (boot.installedBundle T host n).expiresAt

/-- In the first `N` rounds every call presents the certificate of the installed bundle, and a
call at one of the given times presents no expired certificate if no installed bundle has expired
by then. `notAfter` is the end of validity of the leaf of a chain. -/
structure OutboundCurrent (notAfter : List Bytes → ℤ) (boot : BootResult)
    (sent : Set OutboundCall) (N : ℕ) (times : Set ℤ) : Prop where
  current : ∀ n ≤ N, ∀ call ∈ sent,
    clientChain T (boot.installedBundle T host n) = .ok call.certChain
  unexpired : ∀ τ ∈ times, boot.ValidUntil T host τ → ∀ call ∈ sent, τ ≤ notAfter call.certChain

/-- No rotation in the first `N` rounds changes the certificate, and the certificate of the boot
bundle is valid at the given times. -/
structure BootCertificateKept (notAfter : List Bytes → ℤ) (boot : BootResult) (N : ℕ)
    (times : Set ℤ) : Prop where
  kept : ∀ n < N, ∀ bundle,
    installed T boot.tlsConfig.isGateway (host.renewals n) = some bundle →
      clientChain T bundle = clientChain T boot.bundle
  valid : ∀ τ ∈ times, boot.ValidUntil T host τ →
    ∀ chain, clientChain T boot.bundle = .ok chain → τ ≤ notAfter chain

variable {T host}

lemma withContext_ok {ε α : Type} {result : Except ε α} {message : String} {a : α} :
    withContext result message = .ok a ↔ result = .ok a := by
  cases result <;> simp [withContext]

lemma mtlsClient_ok {bundle : CertBundle} {client : ClientConfig}
    (h : mtlsClient T host bundle = .ok client) : clientChain T bundle = .ok client.certChain := by
  unfold mtlsClient at h
  obtain ⟨config, hconfig, h⟩ := except_bind_ok.mp h
  obtain ⟨-, -, h⟩ := except_bind_ok.mp h
  cases h
  exact clientConfig_ok (withContext_ok.mp hconfig)

lemma installedBundle_kept {boot : BootResult} {N : ℕ}
    (hkept : ∀ n < N, ∀ bundle,
      installed T boot.tlsConfig.isGateway (host.renewals n) = some bundle →
        clientChain T bundle = clientChain T boot.bundle) {n : ℕ} (hn : n ≤ N) :
    clientChain T (boot.installedBundle T host n) = clientChain T boot.bundle := by
  unfold BootResult.installedBundle
  induction n with
  | zero => rfl
  | succ n ih =>
    cases h : installed T boot.tlsConfig.isGateway (host.renewals n) with
    | none =>
      rw [lastBuilt_failed _ h]
      exact ih (by omega)
    | some bundle =>
      rw [lastBuilt_installed _ h]
      exact hkept n (by omega) bundle h

lemma outboundCurrent_iff {notAfter : List Bytes → ℤ} {boot : BootResult} {sent : Set OutboundCall}
    {N : ℕ} {times : Set ℤ} (hsent : ∀ call ∈ sent, clientChain T boot.bundle = .ok call.certChain)
    (hsome : sent.Nonempty) :
    OutboundCurrent T host notAfter boot sent N times ↔
      BootCertificateKept T host notAfter boot N times := by
  obtain ⟨call₀, hcall₀⟩ := hsome
  constructor
  · intro ⟨hcurrent, hunexpired⟩
    constructor
    · intro n hn bundle hinstalled
      have hnext := hcurrent (n + 1) hn call₀ hcall₀
      unfold BootResult.installedBundle at hnext
      rw [lastBuilt_installed _ hinstalled] at hnext
      rw [hnext, hsent call₀ hcall₀]
    · intro τ hτ hvalid chain hchain
      rw [hsent call₀ hcall₀] at hchain
      cases hchain
      exact hunexpired τ hτ hvalid call₀ hcall₀
  · intro ⟨hkept, hvalid⟩
    constructor
    · intro n hn call hcall
      rw [installedBundle_kept hkept hn]
      exact hsent call hcall
    · intro τ hτ huntil call hcall
      exact hvalid τ hτ huntil call.certChain (hsent call hcall)

lemma bootWith_installed {create : CertBundle → Except AppError RotatingTlsConfig}
    {failure vaultUrl : String} {isGateway : Bool} {boot : BootResult}
    (hcreate : ∀ {bundle rotating}, create bundle = .ok rotating →
      rotating.isGateway = isGateway ∧
        ∀ now ttl, Boots T isGateway bundle ⟨ttl, now, rotating.inner, rotating.serial⟩)
    (h : bootWith T host create failure vaultUrl = .ok boot) (n : ℕ) :
    buildConfig T isGateway (boot.installedBundle T host n) = .ok (boot.rotation n).inner := by
  unfold bootWith at h
  obtain ⟨bundle, -, h⟩ := except_bind_ok.mp h
  obtain ⟨tlsConfig, hnew, h⟩ := except_bind_ok.mp h
  cases h
  obtain ⟨hflag, hboots⟩ := hcreate (withContext_ok.mp hnew)
  have hlast := (rotationLoop_invariant (hboots host.now (bundle.ttlSecs host.now))
    host.renewals n).1
  unfold BootResult.installedBundle RotatingTlsConfig.spawnRotationTask
  rw [hflag]
  exact hlast

namespace ApiGateway

def sent (state : AppState) : Set OutboundCall := Set.range (proxy state)

lemma main_ok {service : Service} (h : main T host = .ok service) :
    (∃ vaultUrl, runGateway T host vaultUrl = .ok service.boot) ∧
      clientChain T service.boot.bundle = .ok service.state.mtlsClient.certChain := by
  unfold main at h
  obtain ⟨boot, hboot, h⟩ := except_bind_ok.mp h
  obtain ⟨client, hclient, h⟩ := except_bind_ok.mp h
  cases h
  exact ⟨⟨_, hboot⟩, mtlsClient_ok hclient⟩

lemma certChain_of_sent {state : AppState} {call : OutboundCall} (h : call ∈ sent state) :
    call.certChain = state.mtlsClient.certChain := by
  obtain ⟨route, rfl⟩ := h
  cases route <;> rfl

end ApiGateway

namespace OrderService

def sent (state : AppState) : Set OutboundCall := {call | ∃ id, getOrder state id = some call}

lemma main_ok {service : Service} (h : main T host = .ok service) :
    (∃ vaultUrl, run T host vaultUrl = .ok service.boot) ∧ service.state.orders = seedOrders ∧
      clientChain T service.boot.bundle = .ok service.state.mtlsClient.certChain := by
  unfold main at h
  obtain ⟨boot, hboot, h⟩ := except_bind_ok.mp h
  obtain ⟨client, hclient, h⟩ := except_bind_ok.mp h
  cases h
  exact ⟨⟨_, hboot⟩, rfl, mtlsClient_ok hclient⟩

lemma certChain_of_sent {state : AppState} {call : OutboundCall} (h : call ∈ sent state) :
    call.certChain = state.mtlsClient.certChain := by
  obtain ⟨id, hid⟩ := h
  obtain ⟨order, -, rfl⟩ := Option.map_eq_some_iff.mp hid
  rfl

lemma sent_nonempty {state : AppState} (h : state.orders = seedOrders) : (sent state).Nonempty := by
  refine ⟨sendGet state.mtlsClient
    (state.userSvcUrl ++ "/users/" ++ "550e8400-e29b-41d4-a716-446655440001"),
    "660e8400-e29b-41d4-a716-446655440001", ?_⟩
  unfold getOrder
  rw [h]
  rfl

end OrderService

/-- Both services keep presenting the certificate they booted with: their calls present the
installed bundle's certificate, and no expired one, exactly as long as no rotation changes it and
it has not expired. -/
theorem outbound_current_iff (T : Rustls) (host : Host) (notAfter : List Bytes → ℤ) (N : ℕ)
    (times : Set ℤ) :
    (∀ gateway, ApiGateway.main T host = .ok gateway →
      (∀ n, gatewayServerConfig T (gateway.boot.installedBundle T host n) =
        .ok (gateway.boot.rotation n).inner) ∧
      (OutboundCurrent T host notAfter gateway.boot (ApiGateway.sent gateway.state) N times ↔
        BootCertificateKept T host notAfter gateway.boot N times)) ∧
    (∀ orders, OrderService.main T host = .ok orders →
      (∀ n, serverConfig T (orders.boot.installedBundle T host n) =
        .ok (orders.boot.rotation n).inner) ∧
      (OutboundCurrent T host notAfter orders.boot (OrderService.sent orders.state) N times ↔
        BootCertificateKept T host notAfter orders.boot N times)) := by
  constructor
  · intro gateway hmain
    obtain ⟨⟨vaultUrl, hrun⟩, hclient⟩ := ApiGateway.main_ok hmain
    refine ⟨bootWith_installed newGateway_ok hrun, ?_⟩
    apply outboundCurrent_iff
    · intro call hcall
      rw [ApiGateway.certChain_of_sent hcall]
      exact hclient
    · exact ⟨_, .users, rfl⟩
  · intro orders hmain
    obtain ⟨⟨vaultUrl, hrun⟩, horders, hclient⟩ := OrderService.main_ok hmain
    refine ⟨bootWith_installed new_ok hrun, ?_⟩
    apply outboundCurrent_iff
    · intro call hcall
      rw [OrderService.certChain_of_sent hcall]
      exact hclient
    · exact OrderService.sent_nonempty horders

section Sample

/-- The vault gives the bundle `B` at boot and the bundle `A` in round 0, and is down after
that. -/
def sampleHost : Host where
  var _ := none
  unsealed := .ok (sampleBundle "B" 300)
  renewals
    | 0 => renewalAt 270
    | _ + 1 => outage
  now := 0
  buildClient _ := .ok ()

def sampleNotAfter (chain : List Bytes) : ℤ :=
  if chain.head? = some [66] then seconds 300 else seconds 570

def sampleClient : ClientConfig := ⟨[[67]], [[66], [67]], [75]⟩

/-- Round 0 fails, and the next one brings the bundle `B` again. -/
def keptHost : Host where
  var _ := none
  unsealed := .ok (sampleBundle "B" 300)
  renewals
    | 0 => outage
    | 1 => fun _ => ⟨0, .ok (sampleBundle "B" 300)⟩
    | _ + 2 => outage
  now := 0
  buildClient _ := .ok ()

def sampleGateway : ApiGateway.Service :=
  let rotating : RotatingTlsConfig := ⟨⟨[[66]], [75], none⟩, "B", true⟩
  ⟨⟨sampleBundle "B" 300, rotating,
      rotating.spawnRotationTask sampleRustls sampleHost.renewals 0 300⟩,
    ⟨sampleClient, "https://localhost:8001", "https://localhost:8002", "B"⟩⟩

end Sample

lemma main_sample : ApiGateway.main sampleRustls sampleHost = .ok sampleGateway := rfl

lemma validUntil_sample : sampleGateway.boot.ValidUntil sampleRustls sampleHost (seconds 301) := by
  intro n u hfrom hto hu
  obtain _ | _ | n := n
  · exact Int.le_trans hto (by decide)
  · exact Int.le_trans hu (by decide)
  · have hsecond : (sampleGateway.boot.rotation 2).now = seconds 546 := rfl
    have hlater : (sampleGateway.boot.rotation 2).now ≤ (sampleGateway.boot.rotation (2 + n)).now :=
      now_le_add 2 n
    rw [show 2 + n = n + 1 + 1 by omega, hsecond] at hlater
    unfold seconds at *
    omega

/-- After one rotation, which came in time, every proxied call still presents the bundle of the
boot, also when it has expired. -/
theorem rotation_misses_client :
    ApiGateway.main sampleRustls sampleHost = .ok sampleGateway ∧
      sampleGateway.boot.ValidUntil sampleRustls sampleHost (seconds 301) ∧
      (∀ call ∈ ApiGateway.sent sampleGateway.state,
        clientChain sampleRustls (sampleGateway.boot.installedBundle sampleRustls sampleHost 1) ≠
            .ok call.certChain ∧
          sampleNotAfter call.certChain < seconds 301) ∧
      ¬OutboundCurrent sampleRustls sampleHost sampleNotAfter sampleGateway.boot
        (ApiGateway.sent sampleGateway.state) 1 {(seconds 301 : ℤ)} := by
  have hcalls : ∀ call ∈ ApiGateway.sent sampleGateway.state,
      clientChain sampleRustls (sampleGateway.boot.installedBundle sampleRustls sampleHost 1) ≠
          .ok call.certChain ∧
        sampleNotAfter call.certChain < seconds 301 := by
    intro call hcall
    rw [ApiGateway.certChain_of_sent hcall]
    have hinstalled : clientChain sampleRustls
        (sampleGateway.boot.installedBundle sampleRustls sampleHost 1) = .ok [[65], [67]] := rfl
    rw [hinstalled]
    exact ⟨by decide, by decide⟩
  refine ⟨main_sample, validUntil_sample, hcalls, ?_⟩
  intro hcurrent
  exact (hcalls _ ⟨.users, rfl⟩).1 (hcurrent.current 1 (Nat.le_refl 1) _ ⟨.users, rfl⟩)

lemma installed_kept {n : ℕ} {isGateway : Bool} {bundle : CertBundle}
    (h : installed sampleRustls isGateway (keptHost.renewals n) = some bundle) :
    bundle = sampleBundle "B" 300 := by
  cases isGateway <;> obtain _ | _ | n := n <;> cases h <;> rfl

/-- After a round that has failed and one that has brought the old certificate, in its last
seconds. -/
theorem outbound_current_iff_kept :
    ∃ gateway, ApiGateway.main sampleRustls keptHost = .ok gateway ∧
      (gateway.boot.rotation 1).now = seconds 276 ∧
      (gateway.boot.rotation 2).serial = "B" ∧
      OutboundCurrent sampleRustls keptHost sampleNotAfter gateway.boot
        (ApiGateway.sent gateway.state) 2 {(seconds 290 : ℤ)} := by
  refine ⟨_, rfl, rfl, rfl, ((outbound_current_iff sampleRustls keptHost sampleNotAfter 2 _).1 _
    rfl).2.mpr ⟨?_, ?_⟩⟩
  · intro n _ bundle hinstalled
    rw [installed_kept hinstalled]
  · intro τ hτ _ chain hchain
    cases hchain
    rw [hτ]
    decide

end SecureNet
