import SecureNet.Models

/-!
# TLS configurations

`shared/src/tls.rs`. The PEM readers of `rustls_pemfile` and the checks of `rustls` are
parameters; a configuration is what the builders put into it.
-/

namespace SecureNet

open Hex (Bytes)

/-- The calls into `rustls` and `rustls_pemfile`. Errors are given by their text. -/
structure Rustls where
  /-- `certs`: the items of a PEM text, each a certificate or an error. -/
  certs : String → List (Except String Bytes)
  pkcs8PrivateKeys : String → List (Except String Bytes)
  addRoot : List Bytes → Bytes → Except String (List Bytes)
  clientVerifier : List Bytes → Except String Unit
  /-- `with_single_cert` and `with_client_auth_cert` -/
  checkKey : List Bytes → Bytes → Except String Unit

structure ServerConfig where
  certChain : List Bytes
  privateKey : Bytes
  /-- The roots that client certificates are verified against, or `none` for a server that asks
  for no client certificate. -/
  clientAuth : Option (List Bytes)
  deriving DecidableEq

structure ClientConfig where
  rootStore : List Bytes
  certChain : List Bytes
  privateKey : Bytes
  deriving DecidableEq

def mapErr {α : Type} (result : Except String α) (f : String → AppError) : Except AppError α :=
  match result with
  | .ok a => .ok a
  | .error e => .error (f e)

variable (T : Rustls)

def parseCertChain (pem : String) : Except AppError (List Bytes) :=
  (T.certs pem).mapM (fun r => mapErr r .certParse)

def parsePrivateKey (pem : String) : Except AppError Bytes :=
  match (T.pkcs8PrivateKeys pem).head? with
  | none => .error (.certParse "no private key found in PEM")
  | some key => mapErr key .certParse

def buildRootStore (caPem : String) : Except AppError (List Bytes) := do
  let certs ← parseCertChain T caPem
  certs.foldlM (fun store cert => mapErr (T.addRoot store cert) .certParse) []

/-- The configuration of the internal services, which requires a client certificate. -/
def serverConfig (bundle : CertBundle) : Except AppError ServerConfig := do
  let certChain ← parseCertChain T bundle.certPem
  let privateKey ← parsePrivateKey T bundle.keyPem
  let rootStore ← buildRootStore T bundle.caPem
  mapErr (T.clientVerifier rootStore) .tlsConfig
  mapErr (T.checkKey certChain privateKey) .tlsConfig
  return ⟨certChain, privateKey, some rootStore⟩

/-- The configuration of the gateway, which asks for no client certificate. -/
def gatewayServerConfig (bundle : CertBundle) : Except AppError ServerConfig := do
  let certChain ← parseCertChain T bundle.certPem
  let privateKey ← parsePrivateKey T bundle.keyPem
  mapErr (T.checkKey certChain privateKey) .tlsConfig
  return ⟨certChain, privateKey, none⟩

/-- The configuration of outbound connections, with the leaf and the CA as its chain. -/
def clientConfig (bundle : CertBundle) : Except AppError ClientConfig := do
  let certChain ← parseCertChain T (bundle.certPem ++ bundle.caPem)
  let privateKey ← parsePrivateKey T bundle.keyPem
  let rootStore ← buildRootStore T bundle.caPem
  mapErr (T.checkKey certChain privateKey) .tlsConfig
  return ⟨rootStore, certChain, privateKey⟩

variable {T}

theorem serverConfig_ok {bundle : CertBundle} {config : ServerConfig}
    (h : serverConfig T bundle = .ok config) :
    parseCertChain T bundle.certPem = .ok config.certChain ∧ config.clientAuth ≠ none := by
  unfold serverConfig at h
  obtain ⟨certChain, hchain, h⟩ := except_bind_ok.mp h
  obtain ⟨privateKey, -, h⟩ := except_bind_ok.mp h
  obtain ⟨rootStore, -, h⟩ := except_bind_ok.mp h
  obtain ⟨-, -, h⟩ := except_bind_ok.mp h
  obtain ⟨-, -, h⟩ := except_bind_ok.mp h
  cases h
  exact ⟨hchain, by simp⟩

theorem gatewayServerConfig_ok {bundle : CertBundle} {config : ServerConfig}
    (h : gatewayServerConfig T bundle = .ok config) :
    parseCertChain T bundle.certPem = .ok config.certChain ∧ config.clientAuth = none := by
  unfold gatewayServerConfig at h
  obtain ⟨certChain, hchain, h⟩ := except_bind_ok.mp h
  obtain ⟨privateKey, -, h⟩ := except_bind_ok.mp h
  obtain ⟨-, -, h⟩ := except_bind_ok.mp h
  cases h
  exact ⟨hchain, rfl⟩

theorem clientConfig_ok {bundle : CertBundle} {config : ClientConfig}
    (h : clientConfig T bundle = .ok config) :
    parseCertChain T (bundle.certPem ++ bundle.caPem) = .ok config.certChain := by
  unfold clientConfig at h
  obtain ⟨certChain, hchain, h⟩ := except_bind_ok.mp h
  obtain ⟨privateKey, -, h⟩ := except_bind_ok.mp h
  obtain ⟨rootStore, -, h⟩ := except_bind_ok.mp h
  obtain ⟨-, -, h⟩ := except_bind_ok.mp h
  cases h
  exact hchain

section Sample

/-- PEM texts in which every character is one block. -/
def sampleRustls : Rustls where
  certs pem := pem.toList.map (fun c => .ok [c.toNat.toUInt8])
  pkcs8PrivateKeys pem := pem.toList.map (fun c => .ok [c.toNat.toUInt8])
  addRoot roots cert := .ok (roots ++ [cert])
  clientVerifier roots := if roots = [] then .error "no root trust anchors" else .ok ()
  checkKey _ _ := .ok ()

end Sample

end SecureNet
