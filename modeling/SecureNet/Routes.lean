import SecureNet.VaultState

/-!
# Route handlers of the vault

`verify` of `attestation_verifier.rs`, the appends of `log.rs` and the handlers of `routes.rs`,
written call by call. A request body that does not parse is answered by the framework and never
reaches a handler.
-/

namespace SecureNet

open Hex (Bytes)
open Tasks Tasks.Prog

inductive Request
  | getNonce
  | postUnseal (req : UnsealRequest)
  | postRenew (req : UnsealRequest)
  | postRevoke (body : Value)
  | getCrl
  | getHealth

inductive Response
  | json (body : Value)
  | unsealed (resp : UnsealResponse)
  | failed (e : AppError)

abbrev Vault := Prog vaultSig

variable (D : Deployment)

def freshNonce : Vault Bytes := do
  let nonce : Nonce ← perform (S := vaultSig) .randomNonce
  let _ ← perform (S := vaultSig) (.registerNonce nonce.1)
  return nonce.1

def nonceBody (nonce : Bytes) : Value := .object [("nonce", .string (Hex.encode nonce))]

def Routes.nonce : Vault Response := do
  let nonce ← freshNonce
  return .json (nonceBody nonce)

/-- The checks of `verify` after the nonce was consumed: an empty quote is accepted, any other
must be the hex of the SHA-256 of the nonce. -/
def verifyQuote (req : UnsealRequest) (nonceBytes : Bytes) : Except String Unit :=
  if req.tpmQuote = "" then .ok ()
  else if req.tpmQuote ≠ Hex.encode (D.sha256 nonceBytes) then
    .error "TPM quote verification failed"
  else .ok ()

def verifyRequest (req : UnsealRequest) : Except String Bytes :=
  if !D.allowlist.contains req.machineId then
    .error ("machine_id '" ++ req.machineId ++ "' not in allowlist")
  else if req.nonce = "" then .error "nonce is required"
  else context (Hex.decode req.nonce) "nonce is not valid hex"

variable {D} in
lemma verifyQuote_ok_iff {req : UnsealRequest} {nonceBytes : Bytes} :
    verifyQuote D req nonceBytes = .ok () ↔
      req.tpmQuote = "" ∨ req.tpmQuote = Hex.encode (D.sha256 nonceBytes) := by
  unfold verifyQuote
  by_cases hempty : req.tpmQuote = ""
  · simp [hempty]
  · by_cases hquote : req.tpmQuote = Hex.encode (D.sha256 nonceBytes)
    · simp [hquote]
    · simp [hempty, hquote]

variable {D} in
lemma verifyRequest_ok_iff {req : UnsealRequest} {nonceBytes : Bytes} :
    verifyRequest D req = .ok nonceBytes ↔
      D.allowlist.contains req.machineId = true ∧ req.nonce ≠ "" ∧
        Hex.decode req.nonce = some nonceBytes := by
  unfold verifyRequest
  cases hmachine : D.allowlist.contains req.machineId with
  | false => simp
  | true =>
    by_cases hempty : req.nonce = ""
    · simp [hempty]
    · simp only [Bool.not_true, Bool.false_eq_true, ↓reduceIte, hempty, context_ok_iff, ne_eq,
        not_false_eq_true, true_and]

def nonceRefused : String := "nonce is invalid, expired, or already used"

def verify (req : UnsealRequest) : Vault (Except String Unit) :=
  match verifyRequest D req with
  | .error e => return .error e
  | .ok nonceBytes => do
    let fresh : Bool ← perform (S := vaultSig) (.consumeNonce nonceBytes)
    if fresh then return verifyQuote D req nonceBytes
    else return .error nonceRefused

/-- `IssuanceLog::append`: the mutex is held from before the directory is made until the write
is over. -/
def append (entry : IssuanceLogEntry) : Vault Unit := do
  let _ ← perform (S := vaultSig) .lockLog
  let made : Bool ← match D.logParent with
    | some parent => perform (S := vaultSig) (.createDirAll parent)
    | none => pure true
  if made then
    let opened : Bool ← perform (S := vaultSig) .openLog
    if opened then
      let _ ← perform (S := vaultSig) (.writeAll entry)
      perform (S := vaultSig) .unlockLog
    else perform (S := vaultSig) .unlockLog
  else perform (S := vaultSig) .unlockLog

def grantEntry (timestamp : ℤ) (serviceName machineId certSerial : String)
    (expiresAt : ℤ) : IssuanceLogEntry where
  timestamp := timestamp
  serviceName := serviceName
  machineId := machineId
  certSerial := certSerial
  expiresAt := expiresAt
  granted := true
  reason := none

def rejectionEntry (timestamp expiresAt : ℤ) (serviceName machineId reason : String) :
    IssuanceLogEntry where
  timestamp := timestamp
  serviceName := serviceName
  machineId := machineId
  certSerial := ""
  expiresAt := expiresAt
  granted := false
  reason := some reason

def recordGrant (serviceName machineId certSerial : String) (expiresAt : ℤ) :
    Vault Unit := do
  let timestamp : ℤ ← perform (S := vaultSig) .utcNow
  append D (grantEntry timestamp serviceName machineId certSerial expiresAt)

def recordRejection (serviceName machineId reason : String) : Vault Unit := do
  let timestamp : ℤ ← perform (S := vaultSig) .utcNow
  let expiresAt : ℤ ← perform (S := vaultSig) .utcNow
  append D (rejectionEntry timestamp expiresAt serviceName machineId reason)

def grant (req : UnsealRequest) : Vault Response := do
  let issued : Except String CertBundle ← perform (S := vaultSig) (.issue req.serviceName)
  match issued with
  | .error e => return .failed (.internal e)
  | .ok bundle =>
    recordGrant D req.serviceName req.machineId bundle.serial bundle.expiresAt
    return .unsealed ⟨bundle⟩

def Routes.unseal (req : UnsealRequest) : Vault Response := do
  match ← verify D req with
  | .error e =>
    recordRejection D req.serviceName req.machineId e
    return .failed (.vaultRejected e)
  | .ok () => grant D req

/-- Unlike `unseal`, a refused renewal leaves no entry in the log. -/
def Routes.renew (req : UnsealRequest) : Vault Response := do
  match ← verify D req with
  | .error e => return .failed (.vaultRejected e)
  | .ok () => grant D req

def revokedBody (serial reason : String) : Value :=
  .object [("revoked", .string serial), ("reason", .string reason)]

def Routes.revoke (body : Value) : Vault Response :=
  match (body.get "serial").bind Value.asStr with
  | none => return .failed (.internal "missing serial field")
  | some serial => do
    let reason := ((body.get "reason").bind Value.asStr).getD "no reason given"
    let _ ← perform (S := vaultSig) (.revokeCert serial reason)
    return .json (revokedBody serial reason)

def crlBody (serials : List String) : Value :=
  .object [("revoked_serials", .array (serials.map .string))]

def Routes.crl : Vault Response := do
  let serials : List String ← perform (S := vaultSig) .revocationList
  return .json (crlBody serials)

def healthBody (issued : UInt64) : Value :=
  .object [("status", .string "ok"), ("service", .string "vault-service"),
    ("issued", .number issued.toNat)]

def Routes.health : Vault Response := do
  let issued : UInt64 ← perform (S := vaultSig) .issuedCount
  return .json (healthBody issued)

/-- The router of `vault-service/src/main.rs`. -/
def handle : Request → Vault Response
  | .getNonce => Routes.nonce
  | .postUnseal req => Routes.unseal D req
  | .postRenew req => Routes.renew D req
  | .postRevoke body => Routes.revoke body
  | .getCrl => Routes.crl
  | .getHealth => Routes.health

def Request.attested : Request → Option UnsealRequest
  | .postUnseal req => some req
  | .postRenew req => some req
  | _ => none

def vault := machine (vaultEnv D) (handle D)

abbrev VaultSystem := System vaultSig Process Request Response

abbrev VaultTrace := List (Event Request Response VaultEvent)

abbrev VaultAction := Action Request Input

def start (file : List LogPiece) (clock : ℕ) : VaultSystem := ⟨Process.new file clock, []⟩

section Sample

def sampleRcgen : Rcgen where
  newParams names := some (names.map .dnsName)
  fromCaCertPem _ := some ⟨[], "SecureNet CA", "SecureNet", 0, 0, true, [.keyCertSign], [], none⟩
  selfSigned _ _ := some "CA"
  signedBy _ _ _ _ := some "LEAF"

/-- A development deployment, which admits every machine. -/
def sampleDeployment : Deployment where
  sha256 bytes := bytes
  rcgen := sampleRcgen
  issuer := ⟨"CA", ⟨"CA KEY"⟩⟩
  allowlist := ⟨["dev"]⟩
  logParent := some "/var/log/vault"

def sampleNonce : Nonce := ⟨List.replicate 32 7, by decide⟩

def sampleInput (instant : ℕ) : Input where
  instant := instant
  elapsedAt _ := instant
  random := sampleNonce
  issueNow := 0
  leafKey := some ⟨"LEAF KEY"⟩
  utcNow := 0
  fileOk := true
  flushed := .nothing

def sampleRequest : UnsealRequest :=
  ⟨"order-service", "machine-1", "", Hex.encode sampleNonce.1, ""⟩

/-- Another client with a nonce of its own. -/
def otherNonce : Nonce := ⟨List.replicate 32 8, by decide⟩

def otherInput (instant : ℕ) : Input := { sampleInput instant with random := otherNonce }

def otherRequest : UnsealRequest := { sampleRequest with nonce := Hex.encode otherNonce.1 }

/-- A nonce request that is polled to its end as task `i`. -/
def fetchNonce (i : ℕ) : List VaultAction :=
  [.arrive .getNonce, .poll i (sampleInput 0), .poll i (sampleInput 0)]

/-- A request that arrives as task `i` and is polled `n` times. -/
def serve (i n : ℕ) (r : Request) : List VaultAction :=
  .arrive r :: List.replicate n (.poll i (sampleInput 0))

end Sample

end SecureNet
