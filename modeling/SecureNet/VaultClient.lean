import SecureNet.Library.SoloRuns
import SecureNet.Library.Utf8
import SecureNet.Models

/-!
# Clients of the vault

`unseal` of `shared/src/identity.rs`, `renew` of `shared/src/vault_client.rs` and the stub quote of
`shared/src/attestation.rs`. One call is one operation between two suspensions. The outside world
decides every answer of the network, the machine id and the outcome of the quote.
-/

namespace SecureNet

open Hex (Bytes)
open Tasks Tasks.Prog

inductive ServiceState
  | locked
  | unsealing
  | serving
  deriving DecidableEq

/-- The two locks of a `ServiceIdentity`. An `HttpVaultClient` has only the second one. -/
structure ServiceIdentity where
  state : ServiceState
  bundle : Option CertBundle

def ServiceIdentity.new : ServiceIdentity := ⟨.locked, none⟩

def ServiceIdentity.isServing (self : ServiceIdentity) : Bool := self.state == .serving

inductive ClientOp
  | writeState (state : ServiceState)
  | writeBundle (bundle : CertBundle)
  | machineId
  | get (url : String)
  | json
  | generateQuote (nonce : Bytes)
  | post (url : String) (req : UnsealRequest)
  | text
  | jsonResponse

/-- The calls of a client and what they return. A failed network call is given by the text of its
error, `post` returns the status of the answer, and `text` nothing if the body breaks off. -/
abbrev clientSig : Signature where
  Op := ClientOp
  Reply
    | .writeState _ => Unit
    | .writeBundle _ => Unit
    | .machineId => Except AppError String
    | .get _ => Except String Unit
    | .json => Except String Value
    | .generateQuote _ => Except AppError (Bytes × Bytes)
    | .post _ _ => Except String ℕ
    | .text => Option String
    | .jsonResponse => Except String UnsealResponse

/-- What the outside world supplies to one call. -/
structure ClientInput where
  machineId : Except AppError String
  sent : Except String Unit
  body : Except String Value
  quote : Bytes → Except AppError (Bytes × Bytes)
  posted : Except String ℕ
  text : Option String
  response : Except String UnsealResponse

inductive ClientEvent
  | stateWritten (state : ServiceState)
  | bundleWritten (bundle : CertBundle)
  | posted (url : String) (req : UnsealRequest)
  | received (bundle : CertBundle)

/-- What an operation does to the locks. -/
def ClientOp.write (s : ServiceIdentity) : ClientOp → ServiceIdentity
  | .writeState state => { s with state := state }
  | .writeBundle bundle => { s with bundle := some bundle }
  | _ => s

def ClientInput.answer (inp : ClientInput) : (o : ClientOp) → clientSig.Reply o
  | .writeState _ => ()
  | .writeBundle _ => ()
  | .machineId => inp.machineId
  | .get _ => inp.sent
  | .json => inp.body
  | .generateQuote nonce => inp.quote nonce
  | .post _ _ => inp.posted
  | .text => inp.text
  | .jsonResponse => inp.response

def ClientOp.events (inp : ClientInput) : ClientOp → List ClientEvent
  | .writeState state => [.stateWritten state]
  | .writeBundle bundle => [.bundleWritten bundle]
  | .post url req => [.posted url req]
  | .jsonResponse =>
    match inp.response with
    | .ok resp => [.received resp.bundle]
    | .error _ => []
  | _ => []

/-- A call that is dropped while it waits writes nothing; its request may have been sent. -/
def ServiceIdentity.cancel (s : ServiceIdentity) : ClientOp → Option (ServiceIdentity × List ClientEvent)
  | .machineId => none
  | .post url req => some (s, [.posted url req])
  | _ => some (s, [])

/-- The environment of the calls on clones of one identity. At a restart all of them are dropped
and the identity stays. -/
def clientEnv : Environment clientSig ServiceIdentity ClientInput ClientEvent where
  reply s _ o inp := some (o.write s, inp.answer o, o.events inp)
  cancel s _ o _ := s.cancel o
  restart s _ := s

abbrev Client := Prog clientSig

/-- Indexing a JSON value by a string gives `Null` where there is no such field. -/
def Value.index (v : Value) (key : String) : Value := (v.get key).getD .null

/-- The stub quote: the SHA-256 of the nonce and a marker in place of a key. -/
def generateQuote (sha256 : Bytes → Bytes) (nonce : Bytes) : Except AppError (Bytes × Bytes) :=
  .ok (sha256 nonce, Utf8.encode "DEV_MODE_NO_TPM")

/-- `fetch_nonce` with the text of its error for an answer without a nonce. -/
def fetchNonceWith (missing vaultUrl : String) : Client (Except AppError String) := do
  match ← perform (S := clientSig) (.get (vaultUrl ++ "/vault/nonce")) with
  | .error e => return .error (.vaultUnreachable e)
  | .ok () =>
    match ← perform (S := clientSig) .json with
    | .error e => return .error (.vaultUnreachable e)
    | .ok body =>
      match (body.index "nonce").asStr with
      | some nonce => return .ok nonce
      | none => return .error (.vaultUnreachable missing)

def ServiceIdentity.fetchNonce : String → Client (Except AppError String) :=
  fetchNonceWith "nonce field missing in vault response"

def HttpVaultClient.fetchNonce : String → Client (Except AppError String) :=
  fetchNonceWith "nonce field missing"

/-- The hex texts of a quote and its key, which are empty if there is no quote. -/
def quoteHex : Except AppError (Bytes × Bytes) → String × String
  | .ok (quote, ak) => (Hex.encode quote, Hex.encode ak)
  | .error _ => ("", "")

def machineIdOrUnknown : Except AppError String → String
  | .ok machineId => machineId
  | .error _ => "unknown"

def isSuccess (status : ℕ) : Bool := decide (200 ≤ status) && decide (status < 300)

/-- `hexError` is the text of the `hex` crate's error for a text that does not decode. -/
def ServiceIdentity.unseal (hexError : String → String) (serviceName vaultUrl : String) :
    Client (Except AppError CertBundle) := do
  let _ ← perform (S := clientSig) (.writeState .unsealing)
  let machineId := machineIdOrUnknown (← perform (S := clientSig) .machineId)
  match ← fetchNonce vaultUrl with
  | .error e => return .error e
  | .ok nonceHex =>
    match Hex.decode nonceHex with
    | none => return .error (.vaultUnreachable ("bad nonce hex: " ++ hexError nonceHex))
    | some nonceBytes =>
      let (tpmQuoteHex, akPubHex) := quoteHex (← perform (S := clientSig) (.generateQuote nonceBytes))
      let req : UnsealRequest := ⟨serviceName, machineId, tpmQuoteHex, nonceHex, akPubHex⟩
      match ← perform (S := clientSig) (.post (vaultUrl ++ "/vault/unseal") req) with
      | .error e => return .error (.vaultUnreachable e)
      | .ok status =>
        if !isSuccess status then
          let body := (← perform (S := clientSig) .text).getD ""
          let _ ← perform (S := clientSig) (.writeState .locked)
          return .error (.vaultRejected body)
        else
          match ← perform (S := clientSig) .jsonResponse with
          | .error e => return .error (.vaultUnreachable e)
          | .ok resp =>
            let _ ← perform (S := clientSig) (.writeBundle resp.bundle)
            let _ ← perform (S := clientSig) (.writeState .serving)
            return .ok resp.bundle

def HttpVaultClient.renew (hexError : String → String) (serviceName vaultUrl : String) :
    Client (Except AppError CertBundle) := do
  match ← fetchNonce vaultUrl with
  | .error e => return .error e
  | .ok nonceHex =>
    match Hex.decode nonceHex with
    | none => return .error (.vaultUnreachable (hexError nonceHex))
    | some nonceBytes =>
      let machineId := machineIdOrUnknown (← perform (S := clientSig) .machineId)
      let (tpmQuoteHex, akPubHex) := quoteHex (← perform (S := clientSig) (.generateQuote nonceBytes))
      let req : UnsealRequest := ⟨serviceName, machineId, tpmQuoteHex, nonceHex, akPubHex⟩
      match ← perform (S := clientSig) (.post (vaultUrl ++ "/vault/renew") req) with
      | .error e => return .error (.vaultUnreachable e)
      | .ok status =>
        if !isSuccess status then
          let body := (← perform (S := clientSig) .text).getD ""
          return .error (.vaultRejected body)
        else
          match ← perform (S := clientSig) .jsonResponse with
          | .error e => return .error (.vaultUnreachable e)
          | .ok resp =>
            let _ ← perform (S := clientSig) (.writeBundle resp.bundle)
            return .ok resp.bundle

/-- The identity, the answer and the events of a call that runs alone. -/
def Client.finish {α : Type} (inp : ClientInput) :
    ServiceIdentity → Client α → ServiceIdentity × α × List ClientEvent
  | s, .done a => (s, a, [])
  | s, .call o k =>
    let (t, a, evs) := Client.finish inp (o.write s) (k (inp.answer o))
    (t, a, o.events inp ++ evs)

lemma run_finish {α : Type} (i : ℕ) (inp : ClientInput) (s : ServiceIdentity) (p : Client α) :
    Prog.run clientEnv i inp s p = some (Client.finish inp s p) := by
  induction p generalizing s with
  | done a => rfl
  | call o k ih => exact Prog.run_call.mpr ⟨_, _, _, _, rfl, ih (inp.answer o) (o.write s), rfl⟩

lemma finish_bind {α β : Type} (inp : ClientInput) (s : ServiceIdentity) (p : Client α)
    (f : α → Client β) : Client.finish inp s (p >>= f) =
      (let first := Client.finish inp s p
      let second := Client.finish inp first.1 (f first.2.1)
      (second.1, second.2.1, first.2.2 ++ second.2.2)) := by
  induction p generalizing s with
  | done a => rfl
  | call o k ih =>
    have hcall : (.call o k >>= f : Client β) = .call o (fun r => k r >>= f) := rfl
    simp only [hcall, Client.finish, ih, List.append_assoc]

end SecureNet
