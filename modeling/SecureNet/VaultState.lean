import SecureNet.Issuer
import SecureNet.Library.Tasks
import SecureNet.NonceStore

/-!
# State and operations of the vault process

The mutable part of `vault-service/src/state.rs`, the serial counter of `issuer.rs`, the mutex
and file of `log.rs`, and the operations through which the handlers touch them. An operation is
one call that runs without a suspension; between two of them any other request may run.
-/

namespace SecureNet

open Hex (Bytes)
open KeyedStore Tasks

/-- A piece of the log file: a whole line, or the first bytes of a line whose write failed or
never finished. -/
inductive LogPiece
  | line (entry : IssuanceLogEntry)
  | torn (entry : IssuanceLogEntry) (bytes : ℕ)
  deriving DecidableEq

/-- What a write that did not complete has left in the file. -/
inductive Flushed
  | nothing
  | bytes (n : ℕ)
  | whole
  deriving DecidableEq

def Flushed.pieces (entry : IssuanceLogEntry) : Flushed → List LogPiece
  | .nothing => []
  | .bytes n => [.torn entry n]
  | .whole => [.line entry]

/-- What never changes while the vault is deployed: the CA material, the allowlist, the parent
directory of the log (if its path has one), and the two crates that compute. -/
structure Deployment where
  sha256 : Bytes → Bytes
  rcgen : Rcgen
  issuer : Issuer
  allowlist : Allowlist
  logParent : Option String

structure AppState where
  nonceStore : NonceStore
  revoked : Store String String
  issued : UInt64

namespace AppState

def new : AppState := ⟨NonceStore.new, ∅, 0⟩

def revokeCert (self : AppState) (serial reason : String) : AppState :=
  { self with revoked := self.revoked.insert serial reason }

def revocationList (self : AppState) : List String := self.revoked.keys

def isRevoked (self : AppState) (serial : String) : Bool := (self.revoked.lookup serial).isSome

def issuedCount (self : AppState) : UInt64 := self.issued

end AppState

/-- One vault process and the log file it appends to. `serialCounter` is `SERIAL_COUNTER`,
`logLock` the task that holds the log's mutex, `clock` the last reading of the monotonic
clock. -/
structure Process where
  appState : AppState
  serialCounter : UInt64
  logLock : Option ℕ
  file : List LogPiece
  clock : ℕ

def Process.new (file : List LogPiece) (clock : ℕ) : Process :=
  ⟨AppState.new, 1, none, file, clock⟩

abbrev Nonce := { b : Bytes // b.length = 32 }

inductive VaultOp
  | randomNonce
  | registerNonce (nonce : Bytes)
  | consumeNonce (nonce : Bytes)
  | issue (serviceName : String)
  | utcNow
  | lockLog
  | createDirAll (path : String)
  | openLog
  | writeAll (entry : IssuanceLogEntry)
  | unlockLog
  | revokeCert (serial reason : String)
  | revocationList
  | issuedCount

/-- The calls of the handlers and what they return; a file operation returns whether it
succeeded. -/
abbrev vaultSig : Signature where
  Op := VaultOp
  Reply
    | .randomNonce => Nonce
    | .registerNonce _ => Unit
    | .consumeNonce _ => Bool
    | .issue _ => Except String CertBundle
    | .utcNow => ℤ
    | .lockLog => Unit
    | .createDirAll _ => Bool
    | .openLog => Bool
    | .writeAll _ => Bool
    | .unlockLog => Unit
    | .revokeCert _ _ => Unit
    | .revocationList => List String
    | .issuedCount => UInt64

/-- What the outside world supplies to one operation. -/
structure Input where
  instant : ℕ
  elapsedAt : Bytes → ℕ
  random : Nonce
  issueNow : ℤ
  leafKey : Option KeyPair
  utcNow : ℤ
  fileOk : Bool
  flushed : Flushed

inductive VaultEvent
  | registered (nonce : Bytes) (at' : ℕ)
  | consumed (nonce : Bytes) (at' : ℕ) (accepted : Bool)
  | issueCalled (serviceName : String) (result : Except String Issued)
  | appended (piece : LogPiece)
  | revoked (serial reason : String)
  | listed (serials : List String)

namespace Process

variable (D : Deployment)

/-- The monotonic clock never goes back: the readings of a critical section lie between the
last reading before it and its own last one. -/
def clockOk (s : Process) (inp : Input) : Bool :=
  decide (s.clock ≤ inp.instant) &&
    s.appState.nonceStore.keys.all
      (fun n => decide (s.clock ≤ inp.elapsedAt n) && decide (inp.elapsedAt n ≤ inp.instant))

/-- What a call returns and changes. A `write_all` that returns has put its whole line into the file
here, and any other one beginning of it. -/
def reply (s : Process) (i : ℕ) :
    (o : VaultOp) → Input → Option (Process × vaultSig.Reply o × List VaultEvent)
  | .randomNonce, inp => some (s, inp.random, [])
  | .registerNonce nonce, inp =>
    if s.clockOk inp then
      some ({ s with
        appState.nonceStore := s.appState.nonceStore.register inp.elapsedAt nonce inp.instant
        clock := inp.instant }, (), [.registered nonce inp.instant])
    else none
  | .consumeNonce nonce, inp =>
    if s.clockOk inp then
      let (fresh, store) := s.appState.nonceStore.consume nonce inp.instant
      some ({ s with appState.nonceStore := store, clock := inp.instant }, fresh,
        [.consumed nonce inp.instant fresh])
    else none
  | .issue serviceName, inp =>
    let result := D.issuer.issue D.rcgen serviceName s.serialCounter inp.issueNow inp.leafKey
      inp.utcNow
    some ({ s with serialCounter := s.serialCounter + 1 }, result.map Issued.bundle,
      [.issueCalled serviceName result])
  | .utcNow, inp => some (s, inp.utcNow, [])
  | .lockLog, _ =>
    match s.logLock with
    | none => some ({ s with logLock := some i }, (), [])
    | some _ => none
  | .createDirAll _, inp => some (s, inp.fileOk, [])
  | .openLog, inp => some (s, inp.fileOk, [])
  | .writeAll entry, inp =>
    let pieces := if inp.fileOk then [.line entry] else inp.flushed.pieces entry
    some ({ s with file := s.file ++ pieces }, inp.fileOk, pieces.map .appended)
  | .unlockLog, _ => some ({ s with logLock := none }, (), [])
  | .revokeCert serial reason, _ =>
    some ({ s with appState := s.appState.revokeCert serial reason }, (), [.revoked serial reason])
  | .revocationList, _ =>
    some (s, s.appState.revocationList, [.listed s.appState.revocationList])
  | .issuedCount, _ => some (s, s.appState.issuedCount, [])

/-- A handler is dropped at an await: while it waits for a lock nothing happens, while it holds
the log's mutex the guard is released, and a write in flight may have reached the file. -/
def cancel (s : Process) (_i : ℕ) (o : VaultOp) (inp : Input) :
    Option (Process × List VaultEvent) :=
  match o with
  | .registerNonce _ => some (s, [])
  | .consumeNonce _ => some (s, [])
  | .lockLog => some (s, [])
  | .createDirAll _ => some ({ s with logLock := none }, [])
  | .openLog => some ({ s with logLock := none }, [])
  | .writeAll entry =>
    let pieces := inp.flushed.pieces entry
    some ({ s with file := s.file ++ pieces, logLock := none }, pieces.map .appended)
  | .revokeCert _ _ => some (s, [])
  | .revocationList => some (s, [])
  | _ => none

end Process

/-- The environment of the vault's handlers. A restart keeps the log file and nothing else. -/
def vaultEnv (D : Deployment) : Environment vaultSig Process Input VaultEvent where
  reply := Process.reply D
  cancel := Process.cancel
  restart s inp := Process.new s.file inp.instant

end SecureNet
