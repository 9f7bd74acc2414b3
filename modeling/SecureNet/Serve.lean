import SecureNet.Library.TaskSum
import SecureNet.RotationTask

/-!
# The accept loop

`serve_mtls` of the three services, which is the same code in each of them, with the tasks that it
spawns and the rotation task next to it. The listener is bound. What `accept` returns is given in
advance; the outside world decides how a handshake and a connection go on.
-/

namespace SecureNet

open Tasks Tasks.Prog

/-- The accept side of a service. `listener` holds what `accept` will return, `accepted` counts the
streams, which are numbered in this order, and a spawned task that has begun is `none`. -/
structure Server where
  listener : List (Except String Unit)
  accepted : ℕ
  spawned : List (Option (ℕ × ServerConfig))

def Server.listening (listener : List (Except String Unit)) : Server := ⟨listener, 0, []⟩

inductive ServerOp
  | accept
  | spawn (stream : ℕ) (config : ServerConfig)
  | begin (n : ℕ)
  | handshake (stream : ℕ) (config : ServerConfig)
  | readRequest (stream : ℕ)
  | callApp (stream : ℕ)
  | writeResponse (stream status : ℕ)

/-- The calls of the loop and of the spawned tasks. A flight of a handshake returns whether it was
the last one, and the router a status. -/
abbrev serverSig : Signature where
  Op := ServerOp
  Reply
    | .accept => Except String ℕ
    | .spawn _ _ => Unit
    | .begin _ => ℕ × ServerConfig
    | .handshake _ _ => Except String Bool
    | .readRequest _ => Except String Unit
    | .callApp _ => Except Unit ℕ
    | .writeResponse _ _ => Except String Unit

structure ServerInput where
  flight : Except String Bool
  request : Except String Unit
  status : Except Unit ℕ
  written : Except String Unit

inductive ServerEvent
  | accepted (stream : ℕ)
  | acceptFailed (error : String)
  | handed (stream : ℕ) (config : ServerConfig)
  | begun (stream : ℕ) (config : ServerConfig)
  | used (stream : ℕ) (config : ServerConfig)

namespace Server

/-- `accept` waits for the listener. A spawned task begins once. -/
def reply (s : Server) :
    (o : ServerOp) → ServerInput → Option (Server × serverSig.Reply o × List ServerEvent)
  | .accept, _ =>
    match s.listener with
    | [] => none
    | .ok () :: rest =>
      some ({ s with listener := rest, accepted := s.accepted + 1 }, .ok s.accepted,
        [.accepted s.accepted])
    | .error e :: rest => some ({ s with listener := rest }, .error e, [.acceptFailed e])
  | .spawn stream config, _ =>
    some ({ s with spawned := s.spawned ++ [some (stream, config)] }, (), [.handed stream config])
  | .begin n, _ =>
    match s.spawned[n]? with
    | some (some (stream, config)) =>
      some ({ s with spawned := s.spawned.set n none }, (stream, config), [.begun stream config])
    | _ => none
  | .handshake stream config, inp => some (s, inp.flight, [.used stream config])
  | .readRequest _, inp => some (s, inp.request, [])
  | .callApp _, inp => some (s, inp.status, [])
  | .writeResponse _ _, inp => some (s, inp.written, [])

def cancel (s : Server) : ServerOp → Option (Server × List ServerEvent)
  | .spawn _ _ => none
  | _ => some (s, [])

end Server

def serverEnv : Environment serverSig Server ServerInput ServerEvent where
  reply s _ o inp := s.reply o inp
  cancel s _ o _ := s.cancel o
  restart s _ := s

abbrev serveSig : Signature := tlsSig.sum serverSig

abbrev ServeTask := Prog serveSig

abbrev serveEnv := tlsEnv.sum serverEnv

inductive ServeResponse
  | rotated
  /-- The loop goes on after the turns that were asked for. -/
  | looping
  | failed (error : String)
  | closed

section Tasks

def accept : ServeTask (Except String ℕ) := perform (S := serveSig) (.inr .accept)

def spawn (stream : ℕ) (config : ServerConfig) : ServeTask Unit :=
  perform (S := serveSig) (.inr (.spawn stream config))

/-- The first turns of the loop, which has no end of its own. -/
def serveMtls : ℕ → ServeTask ServeResponse
  | 0 => return .looping
  | turns + 1 => do
    match ← accept with
    | .error e => return .failed e
    | .ok stream =>
      let currentConfig : ServerConfig ← RotatingTlsConfig.current.inl
      let _ ← spawn stream currentConfig
      serveMtls turns

/-- `TlsAcceptor::accept` with a client that sends some flights and then goes away. -/
def acceptTls (stream : ℕ) (config : ServerConfig) : ℕ → ServeTask (Except String Unit)
  | 0 => return .error "tls handshake eof"
  | flights + 1 => do
    let flight : Except String Bool ← perform (S := serveSig) (.inr (.handshake stream config))
    match flight with
    | .error e => return .error e
    | .ok true => return .ok ()
    | .ok false => acceptTls stream config flights

/-- `serve_connection` with a client that sends some requests and then closes the connection. A
handler that fails is answered with 500. -/
def serveConnection (stream : ℕ) : ℕ → ServeTask (Except String Unit)
  | 0 => return .ok ()
  | requests + 1 => do
    let request : Except String Unit ← perform (S := serveSig) (.inr (.readRequest stream))
    match request with
    | .error e => return .error e
    | .ok () =>
      let called : Except Unit ℕ ← perform (S := serveSig) (.inr (.callApp stream))
      let status := match called with
        | .ok status => status
        | .error () => 500
      let written : Except String Unit ←
        perform (S := serveSig) (.inr (.writeResponse stream status))
      match written with
      | .error e => return .error e
      | .ok () => serveConnection stream requests

/-- The task that was spawned as number `n`. Its failures are only logged. -/
def connection (n flights requests : ℕ) : ServeTask ServeResponse := do
  let handed : ℕ × ServerConfig ← perform (S := serveSig) (.inr (.begin n))
  match ← acceptTls handed.1 handed.2 flights with
  | .error _ => return .closed
  | .ok () =>
    let _ ← serveConnection handed.1 requests
    return .closed

inductive ServeRequest
  | rotate (rounds ttl : ℕ)
  | serve (turns : ℕ)
  | connection (n flights requests : ℕ)

def ServeRequest.isRotation : ServeRequest → Bool
  | .rotate _ _ => true
  | _ => false

def ServeRequest.isServer : ServeRequest → Bool
  | .serve _ => true
  | _ => false

variable (T : Rustls) (isGateway : Bool) (serviceName : String)

def serveHandler : ServeRequest → ServeTask ServeResponse
  | .rotate rounds ttl => do
    let _ ← (RotationTask.rotationLoop T isGateway serviceName rounds ttl).inl
    return .rotated
  | .serve turns => serveMtls turns
  | .connection n flights requests => connection n flights requests

/-- A running service: its rotation task, its accept loop and its connections. -/
def service := machine serveEnv (serveHandler T isGateway serviceName)

end Tasks

abbrev ServeTrace := List (Event ServeRequest ServeResponse (TlsEvent ⊕ ServerEvent))

abbrev ServeAction := Action ServeRequest (TlsInput × ServerInput)

abbrev ServeSystem := System serveSig (TlsCells × Server) ServeRequest ServeResponse

end SecureNet
