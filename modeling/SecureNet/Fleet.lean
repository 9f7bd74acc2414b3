import SecureNet.GrantAudit
import SecureNet.Library.Exchange
import SecureNet.Library.OwnState
import SecureNet.RotationTask
import SecureNet.VaultHttp

/-!
# Services and their vault

The boot sequence and the rotation task of a service, `run` and `run_gateway` of `shared/src/boot.rs`
with the client of `shared/src/vault_client.rs` in the loop of `shared/src/rotation.rs`, as tasks
that send their requests to the vault. A service is a process of its own. The network between the
services and the vault may lose requests and answers, and anyone else may talk to the vault as well.
-/

namespace SecureNet

open Hex (Bytes)
open EventMachine Tasks Tasks.Prog

/-- What the services of a deployment share. -/
structure Site where
  time : TimeFormat
  rustls : Rustls
  sha256 : Bytes → Bytes
  hexError : String → String
  vaultUrl : String

/-- On whose behalf a service calls the vault. -/
inductive Part
  | identity
  | vaultClient
  deriving DecidableEq

/-- `created` is the end of the boot sequence: the constructors of the TLS configuration and of the
vault client. -/
inductive ServiceOp
  | client (part : Part) (o : ClientOp)
  | created (bundle : CertBundle) (rotating : RotatingTlsConfig)
  | tls (o : TlsOp)

abbrev serviceSig : Signature where
  Op := ServiceOp
  Reply
    | .client _ o => clientSig.Reply o
    | .created _ _ => Unit
    | .tls o => tlsSig.Reply o

/-- An answer of the vault: the task that gave it, its request, and the answer itself. -/
abbrev VaultAnswer := ℕ × Request × Response

/-- `response` is the answer whose body has not been read yet. -/
structure ServiceProcess where
  clients : Part → ServiceIdentity
  cells : Option TlsCells
  response : Option VaultAnswer

def ServiceProcess.new : ServiceProcess := ⟨fun _ => .new, none, none⟩

/-- What the outside world supplies to one call. `error` is the text of an error of the network or of
a deserializer, and `complete` tells whether the body of an answer arrives in full. -/
structure ServiceInput where
  machineId : Except AppError String
  answer : Option VaultAnswer
  error : String
  complete : Bool
  now : ℤ

inductive ServiceEvent
  | client (part : Part) (e : ClientEvent)
  | answered (x : VaultAnswer)
  | took (v : ℕ) (bundle : CertBundle)
  | created (bundle : CertBundle) (config : ServerConfig)
  | tls (e : TlsEvent)

section Calls

variable (site : Site)

def ServiceOp.request : ServiceOp → Option Request
  | .client _ o => o.request site.vaultUrl
  | _ => none

/-- The answer that a call gets, if it is one to the vault. -/
def ServiceOp.answer (o : ServiceOp) (inp : ServiceInput) : Option VaultAnswer :=
  if (o.request site).isSome then inp.answer else none

/-- Reading the body of the last answer. -/
def ServiceProcess.read {α : Type} (s : ServiceProcess) (inp : ServiceInput)
    (parsed : Response → Option α) : Except String α :=
  match s.response.bind (fun x => parsed x.2.2) with
  | some a => if inp.complete then .ok a else .error inp.error
  | none => .error inp.error

/-- What a call of a client meets. -/
def ServiceProcess.clientInput (s : ServiceProcess) (answer : Option VaultAnswer)
    (inp : ServiceInput) : ClientInput where
  machineId := inp.machineId
  sent := if answer.isSome then .ok () else .error inp.error
  body := s.read inp (Response.value site.time)
  quote := generateQuote site.sha256
  posted :=
    match answer with
    | some x => .ok (x.2.2.intoResponse site.time).status.1
    | none => .error inp.error
  text := (s.read inp (fun a => (a.intoResponse site.time).parsed Utf8.decode)).toOption
  response := s.read inp (Response.bundle site.time)

/-- The answer that is left to read after a call. -/
def ClientOp.leaves (answer response : Option VaultAnswer) : ClientOp → Option VaultAnswer
  | .get _ => answer
  | .post _ _ => answer
  | .json => none
  | .text => none
  | .jsonResponse => none
  | _ => response

/-- The bundle that a call takes from an answer. -/
def ClientOp.takes (response : Option VaultAnswer) (call : ClientInput) : ClientOp → List ServiceEvent
  | .jsonResponse =>
    match response, call.response with
    | some x, .ok resp => [.took x.1 resp.bundle]
    | _, _ => []
  | _ => []

def ServiceProcess.reply (s : ServiceProcess) :
    (o : ServiceOp) → ServiceInput → Option (ServiceProcess × serviceSig.Reply o × List ServiceEvent)
  | .client part o, inp =>
    let answer := (ServiceOp.client part o).answer site inp
    let call := s.clientInput site answer inp
    some ({ s with
      clients := Function.update s.clients part (o.write (s.clients part))
      response := o.leaves answer s.response }, call.answer o,
      (answer.map .answered).toList ++ o.takes s.response call ++ (o.events call).map (.client part))
  | .created bundle rotating, _ =>
    some ({ s with
      clients := Function.update s.clients .vaultClient ⟨.locked, some bundle⟩
      cells := some rotating.cells }, (), [.created bundle rotating.inner])
  | .tls o, inp =>
    match s.cells with
    | none => none
    | some cells =>
      (cells.reply o ⟨.error (.vaultUnreachable inp.error), inp.now⟩).map fun (c, r, evs) =>
        ({ s with cells := some c }, r, evs.map .tls)

def ServiceProcess.cancel (s : ServiceProcess) :
    ServiceOp → Option (ServiceProcess × List ServiceEvent)
  | .client part o =>
    ((s.clients part).cancel o).map fun (c, evs) =>
      ({ s with clients := Function.update s.clients part c }, evs.map (.client part))
  | .created _ _ => none
  | .tls o =>
    match s.cells with
    | none => none
    | some cells => (cells.cancel o).map fun (c, evs) => ({ s with cells := some c }, evs.map .tls)

def serviceEnv : Environment serviceSig ServiceProcess ServiceInput ServiceEvent where
  reply s _ o inp := s.reply site o inp
  cancel s _ o _ := s.cancel o
  restart s _ := s

end Calls

abbrev Service := Prog serviceSig

/-- A service of the deployment, looked at for the given number of rounds of its rotation task. -/
structure ServiceSpec where
  serviceName : String
  isGateway : Bool
  rounds : ℕ

namespace Service

variable (site : Site)

/-- A call of the identity or the vault client as a call of the service. -/
def onBehalf (part : Part) (o : ClientOp) : Service (clientSig.Reply o) :=
  perform (S := serviceSig) (.client part o)

/-- A call of the rotation task, whose `vault` is the vault client of the service. -/
def rotationCall : (o : TlsOp) → Service (tlsSig.Reply o)
  | .renew serviceName =>
    (HttpVaultClient.renew site.hexError serviceName site.vaultUrl).interp (onBehalf .vaultClient)
  | o => perform (S := serviceSig) (.tls o)

def create (isGateway : Bool) (bundle : CertBundle) : Except AppError RotatingTlsConfig :=
  if isGateway then RotatingTlsConfig.newGateway site.rustls bundle
  else RotatingTlsConfig.new site.rustls bundle

def createFailure (isGateway : Bool) : String :=
  if isGateway then "failed to build gateway TLS config"
  else "failed to build TLS config from cert bundle"

/-- `run` and `run_gateway`, and then the rotation task. -/
def main (spec : ServiceSpec) : Service (Except String Unit) := do
  let unsealed ← (ServiceIdentity.unseal site.hexError spec.serviceName site.vaultUrl).interp
    (onBehalf .identity)
  match unsealed with
  | .error _ => return .error ("failed to unseal with vault at " ++ site.vaultUrl)
  | .ok bundle =>
    match create site spec.isGateway bundle with
    | .error _ => return .error (createFailure spec.isGateway)
    | .ok rotating =>
      let _ ← perform (S := serviceSig) (.created bundle rotating)
      let initialTtl : ℕ ← perform (S := serviceSig) (.tls (.ttlSecs bundle))
      let _ ← (RotationTask.rotationLoop site.rustls rotating.isGateway spec.serviceName spec.rounds
        initialTtl).interp (rotationCall site)
      return .ok ()

end Service

abbrev Services := System serviceSig (ℕ → ServiceProcess) ServiceSpec (Except String Unit)

abbrev ServiceTrace := List (Event ServiceSpec (Except String Unit) ServiceEvent)

abbrev ServiceAction := Action ServiceSpec ServiceInput

def services (site : Site) := machine (serviceEnv site).own (Service.main site)

section Network

variable (site : Site)

/-- The call at which a service stands. -/
def pendingCall (s : Services) (i : ℕ) : Option ServiceOp :=
  match s.tasks[i]? with
  | some ⟨_, .running (.call o _)⟩ => some o
  | _ => none

/-- The request that a service waits to have answered. -/
def awaits (s : Services) (i : ℕ) : Option Request := (pendingCall s i).bind (ServiceOp.request site)

/-- The answer that an action hands to a service. -/
def handed (s : Services) : ServiceAction → Option VaultAnswer
  | .poll i inp => (pendingCall s i).bind (fun o => o.answer site inp)
  | _ => none

def movesService : ServiceAction → ℕ → Bool
  | .arrive _, _ => false
  | .poll j _, i => j == i
  | .drop j _, i => j == i
  | .restart _, _ => true

def answerSeen : Event ServiceSpec (Except String Unit) ServiceEvent → Option VaultAnswer
  | .did _ (.answered x) => some x
  | _ => none

variable {site} {s t : Services} {a : ServiceAction}
  {evs : List (Event ServiceSpec (Except String Unit) ServiceEvent)}

lemma pendingCall_set {i j : ℕ} {c : Task serviceSig ServiceSpec (Except String Unit)}
    {sh : ℕ → ServiceProcess} (hij : i ≠ j) :
    pendingCall ⟨sh, s.tasks.set i c⟩ j = pendingCall s j := by
  rw [pendingCall, pendingCall]
  simp only [List.getElem?_set_ne hij]

lemma awaits_frame (h : (services site).step s a = some (t, evs)) {i : ℕ}
    (hmoves : movesService a i = false) {r : Request} (hr : awaits site s i = some r) :
    awaits site t i = some r := by
  have hframe : pendingCall t i = pendingCall s i := by
    cases step_cases h with
    | arrive spec =>
      have hlt : i < s.tasks.length := by
        by_contra hge
        have hnone : s.tasks[i]? = none := List.getElem?_eq_none_iff.mpr (Nat.le_of_not_lt hge)
        rw [awaits, pendingCall, hnone] at hr
        cases hr
      rw [pendingCall, pendingCall]
      simp only [List.getElem?_append_left hlt]
    | respond j inp _ _ hj => exact pendingCall_set (beq_eq_false_iff_ne.mp hmoves)
    | perform j inp _ _ _ _ _ _ hj hrep => exact pendingCall_set (beq_eq_false_iff_ne.mp hmoves)
    | drop j inp _ _ _ _ _ hj hc => exact pendingCall_set (beq_eq_false_iff_ne.mp hmoves)
    | restart inp => cases hmoves
  rw [awaits, hframe]
  exact hr

lemma takes_seen {i : ℕ} (o : ClientOp) (response : Option VaultAnswer) (call : ClientInput) :
    ((o.takes response call).map (Event.did i)).filterMap answerSeen = [] := by
  unfold ClientOp.takes
  split
  · split <;> rfl
  · rfl

lemma quiet_seen {β : Type} (i : ℕ) (l : List β) (f : β → ServiceEvent)
    (hf : ∀ b, answerSeen (.did i (f b)) = none) :
    ((l.map f).map (Event.did i)).filterMap answerSeen = [] := by
  rw [List.filterMap_eq_nil_iff]
  intro e he
  rw [List.map_map] at he
  obtain ⟨b, -, rfl⟩ := List.mem_map.mp he
  exact hf b

lemma reply_seen {s t : ServiceProcess} {i : ℕ} {o : ServiceOp} {inp : ServiceInput}
    {rep : serviceSig.Reply o} {evs : List ServiceEvent}
    (h : s.reply site o inp = some (t, rep, evs)) :
    (evs.map (Event.did i)).filterMap answerSeen = (o.answer site inp).toList := by
  cases o with
  | client part o =>
    simp only [ServiceProcess.reply, Option.some.injEq, Prod.mk.injEq] at h
    obtain ⟨-, -, rfl⟩ := h
    rw [List.map_append, List.map_append, List.filterMap_append, List.filterMap_append, takes_seen,
      quiet_seen i _ _ (fun _ => rfl), List.append_nil, List.append_nil]
    cases (ServiceOp.client part o).answer site inp <;> rfl
  | created bundle rotating =>
    cases h
    rfl
  | tls o =>
    simp only [ServiceProcess.reply] at h
    split at h
    · cases h
    · obtain ⟨⟨c, rep', out⟩, -, heq⟩ := Option.map_eq_some_iff.mp h
      cases heq
      exact quiet_seen i out _ (fun _ => rfl)

lemma cancel_seen {s t : ServiceProcess} {i : ℕ} {o : ServiceOp} {evs : List ServiceEvent}
    (h : s.cancel o = some (t, evs)) : (evs.map (Event.did i)).filterMap answerSeen = [] := by
  cases o with
  | client part o =>
    obtain ⟨⟨c, out⟩, -, heq⟩ := Option.map_eq_some_iff.mp h
    cases heq
    exact quiet_seen i out _ (fun _ => rfl)
  | created bundle rotating => cases h
  | tls o =>
    simp only [ServiceProcess.cancel] at h
    split at h
    · cases h
    · obtain ⟨⟨c, out⟩, -, heq⟩ := Option.map_eq_some_iff.mp h
      cases heq
      exact quiet_seen i out _ (fun _ => rfl)

lemma answer_seen {S : Signature} {i : ℕ} (p : Prog S (Except String Unit)) :
    (answer i p : ServiceTrace).filterMap answerSeen = [] := by
  cases p <;> rfl

lemma seen_handed (h : (services site).step s a = some (t, evs)) :
    evs.filterMap answerSeen = (handed site s a).toList := by
  cases step_cases h with
  | arrive spec => rfl
  | respond i inp spec b hi => simp [answerSeen, handed, pendingCall, hi]
  | perform i inp spec o k sh rep evs hi hr =>
    obtain ⟨⟨p, rep', evs'⟩, hreply, heq⟩ := Option.map_eq_some_iff.mp hr
    cases heq
    rw [List.filterMap_append, reply_seen hreply, answer_seen, List.append_nil, handed, pendingCall,
      hi]
    rfl
  | drop i inp spec o k sh evs hi hc =>
    obtain ⟨⟨p, evs'⟩, hcancel, heq⟩ := Option.map_eq_some_iff.mp hc
    cases heq
    rw [List.filterMap_append, cancel_seen hcancel]
    rfl
  | restart inp => rfl

variable (site)

/-- The services as the clients of the vault. -/
def serviceClients : Clients Services ServiceAction
    (Event ServiceSpec (Except String Unit) ServiceEvent) Request Response ServiceInput where
  client := services site
  wants := awaits site
  moves := movesService
  claim := handed site
  deliver i inp x := .poll i { inp with answer := some x }
  seen := answerSeen
  claim_deliver := by
    intro c i r inp x hr
    obtain ⟨o, ho, hrequest⟩ := Option.bind_eq_some_iff.mp hr
    rw [handed, ho, Option.bind_some, ServiceOp.answer, hrequest]
    rfl
  moves_deliver i inp x := beq_self_eq_true i
  wants_frame h hmoves hr := awaits_frame h hmoves hr
  seen_step := seen_handed

variable (D : Deployment)

/-- The vault with its services, and with anyone else who sends it requests. -/
def fleet := net (vaultEnv D) (handle D) (serviceClients site)

abbrev FleetState := Net vaultSig Process Request Response Services

abbrev FleetTrace :=
  List (Event Request Response VaultEvent ⊕ Event ServiceSpec (Except String Unit) ServiceEvent)

abbrev FleetAction := NetAction Request Input ServiceAction ServiceInput

def fleetStart (file : List LogPiece) (clock : ℕ) : FleetState :=
  ⟨start file clock, ⟨fun _ => .new, []⟩, []⟩

end Network

end SecureNet
