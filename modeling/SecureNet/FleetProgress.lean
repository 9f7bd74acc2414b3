import SecureNet.FleetServices
import SecureNet.HonestClient
import SecureNet.VaultProgress

/-!
# Services can always boot

From every state that the vault and its services can reach, a new service can boot and renew its
certificate as often as it wants: the requests that hold the log's mutex come to their end, and
then the service and the handlers of its requests run alone.
-/

namespace SecureNet

open Hex (Bytes)
open EventMachine KeyedStore Tasks

variable {D : Deployment} {site : Site}

section VaultAlone

/-- What the outside world supplies to a vault whose clock stands at `κ`. -/
def steady (κ : ℕ) (random : Nonce) (issueNow : ℤ) (leafKey : Option KeyPair) (utcNow : ℤ) : Input where
  instant := κ
  elapsedAt _ := κ
  random := random
  issueNow := issueNow
  leafKey := leafKey
  utcNow := utcNow
  fileOk := true
  flushed := .nothing

/-- Nobody holds the mutex of the log, and the clock stands. -/
structure Idle (κ : ℕ) (s : Process) : Prop where
  lock : s.logLock = none
  clock : s.clock = κ

variable {κ : ℕ} {random : Nonce} {issueNow utcNow : ℤ} {leafKey : Option KeyPair} {v : ℕ}
  {s : Process}

lemma Idle.clockOk (hs : Idle κ s) :
    s.clockOk (steady κ random issueNow leafKey utcNow) = true := by
  simp [Process.clockOk, steady, hs.clock]

/-- The state that a nonce request leaves. -/
def Process.afterNonce (s : Process) (κ : ℕ) (nonce : Bytes) : Process :=
  { s with
    appState.nonceStore := s.appState.nonceStore.register (fun _ => κ) nonce κ
    clock := κ }

lemma Idle.afterNonce (hs : Idle κ s) (nonce : Bytes) : Idle κ (s.afterNonce κ nonce) :=
  ⟨hs.lock, rfl⟩

lemma nonce_run (hs : Idle κ s) :
    Prog.run (vaultEnv D) v (steady κ random issueNow leafKey utcNow) s (handle D .getNonce) =
      some (s.afterNonce κ random.1, .json (nonceBody random.1), [.registered random.1 κ]) := by
  refine Prog.run_call.mpr ⟨s, random, [], _, rfl, ?_, rfl⟩
  refine Prog.run_call.mpr ⟨s.afterNonce κ random.1, (), [.registered random.1 κ], [], ?_, rfl, rfl⟩
  simp only [vaultEnv, Process.reply, hs.clockOk, ↓reduceIte]
  rfl

variable (random issueNow utcNow leafKey v) in
lemma append_run (hs : Idle κ s) (entry : IssuanceLogEntry) :
    ∃ t evs, Prog.run (vaultEnv D) v (steady κ random issueNow leafKey utcNow) s (append D entry) =
      some (t, (), evs) ∧ Idle κ t ∧ evs = [.appended (.line entry)] := by
  set inp := steady κ random issueNow leafKey utcNow with hinp
  set held : Process := { s with logLock := some v } with hheld
  have hwrite : Prog.run (vaultEnv D) v inp held
      (do
        let opened : Bool ← Prog.perform (S := vaultSig) .openLog
        if opened then do
          let _ ← Prog.perform (S := vaultSig) (.writeAll entry)
          Prog.perform (S := vaultSig) .unlockLog
        else Prog.perform (S := vaultSig) .unlockLog) =
      some ({ held with file := held.file ++ [.line entry], logLock := none }, (),
        [.appended (.line entry)]) := by
    refine Prog.run_call.mpr ⟨held, true, [], _, rfl, ?_, rfl⟩
    refine Prog.run_call.mpr ⟨_, true, [.appended (.line entry)], [], rfl, ?_, rfl⟩
    exact Prog.run_call.mpr ⟨_, (), [], [], rfl, rfl, rfl⟩
  have hlock : (vaultEnv D).reply s v .lockLog inp = some (held, (), []) := by
    simp only [vaultEnv, Process.reply, hs.lock]
    rfl
  refine ⟨{ held with file := held.file ++ [.line entry], logLock := none }, _, ?_, ⟨rfl, hs.clock⟩,
    rfl⟩
  unfold append
  refine Prog.run_call.mpr ⟨held, (), [], _, hlock, ?_, rfl⟩
  cases D.logParent with
  | none => exact hwrite
  | some parent => exact Prog.run_call.mpr ⟨held, true, [], _, rfl, hwrite, rfl⟩

variable (random) in
/-- A request that carries the nonce in the store gets a bundle. -/
lemma grant_run {r : Request} {req : UnsealRequest} {nonce : Bytes} {c : Issued} (hs : Idle κ s)
    (hatt : r.attested = some req) (hreq : verifyRequest D req = .ok nonce)
    (hquote : verifyQuote D req nonce = .ok ()) (hnonce : s.appState.nonceStore.lookup nonce = some κ)
    (hissue : D.issuer.issue D.rcgen req.serviceName s.serialCounter issueNow leafKey utcNow = .ok c) :
    ∃ t evs, Prog.run (vaultEnv D) v (steady κ random issueNow leafKey utcNow) s (handle D r) =
      some (t, .unsealed ⟨c.bundle⟩, evs) ∧ Idle κ t ∧
      evs.countP (fun e => isIssueCall (.did v e)) = 1 := by
  set inp := steady κ random issueNow leafKey utcNow with hinp
  set s₁ : Process := { s with
    appState.nonceStore := (s.appState.nonceStore.consume nonce κ).2
    clock := κ } with hs₁
  set s₂ : Process := { s₁ with serialCounter := s.serialCounter + 1 } with hs₂
  have hfresh : (s.appState.nonceStore.consume nonce κ).1 = true :=
    NonceStore.consume_accepts.mpr ⟨κ, hnonce, by rw [Nat.sub_self]; decide⟩
  have hidle : Idle κ s₂ := ⟨hs.lock, rfl⟩
  obtain ⟨t, evs, happend, ht, hevs⟩ := append_run (D := D) random issueNow utcNow leafKey v hidle
    (grantEntry utcNow req.serviceName req.machineId c.bundle.serial c.bundle.expiresAt)
  have hverify : Prog.run (vaultEnv D) v inp s (verify D req) =
      some (s₁, .ok (), [.consumed nonce κ true]) := by
    unfold verify
    rw [hreq]
    refine Prog.run_call.mpr ⟨s₁, true, [.consumed nonce κ true], [], ?_, ?_, rfl⟩
    · simp only [vaultEnv, Process.reply, hinp, hs.clockOk, ↓reduceIte]
      rw [show (steady κ random issueNow leafKey utcNow).instant = κ from rfl, hfresh]
    · exact Prog.run_done.mpr ⟨rfl, hquote.symm, rfl⟩
  have hgrant : Prog.run (vaultEnv D) v inp s₁ (grant D req) =
      some (t, .unsealed ⟨c.bundle⟩, .issueCalled req.serviceName (.ok c) :: evs) := by
    unfold grant
    refine Prog.run_call.mpr ⟨s₂, .ok c.bundle, [.issueCalled req.serviceName (.ok c)], evs, ?_, ?_,
      rfl⟩
    · have hcall : D.issuer.issue D.rcgen req.serviceName s₁.serialCounter inp.issueNow inp.leafKey
          inp.utcNow = .ok c := hissue
      simp only [vaultEnv, Process.reply, hcall]
      rfl
    · refine Prog.run_call.mpr ⟨s₂, utcNow, [], evs, rfl, ?_, rfl⟩
      exact Prog.run_bind.mpr ⟨t, (), evs, [], happend, rfl, (List.append_nil evs).symm⟩
  refine ⟨t, [.consumed nonce κ true] ++ .issueCalled req.serviceName (.ok c) :: evs, ?_, ht, ?_⟩
  · cases r with
    | postUnseal req' =>
      cases hatt
      exact Prog.run_bind.mpr ⟨s₁, .ok (), _, _, hverify, hgrant, rfl⟩
    | postRenew req' =>
      cases hatt
      exact Prog.run_bind.mpr ⟨s₁, .ok (), _, _, hverify, hgrant, rfl⟩
    | _ => cases hatt
  · rw [hevs]
    rfl

end VaultAlone

section ServiceAlone

variable (D site) in
/-- A service whose requests the vault answers at once, with the same input for all its calls. -/
def soloEnv (call : Input) :
    Environment serviceSig (VaultSystem × ServiceProcess) ServiceInput VaultTraceEvent where
  reply s _ o inp :=
    match o.request site with
    | none => (s.2.reply site o inp).map fun (t, rep, _) => ((s.1, t), rep, [])
    | some r =>
      match Prog.run (vaultEnv D) s.1.tasks.length call s.1.shared (handle D r) with
      | none => none
      | some (sh, a, evs) =>
        (s.2.reply site o { inp with answer := some (s.1.tasks.length, r, a) }).map fun (t, rep, _) =>
          ((⟨sh, s.1.tasks ++ [⟨r, .finished a⟩]⟩, t), rep, .arrived s.1.tasks.length r ::
            (evs.map (.did s.1.tasks.length) ++ [.responded s.1.tasks.length a]))
  cancel _ _ _ _ := none
  restart s _ := s

variable {α : Type} {call : Input} {i : ℕ} {inp : ServiceInput}

lemma solo_reply_none {s t : VaultSystem × ServiceProcess} {o : ServiceOp} {rep : serviceSig.Reply o}
    {evs : List VaultTraceEvent} (hreq : o.request site = none) :
    (soloEnv D site call).reply s i o inp = some (t, rep, evs) ↔
      ∃ out, s.2.reply site o inp = some (t.2, rep, out) ∧ t.1 = s.1 ∧ evs = [] := by
  simp only [soloEnv, hreq, Option.map_eq_some_iff, Prod.mk.injEq, Prod.exists]
  constructor
  · rintro ⟨u, rep', out, hr, rfl, rfl, rfl⟩
    exact ⟨out, hr, rfl, rfl⟩
  · rintro ⟨out, hr, hv, rfl⟩
    exact ⟨t.2, rep, out, hr, by rw [← hv], rfl, rfl⟩

lemma solo_reply_some {s t : VaultSystem × ServiceProcess} {o : ServiceOp} {rep : serviceSig.Reply o}
    {evs : List VaultTraceEvent} {r : Request} (hreq : o.request site = some r) :
    (soloEnv D site call).reply s i o inp = some (t, rep, evs) ↔
      ∃ sh a vevs out, Prog.run (vaultEnv D) s.1.tasks.length call s.1.shared (handle D r) =
          some (sh, a, vevs) ∧
        s.2.reply site o { inp with answer := some (s.1.tasks.length, r, a) } = some (t.2, rep, out) ∧
        t.1 = ⟨sh, s.1.tasks ++ [⟨r, .finished a⟩]⟩ ∧ evs = .arrived s.1.tasks.length r ::
          (vevs.map (.did s.1.tasks.length) ++ [.responded s.1.tasks.length a]) := by
  simp only [soloEnv, hreq]
  cases hrun : Prog.run (vaultEnv D) s.1.tasks.length call s.1.shared (handle D r) with
  | none => simp
  | some p =>
    obtain ⟨sh, a, vevs⟩ := p
    simp only [Option.map_eq_some_iff, Prod.mk.injEq, Prod.exists, Option.some.injEq]
    constructor
    · rintro ⟨u, rep', out, hr, rfl, rfl, rfl⟩
      exact ⟨sh, a, vevs, out, ⟨rfl, rfl, rfl⟩, hr, rfl, rfl⟩
    · rintro ⟨sh', a', vevs', out, ⟨rfl, rfl, rfl⟩, hr, hv, rfl⟩
      exact ⟨t.2, rep, out, hr, by rw [← hv], rfl, rfl⟩

lemma services_poll {c : Services} {spec : ServiceSpec} {o : ServiceOp}
    {k : serviceSig.Reply o → Service (Except String Unit)} {p : ServiceProcess}
    {rep : serviceSig.Reply o} {out : List ServiceEvent}
    (hi : c.tasks[i]? = some ⟨spec, .running (.call o k)⟩)
    (hr : (c.shared i).reply site o inp = some (p, rep, out)) :
    (services site).step c (.poll i inp) = some (⟨Function.update c.shared i p,
      c.tasks.set i ⟨spec, settled (k rep)⟩⟩, out.map (.did i) ++ answer i (k rep)) := by
  have hreply : (serviceEnv site).own.reply c.shared i o inp =
      some (Function.update c.shared i p, rep, out) := Option.map_eq_some_iff.mpr ⟨_, hr, rfl⟩
  simp only [services, machine, hi, Option.bind_some, pollTask, hreply]

/-- What has become of the fleet when service `i` has come to its answer. -/
structure Ended (n m : FleetState) (i : ℕ) (spec : ServiceSpec) (vs : VaultSystem)
    (p : ServiceProcess) (a : Except String Unit) : Prop where
  server : m.server = vs
  own : m.clients.shared = Function.update n.clients.shared i p
  tasks : m.clients.tasks = n.clients.tasks.set i ⟨spec, .finished a⟩

/-- The fleet can do what a service does that is alone with the vault. -/
theorem exec_solo {spec : ServiceSpec} {prog : Service (Except String Unit)} {n : FleetState}
    {vs : VaultSystem} {p : ServiceProcess} {a : Except String Unit} {evs : List VaultTraceEvent}
    (hi : n.clients.tasks[i]? = some ⟨spec, settled prog⟩) (hfree : n.pending.lookup i = none)
    (hrun : Prog.run (soloEnv D site call) i inp (n.server, n.clients.shared i) prog =
      some ((vs, p), a, evs)) :
    ∃ as m tr, (fleet site D).exec n as = some (m, tr) ∧ (∀ b ∈ as, ∀ x ∈ b.serverInputs, x = call) ∧
      lefts tr = evs ∧ Ended n m i spec vs p a := by
  have hlt := (List.getElem?_eq_some_iff.mp hi).1
  induction prog generalizing n evs with
  | done b =>
    obtain ⟨heq, rfl, rfl⟩ := Prog.run_done.mp hrun
    cases heq
    refine ⟨[], n, [], rfl, by simp, rfl, rfl, by rw [Function.update_eq_self], ?_⟩
    have hget : n.clients.tasks[i] = ⟨spec, .finished a⟩ := (List.getElem?_eq_some_iff.mp hi).2
    rw [← hget, List.set_getElem_self]
  | call o k ih =>
    obtain ⟨⟨vs₁, p₁⟩, rep, pre, rest, hreply, hk, rfl⟩ := Prog.run_call.mp hrun
    -- the rest of the program, from the state that this call leaves
    have hrest : ∀ pending : List (ℕ × ℕ), pending.lookup i = none → ∃ as m tr,
        (fleet site D).exec ⟨vs₁, ⟨Function.update n.clients.shared i p₁,
          n.clients.tasks.set i ⟨spec, settled (k rep)⟩⟩, pending⟩ as = some (m, tr) ∧
        (∀ b ∈ as, ∀ x ∈ b.serverInputs, x = call) ∧ lefts tr = rest ∧ Ended n m i spec vs p a := by
      intro pending hpending
      obtain ⟨as, m, tr, hexec, hinputs, hlefts, hserver, hown, htasks⟩ := ih rep
        (n := ⟨vs₁, ⟨Function.update n.clients.shared i p₁,
          n.clients.tasks.set i ⟨spec, settled (k rep)⟩⟩, pending⟩)
        (List.getElem?_set_self hlt) hpending
        (by simpa only [Function.update_self] using hk) (by simpa only [List.length_set] using hlt)
      refine ⟨as, m, tr, hexec, hinputs, hlefts, hserver, ?_, ?_⟩
      · simpa only [Function.update_idem] using hown
      · simpa only [List.set_set] using htasks
    cases hreq : o.request site with
    | none =>
      obtain ⟨out, hr, rfl, rfl⟩ := (solo_reply_none hreq).mp hreply
      have hclaim : (serviceClients site).claim n.clients (.poll i inp) = none := by
        simp only [serviceClients, handed, pendingCall, hi, settled, Option.bind_some,
          ServiceOp.answer, hreq, Option.isSome_none, Bool.false_eq_true, ↓reduceIte]
      have hstep : (fleet site D).step n (.client (.poll i inp)) = some (_, _) :=
        step_client hclaim (services_poll hi hr)
      obtain ⟨as, m, tr, hexec, hinputs, hlefts, hended⟩ :=
        hrest _ (lookup_filter_moves (C := serviceClients site) (b := .poll i inp)
          (beq_self_eq_true i) n.pending)
      refine ⟨.client (.poll i inp) :: as, m, _, Machine.exec_cons.mpr ⟨_, _, _, hstep, hexec, rfl⟩, ?_,
        ?_, hended⟩
      · intro b hb x hx
        rcases List.mem_cons.mp hb with rfl | hb
        · cases hx
        · exact hinputs b hb x hx
      · rw [lefts_append, lefts_map_inr, hlefts]
    | some r =>
      obtain ⟨sh, b, vevs, out, hvault, hr, rfl, rfl⟩ := (solo_reply_some hreq).mp hreply
      have hwants : (serviceClients site).wants n.clients i = some r := by
        simp only [serviceClients, awaits, pendingCall, hi, settled, Option.bind_some, hreq]
      obtain ⟨as₁, tr₁, hask, hinputs₁, hlefts₁⟩ := net_ask (C := serviceClients site) inp hwants
        hfree hvault (services_poll hi hr)
      obtain ⟨as₂, m, tr₂, hexec, hinputs₂, hlefts₂, hended⟩ := hrest _ (lookup_filter_moves
        (C := serviceClients site) ((serviceClients site).moves_deliver i inp _) n.pending)
      refine ⟨as₁ ++ as₂, m, tr₁ ++ tr₂, Machine.exec_append.mpr ⟨_, _, _, hask, hexec, rfl⟩, ?_, ?_,
        hended⟩
      · intro b hb x hx
        rcases List.mem_append.mp hb with hb | hb
        · exact hinputs₁ b hb x hx
        · exact hinputs₂ b hb x hx
      · rw [lefts_append, hlefts₁, hlefts₂]

end ServiceAlone

section Alone

variable {call : Input} {i : ℕ} {inp : ServiceInput} {α β : Type} {vs : VaultSystem}
  {sp : ServiceProcess}

variable (D site call i inp) in
/-- Alone with the vault, a program comes to its answer. `Post` speaks about the end and the number of
certificates that the vault was asked to sign. -/
def Leads (Post : VaultSystem → ServiceProcess → α → ℕ → Prop) (p : Service α) (vs : VaultSystem)
    (sp : ServiceProcess) : Prop :=
  ∃ vs' sp' a evs, Prog.run (soloEnv D site call) i inp (vs, sp) p = some ((vs', sp'), a, evs) ∧
    Event.restarted ∉ evs ∧ Post vs' sp' a (issueCalls evs)

variable {Post : VaultSystem → ServiceProcess → α → ℕ → Prop}

lemma leads_done {a : α} (h : Post vs sp a 0) : Leads D site call i inp Post (.done a) vs sp :=
  ⟨vs, sp, a, [], rfl, by simp, h⟩

lemma Leads.bind {Post' : VaultSystem → ServiceProcess → β → ℕ → Prop} {p : Service α}
    {f : α → Service β} (hp : Leads D site call i inp Post p vs sp)
    (hf : ∀ vs sp a k, Post vs sp a k →
      Leads D site call i inp (fun vs sp b m => Post' vs sp b (k + m)) (f a) vs sp) :
    Leads D site call i inp Post' (p >>= f) vs sp := by
  obtain ⟨vs₁, sp₁, a, evs₁, hrun₁, hlife₁, hpost⟩ := hp
  obtain ⟨vs₂, sp₂, b, evs₂, hrun₂, hlife₂, hpost'⟩ := hf vs₁ sp₁ a _ hpost
  refine ⟨vs₂, sp₂, b, evs₁ ++ evs₂, Prog.run_bind.mpr ⟨_, a, evs₁, evs₂, hrun₁, hrun₂, rfl⟩, ?_, ?_⟩
  · simp [hlife₁, hlife₂]
  · rwa [issueCalls, List.countP_append]

/-- The rule for a call that sends no request. -/
lemma leads_quiet {o : ServiceOp} {k : serviceSig.Reply o → Service α} {sp' : ServiceProcess}
    {rep : serviceSig.Reply o} {out : List ServiceEvent} (hreq : o.request site = none)
    (hr : sp.reply site o inp = some (sp', rep, out))
    (hk : Leads D site call i inp Post (k rep) vs sp') :
    Leads D site call i inp Post (.call o k) vs sp := by
  obtain ⟨vs₁, sp₁, a, evs, hrun, hlife, hpost⟩ := hk
  exact ⟨vs₁, sp₁, a, evs, Prog.run_call.mpr ⟨(vs, sp'), rep, [], evs,
    (solo_reply_none hreq).mpr ⟨out, hr, rfl, rfl⟩, hrun, rfl⟩, hlife, hpost⟩

/-- The rule for a call that the vault answers. -/
lemma leads_ask {o : ServiceOp} {k : serviceSig.Reply o → Service α} {sp' : ServiceProcess}
    {rep : serviceSig.Reply o} {out : List ServiceEvent} {r : Request} {sh : Process} {b : Response}
    {vevs : List VaultEvent} (hreq : o.request site = some r)
    (hvault : Prog.run (vaultEnv D) vs.tasks.length call vs.shared (handle D r) = some (sh, b, vevs))
    (hr : sp.reply site o { inp with answer := some (vs.tasks.length, r, b) } = some (sp', rep, out))
    (hk : Leads D site call i inp
      (fun vs' sp a m => Post vs' sp a (vevs.countP (fun e => isIssueCall (.did vs.tasks.length e)) + m))
      (k rep) ⟨sh, vs.tasks ++ [⟨r, .finished b⟩]⟩ sp') :
    Leads D site call i inp Post (.call o k) vs sp := by
  obtain ⟨vs₁, sp₁, a, evs, hrun, hlife, hpost⟩ := hk
  refine ⟨vs₁, sp₁, a, _, Prog.run_call.mpr ⟨(_, sp'), rep, _, evs,
    (solo_reply_some hreq).mpr ⟨sh, b, vevs, out, hvault, hr, rfl, rfl⟩, hrun, rfl⟩, ?_, ?_⟩
  · simp [hlife]
  · have hcount : issueCalls (Event.arrived vs.tasks.length r ::
        (vevs.map (.did vs.tasks.length) ++ [.responded vs.tasks.length b]) ++ evs) =
        vevs.countP (fun e => isIssueCall (.did vs.tasks.length e)) + issueCalls evs := by
      simp only [issueCalls, List.cons_append, List.countP_cons, List.countP_append, List.countP_map,
        List.countP_nil, isIssueCall, Function.comp_def]
      simp
    rwa [hcount]

section Clients

variable {part : Part} {o : ClientOp} {k : clientSig.Reply o → Client α}

variable (D site call i inp part) in
abbrev ClientLeads (Post : VaultSystem → ServiceProcess → α → ℕ → Prop) (p : Client α) :
    VaultSystem → ServiceProcess → Prop :=
  Leads D site call i inp Post (p.interp (Service.onBehalf part))

/-- The service after a call of a client. -/
def ServiceProcess.afterCall (sp : ServiceProcess) (part : Part) (o : ClientOp)
    (answer : Option VaultAnswer) : ServiceProcess :=
  { sp with
    clients := Function.update sp.clients part (o.write (sp.clients part))
    response := o.leaves answer sp.response }

lemma reply_client {inp : ServiceInput} {answer : Option VaultAnswer} (sp : ServiceProcess)
    (part : Part) (o : ClientOp)
    (hanswer : (ServiceOp.client part o).answer site inp = answer) : ∃ out,
      sp.reply site (.client part o) inp = some (sp.afterCall part o answer,
        (sp.clientInput site answer inp).answer o, out) := by
  subst hanswer
  exact ⟨_, rfl⟩

lemma clientLeads_quiet (hreq : o.request site.vaultUrl = none)
    (hk : ClientLeads D site call i inp part Post (k ((sp.clientInput site none inp).answer o)) vs
      (sp.afterCall part o none)) :
    ClientLeads D site call i inp part Post (.call o k) vs sp := by
  have hanswer : (ServiceOp.client part o).answer site inp = none := by
    have hnone : (ServiceOp.client part o).request site = none := hreq
    rw [ServiceOp.answer, hnone]
    rfl
  obtain ⟨out, hr⟩ := reply_client sp part o hanswer
  exact leads_quiet hreq hr hk

lemma clientLeads_ask {r : Request} {sh : Process} {b : Response} {vevs : List VaultEvent}
    (hreq : o.request site.vaultUrl = some r)
    (hvault : Prog.run (vaultEnv D) vs.tasks.length call vs.shared (handle D r) = some (sh, b, vevs))
    (hk : ClientLeads D site call i inp part
      (fun vs' sp a m => Post vs' sp a (vevs.countP (fun e => isIssueCall (.did vs.tasks.length e)) + m))
      (k ((sp.clientInput site (some (vs.tasks.length, r, b)) inp).answer o))
      ⟨sh, vs.tasks ++ [⟨r, .finished b⟩]⟩
      (sp.afterCall part o (some (vs.tasks.length, r, b)))) :
    ClientLeads D site call i inp part Post (.call o k) vs sp := by
  have hanswer : (ServiceOp.client part o).answer site
      { inp with answer := some (vs.tasks.length, r, b) } = some (vs.tasks.length, r, b) := by
    have hsome : (ServiceOp.client part o).request site = some r := hreq
    rw [ServiceOp.answer, hsome]
    rfl
  obtain ⟨out, hr⟩ := reply_client sp part o hanswer
  exact leads_ask hreq hvault hr hk

lemma clientLeads_bind {Post' : VaultSystem → ServiceProcess → β → ℕ → Prop} {p : Client α}
    {f : α → Client β} (hp : ClientLeads D site call i inp part Post p vs sp)
    (hf : ∀ vs sp a k, Post vs sp a k →
      ClientLeads D site call i inp part (fun vs sp b m => Post' vs sp b (k + m)) (f a) vs sp) :
    ClientLeads D site call i inp part Post' (p >>= f) vs sp := by
  rw [ClientLeads, Prog.interp_bind]
  exact Leads.bind hp hf

end Clients

/-- The outside world is kind to a service: its machine is admitted, its digest is the vault's, and
what the CA signs for it makes a TLS configuration. -/
structure Cooperates (D : Deployment) (site : Site) (spec : ServiceSpec)
    (machineId : Except AppError String) (issueNow : ℤ) (leafKey : Option KeyPair) (utcNow : ℤ) :
    Prop where
  digest : site.sha256 = D.sha256
  machine : D.allowlist.contains (machineIdOrUnknown machineId) = true
  signs : ∀ serial, ∃ c rotating, D.issuer.issue D.rcgen spec.serviceName serial issueNow leafKey
    utcNow = .ok c ∧ Service.create site spec.isGateway c.bundle = .ok rotating

section Programs

variable {κ : ℕ} {random : Nonce} {issueNow utcNow : ℤ} {leafKey : Option KeyPair} {part : Part}
  {spec : ServiceSpec}

lemma fetchNonce_leads (missing : String) (hvs : Idle κ vs.shared) (hinp : inp.complete = true) :
    ClientLeads D site (steady κ random issueNow leafKey utcNow) i inp part
      (fun vs' sp' a m => m = 0 ∧ a = .ok (Hex.encode random.1) ∧ Idle κ vs'.shared ∧
        vs'.shared.appState.nonceStore.lookup random.1 = some κ ∧ sp'.clients = sp.clients ∧
        sp'.cells = sp.cells)
      (fetchNonceWith missing site.vaultUrl) vs sp := by
  unfold fetchNonceWith
  refine clientLeads_ask (request_nonce site.vaultUrl) (nonce_run hvs) ?_
  set x : VaultAnswer := (vs.tasks.length, .getNonce, .json (nonceBody random.1)) with hx
  have hbody : ((sp.afterCall part (.get (site.vaultUrl ++ "/vault/nonce")) (some x)).clientInput site
      none inp).body = .ok (nonceBody random.1) := by
    simp only [ServiceProcess.clientInput, ServiceProcess.read, ServiceProcess.afterCall,
      ClientOp.leaves, Option.bind_some, hx, value_nonce, hinp, ↓reduceIte]
  refine clientLeads_quiet rfl ?_
  simp only [ClientInput.answer, hbody]
  have hnonce : ((nonceBody random.1).index "nonce").asStr = some (Hex.encode random.1) := rfl
  simp only [Prog.bind, hnonce]
  refine leads_done ⟨rfl, rfl, hvs.afterNonce random.1, ?_, ?_, rfl⟩
  · exact NonceStore.lookup_register_self _ _ _ _
  · simp [ServiceProcess.afterCall, ClientOp.write]

/-- What a client that the vault serves ends with. -/
def Supplied (site : Site) (κ : ℕ) (spec : ServiceSpec) (part : Part)
    (state : ServiceState) (sp : ServiceProcess) (vs' : VaultSystem) (sp' : ServiceProcess)
    (a : Except AppError CertBundle) (m : ℕ) : Prop :=
  m = 1 ∧ Idle κ vs'.shared ∧ sp'.cells = sp.cells ∧ ∃ bundle rotating, a = .ok bundle ∧
    Service.create site spec.isGateway bundle = .ok rotating ∧
    sp'.clients = Function.update sp.clients part ⟨state, some bundle⟩

lemma Cooperates.verifies {machineId : Except AppError String}
    (h : Cooperates D site spec machineId issueNow leafKey utcNow) {req : UnsealRequest}
    (hmachine : req.machineId = machineIdOrUnknown machineId) (hnonce : req.nonce = Hex.encode random.1)
    (hquote : req.tpmQuote = (quoteHex (generateQuote site.sha256 random.1)).1) :
    verifyRequest D req = .ok random.1 ∧ verifyQuote D req random.1 = .ok () := by
  have hne : random.1 ≠ [] := by
    intro hnil
    have hlen := random.2
    rw [hnil] at hlen
    cases hlen
  have hhonest : HonestRequest D random.1 req :=
    ⟨hmachine ▸ h.machine, hnonce, .inr (by rw [hquote, h.digest]; rfl)⟩
  exact hhonest.passes hne

/-- The request of a client is granted, and the client reads the bundle. -/
lemma post_leads {Post : VaultSystem → ServiceProcess → α → ℕ → Prop} {url : String}
    {req : UnsealRequest} {k : Except String ℕ → Client α} {c : Issued}
    (handler : UnsealRequest → Request)
    (hrequest : (ClientOp.post url req).request site.vaultUrl = some (handler req))
    (hatt : (handler req).attested = some req) (hvs : Idle κ vs.shared)
    (hnonce : vs.shared.appState.nonceStore.lookup random.1 = some κ)
    (hverify : verifyRequest D req = .ok random.1 ∧ verifyQuote D req random.1 = .ok ())
    (hissue : D.issuer.issue D.rcgen req.serviceName vs.shared.serialCounter issueNow leafKey utcNow =
      .ok c)
    (hk : ∀ vs' sp', Idle κ vs'.shared → sp'.clients = sp.clients → sp'.cells = sp.cells →
      (inp.complete = true →
        (sp'.clientInput site none inp).response = .ok ⟨c.bundle⟩) →
      ClientLeads D site (steady κ random issueNow leafKey utcNow) i inp part
        (fun vs sp a m => Post vs sp a (1 + m)) (k (.ok 200)) vs' sp') :
    ClientLeads D site (steady κ random issueNow leafKey utcNow) i inp part Post
      (.call (.post url req) k) vs sp := by
  obtain ⟨sh, vevs, hrun, hidle, hcount⟩ :=
    grant_run (D := D) (v := vs.tasks.length) random hvs hatt hverify.1 hverify.2 hnonce hissue
  refine clientLeads_ask hrequest hrun ?_
  rw [hcount]
  refine hk _ _ hidle ?_ rfl ?_
  · simp [ServiceProcess.afterCall, ClientOp.write]
  · intro hcomplete
    simp only [ServiceProcess.clientInput, ServiceProcess.read, ServiceProcess.afterCall,
      ClientOp.leaves, Option.bind_some, bundle_unsealed, hcomplete, ↓reduceIte]

theorem unseal_leads (h : Cooperates D site spec inp.machineId issueNow leafKey utcNow)
    (hvs : Idle κ vs.shared) (hinp : inp.complete = true) :
    ClientLeads D site (steady κ random issueNow leafKey utcNow) i inp .identity
      (Supplied site κ spec .identity .serving sp)
      (ServiceIdentity.unseal site.hexError spec.serviceName site.vaultUrl) vs sp := by
  unfold ServiceIdentity.unseal
  refine clientLeads_quiet rfl (clientLeads_quiet rfl ?_)
  simp only [Prog.bind]
  refine clientLeads_bind (fetchNonce_leads _ hvs hinp) ?_
  rintro vs₁ sp₁ _ m ⟨rfl, rfl, hvs₁, hnonce, hclients, hcells⟩
  simp only [Hex.decode_encode]
  refine clientLeads_quiet rfl ?_
  obtain ⟨c, rotating, hissue, hcreate⟩ := h.signs vs₁.shared.serialCounter
  refine post_leads .postUnseal (request_unseal _ _) rfl hvs₁ hnonce
    (h.verifies rfl rfl rfl) hissue ?_
  intro vs₂ sp₂ hvs₂ hclients₂ hcells₂ hread
  have hsuccess : isSuccess 200 = true := rfl
  simp only [Prog.bind, hsuccess, Bool.not_true, Bool.false_eq_true, ↓reduceIte]
  refine clientLeads_quiet rfl ?_
  simp only [ClientInput.answer, hread hinp]
  refine clientLeads_quiet rfl (clientLeads_quiet rfl ?_)
  refine leads_done ⟨rfl, hvs₂, ?_, c.bundle, rotating, rfl, hcreate, ?_⟩
  · exact (hcells₂.trans hcells)
  · simp [ServiceProcess.afterCall, ClientOp.write, hclients₂, hclients]

theorem renew_leads (h : Cooperates D site spec inp.machineId issueNow leafKey utcNow)
    (hvs : Idle κ vs.shared) (hinp : inp.complete = true) :
    ClientLeads D site (steady κ random issueNow leafKey utcNow) i inp .vaultClient
      (Supplied site κ spec .vaultClient (sp.clients .vaultClient).state sp)
      (HttpVaultClient.renew site.hexError spec.serviceName site.vaultUrl) vs sp := by
  unfold HttpVaultClient.renew
  refine clientLeads_bind (fetchNonce_leads _ hvs hinp) ?_
  rintro vs₁ sp₁ _ m ⟨rfl, rfl, hvs₁, hnonce, hclients, hcells⟩
  simp only [Hex.decode_encode]
  refine clientLeads_quiet rfl (clientLeads_quiet rfl ?_)
  obtain ⟨c, rotating, hissue, hcreate⟩ := h.signs vs₁.shared.serialCounter
  refine post_leads .postRenew (request_renew _ _) rfl hvs₁ hnonce
    (h.verifies rfl rfl rfl) hissue ?_
  intro vs₂ sp₂ hvs₂ hclients₂ hcells₂ hread
  have hsuccess : isSuccess 200 = true := rfl
  simp only [Prog.bind, hsuccess, Bool.not_true, Bool.false_eq_true, ↓reduceIte]
  refine clientLeads_quiet rfl ?_
  simp only [ClientInput.answer, hread hinp]
  refine clientLeads_quiet rfl ?_
  refine leads_done ⟨rfl, hvs₂, ?_, c.bundle, rotating, rfl, hcreate, ?_⟩
  · exact (hcells₂.trans hcells)
  · simp [ServiceProcess.afterCall, ClientOp.write, hclients₂, hclients]

/-- The rotation task of a service that serves: its cells belong to the bundle that its vault client
holds, and nobody reads them. -/
structure Rotating (site : Site) (κ : ℕ) (spec : ServiceSpec) (vs : VaultSystem) (sp : ServiceProcess)
    (bundle : CertBundle) (cells : TlsCells) : Prop where
  idle : Idle κ vs.shared
  serving : (sp.clients .identity).state = .serving
  held : (sp.clients .vaultClient).bundle = some bundle
  installed : sp.cells = some cells
  unread : cells.innerReaders = 0 ∧ cells.serialReaders = 0
  serial : cells.serial = bundle.serial
  config : buildConfig site.rustls spec.isGateway bundle = .ok cells.inner

variable (D site call i inp) in
abbrev RotationLeads (Post : VaultSystem → ServiceProcess → α → ℕ → Prop) (p : TlsTask α) :
    VaultSystem → ServiceProcess → Prop :=
  Leads D site call i inp Post (p.interp (Service.rotationCall site))

lemma tls_leads {Post : VaultSystem → ServiceProcess → α → ℕ → Prop} {o : TlsOp}
    {k : tlsSig.Reply o → Service α} {cells cells' : TlsCells} {rep : tlsSig.Reply o}
    {out : List TlsEvent} (hcells : sp.cells = some cells)
    (hr : cells.reply o ⟨.error (.vaultUnreachable inp.error), inp.now⟩ = some (cells', rep, out))
    (hk : Leads D site call i inp Post (k rep) vs { sp with cells := some cells' }) :
    Leads D site call i inp Post (Prog.perform (S := serviceSig) (.tls o) >>= k) vs sp := by
  have hreply : sp.reply site (.tls o) inp =
      some ({ sp with cells := some cells' }, rep, out.map .tls) := by
    simp only [ServiceProcess.reply, hcells, hr, Option.map_some]
  exact leads_quiet rfl hreply hk

lemma rotationLeads_call {Post : VaultSystem → ServiceProcess → α → ℕ → Prop} {o : TlsOp}
    {k : tlsSig.Reply o → TlsTask α} {cells cells' : TlsCells} {rep : tlsSig.Reply o}
    {out : List TlsEvent} (hrenew : ∀ name, o ≠ .renew name) (hcells : sp.cells = some cells)
    (hr : cells.reply o ⟨.error (.vaultUnreachable inp.error), inp.now⟩ = some (cells', rep, out))
    (hk : RotationLeads D site call i inp Post (k rep) vs { sp with cells := some cells' }) :
    RotationLeads D site call i inp Post (.call o k) vs sp := by
  have hcall : Service.rotationCall site o = Prog.perform (S := serviceSig) (.tls o) := by
    cases o with
    | renew name => exact absurd rfl (hrenew name)
    | _ => rfl
  rw [RotationLeads, Prog.interp, hcall]
  exact tls_leads hcells hr hk

lemma rotationLeads_bind {Post : VaultSystem → ServiceProcess → α → ℕ → Prop}
    {Post' : VaultSystem → ServiceProcess → β → ℕ → Prop} {p : TlsTask α} {f : α → TlsTask β}
    (hp : RotationLeads D site call i inp Post p vs sp)
    (hf : ∀ vs sp a k, Post vs sp a k →
      RotationLeads D site call i inp (fun vs sp b m => Post' vs sp b (k + m)) (f a) vs sp) :
    RotationLeads D site call i inp Post' (p >>= f) vs sp := by
  rw [RotationLeads, Prog.interp_bind]
  exact Leads.bind hp hf

/-- The first attempt at a renewal succeeds. -/
lemma retryLoop_leads (maxAttempts remaining attempt delay : ℕ)
    (h : Cooperates D site spec inp.machineId issueNow leafKey utcNow) (hvs : Idle κ vs.shared)
    (hinp : inp.complete = true) :
    RotationLeads D site (steady κ random issueNow leafKey utcNow) i inp
      (Supplied site κ spec .vaultClient (sp.clients .vaultClient).state sp)
      (RotationTask.retryLoop spec.serviceName maxAttempts (remaining + 1) attempt delay) vs sp := by
  refine Leads.bind (renew_leads h hvs hinp) ?_
  rintro vs₁ sp₁ _ m ⟨rfl, hvs₁, hcells, bundle, rotating, rfl, hcreate, hclients⟩
  exact leads_done ⟨rfl, hvs₁, hcells, bundle, rotating, rfl, hcreate, hclients⟩

variable {bundle : CertBundle} {cells : TlsCells}

lemma rotationRound_leads (h : Cooperates D site spec inp.machineId issueNow leafKey utcNow)
    (hinp : inp.complete = true) (hs : Rotating site κ spec vs sp bundle cells) (ttl : ℕ) :
    RotationLeads D site (steady κ random issueNow leafKey utcNow) i inp
      (fun vs' sp' _ m => m = 1 ∧ ∃ bundle' cells', Rotating site κ spec vs' sp' bundle' cells')
      (RotationTask.rotationRound site.rustls spec.isGateway spec.serviceName ttl) vs sp := by
  obtain ⟨hvs, hserving, hheld, hcells, ⟨hinner, hserialReaders⟩, hserial, hconfig⟩ := hs
  unfold RotationTask.rotationRound
  refine rotationLeads_call (by simp) hcells rfl (rotationLeads_call (by simp) rfl rfl ?_)
  refine rotationLeads_bind (p := RotationTask.retryRenew spec.serviceName 3)
    (retryLoop_leads 3 2 1 (seconds 2) h hvs hinp) ?_
  rintro vs₁ sp₁ _ m ⟨rfl, hvs₁, hcells₁, bundle₁, rotating, rfl, hcreate, hclients⟩
  obtain ⟨hflag, hbuild⟩ := create_ok hcreate
  refine rotationLeads_call (by simp) hcells₁ rfl ?_
  simp only [Prog.bind, hbuild]
  have hwriteInner : cells.reply (.writeInner bundle₁ rotating.inner)
      ⟨.error (.vaultUnreachable inp.error), inp.now⟩ = some ({ cells with inner := rotating.inner }, (),
        [.innerSet bundle₁ rotating.inner]) := by
    simp only [TlsCells.reply, hinner, ↓reduceIte]
  have hwriteSerial : ({ cells with inner := rotating.inner } : TlsCells).reply
      (.writeSerial bundle₁.serial) ⟨.error (.vaultUnreachable inp.error), inp.now⟩ =
      some ({ cells with inner := rotating.inner, serial := bundle₁.serial }, (),
        [.serialSet bundle₁.serial]) := by
    simp only [TlsCells.reply, hserialReaders, ↓reduceIte]
  refine rotationLeads_call (by simp) rfl hwriteInner ?_
  refine rotationLeads_call (by simp) rfl hwriteSerial ?_
  refine leads_done ⟨rfl, bundle₁, { cells with inner := rotating.inner, serial := bundle₁.serial },
    hvs₁, ?_, ?_, rfl, ⟨hinner, hserialReaders⟩, rfl, hbuild⟩
  · simpa [hclients] using hserving
  · simp [hclients]

lemma rotationLoop_leads (h : Cooperates D site spec inp.machineId issueNow leafKey utcNow)
    (hinp : inp.complete = true) (hs : Rotating site κ spec vs sp bundle cells) (rounds ttl : ℕ) :
    RotationLeads D site (steady κ random issueNow leafKey utcNow) i inp
      (fun vs' sp' _ m => m = rounds ∧ ∃ bundle' cells', Rotating site κ spec vs' sp' bundle' cells')
      (RotationTask.rotationLoop site.rustls spec.isGateway spec.serviceName rounds ttl) vs sp := by
  induction rounds generalizing ttl vs sp bundle cells with
  | zero => exact leads_done ⟨rfl, bundle, cells, hs⟩
  | succ rounds ih =>
    refine rotationLeads_bind (rotationRound_leads h hinp hs ttl) ?_
    rintro vs₁ sp₁ ttl₁ m ⟨rfl, bundle₁, cells₁, hs₁⟩
    obtain ⟨vs₂, sp₂, a, evs, hrun, hlife, hm, hend⟩ := ih hs₁ ttl₁
    exact ⟨vs₂, sp₂, a, evs, hrun, hlife, by omega, hend⟩

lemma create_serial {isGateway : Bool} {rotating : RotatingTlsConfig}
    (h : Service.create site isGateway bundle = .ok rotating) :
    rotating.cells.serial = bundle.serial := by
  cases isGateway with
  | true => exact ((newGateway_ok h).2 0 0).serial
  | false => exact ((new_ok h).2 0 0).serial

variable (i random) in
/-- Alone with the vault, a new service boots and renews its certificate in each of its rounds. -/
theorem main_leads (h : Cooperates D site spec inp.machineId issueNow leafKey utcNow)
    (hinp : inp.complete = true) (hvs : Idle κ vs.shared) :
    Leads D site (steady κ random issueNow leafKey utcNow) i inp
      (fun vs' sp' a m => m = 1 + spec.rounds ∧ a = .ok () ∧
        ∃ bundle cells, Rotating site κ spec vs' sp' bundle cells)
      (Service.main site spec) vs .new := by
  unfold Service.main
  refine Leads.bind (unseal_leads h hvs hinp) ?_
  rintro vs₁ sp₁ _ m ⟨rfl, hvs₁, -, bundle, rotating, rfl, hcreate, hclients⟩
  obtain ⟨hflag, hbuild⟩ := create_ok hcreate
  simp only [hcreate]
  refine leads_quiet rfl rfl (tls_leads rfl rfl ?_)
  have hrotating : Rotating site κ spec vs₁
      ⟨Function.update sp₁.clients .vaultClient ⟨.locked, some bundle⟩, some rotating.cells,
        sp₁.response⟩ bundle rotating.cells := by
    refine ⟨hvs₁, ?_, by simp, rfl, ⟨rfl, rfl⟩, create_serial hcreate, hbuild⟩
    simp [hclients]
  rw [hflag]
  refine Leads.bind (rotationLoop_leads h hinp hrotating spec.rounds _) ?_
  rintro vs₂ sp₂ _ m ⟨rfl, hend⟩
  exact leads_done ⟨rfl, rfl, hend⟩

end Programs

end Alone

section Boot

variable {file : List LogPiece} {clock : ℕ} {as : List FleetAction} {n : FleetState} {tr : FleetTrace}
  {spec : ServiceSpec} {inp : ServiceInput} {issueNow utcNow : ℤ} {leafKey : Option KeyPair}

/-- Nothing is left in the place of the service that arrives next. -/
structure Vacant (n : FleetState) : Prop where
  own : n.clients.shared n.clients.tasks.length = .new
  unasked : n.pending.lookup n.clients.tasks.length = none

lemma fleet_vacant (h : (fleet site D).exec (fleetStart file clock) as = some (n, tr)) : Vacant n where
  own := ((fleet_tracked h).2 _ (Nat.le_refl _)).2
  unasked := by
    rw [List.lookup_eq_none_iff]
    intro p hp
    obtain ⟨t, -, hwants⟩ := (net_faithful h).asked p hp
    rw [bne_iff_ne]
    rintro heq
    have hnone : n.clients.tasks[p.1]? = none := List.getElem?_eq_none_iff.mpr (Nat.le_of_eq heq)
    simp only [serviceClients, awaits, pendingCall, hnone, Option.bind_none] at hwants
    cases hwants

/-- What has become of the fleet when a new service has booted and finished its rounds. -/
structure Booted (site : Site) (spec : ServiceSpec) (n m : FleetState) : Prop where
  tasks : m.clients.tasks = n.clients.tasks ++ [⟨spec, .finished (.ok ())⟩]
  others : ∀ j, j ≠ n.clients.tasks.length → m.clients.shared j = n.clients.shared j
  rotating : ∃ bundle cells, Rotating site m.server.shared.clock spec m.server
    (m.clients.shared n.clients.tasks.length) bundle cells

/-- While nobody holds the mutex of the log, a new service can boot. -/
theorem idle_boots (hn : Vacant n) (hidle : n.server.shared.logLock = none) (random : Nonce)
    (h : Cooperates D site spec inp.machineId issueNow leafKey utcNow) (hinp : inp.complete = true) :
    ∃ as m tr, (fleet site D).exec n as = some (m, tr) ∧ Booted site spec n m ∧
      (∀ b ∈ as, ∀ x ∈ b.serverInputs,
        x = steady n.server.shared.clock random issueNow leafKey utcNow) ∧
      Event.restarted ∉ lefts tr ∧ issueCalls (lefts tr) = 1 + spec.rounds := by
  set i := n.clients.tasks.length with hi
  set arrived : FleetState := { n with
    clients := ⟨n.clients.shared, n.clients.tasks ++ [⟨spec, .running (Service.main site spec)⟩]⟩
    pending := n.pending.filter fun _ => !false } with harrived
  have hservice : (services site).step n.clients (.arrive spec) =
      some (arrived.clients, [.arrived i spec]) := rfl
  have harrive : (fleet site D).step n (.client (.arrive spec)) =
      some (arrived, [.inr (.arrived i spec)]) :=
    step_client (C := serviceClients site) rfl hservice
  have hlast : arrived.clients.tasks[i]? = some ⟨spec, settled (Service.main site spec)⟩ :=
    List.getElem?_concat_length
  have hfree : arrived.pending.lookup i = none := by
    simpa [harrived] using hn.unasked
  obtain ⟨vs, sp, a, evs, hrun, hlife, hcount, rfl, bundle, cells, hrotating⟩ :=
    main_leads i random h hinp ⟨hidle, rfl⟩
  rw [← hn.own] at hrun
  obtain ⟨as, m, tr, hexec, hinputs, hlefts, hserver, hown, htasks⟩ :=
    exec_solo (n := arrived) hlast hfree hrun
  refine ⟨.client (.arrive spec) :: as, m, _,
    Machine.exec_cons.mpr ⟨arrived, _, tr, harrive, hexec, rfl⟩, ⟨?_, ?_, ?_⟩, ?_, ?_, ?_⟩
  · rw [htasks, harrived, List.set_append_right _ _ (Nat.le_refl _), Nat.sub_self, List.set_cons_zero]
  · intro j hj
    rw [hown, Function.update_of_ne hj]
  · refine ⟨bundle, cells, ?_⟩
    have hclock : m.server.shared.clock = n.server.shared.clock := by
      rw [hserver]
      exact hrotating.idle.clock
    rw [hclock, hown, Function.update_self, hserver]
    exact hrotating
  · intro b hb x hx
    rcases List.mem_cons.mp hb with rfl | hb
    · cases hx
    · exact hinputs b hb x hx
  · rw [lefts_append, hlefts]
    exact hlife
  · rw [lefts_append, hlefts]
    exact hcount

end Boot

section Sample

def sampleSite : Site where
  time := sampleFormat
  rustls := sampleRustls
  sha256 bytes := bytes
  hexError s := "invalid nonce " ++ s
  vaultUrl := "http://localhost:8003"

def sampleService (name : String) (rounds : ℕ) : ServiceSpec := ⟨name, false, rounds⟩

def sampleCall : ServiceInput := ⟨.ok "machine-1", none, "error sending request", true, 0⟩

/-- What the sample vault signs makes a configuration. -/
lemma sample_create (name : String) (rounds : ℕ) (expiresAt : ℤ) (serial : String) :
    Service.create sampleSite (sampleService name rounds).isGateway
        ⟨"LEAF", "LEAF KEY", "CA", expiresAt, serial⟩ =
      .ok ⟨⟨[[76], [69], [65], [70]], [76], some [[67], [65]]⟩, serial, false⟩ := by
  have hchain : parseCertChain sampleRustls "LEAF" = .ok [[76], [69], [65], [70]] := rfl
  have hkey : parsePrivateKey sampleRustls "LEAF KEY" = .ok [76] := rfl
  have hroots : buildRootStore sampleRustls "CA" = .ok [[67], [65]] := rfl
  simp only [Service.create, sampleService, sampleSite, RotatingTlsConfig.new, serverConfig, hchain,
    hkey, hroots]
  rfl

lemma sample_cooperates (name : String) (rounds : ℕ) :
    Cooperates sampleDeployment sampleSite (sampleService name rounds) sampleCall.machineId 0
      (some ⟨"LEAF KEY"⟩) 0 where
  digest := rfl
  machine := rfl
  signs _ := ⟨_, _, rfl, sample_create name rounds _ _⟩

/-- The run in which the first service boots. -/
lemma sample_boots (name : String) (rounds : ℕ) :
    ∃ as n tr, (fleet sampleSite sampleDeployment).exec (fleetStart [] 0) as = some (n, tr) ∧ ∃ b,
      n.clients.tasks[0]? = some ⟨sampleService name rounds, .finished (.ok ())⟩ ∧
      ((n.clients.shared 0).clients .vaultClient).bundle = some b ∧
      Event.restarted ∉ lefts tr ∧ issueCalls (lefts tr) = 1 + rounds ∧
      n.server.shared.logLock = none ∧ n.clients.tasks.length = 1 ∧
      ∀ b ∈ as, ∀ x ∈ b.serverInputs, x.fileOk = true := by
  obtain ⟨as, n, tr, h, ⟨htasks, -, b, cells, hrotating⟩, hinputs, hlife, hcount⟩ :=
    idle_boots (n := fleetStart [] 0) ⟨rfl, rfl⟩ rfl sampleNonce (sample_cooperates name rounds) rfl
  refine ⟨as, n, tr, h, b, by rw [htasks]; rfl, hrotating.held, hlife, hcount, hrotating.idle.lock,
    by rw [htasks]; rfl, ?_⟩
  intro a ha x hx
  rw [hinputs a ha x hx]
  rfl

end Sample

end SecureNet
