import SecureNet.FleetProgress

/-!
# Agreement of the services and their vault

Whatever the network loses and whoever else talks to the vault: a bundle that a service holds or
whose certificate it presents was granted to a request of its own, under its own name and for a nonce
that the vault had handed to it. No two services ever get certificates with the same serial.
-/

namespace SecureNet

open Hex (Bytes)
open EventMachine KeyedStore Tasks

variable {D : Deployment} {site : Site} {file : List LogPiece} {clock : ℕ} {as : List FleetAction}
  {n : FleetState} {tr : FleetTrace}

/-- The vault has granted the bundle in its task `v` to a request of service `i`, which named itself
and paid with the nonce that the vault's task `w` had handed to the same service. -/
def GrantedTo (spec : ServiceSpec) (tr : FleetTrace) (i v : ℕ) (b : CertBundle) : Prop :=
  ∃ r req w nonce t u c, r.attested = some req ∧ req.serviceName = spec.serviceName ∧
    req.nonce = Hex.encode nonce ∧ c.bundle = b ∧
    .did i (.answered (w, .getNonce, .json (nonceBody nonce))) ∈ rights tr ∧
    .did i (.answered (v, r, .unsealed ⟨b⟩)) ∈ rights tr ∧
    .arrived v r ∈ lefts tr ∧ .did w (.registered nonce t) ∈ lefts tr ∧
    .did v (.consumed nonce u true) ∈ lefts tr ∧
    .did v (.issueCalled spec.serviceName (.ok c)) ∈ lefts tr

lemma verified_ok {req : UnsealRequest} {pre : List VaultEvent} (hv : Verified D req pre (.ok ())) :
    ∃ nonce t, verifyRequest D req = .ok nonce ∧ pre = [.consumed nonce t true] := by
  generalize hres : Except.ok () = v at hv
  cases hv with
  | early e hreq => cases hres
  | stale nonce t hreq => cases hres
  | fresh nonce t hreq => exact ⟨nonce, t, hreq, rfl⟩

/-- What a service takes was granted to it. -/
lemma took_granted (h : (fleet site D).exec (fleetStart file clock) as = some (n, tr)) {i : ℕ}
    {t : Task serviceSig ServiceSpec (Except String Unit)} (hi : n.clients.tasks[i]? = some t)
    {v : ℕ} {b : CertBundle} (hb : .took v b ∈ history i (rights tr)) :
    GrantedTo t.request tr i v b := by
  have hs := fleet_sound h hi
  obtain ⟨r, a, hanswered, hbundle⟩ := hs.taken v b hb
  obtain ⟨l, m, hsplit, harr, ho⟩ := fleet_outcome h (mem_history.mp hanswered)
  obtain rfl := ho.read_bundle hbundle
  have hvault : ∀ {e : VaultEvent}, e ∈ history v l → .did v e ∈ lefts tr := by
    intro e he
    rw [hsplit]
    exact List.mem_append_left _ (mem_history.mp he)
  generalize hhist : history v l = H at ho hvault
  generalize hresp : Response.unsealed ⟨b⟩ = a at ho
  cases ho with
  | granted _ req c pre log entry hr hv he hl =>
    cases hresp
    obtain ⟨hname, x, body, hx, hvalue, hnonce⟩ := hs.requests v r _ hanswered req hr
    obtain ⟨w, r', a'⟩ := x
    obtain ⟨l', m', hsplit', harr', ho'⟩ := fleet_outcome h (mem_history.mp hx)
    obtain ⟨nonce, u, rfl, hregistered, rfl, hencode⟩ := ho'.read_nonce hvalue hnonce
    obtain ⟨nonce', u', hreq, rfl⟩ := verified_ok hv
    obtain rfl : nonce' = nonce := by
      have hdecode := (verifyRequest_ok_iff.mp hreq).2.2
      rw [hencode, Hex.decode_encode] at hdecode
      exact (Option.some.inj hdecode).symm
    refine ⟨r, req, w, nonce', u, u', c, hr, hname, hencode, rfl, mem_history.mp hx,
      mem_history.mp hanswered, ?_, ?_, hvault (by simp), ?_⟩
    · rw [hsplit]
      exact List.mem_append_left _ harr
    · rw [hsplit']
      exact List.mem_append_left _ (mem_history.mp (by rw [hregistered]; simp))
    · rw [← hname]
      exact hvault (by simp)
  | _ => cases hresp

/-- A bundle that a service holds, or whose certificate it presents. -/
def Uses (s : ServiceProcess) (h : List ServiceEvent) (b : CertBundle) : Prop :=
  (∃ part, (s.clients part).bundle = some b) ∨ presentedBundle h = some b

lemma uses_granted (h : (fleet site D).exec (fleetStart file clock) as = some (n, tr)) {i : ℕ}
    {t : Task serviceSig ServiceSpec (Except String Unit)} (hi : n.clients.tasks[i]? = some t)
    {b : CertBundle} (hb : Uses (n.clients.shared i) (history i (rights tr)) b) :
    ∃ v, GrantedTo t.request tr i v b := by
  have hs := fleet_sound h hi
  have htook : Took (history i (rights tr)) b := by
    rcases hb with ⟨part, hpart⟩ | hpresented
    · exact hs.held part b hpart
    · exact hs.installed b hpresented
  obtain ⟨v, hv⟩ := htook
  exact ⟨v, took_granted h hi hv⟩

/-- What a service uses was granted to the service itself, and its TLS configuration is built from
what it presents. -/
theorem fleet_agreement (h : (fleet site D).exec (fleetStart file clock) as = some (n, tr)) {i : ℕ}
    {t : Task serviceSig ServiceSpec (Except String Unit)} (hi : n.clients.tasks[i]? = some t) :
    (∀ b, Uses (n.clients.shared i) (history i (rights tr)) b → ∃ v, GrantedTo t.request tr i v b) ∧
    ∀ cells, (n.clients.shared i).cells = some cells →
      ∃ b, presentedBundle (history i (rights tr)) = some b ∧
        buildConfig site.rustls t.request.isGateway b = .ok cells.inner :=
  ⟨fun _ hb => uses_granted h hi hb, (fleet_sound h hi).presented⟩

/-- A service that boots alone gets what it presents from a task of the vault. -/
theorem fleet_agreement_boot :
    ∃ as n tr v b, (fleet sampleSite sampleDeployment).exec (fleetStart [] 0) as = some (n, tr) ∧
      ((n.clients.shared 0).clients .vaultClient).bundle = some b ∧
      GrantedTo (sampleService "order-service" 1) tr 0 v b := by
  obtain ⟨as, n, tr, h, b, hi, hheld, -⟩ := sample_boots "order-service" 1
  obtain ⟨v, hv⟩ := (fleet_agreement h hi).1 b (.inl ⟨.vaultClient, hheld⟩)
  exact ⟨as, n, tr, v, b, h, hheld, hv⟩

/-- Within one process of the vault a serial tells the service and the bundle. -/
theorem fleet_serials_exclusive (h : (fleet site D).exec (fleetStart file clock) as = some (n, tr))
    (hlife : Event.restarted ∉ lefts tr) (hcount : issueCalls (lefts tr) < 2 ^ 64) {i j : ℕ}
    {t u : Task serviceSig ServiceSpec (Except String Unit)} (hi : n.clients.tasks[i]? = some t)
    (hj : n.clients.tasks[j]? = some u) {b b' : CertBundle}
    (hb : Uses (n.clients.shared i) (history i (rights tr)) b)
    (hb' : Uses (n.clients.shared j) (history j (rights tr)) b') (hserial : b.serial = b'.serial) :
    i = j ∧ b = b' := by
  obtain ⟨v, r, req, w, nonce, t₀, u₀, c, -, -, -, hc, -, hanswer, -, -, -, hissue⟩ :=
    uses_granted h hi hb
  obtain ⟨v', r', req', w', nonce', t₁, u₁, c', -, -, -, hc', -, hanswer', -, -, -, hissue'⟩ :=
    uses_granted h hj hb'
  obtain ⟨bs, hrun⟩ := fleet_vault h
  have hsame : c.bundle.serial = c'.bundle.serial := by rw [hc, hc', hserial]
  obtain rfl : v = v' := issuer_unique hrun hlife hcount hissue hissue' hsame
  refine ⟨answered_once h hanswer hanswer', ?_⟩
  have htask := (net_faithful h).answered _ (mem_answers hanswer)
  have htask' := (net_faithful h).answered _ (mem_answers hanswer')
  rw [htask] at htask'
  cases htask'
  rfl

/-- Two services that boot one after the other. -/
theorem fleet_serials_exclusive_boots :
    ∃ as n tr b b', (fleet sampleSite sampleDeployment).exec (fleetStart [] 0) as = some (n, tr) ∧
      Uses (n.clients.shared 0) (history 0 (rights tr)) b ∧
      Uses (n.clients.shared 1) (history 1 (rights tr)) b' ∧ b.serial ≠ b'.serial := by
  obtain ⟨as, n, tr, h, b, hi, hheld, hlife, hcount, hlock, hlength, -⟩ := sample_boots "order-service" 0
  obtain ⟨bs, m, tr', hboot, ⟨htasks, hothers, b', cells, hrotating⟩, -, hlife', hcount'⟩ :=
    idle_boots (fleet_vacant h) hlock sampleNonce (sample_cooperates "user-service" 1) rfl
  rw [hlength] at hothers hrotating
  have hrun := Machine.exec_append.mpr ⟨_, _, _, h, hboot, rfl⟩
  have hi' : m.clients.tasks[0]? = some ⟨sampleService "order-service" 0, .finished (.ok ())⟩ := by
    rw [htasks, List.getElem?_append_left (by rw [hlength]; decide), hi]
  have hj' : m.clients.tasks[1]? = some ⟨sampleService "user-service" 1, .finished (.ok ())⟩ := by
    rw [htasks, ← hlength, List.getElem?_concat_length]
  have hb : Uses (m.clients.shared 0) (history 0 (rights (tr ++ tr'))) b := by
    rw [hothers 0 (by decide)]
    exact .inl ⟨.vaultClient, hheld⟩
  refine ⟨as ++ bs, m, tr ++ tr', b, b', hrun, hb, .inl ⟨.vaultClient, hrotating.held⟩, ?_⟩
  intro hserial
  have hcalls : issueCalls (lefts (tr ++ tr')) = 1 + 2 := by
    rw [lefts_append, issueCalls, List.countP_append]
    exact congrArg₂ (· + ·) hcount hcount'
  have hexclusive := fleet_serials_exclusive hrun (by simp [hlife, hlife']) (by rw [hcalls]; decide)
    hi' hj' hb (.inl ⟨.vaultClient, hrotating.held⟩) hserial
  exact absurd hexclusive.1 (by decide)

/-- If no file operation fails and a `write_all` that returns has appended its line, every certificate
in use has its entry in the log, under the name of the service that uses it. -/
theorem fleet_audited (h : (fleet site D).exec (fleetStart file clock) as = some (n, tr))
    (hlife : Event.restarted ∉ lefts tr) (hcount : issueCalls (lefts tr) < 2 ^ 64)
    (hfiles : (fleet site D).Meets (OnServer (Within FilesWork)) (fleetStart file clock) as) {i : ℕ}
    {t : Task serviceSig ServiceSpec (Except String Unit)} (hi : n.clients.tasks[i]? = some t)
    {b : CertBundle} (hb : Uses (n.clients.shared i) (history i (rights tr)) b) :
    (appended (lefts tr)).countP (isGrantOf b.serial) = 1 ∧
      ∃ entry, LogPiece.line entry ∈ n.server.shared.file ∧ entry.granted = true ∧
        entry.certSerial = b.serial ∧ entry.expiresAt = b.expiresAt ∧
        entry.serviceName = t.request.serviceName := by
  obtain ⟨v, r, req, w, nonce, t₀, u₀, c, hatt, hname, -, -, -, hanswer, harr, -⟩ :=
    uses_granted h hi hb
  obtain ⟨bs, hrun, hmeets⟩ := net_server (fun _ _ => trivial) h hfiles
  obtain ⟨l, m, hsplit, -, -⟩ := fleet_outcome h hanswer
  have hresponse := hrun
  rw [hsplit] at hresponse
  obtain ⟨r', req', entry, harr', hatt', hline, timestamp, rfl⟩ := response_logged hresponse hmeets
  obtain rfl : r = r' :=
    arrived_unique hrun harr (by rw [hsplit]; exact List.mem_append_left _ harr')
  rw [hatt] at hatt'
  cases hatt'
  have hmem : LogPiece.line (grantEntry timestamp req.serviceName req.machineId b.serial b.expiresAt) ∈
      appended (lefts tr) :=
    mem_appended.mpr ⟨v, by rw [hsplit]; exact List.mem_append_left _ hline⟩
  constructor
  · apply Nat.le_antisymm (grant_count_le hrun hlife hcount b.serial)
    exact List.countP_pos_iff.mpr ⟨_, hmem, isGrantOf_iff.mpr ⟨_, rfl, rfl, rfl⟩⟩
  · refine ⟨grantEntry timestamp req.serviceName req.machineId b.serial b.expiresAt, ?_, rfl, rfl, rfl,
      hname⟩
    rw [file_eq_appended hrun]
    exact List.mem_append_right _ hmem

theorem fleet_audited_boot :
    ∃ as n tr b, (fleet sampleSite sampleDeployment).exec (fleetStart [] 0) as = some (n, tr) ∧
      Uses (n.clients.shared 0) (history 0 (rights tr)) b ∧
      (appended (lefts tr)).countP (isGrantOf b.serial) = 1 := by
  obtain ⟨as, n, tr, h, b, hi, hheld, hlife, hcount, -, -, hinputs⟩ := sample_boots "order-service" 1
  have hfiles : (fleet sampleSite sampleDeployment).Meets (OnServer (Within FilesWork))
      (fleetStart [] 0) as :=
    onServer_of_inputs FilesWork (fun _ _ _ _ hinp _ => hinp) _ hinputs
  exact ⟨as, n, tr, b, h, .inl ⟨.vaultClient, hheld⟩,
    (fleet_audited h hlife (by rw [hcount]; decide) hfiles hi (.inl ⟨.vaultClient, hheld⟩)).1⟩

end SecureNet
