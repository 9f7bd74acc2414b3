import SecureNet.RotationTask
import SecureNet.VaultClient

/-!
# The client's copy of the bundle

The rotation task with an `HttpVaultClient` as its vault. The client stores a bundle as soon as the
vault has sent it, and the task builds the configuration afterwards.
-/

namespace SecureNet

open Tasks Tasks.Prog

/-- What the world answers to one `renew` of an `HttpVaultClient`, and how long that takes. -/
structure HttpCall where
  latency : ℕ
  input : ClientInput

/-- The rotation task alone with the client that it calls. -/
structure HttpRotation where
  rotation : LoneRotation
  client : ServiceIdentity

section Environment

variable (hexError : String → String) (serviceName vaultUrl : String) (env : ℕ → ℕ → HttpCall)

/-- What the calls return. It does not depend on what the client holds. -/
def renewals (n attempt : ℕ) : RenewCall :=
  ⟨(env n attempt).latency, (Client.finish (env n attempt).input .new
    (HttpVaultClient.renew hexError serviceName vaultUrl)).2.1⟩

def HttpRotation.reply (s : HttpRotation) : (o : TlsOp) → HttpRotation × tlsSig.Reply o
  | .renew name =>
    let call := env (s.rotation.round - 1) s.rotation.attempt
    let (client, result, _) :=
      Client.finish call.input s.client (HttpVaultClient.renew hexError name vaultUrl)
    (⟨{ s.rotation with
        attempt := s.rotation.attempt + 1
        now := s.rotation.now + call.latency }, client⟩, result)
  | o =>
    let (rotation, r) := s.rotation.reply (renewals hexError serviceName vaultUrl env) o
    ({ s with rotation := rotation }, r)

def httpEnv : Environment tlsSig HttpRotation Unit TlsEvent where
  reply s _ o _ :=
    some ((s.reply hexError serviceName vaultUrl env o).1,
      (s.reply hexError serviceName vaultUrl env o).2, [])
  cancel _ _ _ _ := none
  restart s _ := s

end Environment

/-- `HttpVaultClient::new` with the boot bundle, and `spawn_rotation_task` at time `now`. -/
def RotatingTlsConfig.spawnWithClient (self : RotatingTlsConfig) (boot : CertBundle) (now : ℤ) :
    HttpRotation :=
  ⟨⟨0, 1, now, self.inner, self.serial⟩, { ServiceIdentity.new with bundle := some boot }⟩

/-- The bundle that a round receives. -/
def received (calls : ℕ → RenewCall) : Option CertBundle := (retryRenew calls 3).1.toOption

/-- The last bundle that a round before `n` received, the boot bundle at first. -/
def lastReceived (env : ℕ → ℕ → RenewCall) (boot : CertBundle) : ℕ → CertBundle
  | 0 => boot
  | n + 1 => (received (env n)).getD (lastReceived env boot n)

section Renew

variable {hexError : String → String} {serviceName vaultUrl : String} {env : ℕ → ℕ → HttpCall}

/-- `renew` stores the bundle that it returns and nothing else. Neither its answer nor what it
stores depends on the names it is called with. -/
lemma renew_finish (hexError : String → String) (inp : ClientInput) :
    ∃ result : Except AppError CertBundle, ∀ s name url, ∃ evs,
      Client.finish inp s (HttpVaultClient.renew hexError name url) =
        ({ s with bundle := result.toOption.or s.bundle }, result, evs) := by
  obtain ⟨machineId, sent, body, quote, posted, text, response⟩ := inp
  cases sent with
  | error e => exact ⟨.error (.vaultUnreachable e), fun s name url => ⟨_, rfl⟩⟩
  | ok u =>
    cases body with
    | error e => exact ⟨.error (.vaultUnreachable e), fun s name url => ⟨_, rfl⟩⟩
    | ok body =>
      unfold HttpVaultClient.renew HttpVaultClient.fetchNonce fetchNonceWith
      simp only [Prog.perform, finish_bind, Client.finish, ClientInput.answer]
      cases hnonce : (body.index "nonce").asStr with
      | none => exact ⟨.error _, fun s name url => ⟨_, rfl⟩⟩
      | some nonce =>
        simp only [pure, Client.finish]
        cases hdec : Hex.decode nonce with
        | none => exact ⟨.error _, fun s name url => ⟨_, rfl⟩⟩
        | some bytes =>
          cases posted with
          | error e => exact ⟨.error (.vaultUnreachable e), fun s name url => ⟨_, rfl⟩⟩
          | ok status =>
            simp only [finish_bind, Client.finish, ClientInput.answer]
            by_cases hstatus : isSuccess status = true
            · simp only [hstatus, Bool.not_true, Bool.false_eq_true, ↓reduceIte]
              cases response with
              | error e => exact ⟨.error (.vaultUnreachable e), fun s name url => ⟨_, rfl⟩⟩
              | ok resp => exact ⟨.ok resp.bundle, fun s name url => ⟨_, rfl⟩⟩
            · simp only [hstatus, Bool.not_false, ↓reduceIte]
              exact ⟨.error (.vaultRejected (text.getD "")), fun s name url => ⟨_, rfl⟩⟩

lemma reply_renew (s : HttpRotation) (name : String) :
    s.reply hexError serviceName vaultUrl env (.renew name) =
      (let call := renewals hexError serviceName vaultUrl env (s.rotation.round - 1)
        s.rotation.attempt
      (⟨{ s.rotation with
          attempt := s.rotation.attempt + 1
          now := s.rotation.now + call.latency },
        { s.client with bundle := call.result.toOption.or s.client.bundle }⟩, call.result)) := by
  obtain ⟨result, hfinish⟩ := renew_finish hexError
    (env (s.rotation.round - 1) s.rotation.attempt).input
  obtain ⟨evs, hcall⟩ := hfinish s.client name vaultUrl
  obtain ⟨evs', hnew⟩ := hfinish .new serviceName vaultUrl
  simp only [HttpRotation.reply, renewals, hcall, hnew]

variable (hexError serviceName vaultUrl env) in
/-- Apart from the client, a call does what it does with the results alone. -/
lemma reply_rotation (s : HttpRotation) (o : TlsOp) :
    (s.reply hexError serviceName vaultUrl env o).1.rotation =
        (s.rotation.reply (renewals hexError serviceName vaultUrl env) o).1 ∧
      (s.reply hexError serviceName vaultUrl env o).2 =
        (s.rotation.reply (renewals hexError serviceName vaultUrl env) o).2 := by
  cases o with
  | renew name =>
    rw [reply_renew]
    exact ⟨rfl, rfl⟩
  | _ => exact ⟨rfl, rfl⟩

lemma run_http {α : Type} {p : TlsTask α} {s : HttpRotation} {t : LoneRotation} {a : α}
    {evs : List TlsEvent}
    (h : Prog.run (loneEnv (renewals hexError serviceName vaultUrl env)) 0 () s.rotation p =
      some (t, a, evs)) :
    ∃ client, Prog.run (httpEnv hexError serviceName vaultUrl env) 0 () s p =
      some (⟨t, client⟩, a, evs) := by
  have hreply : ∀ r s o t a evs, s.rotation = r →
      (loneEnv (renewals hexError serviceName vaultUrl env)).reply r 0 o () = some (t, a, evs) →
      ∃ t', (httpEnv hexError serviceName vaultUrl env).reply s 0 o () = some (t', a, evs) ∧
        t'.rotation = t := by
    rintro r s o t a evs rfl hr
    obtain ⟨hstate, hanswer⟩ := reply_rotation hexError serviceName vaultUrl env s o
    cases hr
    refine ⟨_, ?_, hstate⟩
    simp only [httpEnv, hanswer]
  obtain ⟨⟨t', client⟩, hrun, rfl⟩ := Prog.run_related hreply rfl h
  exact ⟨client, hrun⟩

/-- `retry_renew` leaves in the client what it returns. -/
lemma client_retryLoop {maxAttempts remaining attempt delay : ℕ} {s t : HttpRotation}
    {result : Except AppError CertBundle} {evs : List TlsEvent}
    (h : Prog.run (httpEnv hexError serviceName vaultUrl env) 0 () s
      (RotationTask.retryLoop serviceName maxAttempts remaining attempt delay) =
        some (t, result, evs)) :
    t.client.bundle = result.toOption.or s.client.bundle := by
  induction remaining generalizing attempt delay s evs with
  | zero =>
    obtain ⟨rfl, rfl, -⟩ := run_done.mp h
    rfl
  | succ remaining ih =>
    obtain ⟨u, r, pre, rest, hr, hrest, -⟩ := run_call.mp h
    simp only [httpEnv, reply_renew] at hr
    cases hcall : (renewals hexError serviceName vaultUrl env (s.rotation.round - 1)
        s.rotation.attempt).result with
    | ok bundle =>
      rw [hcall] at hr
      cases hr
      obtain ⟨rfl, rfl, -⟩ := run_done.mp hrest
      rfl
    | error e =>
      rw [hcall] at hr
      cases hr
      by_cases hlt : attempt < maxAttempts
      · simp only [hlt, ↓reduceIte] at hrest
        obtain ⟨v, r, pre', rest', hsleep, hlast, -⟩ := run_call.mp hrest
        cases hsleep
        have hclient := ih hlast
        exact hclient
      · simp only [hlt, ↓reduceIte] at hrest
        have hclient := ih hrest
        exact hclient

lemma client_retryRenew {s t : HttpRotation} {result : Except AppError CertBundle}
    {evs : List TlsEvent} (hs : s.rotation.attempt = 1)
    (h : Prog.run (httpEnv hexError serviceName vaultUrl env) 0 () s
      (RotationTask.retryRenew serviceName 3) = some (t, result, evs)) :
    result = (retryRenew (renewals hexError serviceName vaultUrl env (s.rotation.round - 1)) 3).1 ∧
      t.client.bundle = result.toOption.or s.client.bundle := by
  refine ⟨?_, client_retryLoop h⟩
  obtain ⟨next, hlone⟩ := run_retryLoop serviceName (renewals hexError serviceName vaultUrl env)
    3 3 1 (seconds 2) s.rotation hs
  obtain ⟨client, hhttp⟩ := run_http hlone
  have hsame := Option.some.inj (hhttp.symm.trans h)
  exact (congrArg (fun done => done.2.1) hsame).symm

variable (T : Rustls) (isGateway : Bool)

/-- A round leaves in the client the bundle that it received, whether or not it builds. -/
lemma client_rotationRound {ttl ttl' : ℕ} {s t : HttpRotation} {evs : List TlsEvent}
    (h : Prog.run (httpEnv hexError serviceName vaultUrl env) 0 () s
      (RotationTask.rotationRound T isGateway serviceName ttl) = some (t, ttl', evs)) :
    t.client.bundle =
      (received (renewals hexError serviceName vaultUrl env s.rotation.round)).or
        s.client.bundle := by
  obtain ⟨s₁, _, _, _, hlog, hwake, -⟩ := run_call.mp h
  obtain ⟨s₂, _, _, _, hsleep, hretry, -⟩ := run_call.mp hwake
  obtain ⟨s₃, result, _, _, hresult, hbuild, -⟩ :=
    (Prog.run_bind (p := RotationTask.retryRenew serviceName 3)).mp hretry
  cases hlog
  cases hsleep
  obtain ⟨hvalue, hclient⟩ := client_retryRenew rfl hresult
  have hround : s₃.client.bundle =
      (received (renewals hexError serviceName vaultUrl env s.rotation.round)).or
        s.client.bundle := by
    rw [hclient, hvalue]
    rfl
  rw [← hround]
  cases result with
  | error e =>
    obtain ⟨rfl, -, -⟩ := run_done.mp hbuild
    rfl
  | ok bundle =>
    obtain ⟨s₄, _, _, _, httl, hswap, -⟩ := run_call.mp hbuild
    cases httl
    simp only [Prog.bind] at hswap
    cases hconfig : buildConfig T isGateway bundle with
    | error e =>
      rw [hconfig] at hswap
      obtain ⟨rfl, -, -⟩ := run_done.mp hswap
      rfl
    | ok config =>
      rw [hconfig] at hswap
      obtain ⟨s₅, _, _, _, hinner, hserial, -⟩ := run_call.mp hswap
      obtain ⟨s₆, _, _, _, hset, hlast, -⟩ := run_call.mp hserial
      cases hinner
      cases hset
      obtain ⟨rfl, -, -⟩ := run_done.mp hlast
      rfl

lemma round_succ {ttl ttl' : ℕ} {s t : HttpRotation} {evs : List TlsEvent}
    (h : Prog.run (httpEnv hexError serviceName vaultUrl env) 0 () s
      (RotationTask.rotationRound T isGateway serviceName ttl) = some (t, ttl', evs)) :
    t.rotation.round = s.rotation.round + 1 := by
  obtain ⟨next, hlone⟩ := run_rotationRound T isGateway serviceName
    (renewals hexError serviceName vaultUrl env) ttl s.rotation
  obtain ⟨client, hhttp⟩ := run_http hlone
  have hsame := Option.some.inj (hhttp.symm.trans h)
  exact (congrArg (fun done => done.1.rotation.round) hsame).symm

end Renew

section Heads

variable {T : Rustls} {isGateway : Bool} {calls : ℕ → RenewCall} {env : ℕ → ℕ → RenewCall}
  {boot : CertBundle} {s₀ : RotationState}

lemma installed_eq_filter : installed T isGateway calls =
    (received calls).filter (fun bundle => (buildConfig T isGateway bundle).isOk) := by
  unfold installed received
  cases (retryRenew calls 3).1 with
  | error e => rfl
  | ok bundle => rfl

lemma lastReceived_succ (env : ℕ → ℕ → RenewCall) (boot : CertBundle) (n : ℕ) :
    lastReceived env boot (n + 1) =
      lastReceived (fun k => env (k + 1)) ((received (env 0)).getD boot) n := by
  induction n with
  | zero => rfl
  | succ n ih => rw [lastReceived, ih, lastReceived]

/-- The bundle received last is the one installed if it builds. -/
lemma lastReceived_eq_iff (hboot : Boots T isGateway boot s₀) (n : ℕ) :
    lastReceived env boot n = lastBuilt T isGateway env boot n ↔
      (buildConfig T isGateway (lastReceived env boot n)).isOk = true := by
  constructor
  · intro heq
    rw [heq, (rotationLoop_invariant hboot env n).1]
    rfl
  · intro hok
    induction n with
    | zero => rfl
    | succ n ih =>
      rw [lastReceived] at hok ⊢
      rw [lastBuilt, installed_eq_filter]
      cases hreceived : received (env n) with
      | none =>
        rw [hreceived] at hok
        exact ih hok
      | some bundle =>
        rw [hreceived, Option.getD_some] at hok
        rw [Option.filter_some, if_pos hok]
        rfl

variable {hexError : String → String} {serviceName vaultUrl : String} {world : ℕ → ℕ → HttpCall}

lemma client_rotationLoop {rounds ttl : ℕ} {s t : HttpRotation} {evs : List TlsEvent}
    (hboot : s.client.bundle = some boot)
    (h : Prog.run (httpEnv hexError serviceName vaultUrl world) 0 () s
      (RotationTask.rotationLoop T isGateway serviceName rounds ttl) = some (t, (), evs)) :
    t.client.bundle = some (lastReceived
      (fun k => renewals hexError serviceName vaultUrl world (s.rotation.round + k)) boot rounds) := by
  induction rounds generalizing ttl s boot evs with
  | zero =>
    obtain ⟨rfl, -, -⟩ := run_done.mp h
    exact hboot
  | succ rounds ih =>
    obtain ⟨u, ttl', _, _, hround, hrest, -⟩ :=
      (Prog.run_bind (p := RotationTask.rotationRound T isGateway serviceName ttl)).mp h
    have hclient := client_rotationRound T isGateway hround
    rw [hboot, Option.or_some] at hclient
    rw [ih hclient hrest, round_succ T isGateway hround, lastReceived_succ]
    simp only [Nat.add_zero, Nat.add_assoc, Nat.add_comm 1]

end Heads

/-- At every head of the loop the client holds the bundle received last, and the configuration is
that of the bundle that was built last. The two are the same bundle exactly if the one received
last builds. A round that installs nothing keeps the configuration, and it keeps the client's bundle
too unless it has received another one. -/
theorem client_bundle_at_heads (T : Rustls) (hexError : String → String)
    (serviceName vaultUrl : String) (world : ℕ → ℕ → HttpCall) (boot : CertBundle)
    (rotating : RotatingTlsConfig) (now : ℤ) (ttl : ℕ)
    (hnew : RotatingTlsConfig.new T boot = .ok rotating ∨
      RotatingTlsConfig.newGateway T boot = .ok rotating) :
    ∃ heads : ℕ → HttpRotation,
      (∀ n, Prog.run (httpEnv hexError serviceName vaultUrl world) 0 ()
        (rotating.spawnWithClient boot now)
        (RotationTask.rotationLoop T rotating.isGateway serviceName n ttl) =
          some (heads n, (), [])) ∧
      ∀ n, let calls := renewals hexError serviceName vaultUrl world
        let last := lastBuilt T rotating.isGateway calls boot n
        buildConfig T rotating.isGateway last = .ok (heads n).rotation.inner ∧
        (heads n).client.bundle = some (lastReceived calls boot n) ∧
        ((heads n).client.bundle = some last ↔
          (buildConfig T rotating.isGateway (lastReceived calls boot n)).isOk = true) ∧
        (installed T rotating.isGateway (calls n) = none →
          (heads (n + 1)).rotation.inner = (heads n).rotation.inner ∧
          (heads (n + 1)).client.bundle = (received (calls n)).or (heads n).client.bundle) := by
  set calls := renewals hexError serviceName vaultUrl world
  have hboots := created_boots hnew now ttl
  have hheads : ∀ n, ∃ s, Prog.run (httpEnv hexError serviceName vaultUrl world) 0 ()
      (rotating.spawnWithClient boot now)
      (RotationTask.rotationLoop T rotating.isGateway serviceName n ttl) = some (s, (), []) ∧
      s.rotation.inner = (rotationLoop T rotating.isGateway calls
        ⟨ttl, now, rotating.inner, rotating.serial⟩ n).inner := by
    intro n
    obtain ⟨next, hlone⟩ := run_rotationLoop T rotating.isGateway serviceName calls n ttl
      (rotating.spawnWithClient boot now).rotation
    obtain ⟨client, hhttp⟩ := run_http hlone
    refine ⟨_, hhttp, ?_⟩
    simp only [RotatingTlsConfig.spawnWithClient, Nat.zero_add]
  choose heads hrun hinner using hheads
  have hclient : ∀ n, (heads n).client.bundle = some (lastReceived calls boot n) := by
    intro n
    have hlast := client_rotationLoop rfl (hrun n)
    simp only [RotatingTlsConfig.spawnWithClient, Nat.zero_add] at hlast
    exact hlast
  refine ⟨heads, hrun, ?_⟩
  intro n
  refine ⟨?_, hclient n, ?_, ?_⟩
  · rw [hinner]
    exact (rotationLoop_invariant hboots calls n).1
  · rw [hclient, Option.some.injEq]
    exact lastReceived_eq_iff hboots n
  · intro hfailed
    refine ⟨?_, ?_⟩
    · rw [hinner, hinner]
      exact (rotationLoop_failed hfailed).1
    · rw [hclient, hclient, lastReceived]
      cases received (calls n) with
      | none => rfl
      | some bundle => rfl

section Sample

/-- The vault always sends this bundle, at once. -/
def sending (bundle : CertBundle) (_round _attempt : ℕ) : HttpCall :=
  ⟨0, { machineId := .ok "machine-1", sent := .ok (), body := .ok (.object [("nonce", .string "0a0b")])
        quote := generateQuote id, posted := .ok 200, text := none, response := .ok ⟨bundle⟩ }⟩

/-- A bundle without a key. -/
def keyless : CertBundle := { sampleBundle "B" 570 with keyPem := "" }

end Sample

theorem client_bundle_at_heads_keyless :
    ∃ heads : ℕ → HttpRotation,
      (heads 1).rotation.inner = (heads 0).rotation.inner ∧
        (heads 1).client.bundle = some keyless := by
  obtain ⟨heads, -, hheads⟩ := client_bundle_at_heads sampleRustls id "user-service"
    "http://localhost:8003" (sending keyless) (sampleBundle "A" 300) sampleRotating 0 300 (.inl rfl)
  refine ⟨heads, ?_, ?_⟩
  · exact ((hheads 0).2.2.2 rfl).1
  · exact (hheads 1).2.1

/-- The vault answers with a bundle without a key. The round ends without a swap, the
configuration is still that of the boot bundle, and the client holds the new bundle. -/
theorem client_keeps_unbuilt_bundle :
    ∃ s, Prog.run (httpEnv id "user-service" "http://localhost:8003" (sending keyless)) 0 ()
        (sampleRotating.spawnWithClient (sampleBundle "A" 300) 0)
        (RotationTask.rotationLoop sampleRustls false "user-service" 1 300) = some (s, (), []) ∧
      RotatingTlsConfig.new sampleRustls (sampleBundle "A" 300) = .ok sampleRotating ∧
      s.rotation.inner = sampleRotating.inner ∧
      (sampleRotating.spawnWithClient (sampleBundle "A" 300) 0).client.bundle =
        some (sampleBundle "A" 300) ∧
      s.client.bundle = some keyless ∧
      (buildConfig sampleRustls false keyless).isOk = false := by
  refine ⟨_, rfl, rfl, rfl, rfl, rfl, rfl⟩

end SecureNet
