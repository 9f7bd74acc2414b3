import SecureNet.Fleet

/-!
# What a service does with the answers of its vault

A service asks for bundles under its own name, with nonces that it has read from answers of the
vault. What its identity and its vault client hold, and what its TLS configuration is built from, are
bundles that it has taken from answers.
-/

namespace SecureNet

open Hex (Bytes)
open EventMachine KeyedStore Tasks Tasks.Prog

/-- The bundle whose certificate a service presents from an event on. -/
def ServiceEvent.installs : ServiceEvent → Option CertBundle
  | .created bundle _ => some bundle
  | .tls (.innerSet bundle _) => some bundle
  | _ => none

/-- The bundle whose certificate a service presents. -/
def presentedBundle (h : List ServiceEvent) : Option CertBundle := lastEffect ServiceEvent.installs h

variable (site : Site) (spec : ServiceSpec)

/-- A service has read the nonce from an answer. -/
def NonceRead (h : List ServiceEvent) (nonce : String) : Prop :=
  ∃ x body, .answered x ∈ h ∧ Response.value site.time x.2.2 = some body ∧
    (body.index "nonce").asStr = some nonce

def Took (h : List ServiceEvent) (bundle : CertBundle) : Prop := ∃ v, .took v bundle ∈ h

/-- What a service asks the vault for. -/
structure Paid (h : List ServiceEvent) (req : UnsealRequest) : Prop where
  name : req.serviceName = spec.serviceName
  nonce : NonceRead site h req.nonce

/-- What a service holds and what it has asked for, next to its history. -/
structure Sound (s : ServiceProcess) (h : List ServiceEvent) : Prop where
  requests : ∀ v r a, .answered (v, r, a) ∈ h → ∀ req, r.attested = some req → Paid site spec h req
  taken : ∀ v b, .took v b ∈ h →
    ∃ r a, .answered (v, r, a) ∈ h ∧ Response.bundle site.time a = some ⟨b⟩
  response : ∀ x, s.response = some x → .answered x ∈ h
  held : ∀ part b, (s.clients part).bundle = some b → Took h b
  installed : ∀ b, presentedBundle h = some b → Took h b
  presented : ∀ cells, s.cells = some cells →
    ∃ b, presentedBundle h = some b ∧ buildConfig site.rustls spec.isGateway b = .ok cells.inner

/-- The answer that a call gets is one to its own request. -/
def Asks (o : ServiceOp) (inp : ServiceInput) : Prop :=
  ∀ x, o.answer site inp = some x → o.request site = some x.2.1

variable {site spec} {s t : ServiceProcess} {h evs : List ServiceEvent}

lemma NonceRead.append {nonce : String} (hn : NonceRead site h nonce) (evs : List ServiceEvent) :
    NonceRead site (h ++ evs) nonce := by
  obtain ⟨x, body, hx, hbody⟩ := hn
  exact ⟨x, body, List.mem_append_left _ hx, hbody⟩

lemma Took.append {b : CertBundle} (hb : Took h b) (evs : List ServiceEvent) : Took (h ++ evs) b := by
  obtain ⟨v, hv⟩ := hb
  exact ⟨v, List.mem_append_left _ hv⟩

lemma Paid.append {req : UnsealRequest} (hp : Paid site spec h req) (evs : List ServiceEvent) :
    Paid site spec (h ++ evs) req := ⟨hp.name, hp.nonce.append evs⟩

lemma sound_new : Sound site spec .new [] := by
  constructor
  · intro v r a hmem
    cases hmem
  · intro v b hmem
    cases hmem
  · intro x hx
    cases hx
  · intro part b hb
    cases hb
  · intro b hb
    cases hb
  · intro cells hcells
    cases hcells

/-- What a step of a service has to show. -/
lemma Sound.extend (hs : Sound site spec s h) {evs : List ServiceEvent}
    (hasked : ∀ v r a, .answered (v, r, a) ∈ evs → ∀ req, r.attested = some req → Paid site spec h req)
    (htaken : ∀ v b, .took v b ∈ evs →
      ∃ r a, .answered (v, r, a) ∈ h ∧ Response.bundle site.time a = some ⟨b⟩)
    (hresponse : ∀ x, t.response = some x → .answered x ∈ evs ∨ s.response = some x)
    (hheld : ∀ part b, (t.clients part).bundle = some b →
      Took (h ++ evs) b ∨ (s.clients part).bundle = some b)
    (hinstalled : ∀ b, presentedBundle evs = some b → Took h b)
    (hpresented : ∀ cells, t.cells = some cells →
      (∃ b, presentedBundle evs = some b ∧
        buildConfig site.rustls spec.isGateway b = .ok cells.inner) ∨
      (presentedBundle evs = none ∧ ∃ old, s.cells = some old ∧ old.inner = cells.inner)) :
    Sound site spec t (h ++ evs) := by
  constructor
  · intro v r a hmem req hreq
    rcases List.mem_append.mp hmem with hmem | hmem
    · exact (hs.requests v r a hmem req hreq).append evs
    · exact (hasked v r a hmem req hreq).append evs
  · intro v b hmem
    rcases List.mem_append.mp hmem with hmem | hmem
    · obtain ⟨r, a, hr, ha⟩ := hs.taken v b hmem
      exact ⟨r, a, List.mem_append_left _ hr, ha⟩
    · obtain ⟨r, a, hr, ha⟩ := htaken v b hmem
      exact ⟨r, a, List.mem_append_left _ hr, ha⟩
  · intro x hx
    rcases hresponse x hx with hmem | hold
    · exact List.mem_append_right _ hmem
    · exact List.mem_append_left _ (hs.response x hold)
  · intro part b hb
    rcases hheld part b hb with htook | hold
    · exact htook
    · exact (hs.held part b hold).append evs
  · intro b hb
    rw [presentedBundle, lastEffect_append, Option.or_eq_some_iff] at hb
    rcases hb with hnew | ⟨-, hold⟩
    · exact (hinstalled b hnew).append evs
    · exact (hs.installed b hold).append evs
  · intro cells hcells
    rw [presentedBundle, lastEffect_append]
    rcases hpresented cells hcells with ⟨b, hb, hconfig⟩ | ⟨hnone, old, hold, heq⟩
    · exact ⟨b, by rw [Option.or_eq_some_iff]; exact .inl hb, hconfig⟩
    · obtain ⟨b, hb, hconfig⟩ := hs.presented old hold
      exact ⟨b, by rw [Option.or_eq_some_iff]; exact .inr ⟨hnone, hb⟩, heq ▸ hconfig⟩

lemma presentedBundle_quiet (hevs : ∀ e ∈ evs, e.installs = none) : presentedBundle evs = none := by
  rw [presentedBundle, ← List.nil_append evs, lastEffect_append_quiet hevs]
  rfl

section ClientCalls

variable (site spec h) in
/-- What a client may ask for and write. -/
structure Permitted (o : ClientOp) : Prop where
  asked : ∀ r req, o.request site.vaultUrl = some r → r.attested = some req → Paid site spec h req
  written : ∀ b, o = .writeBundle b → Took h b

/-- What a client learns from a reply. -/
def Learned (site : Site) (h : List ServiceEvent) : (o : ClientOp) → clientSig.Reply o → Prop
  | .json, rep => ∀ body, rep = .ok body →
    ∃ x, .answered x ∈ h ∧ Response.value site.time x.2.2 = some body
  | .jsonResponse, rep => ∀ resp, rep = .ok resp → Took h resp.bundle
  | _, _ => True

lemma read_ok {α : Type} {inp : ServiceInput} {parsed : Response → Option α} {a : α}
    (hr : s.read inp parsed = .ok a) : ∃ x, s.response = some x ∧ parsed x.2.2 = some a := by
  unfold ServiceProcess.read at hr
  split at hr
  · next b hb =>
    split at hr
    · cases hr
      exact Option.bind_eq_some_iff.mp hb
    · cases hr
  · cases hr

lemma mem_takes {o : ClientOp} {response : Option VaultAnswer} {call : ClientInput}
    {e : ServiceEvent} (he : e ∈ o.takes response call) :
    ∃ x resp, response = some x ∧ call.response = .ok resp ∧ e = .took x.1 resp.bundle := by
  unfold ClientOp.takes at he
  split at he
  · split at he
    · next x resp hresp => exact ⟨x, resp, rfl, hresp, List.mem_singleton.mp he⟩
    · cases he
  · cases he

/-- The events of a call: the answer that it gets, the bundle that it takes, and those of the client
itself. -/
lemma mem_call {part : Part} {o : ClientOp} {answer response : Option VaultAnswer}
    {call : ClientInput} {e : ServiceEvent}
    (he : e ∈ (answer.map ServiceEvent.answered).toList ++ o.takes response call ++
      (o.events call).map (.client part)) :
    (∃ x, answer = some x ∧ e = .answered x) ∨
      (∃ x resp, response = some x ∧ call.response = .ok resp ∧ e = .took x.1 resp.bundle) ∨
      ∃ e', e = .client part e' := by
  rcases List.mem_append.mp he with he | he
  · rcases List.mem_append.mp he with he | he
    · rw [Option.mem_toList, Option.map_eq_some_iff] at he
      obtain ⟨x, hx, rfl⟩ := he
      exact .inl ⟨x, hx, rfl⟩
    · exact .inr (.inl (mem_takes he))
  · obtain ⟨e', -, rfl⟩ := List.mem_map.mp he
    exact .inr (.inr ⟨e', rfl⟩)

lemma call_quiet {part : Part} {o : ClientOp} {answer response : Option VaultAnswer}
    {call : ClientInput} {e : ServiceEvent}
    (he : e ∈ (answer.map ServiceEvent.answered).toList ++ o.takes response call ++
      (o.events call).map (.client part)) : e.installs = none := by
  rcases mem_call he with ⟨x, -, rfl⟩ | ⟨x, resp, -, -, rfl⟩ | ⟨e', rfl⟩ <;> rfl

lemma leaves_some {o : ClientOp} {answer response : Option VaultAnswer} {x : VaultAnswer}
    (h : o.leaves answer response = some x) : answer = some x ∨ response = some x := by
  cases o with
  | get url => exact .inl h
  | post url req => exact .inl h
  | json => cases h
  | text => cases h
  | jsonResponse => cases h
  | _ => exact .inr h

variable {part : Part} {o : ClientOp} {inp : ServiceInput} {rep : clientSig.Reply o}

lemma write_bundle {c : ServiceIdentity} {b : CertBundle} (h : (o.write c).bundle = some b) :
    o = .writeBundle b ∨ c.bundle = some b := by
  cases o with
  | writeBundle bundle =>
    cases h
    exact .inl rfl
  | _ => exact .inr h

lemma Sound.call (hs : Sound site spec s h) (hperm : Permitted site spec h o)
    (hask : Asks site (.client part o) inp)
    (hr : s.reply site (.client part o) inp = some (t, rep, evs)) :
    Sound site spec t (h ++ evs) := by
  simp only [ServiceProcess.reply, Option.some.injEq, Prod.mk.injEq] at hr
  obtain ⟨rfl, -, rfl⟩ := hr
  refine hs.extend ?_ ?_ ?_ ?_ ?_ ?_
  · intro v r a hmem req hreq
    rcases mem_call hmem with ⟨x, hx, heq⟩ | ⟨x, resp, -, -, heq⟩ | ⟨e, heq⟩ <;> cases heq
    exact hperm.asked r req (hask _ hx) hreq
  · intro v b hmem
    rcases mem_call hmem with ⟨x, -, heq⟩ | ⟨⟨v, r, a⟩, resp, hx, hresp, heq⟩ | ⟨e, heq⟩ <;> cases heq
    obtain ⟨y, hy, hbundle⟩ := read_ok hresp
    cases hx.symm.trans hy
    exact ⟨r, a, hs.response _ hx, hbundle⟩
  · intro x hx
    rcases leaves_some hx with hx | hx
    · exact .inl (by simp [hx])
    · exact .inr hx
  · intro other b hb
    by_cases hother : other = part
    · subst hother
      simp only [Function.update_self] at hb
      rcases write_bundle hb with rfl | hold
      · exact .inl ((hperm.written b rfl).append _)
      · exact .inr hold
    · simp only [Function.update_of_ne hother] at hb
      exact .inr hb
  · intro b hb
    rw [presentedBundle_quiet (fun e he => call_quiet he)] at hb
    cases hb
  · intro cells hcells
    exact .inr ⟨presentedBundle_quiet (fun e he => call_quiet he), cells, hcells, rfl⟩

lemma Sound.learned (hs : Sound site spec s h)
    (hr : s.reply site (.client part o) inp = some (t, rep, evs)) : Learned site (h ++ evs) o rep := by
  simp only [ServiceProcess.reply, Option.some.injEq, Prod.mk.injEq] at hr
  obtain ⟨-, rfl, rfl⟩ := hr
  cases o with
  | json =>
    intro body hbody
    obtain ⟨x, hx, hvalue⟩ := read_ok hbody
    exact ⟨x, List.mem_append_left _ (hs.response x hx), hvalue⟩
  | jsonResponse =>
    intro resp hresp
    obtain ⟨x, hx, -⟩ := read_ok hresp
    refine ⟨x.1, List.mem_append_right _ (List.mem_append_left _ (List.mem_append_right _ ?_))⟩
    have hcall : (s.clientInput site ((ServiceOp.client part .jsonResponse).answer site inp)
        inp).response = .ok resp := hresp
    simp only [ClientOp.takes, hx, hcall]
    exact List.mem_singleton_self _
  | _ => trivial

lemma Sound.cancel (hs : Sound site spec s h)
    (hc : s.cancel (.client part o) = some (t, evs)) : Sound site spec t (h ++ evs) := by
  obtain ⟨⟨c, evs'⟩, hcancel, heq⟩ := Option.map_eq_some_iff.mp hc
  cases heq
  have hsame : c = s.clients part := by
    cases o <;> cases hcancel <;> rfl
  have hquiet : ∀ e ∈ evs'.map (ServiceEvent.client part), e.installs = none := by
    intro e he
    obtain ⟨e', -, rfl⟩ := List.mem_map.mp he
    rfl
  refine hs.extend ?_ ?_ ?_ ?_ ?_ ?_
  · intro v r a hmem
    simp at hmem
  · intro v b hmem
    simp at hmem
  · intro x hx
    exact .inr hx
  · intro other b hb
    simp only [hsame, Function.update_eq_self] at hb
    exact .inr hb
  · intro b hb
    rw [presentedBundle_quiet hquiet] at hb
    cases hb
  · intro cells hcells
    exact .inr ⟨presentedBundle_quiet hquiet, cells, hcells, rfl⟩

variable {α β : Type} {Ψ : ServiceProcess → List ServiceEvent → α → Prop}

variable (site spec part Ψ) in
/-- A program of a client that keeps the service sound. -/
abbrev ClientKeeps (p : Client α) : ServiceProcess → List ServiceEvent → Prop :=
  Keeps (serviceEnv site) (Asks site) (Sound site spec) Ψ (p.interp (Service.onBehalf part))

/-- The rule for one call of a client. -/
lemma clientKeeps_call {k : clientSig.Reply o → Client α} (hs : Sound site spec s h)
    (hperm : Permitted site spec h o)
    (hnext : ∀ t evs rep, Sound site spec t (h ++ evs) → Learned site (h ++ evs) o rep →
      ClientKeeps site spec part Ψ (k rep) t (h ++ evs)) :
    ClientKeeps site spec part Ψ (.call o k) s h := by
  refine ⟨hs, ?_, ?_⟩
  · intro i inp t rep evs hask hr
    exact hnext t evs rep (hs.call hperm hask hr) (hs.learned hr)
  · intro i inp t evs hc
    exact hs.cancel hc

lemma clientKeeps_bind {Ψ' : ServiceProcess → List ServiceEvent → β → Prop} {p : Client α}
    {f : α → Client β} (hp : ClientKeeps site spec part Ψ p s h)
    (hf : ∀ s h a, Ψ s h a → ClientKeeps site spec part Ψ' (f a) s h) :
    ClientKeeps site spec part Ψ' (p >>= f) s h := by
  unfold ClientKeeps
  rw [Prog.interp_bind]
  exact Keeps.bind hp hf

/-- Calls that neither send a request nor write a bundle. -/
def ClientOp.isLocal : ClientOp → Bool
  | .get _ => false
  | .post _ _ => false
  | .writeBundle _ => false
  | _ => true

lemma request_local (vaultUrl : String) (ho : o.isLocal = true) : o.request vaultUrl = none := by
  cases o <;> first | rfl | cases ho

lemma permitted_local (ho : o.isLocal = true) : Permitted site spec h o := by
  constructor
  · intro r req hr
    rw [request_local _ ho] at hr
    cases hr
  · rintro b rfl
    cases ho

end ClientCalls

section Programs

variable {part : Part}

/-- What a client has in the end: a nonce that the vault gave it. -/
lemma fetchNonce_keeps (missing : String) (hs : Sound site spec s h) :
    ClientKeeps site spec part
      (fun s h a => Sound site spec s h ∧ ∀ nonce, a = .ok nonce → NonceRead site h nonce)
      (fetchNonceWith missing site.vaultUrl) s h := by
  unfold fetchNonceWith
  refine clientKeeps_call hs ?_ ?_
  · constructor
    · intro r req hr hatt
      rw [request_nonce] at hr
      cases hr
      cases hatt
    · intro b hb
      cases hb
  · intro t₁ evs₁ sent hs₁ _
    cases sent with
    | error e => exact ⟨hs₁, fun _ hn => by cases hn⟩
    | ok _ =>
      refine clientKeeps_call hs₁ (permitted_local rfl) ?_
      intro t₂ evs₂ body hs₂ hlearned
      cases body with
      | error e => exact ⟨hs₂, fun _ hn => by cases hn⟩
      | ok body =>
        obtain ⟨x, hx, hvalue⟩ := hlearned body rfl
        simp only [Prog.bind]
        cases hnonce : (body.index "nonce").asStr with
        | none => exact ⟨hs₂, fun _ hn => by cases hn⟩
        | some nonce =>
          refine ⟨hs₂, ?_⟩
          intro nonce' hn
          cases hn
          exact ⟨x, body, hx, hvalue, hnonce⟩

/-- What a client has in the end: a bundle that it took from an answer. -/
abbrev Granted (site : Site) (spec : ServiceSpec) (s : ServiceProcess) (h : List ServiceEvent)
    (a : Except AppError CertBundle) : Prop :=
  Sound site spec s h ∧ ∀ bundle, a = .ok bundle → Took h bundle

lemma granted_error {e : AppError} (hs : Sound site spec s h) : Granted site spec s h (.error e) :=
  ⟨hs, fun _ hb => by cases hb⟩

/-- A request that a client may post. -/
lemma permitted_post {url : String} {req : UnsealRequest} (handler : UnsealRequest → Request)
    (hrequest : (ClientOp.post url req).request site.vaultUrl = some (handler req))
    (hatt : ∀ r, (handler req).attested = some r → r = req) (hpaid : Paid site spec h req) :
    Permitted site spec h (.post url req) := by
  constructor
  · intro r req' hr hreq'
    rw [hrequest] at hr
    cases hr
    rw [hatt req' hreq']
    exact hpaid
  · intro b hb
    cases hb

lemma permitted_bundle {bundle : CertBundle} (hb : Took h bundle) :
    Permitted site spec h (.writeBundle bundle) := by
  constructor
  · intro r req hr
    cases hr
  · intro b heq
    cases heq
    exact hb

theorem unseal_keeps (hs : Sound site spec s h) :
    ClientKeeps site spec .identity (Granted site spec)
      (ServiceIdentity.unseal site.hexError spec.serviceName site.vaultUrl) s h := by
  unfold ServiceIdentity.unseal
  refine clientKeeps_call hs (permitted_local rfl) ?_
  intro t₁ evs₁ _ hs₁ _
  refine clientKeeps_call hs₁ (permitted_local rfl) ?_
  intro t₂ evs₂ machineId hs₂ _
  simp only [Prog.bind]
  refine clientKeeps_bind (fetchNonce_keeps _ hs₂) ?_
  intro t₃ h₃ nonce ⟨hs₃, hread⟩
  cases nonce with
  | error e => exact granted_error hs₃
  | ok nonceHex =>
    simp only
    cases Hex.decode nonceHex with
    | none => exact granted_error hs₃
    | some nonceBytes =>
      have hpaid := hread nonceHex rfl
      refine clientKeeps_call hs₃ (permitted_local rfl) ?_
      intro t₄ evs₄ quote hs₄ _
      refine clientKeeps_call hs₄ (permitted_post .postUnseal (request_unseal _ _)
        (fun r hr => (Option.some.inj hr).symm) ⟨rfl, hpaid.append evs₄⟩) ?_
      intro t₅ evs₅ posted hs₅ _
      cases posted with
      | error e => exact granted_error hs₅
      | ok status =>
        simp only [Prog.bind]
        by_cases hstatus : isSuccess status = true
        · simp only [hstatus, Bool.not_true, Bool.false_eq_true, ↓reduceIte]
          refine clientKeeps_call hs₅ (permitted_local rfl) ?_
          intro t₆ evs₆ response hs₆ hlearned
          cases response with
          | error e => exact granted_error hs₆
          | ok resp =>
            have htook := hlearned resp rfl
            refine clientKeeps_call hs₆ (permitted_bundle htook) ?_
            intro t₇ evs₇ _ hs₇ _
            refine clientKeeps_call hs₇ (permitted_local rfl) ?_
            intro t₈ evs₈ _ hs₈ _
            refine ⟨hs₈, ?_⟩
            intro bundle hb
            cases hb
            exact (htook.append evs₇).append evs₈
        · simp only [hstatus, Bool.not_false, ↓reduceIte]
          refine clientKeeps_call hs₅ (permitted_local rfl) ?_
          intro t₆ evs₆ body hs₆ _
          refine clientKeeps_call hs₆ (permitted_local rfl) ?_
          intro t₇ evs₇ _ hs₇ _
          exact granted_error hs₇

theorem renew_keeps (hs : Sound site spec s h) :
    ClientKeeps site spec .vaultClient (Granted site spec)
      (HttpVaultClient.renew site.hexError spec.serviceName site.vaultUrl) s h := by
  unfold HttpVaultClient.renew
  refine clientKeeps_bind (fetchNonce_keeps _ hs) ?_
  intro t₁ h₁ nonce ⟨hs₁, hread⟩
  cases nonce with
  | error e => exact granted_error hs₁
  | ok nonceHex =>
    simp only
    cases Hex.decode nonceHex with
    | none => exact granted_error hs₁
    | some nonceBytes =>
      have hpaid := hread nonceHex rfl
      refine clientKeeps_call hs₁ (permitted_local rfl) ?_
      intro t₂ evs₂ machineId hs₂ _
      refine clientKeeps_call hs₂ (permitted_local rfl) ?_
      intro t₃ evs₃ quote hs₃ _
      refine clientKeeps_call hs₃ (permitted_post .postRenew (request_renew _ _)
        (fun r hr => (Option.some.inj hr).symm) ⟨rfl, (hpaid.append evs₂).append evs₃⟩) ?_
      intro t₄ evs₄ posted hs₄ _
      cases posted with
      | error e => exact granted_error hs₄
      | ok status =>
        simp only [Prog.bind]
        by_cases hstatus : isSuccess status = true
        · simp only [hstatus, Bool.not_true, Bool.false_eq_true, ↓reduceIte]
          refine clientKeeps_call hs₄ (permitted_local rfl) ?_
          intro t₅ evs₅ response hs₅ hlearned
          cases response with
          | error e => exact granted_error hs₅
          | ok resp =>
            have htook := hlearned resp rfl
            refine clientKeeps_call hs₅ (permitted_bundle htook) ?_
            intro t₆ evs₆ _ hs₆ _
            refine ⟨hs₆, ?_⟩
            intro bundle hb
            cases hb
            exact htook.append evs₆
        · simp only [hstatus, Bool.not_false, ↓reduceIte]
          refine clientKeeps_call hs₄ (permitted_local rfl) ?_
          intro t₅ evs₅ body hs₅ _
          exact granted_error hs₅

end Programs

section Rotation

variable {α β : Type} {Ψ : ServiceProcess → List ServiceEvent → α → Prop} {o : TlsOp}
  {inp : ServiceInput} {rep : tlsSig.Reply o}

/-- What the rotation task may install. -/
def Installs (site : Site) (spec : ServiceSpec) (h : List ServiceEvent) (o : TlsOp) : Prop :=
  ∀ bundle config, o = .writeInner bundle config →
    Took h bundle ∧ buildConfig site.rustls spec.isGateway bundle = .ok config

/-- What a step of the rotation task does to the certificate of its service. -/
inductive Installing (c d : TlsCells) : TlsOp → List TlsEvent → Prop
  | kept (o : TlsOp) (out : List TlsEvent) (hinner : d.inner = c.inner)
      (hquiet : ∀ e ∈ out.map ServiceEvent.tls, e.installs = none) : Installing c d o out
  | installed (bundle : CertBundle) (config : ServerConfig) (hinner : d.inner = config) :
    Installing c d (.writeInner bundle config) [.innerSet bundle config]

lemma reply_installing {c d : TlsCells} {call : TlsInput} {out : List TlsEvent}
    (hr : c.reply o call = some (d, rep, out)) : Installing c d o out := by
  cases o <;> simp only [TlsCells.reply] at hr
  case writeInner bundle config =>
    split at hr
    · cases hr
      exact .installed bundle config rfl
    · cases hr
  case writeSerial serial =>
    split at hr
    · cases hr
      exact .kept _ _ rfl (by simp [ServiceEvent.installs])
    · cases hr
  all_goals
    cases hr
    exact .kept _ _ rfl (by simp [ServiceEvent.installs])

/-- What the rotation task does to a service that stays as it is but for its cells. -/
lemma Sound.cells (hs : Sound site spec s h) {c d : TlsCells} {out : List TlsEvent}
    (hcells : s.cells = some c) (ho : Installs site spec h o) (hd : Installing c d o out) :
    Sound site spec { s with cells := some d } (h ++ out.map .tls) := by
  refine hs.extend ?_ ?_ ?_ ?_ ?_ ?_
  · intro v r a hmem
    simp at hmem
  · intro v b hmem
    simp at hmem
  · intro x hx
    exact .inr hx
  · intro part b hb
    exact .inr hb
  · intro b hb
    cases hd with
    | kept o out hinner hquiet =>
      rw [presentedBundle_quiet hquiet] at hb
      cases hb
    | installed bundle config hinner =>
      cases hb
      exact (ho bundle config rfl).1
  · intro new hnew
    cases hnew
    cases hd with
    | kept o out hinner hquiet =>
      exact .inr ⟨presentedBundle_quiet hquiet, c, hcells, hinner.symm⟩
    | installed bundle config hinner =>
      exact .inl ⟨bundle, rfl, hinner ▸ (ho bundle config rfl).2⟩

lemma installs_none (ho : ∀ bundle config, o ≠ .writeInner bundle config) : Installs site spec h o :=
  fun bundle config heq => absurd heq (ho bundle config)

lemma Sound.install (hs : Sound site spec s h) (ho : Installs site spec h o)
    (hr : s.reply site (.tls o) inp = some (t, rep, evs)) : Sound site spec t (h ++ evs) := by
  simp only [ServiceProcess.reply] at hr
  split at hr
  · cases hr
  · next cells hcells =>
    obtain ⟨⟨c, rep', out⟩, hreply, heq⟩ := Option.map_eq_some_iff.mp hr
    cases heq
    exact hs.cells hcells ho (reply_installing hreply)

lemma Sound.interrupt (hs : Sound site spec s h) (hc : s.cancel (.tls o) = some (t, evs)) :
    Sound site spec t (h ++ evs) := by
  simp only [ServiceProcess.cancel] at hc
  split at hc
  · cases hc
  · next cells hcells =>
    obtain ⟨⟨c, out⟩, hcancel, heq⟩ := Option.map_eq_some_iff.mp hc
    cases heq
    have hsame : c = cells ∧ out = [] := by
      cases o <;> cases hcancel <;> exact ⟨rfl, rfl⟩
    refine hs.cells hcells (installs_none (o := .readInner) (by simp)) (.kept _ out ?_ ?_)
    · rw [hsame.1]
    · simp [hsame.2]

variable (site spec Ψ) in
/-- A program of the rotation task that keeps the service sound. -/
abbrev Rotates (p : TlsTask α) : ServiceProcess → List ServiceEvent → Prop :=
  Keeps (serviceEnv site) (Asks site) (Sound site spec) Ψ (p.interp (Service.rotationCall site))

lemma tls_keeps {k : tlsSig.Reply o → Service α} (hs : Sound site spec s h)
    (ho : Installs site spec h o)
    (hnext : ∀ t evs rep, Sound site spec t (h ++ evs) →
      Keeps (serviceEnv site) (Asks site) (Sound site spec) Ψ (k rep) t (h ++ evs)) :
    Keeps (serviceEnv site) (Asks site) (Sound site spec) Ψ
      (perform (S := serviceSig) (.tls o) >>= k) s h := by
  refine ⟨hs, ?_, ?_⟩
  · intro i inp t rep evs _ hr
    exact hnext t evs rep (hs.install ho hr)
  · intro i inp t evs hc
    exact hs.interrupt hc

lemma rotates_call {k : tlsSig.Reply o → TlsTask α} (hs : Sound site spec s h)
    (hrenew : ∀ name, o ≠ .renew name) (ho : Installs site spec h o)
    (hnext : ∀ t evs rep, Sound site spec t (h ++ evs) → Rotates site spec Ψ (k rep) t (h ++ evs)) :
    Rotates site spec Ψ (.call o k) s h := by
  have hcall : Service.rotationCall site o = perform (S := serviceSig) (.tls o) := by
    cases o with
    | renew name => exact absurd rfl (hrenew name)
    | _ => rfl
  rw [Rotates, Prog.interp, hcall]
  exact tls_keeps hs ho hnext

lemma rotates_renew {k : Except AppError CertBundle → TlsTask α} (hs : Sound site spec s h)
    (hnext : ∀ t h rep, Granted site spec t h rep → Rotates site spec Ψ (k rep) t h) :
    Rotates site spec Ψ (.call (.renew spec.serviceName) k) s h := by
  rw [Rotates, Prog.interp]
  exact Keeps.bind (renew_keeps hs) hnext

lemma rotates_bind {Ψ' : ServiceProcess → List ServiceEvent → β → Prop} {p : TlsTask α}
    {f : α → TlsTask β} (hp : Rotates site spec Ψ p s h)
    (hf : ∀ s h a, Ψ s h a → Rotates site spec Ψ' (f a) s h) : Rotates site spec Ψ' (p >>= f) s h := by
  rw [Rotates, Prog.interp_bind]
  exact Keeps.bind hp hf

lemma retryLoop_rotates (maxAttempts remaining attempt delay : ℕ) (hs : Sound site spec s h) :
    Rotates site spec (Granted site spec)
      (RotationTask.retryLoop spec.serviceName maxAttempts remaining attempt delay) s h := by
  induction remaining generalizing attempt delay s h with
  | zero => exact granted_error hs
  | succ remaining ih =>
    apply rotates_renew hs
    intro t h rep hgranted
    cases rep with
    | ok bundle => exact hgranted
    | error e =>
      by_cases hlt : attempt < maxAttempts
      · simp only [Prog.bind, hlt, ↓reduceIte]
        apply rotates_call hgranted.1 (by simp) (installs_none (by simp))
        intro t' evs _ hs'
        exact ih (attempt + 1) (delay * 2) hs'
      · simp only [Prog.bind, hlt, ↓reduceIte]
        exact ih (attempt + 1) delay hgranted.1

abbrev StaysSound (site : Site) (spec : ServiceSpec) (s : ServiceProcess) (h : List ServiceEvent)
    (_ : β) : Prop := Sound site spec s h

lemma rotationRound_rotates (ttl : ℕ) (hs : Sound site spec s h) :
    Rotates site spec (StaysSound site spec)
      (RotationTask.rotationRound site.rustls spec.isGateway spec.serviceName ttl) s h := by
  unfold RotationTask.rotationRound
  apply rotates_call hs (by simp) (installs_none (by simp))
  intro t₁ evs₁ _ hs₁
  apply rotates_call hs₁ (by simp) (installs_none (by simp))
  intro t₂ evs₂ _ hs₂
  apply rotates_bind (retryLoop_rotates 3 3 1 (seconds 2) hs₂)
  intro t₃ h₃ renewed ⟨hs₃, htook⟩
  cases renewed with
  | error e => exact hs₃
  | ok bundle =>
    have hb := htook bundle rfl
    apply rotates_call hs₃ (by simp) (installs_none (by simp))
    intro t₄ evs₄ newTtl hs₄
    simp only [Prog.bind]
    cases hconfig : buildConfig site.rustls spec.isGateway bundle with
    | error e => exact hs₄
    | ok config =>
      apply rotates_call hs₄ (by simp)
      · intro bundle' config' heq
        cases heq
        exact ⟨hb.append evs₄, hconfig⟩
      intro t₅ evs₅ _ hs₅
      apply rotates_call hs₅ (by simp) (installs_none (by simp))
      intro t₆ evs₆ _ hs₆
      exact hs₆

lemma rotationLoop_rotates (rounds ttl : ℕ) (hs : Sound site spec s h) :
    Rotates site spec (StaysSound site spec)
      (RotationTask.rotationLoop site.rustls spec.isGateway spec.serviceName rounds ttl) s h := by
  induction rounds generalizing ttl s h with
  | zero => exact hs
  | succ rounds ih =>
    apply rotates_bind (rotationRound_rotates ttl hs)
    intro t h' ttl' hs'
    exact ih ttl' hs'

lemma create_ok {isGateway : Bool} {bundle : CertBundle} {rotating : RotatingTlsConfig}
    (h : Service.create site isGateway bundle = .ok rotating) :
    rotating.isGateway = isGateway ∧ buildConfig site.rustls isGateway bundle = .ok rotating.inner := by
  cases isGateway with
  | true =>
    obtain ⟨hflag, hboots⟩ := newGateway_ok h
    exact ⟨hflag, (hboots 0 0).inner⟩
  | false =>
    obtain ⟨hflag, hboots⟩ := new_ok h
    exact ⟨hflag, (hboots 0 0).inner⟩

lemma created_sound {bundle : CertBundle} {rotating : RotatingTlsConfig} (hs : Sound site spec s h)
    (hb : Took h bundle)
    (hconfig : buildConfig site.rustls spec.isGateway bundle = .ok rotating.inner) :
    Sound site spec { s with
      clients := Function.update s.clients .vaultClient ⟨.locked, some bundle⟩
      cells := some rotating.cells } (h ++ [.created bundle rotating.inner]) := by
  refine hs.extend ?_ ?_ ?_ ?_ ?_ ?_
  · intro v r a hmem
    simp at hmem
  · intro v b hmem
    simp at hmem
  · intro x hx
    exact .inr hx
  · intro part b hpart
    cases part with
    | identity => exact .inr hpart
    | vaultClient =>
      cases hpart
      exact .inl (hb.append _)
  · intro b heq
    cases heq
    exact hb
  · intro cells hcells
    cases hcells
    exact .inl ⟨bundle, rfl, hconfig⟩

/-- A service is sound from its start on. -/
theorem main_keeps (site : Site) (spec : ServiceSpec) :
    Keeps (serviceEnv site) (Asks site) (Sound site spec) (StaysSound site spec)
      (Service.main site spec) .new [] := by
  unfold Service.main
  apply Keeps.bind (unseal_keeps sound_new)
  intro s h unsealed ⟨hs, htook⟩
  cases unsealed with
  | error e => exact hs
  | ok bundle =>
    have hb := htook bundle rfl
    simp only
    cases hcreate : Service.create site spec.isGateway bundle with
    | error e => exact hs
    | ok rotating =>
      obtain ⟨hflag, hconfig⟩ := create_ok hcreate
      refine ⟨hs, ?_, fun i inp t evs hc => by cases hc⟩
      intro i inp t rep evs _ hr
      cases hr
      apply tls_keeps (created_sound hs hb hconfig) (installs_none (by simp))
      intro t' evs' ttl hs'
      rw [hflag]
      exact Keeps.bind (rotationLoop_rotates spec.rounds ttl hs') (fun _ _ _ hlast => hlast)

end Rotation

section Fleet

variable {D : Deployment} {file : List LogPiece} {clock : ℕ} {as : List FleetAction}
  {n : FleetState} {tr : FleetTrace}

lemma polled_asked {s : Services} {a : ServiceAction} (h : Asked (serviceClients site) s a) :
    Polled (Asks site) s a := by
  cases a with
  | poll i inp =>
    have hcall : ∀ o, pendingCall s i = some o → Asks site o inp := by
      intro o ho x hx
      have hclaim : (serviceClients site).claim s (.poll i inp) = some x := by
        simp only [serviceClients, handed, ho, Option.bind_some, hx]
      obtain ⟨j, hmoves, hwants⟩ := h x hclaim
      obtain rfl : i = j := eq_of_beq hmoves
      simpa only [serviceClients, awaits, ho, Option.bind_some] using hwants
    have hmeets : CallMeets (fun _ _ o inp => Asks site o inp) s.shared inp s.tasks[i]? := by
      unfold CallMeets
      split
      · next spec o k hi => exact hcall o (by rw [pendingCall, hi])
      · trivial
    exact hmeets
  | _ => trivial

lemma fleet_tracked (h : (fleet site D).exec (fleetStart file clock) as = some (n, tr)) :
    OwnTracked (serviceEnv site) (Asks site) (Sound site) (fun spec => StaysSound site spec) .new
      n.clients (rights tr) := by
  obtain ⟨bs, hrun, hmeets⟩ := net_clients h
  have hasked : (services site).Meets (Polled (Asks site)) ⟨fun _ => .new, []⟩ bs := by
    intro as₁ a as₂ t tr has hr
    exact polled_asked (hmeets as₁ a as₂ t tr has hr)
  exact exec_own (fun _ => sound_new) (main_keeps site) (fun _ _ => rfl) hrun hasked

/-- Every service is sound, in every run of the fleet. -/
theorem fleet_sound (h : (fleet site D).exec (fleetStart file clock) as = some (n, tr)) {i : ℕ}
    {t : Task serviceSig ServiceSpec (Except String Unit)} (hi : n.clients.tasks[i]? = some t) :
    Sound site t.request (n.clients.shared i) (history i (rights tr)) :=
  ((fleet_tracked h).1 i t hi).now (Φ := Sound site) (fun _ _ _ _ hs => hs)

lemma fleet_vault (h : (fleet site D).exec (fleetStart file clock) as = some (n, tr)) :
    ∃ bs, (vault D).exec (start file clock) bs = some (n.server, lefts tr) := by
  obtain ⟨bs, hrun, -⟩ := net_server (fun _ _ => trivial) h
    (onServer_of_inputs (fun _ _ _ _ => True) (p := fun _ => True) (fun _ _ _ _ _ => trivial) _
      (fun _ _ _ _ => trivial))
  exact ⟨bs, hrun⟩

lemma mem_answers {i : ℕ} {x : VaultAnswer} (hx : .did i (.answered x) ∈ rights tr) :
    x ∈ answers (serviceClients site) tr := List.mem_filterMap.mpr ⟨_, hx, rfl⟩

/-- The answer that a service has got is the outcome of a task of the vault. -/
lemma fleet_outcome (h : (fleet site D).exec (fleetStart file clock) as = some (n, tr)) {i v : ℕ}
    {r : Request} {a : Response} (hx : .did i (.answered (v, r, a)) ∈ rights tr) :
    ∃ l m, lefts tr = l ++ .responded v a :: m ∧ Event.arrived v r ∈ l ∧
      Outcome D False r (history v l) a := by
  have htask := (net_faithful h).answered _ (mem_answers hx)
  obtain ⟨bs, hrun⟩ := fleet_vault h
  obtain ⟨l, m, hsplit⟩ := List.append_of_mem (exec_finished hrun htask)
  have hsplitRun := hrun
  rw [hsplit] at hsplitRun
  have hany : ∀ (r : Request) (s : Process) (o : VaultOp) (inp : Input), True → False →
      o.onFile = true → inp.fileOk = true := fun _ _ _ _ _ hf => hf.elim
  obtain ⟨r', harr, ho⟩ := run_outcome hany hsplitRun (meets_true _ _)
  have hr : Event.arrived v r ∈ lefts tr := (exec_arrived hrun v r).mpr ⟨_, htask, rfl⟩
  obtain rfl : r = r' := arrived_unique hrun hr (by rw [hsplit]; exact List.mem_append_left _ harr)
  exact ⟨l, m, hsplit, harr, ho⟩

/-- An answer belongs to one service. -/
lemma answered_once (h : (fleet site D).exec (fleetStart file clock) as = some (n, tr)) {i j v : ℕ}
    {r r' : Request} {a a' : Response} (hi : .did i (.answered (v, r, a)) ∈ rights tr)
    (hj : .did j (.answered (v, r', a')) ∈ rights tr) : i = j := by
  have hdistinct := (net_faithful h).distinct
  obtain ⟨l, m, hsplit⟩ := List.append_of_mem hi
  have hseen : (serviceClients site).seen (.did i (.answered (v, r, a))) = some (v, r, a) := rfl
  rw [answers, hsplit, List.filterMap_append, List.map_append, List.filterMap_cons_some hseen,
    List.map_cons, List.nodup_append, List.nodup_cons] at hdistinct
  obtain ⟨-, ⟨hright, -⟩, hleft⟩ := hdistinct
  rw [hsplit, List.mem_append, List.mem_cons] at hj
  have hmem : ∀ {k : ServiceTrace}, .did j (.answered (v, r', a')) ∈ k →
      v ∈ (k.filterMap (serviceClients site).seen).map Prod.fst :=
    fun hk => List.mem_map.mpr ⟨_, List.mem_filterMap.mpr ⟨_, hk, rfl⟩, rfl⟩
  rcases hj with hj | hj | hj
  · exact absurd rfl (hleft v (hmem hj) v List.mem_cons_self)
  · cases hj
    rfl
  · exact absurd (hmem hj) hright

end Fleet

end SecureNet
