import SecureNet.NonceLedger
import SecureNet.RejectionAudit
import SecureNet.VaultClient

/-!
# Honest clients are accepted

A nonce that the vault has handed out stays in its store until it is consumed or has expired:
registrations of other nonces only prune what has expired, and other requests only remove the
nonce that they carry. What `unseal` and `renew` send for a nonce is what `verify` asks for.
-/

namespace SecureNet

open Hex (Bytes)
open EventMachine KeyedStore Tasks

variable {D : Deployment} {file : List LogPiece} {clock : ℕ} {as : List VaultAction}
  {s : VaultSystem} {tr : VaultTrace} {nonce : Bytes} {t₀ : ℕ}

/-- A registration of the nonce at time `t₀` opens its lifetime, and a consumption or a restart
ends it. -/
def lifetimeEffect (nonce : Bytes) (t₀ : ℕ) : VaultTraceEvent → Option Bool
  | .did _ (.registered n t) => if n = nonce ∧ t = t₀ then some true else none
  | .did _ (.consumed n _ _) => if n = nonce then some false else none
  | .restarted => some false
  | _ => none

lemma lifetimeEffect_idle {e : VaultTraceEvent} (he : e.Idle) :
    lifetimeEffect nonce t₀ e = none := by
  cases e with
  | did i e => exact he.elim
  | restarted => exact he.elim
  | _ => rfl

/-- The nonce is in the store, or its lifetime is over. -/
def Kept (nonce : Bytes) (t₀ : ℕ) (s : Process) : Prop :=
  t₀ ≤ s.clock ∧ ((∃ t, s.appState.nonceStore.lookup nonce = some t ∧ t₀ ≤ t) ∨
    t₀ + nonceLifetime ≤ s.clock)

lemma Kept.register {s : Process} (h : Kept nonce t₀ s) {n : Bytes} {inp : Input}
    (hok : s.clockOk inp = true) :
    Kept nonce t₀ { s with
      appState.nonceStore := s.appState.nonceStore.register inp.elapsedAt n inp.instant
      clock := inp.instant } := by
  obtain ⟨hstart, hkept⟩ := h
  have hclock := clockOk_le hok
  refine ⟨Nat.le_trans hstart hclock, ?_⟩
  by_cases hn : nonce = n
  · subst hn
    exact .inl ⟨inp.instant, NonceStore.lookup_register_self _ _ _ _, Nat.le_trans hstart hclock⟩
  · rcases hkept with ⟨t, hlook, ht⟩ | hexpired
    · have helapsed : inp.elapsedAt nonce ≤ inp.instant := by
        rw [Process.clockOk, Bool.and_eq_true, List.all_eq_true] at hok
        have hmem : nonce ∈ s.appState.nonceStore.keys := by
          rw [← AList.mem_keys, ← AList.lookup_isSome, hlook]
          rfl
        have hboth := hok.2 nonce hmem
        rw [Bool.and_eq_true, decide_eq_true_eq, decide_eq_true_eq] at hboth
        exact hboth.2
      by_cases hage : inp.elapsedAt nonce - t < nonceLifetime
      · exact .inl ⟨t, (NonceStore.lookup_register_ne hn).mpr ⟨hlook, hage⟩, ht⟩
      · right
        simp only
        omega
    · exact .inr (Nat.le_trans hexpired hclock)

lemma Kept.consume {s : Process} (h : Kept nonce t₀ s) {n : Bytes} (hn : nonce ≠ n) {now : ℕ}
    (hnow : s.clock ≤ now) :
    Kept nonce t₀ { s with
      appState.nonceStore := (s.appState.nonceStore.consume n now).2
      clock := now } := by
  obtain ⟨hstart, hkept⟩ := h
  refine ⟨Nat.le_trans hstart hnow, ?_⟩
  rcases hkept with ⟨t, hlook, ht⟩ | hexpired
  · exact .inl ⟨t, by rw [NonceStore.lookup_consume_ne hn, hlook], ht⟩
  · exact .inr (Nat.le_trans hexpired hnow)

/-- The step of `lifetime_kept`: what an operation leaves of a nonce that is kept before it. -/
lemma lifetime_reply {tr : VaultTrace} {s t : Process} {i : ℕ} {o : VaultOp} {inp : Input}
    {r : vaultSig.Reply o} {evs : List VaultEvent}
    (hbefore : lastEffect (lifetimeEffect nonce t₀) tr = some true → Kept nonce t₀ s)
    (hr : Process.reply D s i o inp = some (t, r, evs))
    (hopen : lastEffect (lifetimeEffect nonce t₀) (tr ++ evs.map (.did i)) = some true) :
    Kept nonce t₀ t := by
  have hquiet : (∀ e ∈ evs, lifetimeEffect nonce t₀ (.did i e) = none) → Kept nonce t₀ s := by
    intro hevs
    rw [lastEffect_append_quiet (by simpa using hevs)] at hopen
    exact hbefore hopen
  cases o <;> simp only [Process.reply] at hr
  case registerNonce n =>
    split at hr
    · next hok =>
      cases hr
      by_cases hn : n = nonce ∧ inp.instant = t₀
      · obtain ⟨rfl, rfl⟩ := hn
        refine ⟨Nat.le_refl _, .inl ⟨_, NonceStore.lookup_register_self _ _ _ _, Nat.le_refl _⟩⟩
      · exact (hquiet (by simp [lifetimeEffect, hn])).register hok
    · cases hr
  case consumeNonce n =>
    split at hr
    · next hok =>
      cases hr
      by_cases hn : n = nonce
      · have heffect : lifetimeEffect nonce t₀ (.did i (.consumed n inp.instant
            (s.appState.nonceStore.consume n inp.instant).1)) = some false := by
          simp [lifetimeEffect, hn]
        rw [List.map_singleton, lastEffect_append_some heffect] at hopen
        cases hopen
      · have hkept := hquiet (by simp [lifetimeEffect, hn])
        exact hkept.consume (fun heq => hn heq.symm) (clockOk_le hok)
    · cases hr
  case lockLog =>
    split at hr <;> cases hr
    exact hquiet (by simp)
  all_goals
    cases hr
    exact hquiet (by simp [lifetimeEffect])

/-- As long as its lifetime has not been ended, a nonce is kept. -/
theorem lifetime_kept (h : (vault D).exec (start file clock) as = some (s, tr))
    (hopen : lastEffect (lifetimeEffect nonce t₀) tr = some true) : Kept nonce t₀ s.shared := by
  revert hopen
  refine exec_shared (I := fun tr s => lastEffect (lifetimeEffect nonce t₀) tr = some true →
    Kept nonce t₀ s) ?_ ?_ ?_ ?_ ?_ h
  · intro hopen
    simp at hopen
  · intro tr s e he ih hopen
    rw [lastEffect_append_none (lifetimeEffect_idle he)] at hopen
    exact ih hopen
  · intro tr s i o inp t r evs ih hr hopen
    exact lifetime_reply ih hr hopen
  · intro tr s i o inp t evs ih hc hopen
    have hevs : ∀ e ∈ evs, lifetimeEffect nonce t₀ (.did i e) = none := by
      intro e he
      obtain ⟨piece, rfl⟩ := cancel_appended (i := i) hc he
      rfl
    rw [lastEffect_append_quiet (by simpa using hevs)] at hopen
    cases o <;> cases hc <;> exact ih hopen
  · intro tr s inp ih hopen
    have heffect : lifetimeEffect nonce t₀ .restarted = some false := rfl
    rw [lastEffect_append_some heffect] at hopen
    cases hopen

lemma Verified.consumed_first {req : UnsealRequest} {v : Except String Unit}
    {pre post vpre rest : List VaultEvent} {n : Bytes} {t : ℕ} {fresh : Bool}
    (hv : Verified D req vpre v) (hrest : ∀ n t fresh, .consumed n t fresh ∉ rest)
    (h : pre ++ .consumed n t fresh :: post = vpre ++ rest) :
    pre = [] ∧ verifyRequest D req = .ok n := by
  have hone : ∀ {n' : Bytes} {t' : ℕ} {fresh' : Bool},
      pre ++ .consumed n t fresh :: post = .consumed n' t' fresh' :: rest → pre = [] ∧ n = n' := by
    intro n' t' fresh' heq
    cases pre with
    | nil =>
      simp only [List.nil_append, List.cons.injEq, VaultEvent.consumed.injEq] at heq
      exact ⟨rfl, heq.1.1⟩
    | cons x pre =>
      simp only [List.cons_append, List.cons.injEq] at heq
      exact absurd (heq.2 ▸ by simp) (hrest n t fresh)
  cases hv with
  | early e hreq =>
    rw [List.nil_append] at h
    exact absurd (h ▸ by simp) (hrest n t fresh)
  | stale n' t' hreq =>
    obtain ⟨hpre, rfl⟩ := hone h
    exact ⟨hpre, hreq⟩
  | fresh n' t' hreq =>
    obtain ⟨hpre, rfl⟩ := hone h
    exact ⟨hpre, hreq⟩

/-- A consumption is the first event of its request, which asked for that nonce. -/
lemma Outcome.consumed_first {works : Prop} {r : Request} {a : Response} {pre post : List VaultEvent}
    {n : Bytes} {t : ℕ} {fresh : Bool}
    (ho : Outcome D works r (pre ++ .consumed n t fresh :: post) a) :
    pre = [] ∧ ∃ req, r.attested = some req ∧ verifyRequest D req = .ok n := by
  have hlog : ∀ {entry : IssuanceLogEntry} {log : List VaultEvent}, Logged works entry log →
      ∀ n t fresh, .consumed n t fresh ∉ log := by
    intro entry log hl n t fresh hmem
    rcases hl.appended hmem with h | ⟨_, h⟩ <;> cases h
  generalize hH : pre ++ VaultEvent.consumed n t fresh :: post = H at ho
  have hmem : VaultEvent.consumed n t fresh ∈ H := hH ▸ by simp
  cases ho with
  | unsealRefused req e vpre log entry hv he hl =>
    obtain ⟨hpre, hreq⟩ := hv.consumed_first (hlog hl) hH
    exact ⟨hpre, req, rfl, hreq⟩
  | renewRefused req e _ hv =>
    have hrest : ∀ n t fresh, VaultEvent.consumed n t fresh ∉ ([] : List VaultEvent) := by simp
    obtain ⟨hpre, hreq⟩ := hv.consumed_first hrest (by simpa using hH)
    exact ⟨hpre, req, rfl, hreq⟩
  | issueFailed r req e vpre hr hv =>
    obtain ⟨hpre, hreq⟩ := hv.consumed_first (by simp) hH
    exact ⟨hpre, req, hr, hreq⟩
  | granted r req c vpre log entry hr hv he hl =>
    have hrest : ∀ n t fresh, .consumed n t fresh ∉
        VaultEvent.issueCalled req.serviceName (.ok c) :: log := by
      intro n t fresh hmem
      rcases List.mem_cons.mp hmem with h | h
      · cases h
      · exact hlog hl n t fresh h
    obtain ⟨hpre, hreq⟩ := hv.consumed_first hrest hH
    exact ⟨hpre, req, hr, hreq⟩
  | _ => simp at hmem

/-- A request that can only fail for its nonce is rejected by a stale nonce check. -/
lemma Outcome.rejected_stale {works : Prop} {r : Request} {req : UnsealRequest}
    {h : List VaultEvent} {e : String} (ho : Outcome D works r h (.failed (.vaultRejected e)))
    (hatt : r.attested = some req) (hform : WellFormed D req) :
    ∃ n t rest, h = .consumed n t false :: rest := by
  have hstale : ∀ {pre : List VaultEvent}, Verified D req pre (.error e) →
      ∃ n t rest, pre = .consumed n t false :: rest := by
    intro pre hv
    obtain ⟨n, t, hmem⟩ := refused_consumed hv hform
    generalize Except.error e = v at hv
    cases hv with
    | early e' hreq => cases hmem
    | stale n' t' hreq => exact ⟨n', t', [], rfl⟩
    | fresh n' t' hreq =>
      cases List.mem_singleton.mp hmem
  cases ho with
  | unsealRefused req' _ pre log entry hv he hl =>
    cases hatt
    obtain ⟨n, t, rest, rfl⟩ := hstale hv
    exact ⟨n, t, rest ++ log, rfl⟩
  | renewRefused req' _ _ hv =>
    cases hatt
    exact hstale hv

section Client

variable {hexError : String → String} {inp : ClientInput} {r : Request} {n : Bytes}

/-- The requests that a client sends to the vault's two endpoints when the outside world answers
it with `inp`. -/
inductive Sends (hexError : String → String) (inp : ClientInput) : Request → Prop
  | byUnseal (self : ServiceIdentity) (serviceName vaultUrl : String) (req : UnsealRequest)
      (h : .posted (vaultUrl ++ "/vault/unseal") req ∈
        (Client.finish inp self (ServiceIdentity.unseal hexError serviceName vaultUrl)).2.2) :
    Sends hexError inp (.postUnseal req)
  | byRenew (self : ServiceIdentity) (serviceName vaultUrl : String) (req : UnsealRequest)
      (h : .posted (vaultUrl ++ "/vault/renew") req ∈
        (Client.finish inp self (HttpVaultClient.renew hexError serviceName vaultUrl)).2.2) :
    Sends hexError inp (.postRenew req)

variable (D n) in
/-- The client runs on an admitted machine and is given the nonce by the vault; its quote is the
stub's, or it has none. -/
structure Honest (inp : ClientInput) : Prop where
  nonce : inp.body = .ok (nonceBody n)
  quote : inp.quote n = generateQuote D.sha256 n ∨ ∃ e, inp.quote n = .error e
  machine : D.allowlist.contains (machineIdOrUnknown inp.machineId) = true

/-- The request of an honest client, as both clients build it. -/
def HonestRequest (D : Deployment) (n : Bytes) (req : UnsealRequest) : Prop :=
  D.allowlist.contains req.machineId = true ∧ req.nonce = Hex.encode n ∧
    (req.tpmQuote = "" ∨ req.tpmQuote = Hex.encode (D.sha256 n))

lemma Honest.request (h : Honest D n inp) (serviceName : String) :
    HonestRequest D n ⟨serviceName, machineIdOrUnknown inp.machineId, (quoteHex (inp.quote n)).1,
      Hex.encode n, (quoteHex (inp.quote n)).2⟩ := by
  refine ⟨h.machine, rfl, ?_⟩
  rcases h.quote with hquote | ⟨e, hquote⟩
  · exact .inr (by rw [hquote]; rfl)
  · exact .inl (by rw [hquote]; rfl)

/-- Every request that the program posts when it is answered with `inp` has the property. -/
def Client.AllPosts {α : Type} (inp : ClientInput) (P : UnsealRequest → Prop) : Client α → Prop
  | .done _ => True
  | .call o k => (∀ url req, o = .post url req → P req) ∧ AllPosts inp P (k (inp.answer o))

lemma AllPosts.posted {α : Type} {P : UnsealRequest → Prop} {p : Client α}
    (hp : Client.AllPosts inp P p) {self : ServiceIdentity} {url : String} {req : UnsealRequest}
    (hreq : .posted url req ∈ (Client.finish inp self p).2.2) : P req := by
  induction p generalizing self with
  | done a => cases hreq
  | call o k ih =>
    rcases List.mem_append.mp hreq with hreq | hreq
    · cases o with
      | post url' req' =>
        cases List.mem_singleton.mp hreq
        exact hp.1 _ _ rfl
      | jsonResponse =>
        simp only [ClientOp.events] at hreq
        split at hreq <;> simp at hreq
      | writeState state => simp [ClientOp.events] at hreq
      | writeBundle bundle => simp [ClientOp.events] at hreq
      | _ => cases hreq
    · exact ih (inp.answer o) hp.2 hreq

lemma unseal_posts (h : Honest D n inp) (serviceName vaultUrl : String) :
    Client.AllPosts inp (HonestRequest D n)
      (ServiceIdentity.unseal hexError serviceName vaultUrl) := by
  have hrequest := h.request serviceName
  obtain ⟨machineId, sent, body, quote, posted, text, response⟩ := inp
  obtain rfl : body = .ok (nonceBody n) := h.nonce
  have hnonce : ((nonceBody n).index "nonce").asStr = some (Hex.encode n) := rfl
  unfold ServiceIdentity.unseal ServiceIdentity.fetchNonce fetchNonceWith
  refine ⟨by simp, by simp, by simp, ?_⟩
  cases sent with
  | error e => trivial
  | ok u =>
    refine ⟨by simp, ?_⟩
    simp only [ClientInput.answer, Prog.bind, hnonce, pure, Hex.decode_encode]
    refine ⟨by simp, ?_, ?_⟩
    · intro url req hreq
      cases hreq
      exact hrequest
    · cases posted with
      | error e => trivial
      | ok status =>
        by_cases hstatus : isSuccess status = true
        · simp only [ClientInput.answer, Prog.bind, hstatus, Bool.not_true, Bool.false_eq_true,
            ↓reduceIte]
          refine ⟨by simp, ?_⟩
          cases response with
          | error e => trivial
          | ok resp => exact ⟨by simp, by simp, trivial⟩
        · simp only [ClientInput.answer, Prog.bind, hstatus, Bool.not_false, ↓reduceIte]
          exact ⟨by simp, by simp, trivial⟩

lemma renew_posts (h : Honest D n inp) (serviceName vaultUrl : String) :
    Client.AllPosts inp (HonestRequest D n)
      (HttpVaultClient.renew hexError serviceName vaultUrl) := by
  have hrequest := h.request serviceName
  obtain ⟨machineId, sent, body, quote, posted, text, response⟩ := inp
  obtain rfl : body = .ok (nonceBody n) := h.nonce
  have hnonce : ((nonceBody n).index "nonce").asStr = some (Hex.encode n) := rfl
  unfold HttpVaultClient.renew HttpVaultClient.fetchNonce fetchNonceWith
  refine ⟨by simp, ?_⟩
  cases sent with
  | error e => trivial
  | ok u =>
    refine ⟨by simp, ?_⟩
    simp only [ClientInput.answer, Prog.bind, hnonce, pure, Hex.decode_encode]
    refine ⟨by simp, by simp, ?_, ?_⟩
    · intro url req hreq
      cases hreq
      exact hrequest
    · cases posted with
      | error e => trivial
      | ok status =>
        by_cases hstatus : isSuccess status = true
        · simp only [ClientInput.answer, Prog.bind, hstatus, Bool.not_true, Bool.false_eq_true,
            ↓reduceIte]
          refine ⟨by simp, ?_⟩
          cases response with
          | error e => trivial
          | ok resp => exact ⟨by simp, trivial⟩
        · simp only [ClientInput.answer, Prog.bind, hstatus, Bool.not_false, ↓reduceIte]
          exact ⟨by simp, trivial⟩

lemma Sends.honest (hs : Sends hexError inp r) (h : Honest D n inp) :
    ∃ req, r.attested = some req ∧ HonestRequest D n req := by
  cases hs with
  | byUnseal self serviceName vaultUrl req hreq =>
    exact ⟨req, rfl, AllPosts.posted (unseal_posts h serviceName vaultUrl) hreq⟩
  | byRenew self serviceName vaultUrl req hreq =>
    exact ⟨req, rfl, AllPosts.posted (renew_posts h serviceName vaultUrl) hreq⟩

/-- The two codecs and the digest agree: an honest request passes all checks of `verify` that need
no nonce store. -/
lemma HonestRequest.passes {req : UnsealRequest} (h : HonestRequest D n req) (hn : n ≠ []) :
    verifyRequest D req = .ok n ∧ verifyQuote D req n = .ok () := by
  obtain ⟨hmachine, hnonce, hquote⟩ := h
  have hdecode : Hex.decode req.nonce = some n := by rw [hnonce, Hex.decode_encode]
  have hne : req.nonce ≠ "" := by
    intro hempty
    rw [hempty] at hdecode
    exact hn (Option.some.inj hdecode).symm
  exact ⟨verifyRequest_ok_iff.mpr ⟨hmachine, hne, hdecode⟩, verifyQuote_ok_iff.mpr hquote⟩

end Client

/-- A consumption in a run is the first event of its task, whose request asked for that nonce. -/
lemma run_consumed (h : (vault D).exec (start file clock) as = some (s, tr)) {i : ℕ} {k : Bytes}
    {t : ℕ} {fresh : Bool} {l m : VaultTrace} (htr : tr = l ++ .did i (.consumed k t fresh) :: m) :
    history i l = [] ∧ ∃ r req, Event.arrived i r ∈ tr ∧ r.attested = some req ∧
      verifyRequest D req = .ok k := by
  have hmem : Event.did i (.consumed k t fresh) ∈ tr := by simp [htr]
  obtain ⟨r, harr, rest, a, ho⟩ := run_history h hmem
  rw [htr, history_append, history_did_cons, if_pos rfl, List.append_assoc, List.cons_append] at ho
  obtain ⟨hpre, req, hatt, hreq⟩ := ho.consumed_first
  exact ⟨hpre, r, req, harr, hatt, hreq⟩

lemma registered_nonempty (h : (vault D).exec (start file clock) as = some (s, tr)) {g : ℕ}
    {n : Bytes} (hreg : Event.did g (.registered n t₀) ∈ tr) : n ≠ [] := by
  obtain ⟨r, -, rest, a, ho⟩ := run_history h hreg
  have hmem : VaultEvent.registered n t₀ ∈ history g tr ++ rest :=
    List.mem_append_left _ (mem_history.mpr hreg)
  generalize history g tr ++ rest = H at ho hmem
  have hpre : ∀ {req : UnsealRequest} {v : Except String Unit} {pre : List VaultEvent},
      Verified D req pre v → VaultEvent.registered n t₀ ∉ pre := by
    intro req v pre hv hmem
    obtain ⟨k, t, fresh, hk⟩ := hv.consumed hmem
    cases hk
  have hlog : ∀ {entry : IssuanceLogEntry} {log : List VaultEvent}, Logged False entry log →
      VaultEvent.registered n t₀ ∉ log := by
    intro entry log hl hmem
    rcases hl.appended hmem with h | ⟨_, h⟩ <;> cases h
  cases ho with
  | nonce nonce t =>
    cases List.mem_singleton.mp hmem
    intro hnil
    have hlen := nonce.2
    rw [hnil] at hlen
    cases hlen
  | unsealRefused req e pre log entry hv he hl =>
    rcases List.mem_append.mp hmem with hmem | hmem
    · exact absurd hmem (hpre hv)
    · exact absurd hmem (hlog hl)
  | renewRefused req e pre hv => exact absurd hmem (hpre hv)
  | issueFailed r req e pre hr hv =>
    rcases List.mem_append.mp hmem with hmem | hmem
    · exact absurd hmem (hpre hv)
    · simp at hmem
  | granted r req c pre log entry hr hv he hl =>
    rcases List.mem_append.mp hmem with hmem | hmem
    · exact absurd hmem (hpre hv)
    · rcases List.mem_cons.mp hmem with hmem | hmem
      · cases hmem
      · exact absurd hmem (hlog hl)
  | _ => simp at hmem

/-- Between the registration of a nonce and the first request that carries it, nothing ends its
lifetime. -/
lemma lifetime_open {n : Bytes} {l m₁ m₂ : VaultTrace} {g c : ℕ} {k : Bytes} {t : ℕ} {fresh : Bool}
    (h : (vault D).exec (start file clock) as =
      some (s, (l ++ .did g (.registered n t₀) :: m₁) ++ .did c (.consumed k t fresh) :: m₂))
    (hup : .restarted ∉ m₁)
    (hothers : ∀ i r req, Event.arrived i r ∈
      (l ++ .did g (.registered n t₀) :: m₁) ++ .did c (.consumed k t fresh) :: m₂ →
      r.attested = some req → Hex.decode req.nonce = some n → i = c) :
    lastEffect (lifetimeEffect n t₀) (l ++ .did g (.registered n t₀) :: m₁) = some true := by
  apply lastEffect_of_quiet (by simp [lifetimeEffect])
  intro x hx
  have hhist := (run_consumed h rfl).1
  cases x with
  | restarted => exact absurd hx hup
  | did i e =>
    cases e with
    | registered n' t' =>
      by_cases heq : n' = n ∧ t' = t₀
      · exact .inr (by simp [lifetimeEffect, heq])
      · exact .inl (by simp [lifetimeEffect, heq])
    | consumed n' t' fresh' =>
      by_cases heq : n' = n
      · -- it would be the request of the client, which has consumed nothing yet
        exfalso
        obtain ⟨x, y, rfl⟩ := List.append_of_mem hx
        have hsplit : (l ++ .did g (.registered n t₀) :: (x ++ .did i (.consumed n' t' fresh') ::
            y)) ++ .did c (.consumed k t fresh) :: m₂ =
            (l ++ .did g (.registered n t₀) :: x) ++ .did i (.consumed n' t' fresh') ::
              (y ++ .did c (.consumed k t fresh) :: m₂) := by
          simp
        obtain ⟨-, r, req, harr, hatt, hreq⟩ := run_consumed h hsplit
        obtain rfl : i = c :=
          hothers i r req harr hatt (by rw [← heq]; exact (verifyRequest_ok_iff.mp hreq).2.2)
        have hmem : VaultEvent.consumed n' t' fresh' ∈ history i
            (l ++ .did g (.registered n t₀) :: (x ++ .did i (.consumed n' t' fresh') :: y)) :=
          mem_history.mpr (by simp)
        rw [hhist] at hmem
        cases hmem
      · exact .inl (by simp [lifetimeEffect, heq])
    | _ => exact .inl rfl
  | _ => exact .inl rfl

/-- A client that runs `unseal` or `renew` with a nonce of its own passes `verify` if its nonce
check comes in time: the check finds the nonce, and the request is not rejected. -/
theorem honest_client_accepted {hexError : String → String} {inp : ClientInput} {r : Request}
    {n k : Bytes} {t : ℕ} {fresh : Bool} {l m₁ m₂ : VaultTrace} {g c : ℕ}
    (h : (vault D).exec (start file clock) as =
      some (s, (l ++ .did g (.registered n t₀) :: m₁) ++ .did c (.consumed k t fresh) :: m₂))
    (hup : .restarted ∉ m₁) (hsends : Sends hexError inp r) (hhonest : Honest D n inp)
    (harr : .arrived c r ∈
      (l ++ .did g (.registered n t₀) :: m₁) ++ .did c (.consumed k t fresh) :: m₂)
    (hothers : ∀ i r' req, Event.arrived i r' ∈
      (l ++ .did g (.registered n t₀) :: m₁) ++ .did c (.consumed k t fresh) :: m₂ →
      r'.attested = some req → Hex.decode req.nonce = some n → i = c)
    (htime : t < t₀ + nonceLifetime) :
    ∃ req, r.attested = some req ∧ k = n ∧ fresh = true ∧ verifyRequest D req = .ok n ∧
      Verified D req [.consumed k t fresh] (.ok ()) ∧
      ∀ e, .responded c (.failed (.vaultRejected e)) ∉ m₂ := by
  have hreg : Event.did g (.registered n t₀) ∈
      (l ++ .did g (.registered n t₀) :: m₁) ++ .did c (.consumed k t fresh) :: m₂ := by
    simp
  have hn := registered_nonempty h hreg
  obtain ⟨req, hatt, hrequest⟩ := hsends.honest hhonest
  obtain ⟨hreq, hquote⟩ := hrequest.passes hn
  obtain ⟨hfirst, r', req', harr', hatt', hreq'⟩ := run_consumed h rfl
  obtain rfl : r = r' := arrived_unique h harr harr'
  obtain rfl : req = req' := Option.some.inj (hatt.symm.trans hatt')
  obtain rfl : n = k := Except.ok.inj (hreq.symm.trans hreq')
  -- the store still holds the nonce when the check comes
  obtain ⟨as₁, s₁, t', h₁, heff⟩ := vault_did (fun _ => by simp) h
  obtain ⟨hnow, rfl⟩ := heff.consumed
  have hheld : s₁.shared.appState.nonceStore.Holds n t := by
    obtain ⟨hstart, ⟨t₁, hlook, ht₁⟩ | hexpired⟩ :=
      lifetime_kept h₁ (lifetime_open h hup hothers)
    · exact ⟨t₁, hlook, by omega⟩
    · omega
  have hfresh := NonceStore.consume_accepts.mpr hheld
  rw [hfresh] at h harr harr' hothers ⊢
  have hv : Verified D req [.consumed n t true] (.ok ()) := by
    rw [← hquote]
    exact .fresh n t hreq
  refine ⟨req, hatt, rfl, rfl, hreq, hv, ?_⟩
  intro e hresp
  obtain ⟨x, y, rfl⟩ := List.append_of_mem hresp
  have hsplit : (vault D).exec (start file clock) as =
      some (s, ((l ++ .did g (.registered n t₀) :: m₁) ++ .did c (.consumed n t true) :: x) ++
        .responded c (.failed (.vaultRejected e)) :: y) := by
    rw [h]
    simp
  have hany : ∀ (r : Request) (s : Process) (o : VaultOp) (inp : Input), True → False →
      o.onFile = true → inp.fileOk = true := fun _ _ _ _ _ hworks => hworks.elim
  obtain ⟨r', harr', ho⟩ := run_outcome hany hsplit (meets_true _ _)
  obtain rfl : r = r' :=
    arrived_unique hsplit (by simpa [or_assoc] using harr) (List.mem_append_left _ harr')
  rw [history_append, history_did_cons, if_pos rfl, hfirst] at ho
  obtain ⟨k', t', rest, hfalse⟩ := ho.rejected_stale hatt ⟨n, hreq, hquote⟩
  cases hfalse

def honestInput : ClientInput where
  machineId := .ok "machine-1"
  sent := .ok ()
  body := .ok (nonceBody sampleNonce.1)
  quote := generateQuote sampleDeployment.sha256
  posted := .ok 200
  text := none
  response := .error "unread"

def honestRequest : UnsealRequest :=
  ⟨"order-service", "machine-1", Hex.encode sampleNonce.1, Hex.encode sampleNonce.1,
    Hex.encode (Utf8.encode "DEV_MODE_NO_TPM")⟩

def lateInput : Input := { sampleInput (seconds 31) with random := ⟨List.replicate 32 9, by decide⟩ }

/-- Before the honest client asks for a nonce, another one has got one. A third registration prunes
that nonce, and the other client is refused. -/
def crowdedRun : List VaultAction :=
  [.arrive .getNonce, .poll 0 (otherInput 0), .poll 0 (otherInput 0), .arrive .getNonce,
    .poll 1 (sampleInput (seconds 20)), .poll 1 (sampleInput (seconds 20)), .arrive .getNonce,
    .poll 2 lateInput, .poll 2 lateInput, .arrive (.postRenew otherRequest),
    .poll 3 (sampleInput (seconds 32)), .arrive (.postUnseal honestRequest)] ++
    List.replicate 8 (.poll 4 (sampleInput (seconds 40)))

theorem honest_client_accepted_crowded :
    ∃ s l m₁ m₂ c, (vault sampleDeployment).exec (start [] 0) crowdedRun = some (s,
        (l ++ .did 1 (.registered sampleNonce.1 (seconds 20)) :: m₁) ++
          .did 4 (.consumed sampleNonce.1 (seconds 40) true) :: m₂) ∧
      .did 3 (.consumed otherNonce.1 (seconds 32) false) ∈ m₁ ∧
      .responded 4 (.unsealed ⟨c⟩) ∈ m₂ ∧
      ∃ req, (Request.postUnseal honestRequest).attested = some req ∧
        verifyRequest sampleDeployment req = .ok sampleNonce.1 ∧
        Verified sampleDeployment req [.consumed sampleNonce.1 (seconds 40) true] (.ok ()) ∧
        ∀ e, .responded 4 (.failed (.vaultRejected e)) ∉ m₂ := by
  have hrun : ∃ s c e, (vault sampleDeployment).exec (start [] 0) crowdedRun = some (s,
      ([.arrived 0 .getNonce, .did 0 (.registered otherNonce.1 0),
          .responded 0 (.json (nonceBody otherNonce.1)), .arrived 1 .getNonce] ++
        .did 1 (.registered sampleNonce.1 (seconds 20)) ::
          [.responded 1 (.json (nonceBody sampleNonce.1)), .arrived 2 .getNonce,
            .did 2 (.registered lateInput.random.1 (seconds 31)),
            .responded 2 (.json (nonceBody lateInput.random.1)),
            .arrived 3 (.postRenew otherRequest),
            .did 3 (.consumed otherNonce.1 (seconds 32) false),
            .responded 3 (.failed (.vaultRejected nonceRefused)),
            .arrived 4 (.postUnseal honestRequest)]) ++
        .did 4 (.consumed sampleNonce.1 (seconds 40) true) ::
          [.did 4 (.issueCalled "order-service" (.ok c)), .did 4 (.appended (.line e)),
            .responded 4 (.unsealed ⟨c.bundle⟩)]) :=
    ⟨_, _, _, rfl⟩
  obtain ⟨s, c, e, h⟩ := hrun
  have hsends : Sends (fun _ => "") honestInput (.postUnseal honestRequest) :=
    .byUnseal ServiceIdentity.new "order-service" "https://localhost:8443" honestRequest (by
      have hevents : (Client.finish honestInput ServiceIdentity.new
          (ServiceIdentity.unseal (fun _ => "") "order-service" "https://localhost:8443")).2.2 =
          [.stateWritten .unsealing,
            .posted ("https://localhost:8443" ++ "/vault/unseal") honestRequest] := rfl
      rw [hevents]
      simp)
  have hhonest : Honest sampleDeployment sampleNonce.1 honestInput := ⟨rfl, .inl rfl, rfl⟩
  obtain ⟨req, hatt, -, -, hreq, hverified, hnever⟩ :=
    honest_client_accepted h (by simp) hsends hhonest (by simp) (by
      intro i r req harr hatt hdecode
      simp only [List.mem_append, List.mem_cons, Event.arrived.injEq, reduceCtorEq, false_or,
        or_false, List.not_mem_nil] at harr
      rcases harr with ((⟨-, rfl⟩ | ⟨-, rfl⟩) | ⟨-, rfl⟩ | ⟨-, rfl⟩ | ⟨rfl, -⟩)
      · cases hatt
      · cases hatt
      · cases hatt
      · cases hatt
        exact absurd hdecode (by decide)
      · rfl) (by decide)
  exact ⟨s, _, _, _, c.bundle, h, by simp, by simp, req, hatt, hreq, hverified, hnever⟩

end SecureNet
