import SecureNet.Outcomes
import SecureNet.VaultReplay

/-!
# The audit of rejections

A completed unseal or renewal should leave one entry in the issuance log. Two exits leave none:
a renewal that `verify` refuses, and an issuance that fails. Outside of them the log is complete.
-/

namespace SecureNet

open Hex (Bytes)
open EventMachine Tasks

variable {D : Deployment} {file : List LogPiece} {clock : ℕ} {as : List VaultAction}
  {s : VaultSystem}

def lineOf : VaultEvent → Option IssuanceLogEntry
  | .appended (.line entry) => some entry
  | _ => none

/-- The events of a completed request hold exactly one log entry, which tells what became of
the request. -/
def Recorded (req : UnsealRequest) (h : List VaultEvent) (a : Response) : Prop :=
  ∃ entry, h.filterMap lineOf = [entry] ∧ entry.serviceName = req.serviceName ∧
    entry.machineId = req.machineId ∧
    ((∃ b, a = .unsealed ⟨b⟩ ∧ entry.granted = true ∧ entry.certSerial = b.serial) ∨
      ∃ e, a = .failed e ∧ entry.granted = false)

def Silent (r : Request) (a : Response) : Prop :=
  (∃ req e, r = .postRenew req ∧ a = .failed (.vaultRejected e)) ∨ ∃ e, a = .failed (.internal e)

lemma Verified.lines {req : UnsealRequest} {pre : List VaultEvent} {v : Except String Unit}
    (hv : Verified D req pre v) : pre.filterMap lineOf = [] := by
  rw [List.filterMap_eq_nil_iff]
  intro e he
  obtain ⟨nonce, t, fresh, rfl⟩ := hv.consumed he
  rfl

lemma Logged.lines {works : Prop} {entry : IssuanceLogEntry} {log : List VaultEvent}
    (hl : Logged works entry log) (hworks : works) : log.filterMap lineOf = [entry] := by
  cases hl with
  | line => rfl
  | broken h f => exact absurd hworks h

/-- With a working log file, exactly the silent exits are not recorded. -/
theorem recorded_iff {r : Request} {req : UnsealRequest} {h : List VaultEvent} {a : Response}
    (ho : Outcome D True r h a) (hatt : r.attested = some req) :
    Recorded req h a ↔ ¬Silent r a := by
  cases ho with
  | unsealRefused req' e pre log entry hv he hl =>
    cases hatt
    have hlines : (pre ++ log).filterMap lineOf = [entry] := by
      rw [List.filterMap_append, hv.lines, hl.lines trivial, List.nil_append]
    obtain ⟨timestamp, expiresAt, rfl⟩ := he
    have hrec : Recorded req (pre ++ log) (.failed (.vaultRejected e)) :=
      ⟨_, hlines, rfl, rfl, .inr ⟨_, rfl, rfl⟩⟩
    simp [hrec, Silent]
  | renewRefused req' e _ hv =>
    have hsilent : Silent (.postRenew req') (.failed (.vaultRejected e)) :=
      .inl ⟨req', e, rfl, rfl⟩
    have hnot : ¬Recorded req h (.failed (.vaultRejected e)) := by
      rintro ⟨entry, hlines, -⟩
      rw [hv.lines] at hlines
      cases hlines
    simp [hsilent, hnot]
  | issueFailed r req' e pre hr hv =>
    have hsilent : Silent r (.failed (.internal e)) := .inr ⟨e, rfl⟩
    have hnot : ¬Recorded req (pre ++ [.issueCalled req'.serviceName (.error e)])
        (.failed (.internal e)) := by
      rintro ⟨entry, hlines, -⟩
      rw [List.filterMap_append, hv.lines] at hlines
      cases hlines
    simp [hsilent, hnot]
  | granted r req' c pre log entry hr hv he hl =>
    rw [hr] at hatt
    cases hatt
    have hlines : (pre ++ .issueCalled req.serviceName (.ok c) :: log).filterMap lineOf =
        [entry] := by
      rw [List.filterMap_append, hv.lines, List.nil_append, List.filterMap_cons_none rfl,
        hl.lines trivial]
    obtain ⟨timestamp, rfl⟩ := he
    have hrec : Recorded req (pre ++ .issueCalled req.serviceName (.ok c) :: log)
        (.unsealed ⟨c.bundle⟩) := ⟨_, hlines, rfl, rfl, .inl ⟨_, rfl, rfl, rfl⟩⟩
    simp [hrec, Silent]
  | _ => cases hatt

def NonceStore.Holds (self : NonceStore) (nonce : Bytes) (now : ℕ) : Prop :=
  ∃ issuedAt, self.lookup nonce = some issuedAt ∧ now - issuedAt < nonceLifetime

def Request.isRenew : Request → Bool
  | .postRenew _ => true
  | _ => false

variable (D) in
/-- The call does not lead to a silent exit: a renewal finds its nonce, and an issuance can
succeed. -/
def Loud (r : Request) (s : Process) (o : vaultSig.Op) (inp : Input) : Prop :=
  match o with
  | .consumeNonce nonce =>
    r.isRenew = true → s.appState.nonceStore.Holds nonce inp.instant
  | .issue serviceName =>
    Issuer.canIssue D.rcgen D.issuer serviceName s.serialCounter inp.issueNow inp.leafKey = true
  | _ => True

instance (self : NonceStore) (nonce : Bytes) (now : ℕ) : Decidable (self.Holds nonce now) :=
  decidable_of_iff ((self.lookup nonce).any (fun t => decide (now - t < nonceLifetime)) = true)
    (by rw [Option.any_eq_true]; simp [NonceStore.Holds])

instance (r : Request) (s : Process) (inp : Input) :
    (o : vaultSig.Op) → Decidable (Loud D r s o inp)
  | .consumeNonce nonce => inferInstanceAs
      (Decidable (r.isRenew = true → s.appState.nonceStore.Holds nonce inp.instant))
  | .issue serviceName => inferInstanceAs (Decidable (Issuer.canIssue D.rcgen D.issuer serviceName
      s.serialCounter inp.issueNow inp.leafKey = true))
  | .randomNonce => isTrue trivial
  | .registerNonce _ => isTrue trivial
  | .utcNow => isTrue trivial
  | .lockLog => isTrue trivial
  | .createDirAll _ => isTrue trivial
  | .openLog => isTrue trivial
  | .writeAll _ => isTrue trivial
  | .unlockLog => isTrue trivial
  | .revokeCert _ _ => isTrue trivial
  | .revocationList => isTrue trivial
  | .issuedCount => isTrue trivial

variable (D) in
/-- The checks of `verify` that need no nonce store pass: the allowlist, the form of the nonce
and the quote. -/
def WellFormed (req : UnsealRequest) : Prop :=
  ∃ nonce, verifyRequest D req = .ok nonce ∧ verifyQuote D req nonce = .ok ()

lemma did_reply {ok : Request → Process → VaultOp → Input → Prop} {l m : VaultTrace} {i : ℕ}
    {e : VaultEvent} (he : ∀ piece, e ≠ .appended piece)
    (h : (vault D).exec (start file clock) as = some (s, l ++ .did i e :: m))
    (hok : (vault D).Meets (Within ok) (start file clock) as) :
    ∃ r s₁ o inp sh rep evs, Event.arrived i r ∈ l ∧ ok r s₁ o inp ∧
      Process.reply D s₁ i o inp = some (sh, rep, evs) ∧ e ∈ evs := by
  obtain ⟨as₁, b, as₂, s₁, tr₁, r, evs₁, has, h₁, hcaused, rfl⟩ := exec_did h
  have harr : Event.arrived i r ∈ tr₁ := (exec_arrived h₁ i r).mpr hcaused.request
  cases hcaused with
  | poll inp o k sh rep evs₁ evs₂ hi hr =>
    have hwithin : CallMeets ok s₁.shared inp s₁.tasks[i]? := hok as₁ _ as₂ s₁ tr₁ has h₁
    exact ⟨r, s₁.shared, o, inp, sh, rep, _, List.mem_append_left _ harr, hwithin.call hi, hr,
      by simp⟩
  | drop inp o k sh evs₁ evs₂ hi hc =>
    obtain ⟨piece, rfl⟩ := cancel_appended (i := i) hc (List.mem_append_right _ List.mem_cons_self)
    exact absurd rfl (he piece)

lemma refused_consumed {req : UnsealRequest} {pre : List VaultEvent} {e : String}
    (hv : Verified D req pre (.error e)) (hform : WellFormed D req) :
    ∃ nonce t, .consumed nonce t false ∈ pre := by
  obtain ⟨nonce, hreq, hquote⟩ := hform
  generalize hres : Except.error e = v at hv
  cases hv with
  | early e' h =>
    rw [hreq] at h
    cases h
  | stale nonce' t h => exact ⟨nonce', t, List.mem_singleton_self _⟩
  | fresh nonce' t h =>
    rw [hreq] at h
    cases h
    rw [hquote] at hres
    cases hres

/-- As long as no renewal is malformed or short of a fresh nonce and no issuance fails, every
completed unseal and renewal has left its entry. -/
theorem completed_requests_recorded {tr : VaultTrace}
    (h : (vault D).exec (start file clock) as = some (s, tr))
    (hfiles : (vault D).Meets (Within FilesWork) (start file clock) as)
    (hform : ∀ req, .arrive (.postRenew req) ∈ as → WellFormed D req)
    (hloud : (vault D).Meets (Within (Loud D)) (start file clock) as) :
    ∀ l m i a r req, tr = l ++ .responded i a :: m → Event.arrived i r ∈ l →
      r.attested = some req → Recorded req (history i l) a := by
  rintro l m i a r req rfl harr hatt
  obtain ⟨r', harr', ho⟩ := run_outcome filesWork_ok h hfiles
  obtain rfl : r = r' :=
    arrived_unique h (List.mem_append_left _ harr) (List.mem_append_left _ harr')
  rw [recorded_iff ho hatt]
  have horigin : ∀ e, (∀ piece, e ≠ .appended piece) → e ∈ history i l →
      ∃ r' s₁ o inp sh rep evs, Event.arrived i r' ∈ l ∧ Loud D r' s₁ o inp ∧
        Process.reply D s₁ i o inp = some (sh, rep, evs) ∧ e ∈ evs := by
    intro e hne he
    obtain ⟨l₁, l₂, rfl⟩ := List.append_of_mem (mem_history.mp he)
    rw [List.append_assoc, List.cons_append] at h
    obtain ⟨r', s₁, o, inp, sh, rep, evs, harr₁, hrest⟩ := did_reply hne h hloud
    exact ⟨r', s₁, o, inp, sh, rep, evs, List.mem_append_left _ harr₁, hrest⟩
  rintro (⟨req', e, rfl, rfl⟩ | ⟨e, rfl⟩)
  · -- a refused renewal: its nonce was fresh, so it was accepted
    generalize hhist : history i l = H at ho horigin
    cases ho with
    | renewRefused _ _ _ hv =>
      have harrive : Action.arrive (.postRenew req') ∈ as :=
        arrived_arrive h (List.mem_append_left _ harr)
      obtain ⟨nonce, t, hmem⟩ := refused_consumed hv (hform req' harrive)
      obtain ⟨r', s₁, o, inp, sh, rep, evs, harr₁, hl, hrep, hin⟩ :=
        horigin _ (by simp) hmem
      obtain rfl : .postRenew req' = r' :=
        arrived_unique h (List.mem_append_left _ harr) (List.mem_append_left _ harr₁)
      obtain ⟨rfl, hfalse⟩ := reply_consumed hrep hin
      rw [NonceStore.consume_accepts.mpr (hl rfl)] at hfalse
      cases hfalse
  · -- a failed issuance: it could succeed
    generalize hhist : history i l = H at ho horigin
    cases ho with
    | issueFailed _ req' _ pre hr hv =>
      obtain ⟨r', s₁, o, inp, sh, rep, evs, -, hl, hrep, hin⟩ :=
        horigin (.issueCalled req'.serviceName (.error e)) (by simp) (by simp)
      obtain ⟨rfl, hres⟩ := reply_issueCalled hrep hin
      obtain ⟨c, hc⟩ := Issuer.issue_of_canIssue hl inp.utcNow
      rw [hc] at hres
      cases hres
    | revokeRefused body hnone => cases hatt

/-- An unseal and a renewal, both answered with a bundle. -/
def recordedRun : List VaultAction :=
  fetchNonce 0 ++ serve 1 8 (.postUnseal sampleRequest) ++ fetchNonce 2 ++
    serve 3 8 (.postRenew sampleRequest)

theorem completed_requests_recorded_run :
    ∃ s tr, (vault sampleDeployment).exec (start [] 0) recordedRun = some (s, tr) ∧
      s.shared.file.length = 2 ∧
      ∀ l m i a r req, tr = l ++ .responded i a :: m → Event.arrived i r ∈ l →
        r.attested = some req → Recorded req (history i l) a := by
  have hrun : ((vault sampleDeployment).exec (start [] 0) recordedRun).any
      (fun p => decide (p.1.shared.file.length = 2)) = true := by
    decide +kernel
  obtain ⟨s, tr, h, htest⟩ := Machine.exec_any hrun
  have hinputs : ∀ a ∈ recordedRun, ∀ inp ∈ a.inputs, inp.fileOk = true := by decide +kernel
  have hloud : (vault sampleDeployment).Meets (Within (Loud sampleDeployment)) (start [] 0)
      recordedRun := by
    decide +kernel
  have hform : ∀ req, .arrive (.postRenew req) ∈ recordedRun → WellFormed sampleDeployment req := by
    intro req hreq
    have heq : req = sampleRequest := by simpa [recordedRun, fetchNonce, serve] using hreq
    exact ⟨sampleNonce.1, by rw [heq]; rfl, by rw [heq]; rfl⟩
  exact ⟨s, tr, h, of_decide_eq_true htest,
    completed_requests_recorded h (filesWork_of_inputs hinputs) hform hloud⟩

def malformedRenewal : UnsealRequest := { sampleRequest with nonce := "" }

theorem refused_renewal_unrecorded :
    ∃ s l, (vault sampleDeployment).exec (start [] 0) (serve 0 1 (.postRenew malformedRenewal)) =
        some (s, l ++ [.responded 0 (.failed (.vaultRejected "nonce is required"))]) ∧
      (∀ a ∈ serve 0 1 (.postRenew malformedRenewal), ∀ inp ∈ a.inputs, inp.fileOk = true) ∧
      Event.arrived 0 (.postRenew malformedRenewal) ∈ l ∧ s.shared.file = [] ∧
      ¬Recorded malformedRenewal (history 0 l) (.failed (.vaultRejected "nonce is required")) := by
  refine ⟨_, [.arrived 0 (.postRenew malformedRenewal)], rfl, by decide +kernel, by simp, rfl, ?_⟩
  rintro ⟨entry, hlines, -⟩
  cases hlines

end SecureNet
