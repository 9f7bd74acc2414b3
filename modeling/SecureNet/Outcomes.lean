import SecureNet.Library.TaskEvents
import SecureNet.Routes

/-!
# What a handler does

The events of one request, from its arrival to its response, are a word of a small grammar:
at most one consumed nonce, then at most one issuance, then what `append` left in the log file.
`Outcome` is that grammar. `handle_safe` checks every handler against it call by call, and the
rules at the end carry it to any interleaving.
-/

namespace SecureNet

open Hex (Bytes)
open EventMachine Tasks Tasks.Prog

variable (D : Deployment)

inductive Verified (req : UnsealRequest) : List VaultEvent → Except String Unit → Prop
  | early (e : String) (h : verifyRequest D req = .error e) : Verified req [] (.error e)
  | stale (nonce : Bytes) (t : ℕ) (h : verifyRequest D req = .ok nonce) :
    Verified req [.consumed nonce t false] (.error nonceRefused)
  | fresh (nonce : Bytes) (t : ℕ) (h : verifyRequest D req = .ok nonce) :
    Verified req [.consumed nonce t true] (verifyQuote D req nonce)

/-- What `append` leaves in the file: the whole line when file operations work, and anything
from nothing to the whole line otherwise. -/
inductive Logged (works : Prop) (entry : IssuanceLogEntry) : List VaultEvent → Prop
  | line : Logged works entry [.appended (.line entry)]
  | broken (h : ¬works) (f : Flushed) : Logged works entry ((f.pieces entry).map .appended)

def Grants (req : UnsealRequest) (bundle : CertBundle) (entry : IssuanceLogEntry) : Prop :=
  ∃ timestamp, entry =
    grantEntry timestamp req.serviceName req.machineId bundle.serial bundle.expiresAt

def Rejects (req : UnsealRequest) (reason : String) (entry : IssuanceLogEntry) : Prop :=
  ∃ timestamp expiresAt,
    entry = rejectionEntry timestamp expiresAt req.serviceName req.machineId reason

/-- The events of a request that was answered. -/
inductive Outcome (works : Prop) : Request → List VaultEvent → Response → Prop
  | nonce (nonce : Nonce) (t : ℕ) :
    Outcome works .getNonce [.registered nonce.1 t] (.json (nonceBody nonce.1))
  | unsealRefused (req : UnsealRequest) (e : String) (pre log : List VaultEvent)
      (entry : IssuanceLogEntry) (hv : Verified D req pre (.error e)) (he : Rejects req e entry)
      (hl : Logged works entry log) :
    Outcome works (.postUnseal req) (pre ++ log) (.failed (.vaultRejected e))
  | renewRefused (req : UnsealRequest) (e : String) (pre : List VaultEvent)
      (hv : Verified D req pre (.error e)) :
    Outcome works (.postRenew req) pre (.failed (.vaultRejected e))
  | issueFailed (r : Request) (req : UnsealRequest) (e : String) (pre : List VaultEvent)
      (hr : r.attested = some req) (hv : Verified D req pre (.ok ())) :
    Outcome works r (pre ++ [.issueCalled req.serviceName (.error e)]) (.failed (.internal e))
  | granted (r : Request) (req : UnsealRequest) (c : Issued) (pre log : List VaultEvent)
      (entry : IssuanceLogEntry) (hr : r.attested = some req) (hv : Verified D req pre (.ok ()))
      (he : Grants req c.bundle entry) (hl : Logged works entry log) :
    Outcome works r (pre ++ .issueCalled req.serviceName (.ok c) :: log) (.unsealed ⟨c.bundle⟩)
  | revokeRefused (body : Value) (h : (body.get "serial").bind Value.asStr = none) :
    Outcome works (.postRevoke body) [] (.failed (.internal "missing serial field"))
  | revoked (body : Value) (serial : String)
      (h : (body.get "serial").bind Value.asStr = some serial) :
    Outcome works (.postRevoke body)
      [.revoked serial (((body.get "reason").bind Value.asStr).getD "no reason given")]
      (.json (revokedBody serial (((body.get "reason").bind Value.asStr).getD "no reason given")))
  | crl (serials : List String) :
    Outcome works .getCrl [.listed serials] (.json (crlBody serials))
  | health (issued : UInt64) : Outcome works .getHealth [] (.json (healthBody issued))

lemma Logged.weaken {works : Prop} {entry : IssuanceLogEntry} {log : List VaultEvent}
    (h : Logged works entry log) : Logged False entry log := by
  cases h with
  | line => exact .line
  | broken _ f => exact .broken not_false f

/-- What a request did before it was answered or dropped. -/
def Partial (r : Request) (h : List VaultEvent) : Prop :=
  ∃ rest a, Outcome D False r (h ++ rest) a

variable {D} {works : Prop}

lemma Outcome.done {r : Request} {h : List VaultEvent} {a : Response}
    (ho : Outcome D works r h a) : Partial D r h := by
  refine ⟨[], a, ?_⟩
  rw [List.append_nil]
  cases ho with
  | nonce nonce t => exact .nonce nonce t
  | unsealRefused req e pre log entry hv he hl =>
    exact .unsealRefused req e pre log entry hv he hl.weaken
  | renewRefused req e _ hv => exact .renewRefused req e _ hv
  | issueFailed r req e pre hr hv => exact .issueFailed r req e pre hr hv
  | granted r req c pre log entry hr hv he hl =>
    exact .granted r req c pre log entry hr hv he hl.weaken
  | revokeRefused body h => exact .revokeRefused body h
  | revoked body serial h => exact .revoked body serial h
  | crl serials => exact .crl serials
  | health issued => exact .health issued

def VaultOp.onFile : VaultOp → Bool
  | .createDirAll _ => true
  | .openLog => true
  | .writeAll _ => true
  | _ => false

def FilesWork (_ : Request) (_ : Process) (o : vaultSig.Op) (inp : Input) : Prop :=
  o.onFile = true → inp.fileOk = true

lemma filesWork_ok (r : Request) (s : Process) (o : VaultOp) (inp : Input)
    (h : FilesWork r s o inp) (_ : True) : o.onFile = true → inp.fileOk = true := h

section Safety

variable {ok : Process → VaultOp → Input → Prop} {Φ : List VaultEvent → Prop}

lemma verify_safe {req : UnsealRequest} (hnow : Φ []) :
    Safe (vaultEnv D) ok Φ (Verified D req) (verify D req) [] := by
  unfold verify
  cases hreq : verifyRequest D req with
  | error e => exact .early e hreq
  | ok nonce =>
    refine ⟨hnow, ?_, ?_⟩
    · intro s i inp t fresh evs _ hr
      simp only [vaultEnv, Process.reply] at hr
      split at hr
      · simp only [Option.some.injEq, Prod.mk.injEq] at hr
        obtain ⟨-, rfl, rfl⟩ := hr
        cases hfresh : (s.appState.nonceStore.consume nonce inp.instant).1 with
        | false => exact .stale nonce _ hreq
        | true => exact .fresh nonce _ hreq
      · cases hr
    · intro s i inp t evs _ hc
      cases hc
      exact hnow

variable (D works ok Φ) in
/-- A program whose history grows by the pieces of one write. -/
abbrev Logs (entry : IssuanceLogEntry) (h : List VaultEvent) (p : Vault Unit)
    (now : List VaultEvent) : Prop :=
  Safe (vaultEnv D) ok Φ (fun h' _ => ∃ log, h' = h ++ log ∧ Logged works entry log) p now

lemma unlock_logs {entry : IssuanceLogEntry} {h log : List VaultEvent} (hΦ : Φ (h ++ log))
    (hlog : Logged works entry log) :
    Logs D works ok Φ entry h (perform (S := vaultSig) .unlockLog) (h ++ log) := by
  refine ⟨hΦ, ?_, ?_⟩
  · intro s i inp t r evs _ hr
    cases hr
    exact ⟨log, List.append_nil _, hlog⟩
  · intro s i inp t evs _ hc
    cases hc

/-- A file operation that fails shows that not all file operations work. -/
lemma fail_logs {entry : IssuanceLogEntry} {h : List VaultEvent} {o : VaultOp} {inp : Input}
    (hok : works → o.onFile = true → inp.fileOk = true) (ho : o.onFile = true)
    (hf : inp.fileOk = false) (hnow : Φ h) :
    Logs D works ok Φ entry h (perform (S := vaultSig) .unlockLog) h := by
  have hbroken : ¬works := by
    intro hw
    rw [hok hw ho] at hf
    cases hf
  have hlog : Logged works entry [] := .broken hbroken .nothing
  rw [← List.append_nil h] at hnow
  have hlogs : Logs D works ok Φ entry h (perform (S := vaultSig) .unlockLog) (h ++ []) :=
    unlock_logs hnow hlog
  rwa [List.append_nil] at hlogs

lemma write_logs {entry : IssuanceLogEntry} {h : List VaultEvent}
    (hok : ∀ s o inp, ok s o inp → works → o.onFile = true → inp.fileOk = true)
    (hnow : Φ h) (hpieces : ∀ f : Flushed, Φ (h ++ (f.pieces entry).map .appended)) :
    Logs D works ok Φ entry h
      (do
        let _ ← perform (S := vaultSig) (.writeAll entry)
        perform (S := vaultSig) .unlockLog) h := by
  refine ⟨hnow, ?_, ?_⟩
  · intro s i inp t r evs hinp hr
    cases hr
    cases hf : inp.fileOk with
    | true => exact unlock_logs (hpieces .whole) .line
    | false =>
      refine unlock_logs (hpieces inp.flushed) (.broken ?_ inp.flushed)
      intro hw
      rw [hok s _ inp hinp hw rfl] at hf
      cases hf
  · intro s i inp t evs _ hc
    cases hc
    exact hpieces inp.flushed

lemma open_logs {entry : IssuanceLogEntry} {h : List VaultEvent}
    (hok : ∀ s o inp, ok s o inp → works → o.onFile = true → inp.fileOk = true)
    (hnow : Φ h) (hpieces : ∀ f : Flushed, Φ (h ++ (f.pieces entry).map .appended)) :
    Logs D works ok Φ entry h
      (do
        let opened : Bool ← perform (S := vaultSig) .openLog
        if opened then
          let _ ← perform (S := vaultSig) (.writeAll entry)
          perform (S := vaultSig) .unlockLog
        else perform (S := vaultSig) .unlockLog) h := by
  refine ⟨hnow, ?_, ?_⟩
  · intro s i inp t opened evs hinp hr
    cases hr
    rw [List.append_nil]
    cases hopened : inp.fileOk with
    | false => exact fail_logs (hok s _ inp hinp) rfl hopened hnow
    | true => exact write_logs hok hnow hpieces
  · intro s i inp t evs _ hc
    cases hc
    simpa using hnow

variable (works) in
/-- The calls of `append`: whatever happens, the history grows by the pieces of one write. -/
lemma append_safe {entry : IssuanceLogEntry} {h : List VaultEvent}
    (hok : ∀ s o inp, ok s o inp → works → o.onFile = true → inp.fileOk = true)
    (hpieces : ∀ f : Flushed, Φ (h ++ (f.pieces entry).map .appended)) :
    Safe (vaultEnv D) ok Φ (fun h' _ => ∃ log, h' = h ++ log ∧ Logged works entry log)
      (append D entry) h := by
  have hnow : Φ h := by simpa [Flushed.pieces] using hpieces .nothing
  unfold append
  refine ⟨hnow, ?_, ?_⟩
  · intro s i inp t r evs _ hr
    simp only [vaultEnv, Process.reply] at hr
    split at hr
    · cases hr
      rw [List.append_nil]
      cases D.logParent with
      | none => exact open_logs hok hnow hpieces
      | some parent =>
        refine ⟨hnow, ?_, ?_⟩
        · intro s' i' inp' t' made evs' hinp' hr'
          cases hr'
          rw [List.append_nil]
          cases hmade : inp'.fileOk with
          | false => exact fail_logs (hok s' _ inp' hinp') rfl hmade hnow
          | true => exact open_logs hok hnow hpieces
        · intro s' i' inp' t' evs' _ hc
          cases hc
          simpa using hnow
    · cases hr
  · intro s i inp t evs _ hc
    cases hc
    simpa using hnow

end Safety

section Handlers

lemma Partial.of_append {r : Request} {h h' : List VaultEvent} (hp : Partial D r (h ++ h')) :
    Partial D r h := by
  obtain ⟨rest, a, ho⟩ := hp
  exact ⟨h' ++ rest, a, by rwa [← List.append_assoc]⟩

lemma Verified.toPartial {r : Request} {req : UnsealRequest} {pre : List VaultEvent}
    {v : Except String Unit} (hr : r.attested = some req) (hv : Verified D req pre v) :
    Partial D r pre := by
  cases v with
  | ok _ => exact ⟨_, _, .issueFailed r req "" pre hr hv⟩
  | error e =>
    cases r with
    | postUnseal req' =>
      cases hr
      exact ⟨_, _, .unsealRefused req e pre _ _ hv ⟨0, 0, rfl⟩ .line⟩
    | postRenew req' =>
      cases hr
      exact ⟨[], _, by simpa using Outcome.renewRefused req e pre hv⟩
    | _ => cases hr

lemma attested_begins {r : Request} {req : UnsealRequest} (hr : r.attested = some req) :
    Partial D r [] := by
  have hv : ∃ pre v, Verified D req pre v := by
    cases h : verifyRequest D req with
    | error e => exact ⟨_, _, .early e h⟩
    | ok nonce => exact ⟨_, _, .stale nonce 0 h⟩
  obtain ⟨pre, v, hv⟩ := hv
  have hp : Partial D r ([] ++ pre) := hv.toPartial hr
  exact hp.of_append

variable (D) in
lemma begins (r : Request) : Partial D r [] := by
  cases r with
  | getNonce => exact ⟨_, _, .nonce ⟨List.replicate 32 0, rfl⟩ 0⟩
  | postUnseal req => exact attested_begins rfl
  | postRenew req => exact attested_begins rfl
  | postRevoke body =>
    cases h : (body.get "serial").bind Value.asStr with
    | none => exact ⟨[], _, .revokeRefused body h⟩
    | some serial => exact ⟨_, _, .revoked body serial h⟩
  | getCrl => exact ⟨_, _, .crl []⟩
  | getHealth => exact ⟨[], _, .health 0⟩

variable {ok : Process → VaultOp → Input → Prop}

lemma grant_safe {r : Request} {req : UnsealRequest} {pre : List VaultEvent}
    (hok : ∀ s o inp, ok s o inp → works → o.onFile = true → inp.fileOk = true)
    (hr : r.attested = some req) (hv : Verified D req pre (.ok ())) :
    Safe (vaultEnv D) ok (Partial D r) (Outcome D works r) (grant D req) pre := by
  unfold grant
  refine ⟨hv.toPartial hr, ?_, ?_⟩
  · intro s i inp t result evs _ hrep
    cases hrep
    cases hres : D.issuer.issue D.rcgen req.serviceName s.serialCounter inp.issueNow inp.leafKey
      inp.utcNow with
    | error e => exact .issueFailed r req e pre hr hv
    | ok c =>
      have hissued : Partial D r (pre ++ [.issueCalled req.serviceName (.ok c)]) :=
        ⟨_, _, by simpa using Outcome.granted r req c pre _ _ hr hv ⟨0, rfl⟩ .line⟩
      refine ⟨hissued, ?_, ?_⟩
      · intro s' i' inp' t' now evs' _ hrep'
        cases hrep'
        rw [List.append_nil]
        have hentry : Grants req c.bundle (grantEntry inp'.utcNow req.serviceName req.machineId
          c.bundle.serial c.bundle.expiresAt) := ⟨_, rfl⟩
        refine Safe.bind (append_safe works hok ?_) ?_
        · intro f
          refine ⟨[], .unsealed ⟨c.bundle⟩, ?_⟩
          rw [List.append_nil, List.append_assoc]
          exact .granted r req c pre _ _ hr hv hentry (.broken not_false f)
        · rintro _ _ ⟨log, rfl, hlog⟩
          have ho := Outcome.granted r req c pre log _ hr hv hentry hlog
          rwa [← List.singleton_append, ← List.append_assoc] at ho
      · intro s' i' inp' t' evs' _ hc
        cases hc
  · intro s i inp t evs _ hc
    cases hc

lemma unseal_safe (req : UnsealRequest)
    (hok : ∀ s o inp, ok s o inp → works → o.onFile = true → inp.fileOk = true) :
    Safe (vaultEnv D) ok (Partial D (.postUnseal req)) (Outcome D works (.postUnseal req))
      (Routes.unseal D req) [] := by
  unfold Routes.unseal
  refine Safe.bind (verify_safe (attested_begins rfl)) ?_
  intro pre v hv
  cases v with
  | ok _ => exact grant_safe hok rfl hv
  | error e =>
    -- two clock readings, then the append
    refine ⟨hv.toPartial rfl, ?_, ?_⟩
    · intro s i inp t now evs _ hrep
      cases hrep
      rw [List.append_nil]
      refine ⟨hv.toPartial rfl, ?_, ?_⟩
      · intro s' i' inp' t' now' evs' _ hrep'
        cases hrep'
        rw [List.append_nil]
        have hentry : Rejects req e (rejectionEntry inp.utcNow inp'.utcNow req.serviceName
          req.machineId e) := ⟨_, _, rfl⟩
        refine Safe.bind (append_safe works hok ?_) ?_
        · intro f
          refine ⟨[], .failed (.vaultRejected e), ?_⟩
          rw [List.append_nil]
          exact .unsealRefused req e pre _ _ hv hentry (.broken not_false f)
        · rintro _ _ ⟨log, rfl, hlog⟩
          exact .unsealRefused req e pre log _ hv hentry hlog
      · intro s' i' inp' t' evs' _ hc
        cases hc
    · intro s i inp t evs _ hc
      cases hc

lemma renew_safe (req : UnsealRequest)
    (hok : ∀ s o inp, ok s o inp → works → o.onFile = true → inp.fileOk = true) :
    Safe (vaultEnv D) ok (Partial D (.postRenew req)) (Outcome D works (.postRenew req))
      (Routes.renew D req) [] := by
  unfold Routes.renew
  refine Safe.bind (verify_safe (attested_begins rfl)) ?_
  intro pre v hv
  cases v with
  | ok _ => exact grant_safe hok rfl hv
  | error e => exact .renewRefused req e pre hv

/-- Every handler keeps to the grammar. -/
theorem handle_safe (r : Request)
    (hok : ∀ s o inp, ok s o inp → works → o.onFile = true → inp.fileOk = true) :
    Safe (vaultEnv D) ok (Partial D r) (Outcome D works r) (handle D r) [] := by
  cases r with
  | postUnseal req => exact unseal_safe req hok
  | postRenew req => exact renew_safe req hok
  | getNonce =>
    refine ⟨begins D _, ?_, fun s i inp t evs _ hc => by cases hc⟩
    intro s i inp t n evs _ hr
    cases hr
    refine ⟨begins D _, ?_, ?_⟩
    · intro s' i' inp' t' u evs' _ hr'
      simp only [vaultEnv, Process.reply] at hr'
      split at hr'
      · cases hr'
        exact .nonce inp.random inp'.instant
      · cases hr'
    · intro s' i' inp' t' evs' _ hc
      cases hc
      exact begins D _
  | postRevoke body =>
    simp only [handle, Routes.revoke]
    split
    · next h => exact .revokeRefused body h
    · next serial h =>
      refine ⟨begins D _, ?_, ?_⟩
      · intro s i inp t u evs _ hr
        cases hr
        exact .revoked body serial h
      · intro s i inp t evs _ hc
        cases hc
        exact begins D _
  | getCrl =>
    refine ⟨begins D _, ?_, ?_⟩
    · intro s i inp t serials evs _ hr
      cases hr
      exact .crl _
    · intro s i inp t evs _ hc
      cases hc
      exact begins D _
  | getHealth =>
    refine ⟨begins D _, ?_, fun s i inp t evs _ hc => by cases hc⟩
    intro s i inp t issued evs _ hr
    cases hr
    exact .health _

/-- When nothing is known of the log file, a write may leave anything. -/
lemma handle_safe_any (r : Request) :
    Safe (vaultEnv D) ok (Partial D r) (Outcome D False r) (handle D r) [] :=
  handle_safe r (fun _ _ _ _ hf => hf.elim)

end Handlers

section Grammar

lemma Verified.accepted {req : UnsealRequest} {pre : List VaultEvent} {v : Except String Unit}
    (hv : Verified D req pre v) (hok : v = .ok ()) :
    ∃ nonce t, verifyRequest D req = .ok nonce ∧ verifyQuote D req nonce = .ok () ∧
      pre = [.consumed nonce t true] := by
  cases hv with
  | early e h => cases hok
  | stale nonce t h => cases hok
  | fresh nonce t h => exact ⟨nonce, t, h, hok, rfl⟩

lemma Verified.consumed {req : UnsealRequest} {pre : List VaultEvent} {v : Except String Unit}
    (hv : Verified D req pre v) {e : VaultEvent} (he : e ∈ pre) :
    ∃ nonce t fresh, e = .consumed nonce t fresh := by
  cases hv with
  | early e' h => cases he
  | stale nonce t h => exact ⟨nonce, t, false, List.mem_singleton.mp he⟩
  | fresh nonce t h => exact ⟨nonce, t, true, List.mem_singleton.mp he⟩

lemma Logged.appended {entry : IssuanceLogEntry} {log : List VaultEvent}
    (hl : Logged works entry log) {e : VaultEvent} (he : e ∈ log) :
    e = .appended (.line entry) ∨ ∃ n, e = .appended (.torn entry n) := by
  cases hl with
  | line => exact .inl (List.mem_singleton.mp he)
  | broken h f =>
    cases f with
    | nothing => cases he
    | bytes n => exact .inr ⟨n, List.mem_singleton.mp he⟩
    | whole => exact .inl (List.mem_singleton.mp he)

/-- One event comes before an issuance, and none of its kind comes around it. -/
lemma Verified.issuance_split {req : UnsealRequest} {pre post p q : List VaultEvent}
    {serviceName svc : String} {result res : Except String Issued}
    (hv : Verified D req p (.ok ())) (hq : ∀ e ∈ q, e ≠ .issueCalled serviceName result)
    (hsplit : pre ++ .issueCalled serviceName result :: post = p ++ .issueCalled svc res :: q) :
    pre = p ∧ svc = serviceName ∧ res = result ∧ q = post := by
  obtain ⟨nonce, t, -, -, rfl⟩ := hv.accepted rfl
  rcases pre with - | ⟨x, pre⟩
  · simp at hsplit
  · simp only [List.cons_append, List.nil_append, List.cons.injEq] at hsplit
    obtain ⟨rfl, hrest⟩ := hsplit
    rcases pre with - | ⟨y, pre⟩
    · simp only [List.nil_append, List.cons.injEq, VaultEvent.issueCalled.injEq] at hrest
      exact ⟨rfl, hrest.1.1.symm, hrest.1.2.symm, hrest.2.symm⟩
    · simp only [List.cons_append, List.cons.injEq] at hrest
      exact absurd rfl (hq _ (hrest.2 ▸ by simp))

theorem Outcome.issuance {r : Request} {a : Response} {pre post : List VaultEvent}
    {serviceName : String} {result : Except String Issued}
    (ho : Outcome D works r (pre ++ .issueCalled serviceName result :: post) a) :
    ∃ req, r.attested = some req ∧ serviceName = req.serviceName ∧
      Verified D req pre (.ok ()) ∧
      ((∃ e, result = .error e ∧ post = [] ∧ a = .failed (.internal e)) ∨
        ∃ c entry, result = .ok c ∧ Grants req c.bundle entry ∧ Logged works entry post ∧
          a = .unsealed ⟨c.bundle⟩) := by
  have hmem : ∀ {H : List VaultEvent}, pre ++ .issueCalled serviceName result :: post = H →
      VaultEvent.issueCalled serviceName result ∈ H := fun hH => hH ▸ by simp
  generalize hH : pre ++ VaultEvent.issueCalled serviceName result :: post = H at ho
  cases ho with
  | nonce nonce t => simpa using hmem hH
  | unsealRefused req e pre' log entry hv he hl =>
    rcases List.mem_append.mp (hmem hH) with hin | hin
    · obtain ⟨_, _, _, h⟩ := hv.consumed hin
      cases h
    · rcases hl.appended hin with h | ⟨_, h⟩ <;> cases h
  | renewRefused req e _ hv =>
    obtain ⟨_, _, _, h⟩ := hv.consumed (hmem hH)
    cases h
  | issueFailed r req e pre' hr hv =>
    obtain ⟨rfl, rfl, rfl, rfl⟩ := hv.issuance_split (by simp) hH
    exact ⟨req, hr, rfl, hv, .inl ⟨e, rfl, rfl, rfl⟩⟩
  | granted r req c pre' log entry hr hv he hl =>
    have hlog : ∀ e ∈ log, e ≠ .issueCalled serviceName result := by
      rintro e hin rfl
      rcases hl.appended hin with h | ⟨_, h⟩ <;> cases h
    obtain ⟨rfl, rfl, rfl, rfl⟩ := hv.issuance_split hlog hH
    exact ⟨req, hr, rfl, hv, .inr ⟨c, entry, rfl, he, hl, rfl⟩⟩
  | revokeRefused body h => simpa using hmem hH
  | revoked body serial h => simpa using hmem hH
  | crl serials => simpa using hmem hH
  | health issued => simpa using hmem hH

/-- A whole line is the only piece of its write. -/
lemma Logged.line_split {entry entry' : IssuanceLogEntry} {pre post : List VaultEvent}
    (hl : Logged works entry' (pre ++ .appended (.line entry) :: post)) :
    pre = [] ∧ entry' = entry ∧ post = [] := by
  generalize hlog : pre ++ VaultEvent.appended (.line entry) :: post = log at hl
  cases hl with
  | line =>
    obtain ⟨rfl, h, rfl⟩ := split_singleton hlog
    cases h
    exact ⟨rfl, rfl, rfl⟩
  | broken _ f =>
    cases f with
    | nothing => simp [Flushed.pieces] at hlog
    | bytes n =>
      obtain ⟨-, h, -⟩ := split_singleton hlog
      cases h
    | whole =>
      obtain ⟨rfl, h, rfl⟩ := split_singleton hlog
      cases h
      exact ⟨rfl, rfl, rfl⟩

theorem Outcome.grantLine {r : Request} {a : Response} {pre post : List VaultEvent}
    {entry : IssuanceLogEntry} (hgrant : entry.granted = true)
    (ho : Outcome D works r (pre ++ .appended (.line entry) :: post) a) :
    ∃ req vpre c, r.attested = some req ∧ Verified D req vpre (.ok ()) ∧
      pre = vpre ++ [.issueCalled req.serviceName (.ok c)] ∧ Grants req c.bundle entry ∧
      post = [] := by
  have hmem : ∀ {H : List VaultEvent}, pre ++ .appended (.line entry) :: post = H →
      VaultEvent.appended (.line entry) ∈ H := fun hH => hH ▸ by simp
  generalize hH : pre ++ VaultEvent.appended (.line entry) :: post = H at ho
  cases ho with
  | nonce nonce t => simpa using hmem hH
  | unsealRefused req e pre' log entry' hv he hl =>
    rcases List.mem_append.mp (hmem hH) with hin | hin
    · obtain ⟨_, _, _, h⟩ := hv.consumed hin
      cases h
    · obtain ⟨timestamp, expiresAt, rfl⟩ := he
      rcases hl.appended hin with h | ⟨_, h⟩
      · cases h
        cases hgrant
      · cases h
  | renewRefused req e _ hv =>
    obtain ⟨_, _, _, h⟩ := hv.consumed (hmem hH)
    cases h
  | issueFailed r req e pre' hr hv =>
    rcases List.mem_append.mp (hmem hH) with hin | hin
    · obtain ⟨_, _, _, h⟩ := hv.consumed hin
      cases h
    · simp at hin
  | granted r req c pre' log entry' hr hv he hl =>
    obtain ⟨nonce, t, -, -, rfl⟩ := hv.accepted rfl
    -- the consumption, the issuance and one piece of the log are three events
    rcases pre with - | ⟨x, - | ⟨y, pre⟩⟩
    · simp at hH
    · simp at hH
    · simp only [List.cons_append, List.nil_append, List.cons.injEq] at hH
      obtain ⟨rfl, rfl, rfl⟩ := hH
      obtain ⟨rfl, rfl, rfl⟩ := hl.line_split
      exact ⟨req, [.consumed nonce t true], c, hr, hv, rfl, he, rfl⟩
  | revokeRefused body h => simpa using hmem hH
  | revoked body serial h => simpa using hmem hH
  | crl serials => simpa using hmem hH
  | health issued => simpa using hmem hH

lemma Outcome.ofRevoke {body : Value} {h : List VaultEvent} {v : Value}
    (ho : Outcome D works (.postRevoke body) h (.json v)) :
    ∃ serial reason, h = [.revoked serial reason] ∧ v = revokedBody serial reason := by
  cases ho with
  | revoked _ serial hserial => exact ⟨serial, _, rfl, rfl⟩

lemma Outcome.ofCrl {h : List VaultEvent} {a : Response} (ho : Outcome D works .getCrl h a) :
    ∃ serials, h = [.listed serials] ∧ a = .json (crlBody serials) := by
  cases ho with
  | crl serials => exact ⟨serials, rfl, rfl⟩
  | issueFailed r req e pre hr hv => cases hr
  | granted r req c pre log entry hr hv he hl => cases hr

end Grammar

section Runs

variable {file : List LogPiece} {clock : ℕ} {as : List VaultAction} {s : VaultSystem}

lemma filesWork_of_inputs (has : ∀ a ∈ as, ∀ inp ∈ a.inputs, inp.fileOk = true) :
    (vault D).Meets (Within FilesWork) (start file clock) as := by
  have hok : ∀ (r : Request) (s : Process) (o : VaultOp) (inp : Input), inp.fileOk = true →
      FilesWork r s o inp := fun _ _ _ _ hinp _ => hinp
  exact meets_of_inputs hok _ has

/-- A response of a run with its request and the events behind it. -/
theorem run_outcome {ok : Request → Process → VaultOp → Input → Prop}
    (hok : ∀ r s o inp, ok r s o inp → works → o.onFile = true → inp.fileOk = true)
    {l m : VaultTrace} {i : ℕ} {a : Response}
    (h : (vault D).exec (start file clock) as = some (s, l ++ .responded i a :: m))
    (hrun : (vault D).Meets (Within ok) (start file clock) as) :
    ∃ r, Event.arrived i r ∈ l ∧ Outcome D works r (history i l) a := by
  obtain ⟨as₁, b, as₂, s₁, tr₁, r, sh, evs, -, -, -, rfl, harr, -, ho⟩ :=
    exec_responded (begins D) (fun r => handle_safe r (hok r)) h hrun
  refine ⟨r, List.mem_append_left _ harr, ?_⟩
  rwa [history_append, history_map_did, if_pos rfl]

theorem run_history {tr : VaultTrace}
    (h : (vault D).exec (start file clock) as = some (s, tr)) {i : ℕ} {e : VaultEvent}
    (he : Event.did i e ∈ tr) :
    ∃ r, Event.arrived i r ∈ tr ∧ Partial D r (history i tr) := by
  have hall := exec_history (Φ := Partial D) (Ψ := Outcome D False)
    (begins D) handle_safe_any h (meets_true _ _)
  have hmem : e ∈ history i tr := mem_history.mpr he
  cases hi : s.tasks[i]? with
  | none =>
    rw [hall.2 i (List.getElem?_eq_none_iff.mp hi)] at hmem
    cases hmem
  | some t =>
    exact ⟨t.request, (exec_arrived h i t.request).mpr ⟨t, hi, rfl⟩,
      (hall.1 i t hi).now (fun _ _ _ ho => ho.done)⟩

/-- The issuance of a task in a run: its request arrived and passed `verify` before, and only
the pieces of one log write follow. -/
theorem run_issuance {l m : VaultTrace} {i : ℕ} {serviceName : String}
    {result : Except String Issued}
    (h : (vault D).exec (start file clock) as =
      some (s, l ++ .did i (.issueCalled serviceName result) :: m)) :
    ∃ r req, Event.arrived i r ∈ l ∧ r.attested = some req ∧ serviceName = req.serviceName ∧
      Verified D req (history i l) (.ok ()) ∧
      ∀ e ∈ history i m, ∃ piece, e = .appended piece := by
  obtain ⟨r, hr⟩ := did_arrived h
  obtain ⟨r', hr', rest, a, ho⟩ := run_history h (i := i)
    (e := .issueCalled serviceName result) (by simp)
  obtain rfl : r = r' := arrived_unique h (List.mem_append_left _ hr) hr'
  rw [history_append, history_did_cons, if_pos rfl, List.append_assoc, List.cons_append] at ho
  obtain ⟨req, hatt, hname, hv, hpost⟩ := ho.issuance
  refine ⟨r, req, hr, hatt, hname, hv, ?_⟩
  intro e he
  have hmem : e ∈ history i m ++ rest := List.mem_append_left _ he
  rcases hpost with ⟨e', -, hnil, -⟩ | ⟨c, entry, -, -, hlog, -⟩
  · rw [hnil] at hmem
    cases hmem
  · rcases hlog.appended hmem with h | ⟨n, h⟩
    · exact ⟨_, h⟩
    · exact ⟨_, h⟩

/-- The grants in the log of a run: nothing follows in the task, and before it came only the
accepted nonce and the issuance that the entry records. -/
theorem run_grantLine {l m : VaultTrace} {i : ℕ} {entry : IssuanceLogEntry}
    (hgrant : entry.granted = true)
    (h : (vault D).exec (start file clock) as =
      some (s, l ++ .did i (.appended (.line entry)) :: m)) :
    ∃ r req c vpre, Event.arrived i r ∈ l ∧ r.attested = some req ∧
      Verified D req vpre (.ok ()) ∧
      history i l = vpre ++ [.issueCalled req.serviceName (.ok c)] ∧
      Grants req c.bundle entry ∧ history i m = [] := by
  obtain ⟨r, hr⟩ := did_arrived h
  obtain ⟨r', hr', rest, a, ho⟩ := run_history h (i := i) (e := .appended (.line entry)) (by simp)
  obtain rfl : r = r' := arrived_unique h (List.mem_append_left _ hr) hr'
  rw [history_append, history_did_cons, if_pos rfl, List.append_assoc, List.cons_append] at ho
  obtain ⟨req, vpre, c, hatt, hv, hpre, hgrants, hpost⟩ := ho.grantLine hgrant
  exact ⟨r, req, c, vpre, hr, hatt, hv, hpre, hgrants, (List.append_eq_nil_iff.mp hpost).1⟩

end Runs

end SecureNet
