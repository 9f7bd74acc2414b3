import SecureNet.Serials

/-!
# The audit of grants

Within one process the bundles that are returned, the certificates that are signed and the
granted entries of the issuance log correspond, whatever the schedule and whichever handlers are
dropped. A whole line is an entry of the log, a torn one is not.
-/

namespace SecureNet

open EventMachine Tasks

variable {D : Deployment} {file : List LogPiece} {clock : ℕ} {as : List VaultAction}
  {s : VaultSystem} {tr : VaultTrace}

def appendedOf : VaultTraceEvent → Option LogPiece
  | .did _ (.appended piece) => some piece
  | _ => none

def appended (tr : VaultTrace) : List LogPiece := tr.filterMap appendedOf

def isGrantOf (serial : String) : LogPiece → Bool
  | .line entry => entry.granted && entry.certSerial == serial
  | .torn _ _ => false

lemma appendedOf_eq {e : VaultTraceEvent} {piece : LogPiece} (h : appendedOf e = some piece) :
    ∃ i, e = .did i (.appended piece) := by
  unfold appendedOf at h
  split at h
  · next i piece' =>
    cases h
    exact ⟨i, rfl⟩
  · cases h

lemma mem_appended {piece : LogPiece} :
    piece ∈ appended tr ↔ ∃ i, .did i (.appended piece) ∈ tr := by
  unfold appended
  rw [List.mem_filterMap]
  constructor
  · rintro ⟨e, he, hp⟩
    obtain ⟨i, rfl⟩ := appendedOf_eq hp
    exact ⟨i, he⟩
  · rintro ⟨i, he⟩
    exact ⟨_, he, rfl⟩

lemma isGrantOf_iff {serial : String} {piece : LogPiece} :
    isGrantOf serial piece = true ↔
      ∃ entry, piece = .line entry ∧ entry.granted = true ∧ entry.certSerial = serial := by
  cases piece with
  | line entry => simp [isGrantOf]
  | torn entry n => simp [isGrantOf]

lemma replay_file (g : Ledger) : (g.replay tr).file = g.file ++ appended tr := by
  induction tr generalizing g with
  | nil => simp [appended]
  | cons e tr ih =>
    rw [Ledger.replay_cons, ih]
    unfold appended
    cases e with
    | did i e =>
      cases e with
      | appended piece =>
        simp only [Ledger.record, List.filterMap_cons, appendedOf, List.append_assoc,
          List.singleton_append]
      | _ => rfl
    | _ => rfl

theorem file_eq_appended (h : (vault D).exec (start file clock) as = some (s, tr)) :
    s.shared.file = file ++ appended tr := by
  have hfile := congrArg Ledger.file (ledger_eq_replay h)
  rw [replay_file] at hfile
  exact hfile

lemma issuer_unique (h : (vault D).exec (start file clock) as = some (s, tr))
    (hlife : Event.restarted ∉ tr) (hcount : issueCalls tr < 2 ^ 64) {i j : ℕ} {n n' : String}
    {c c' : Issued} (hi : Event.did i (.issueCalled n (.ok c)) ∈ tr)
    (hj : Event.did j (.issueCalled n' (.ok c')) ∈ tr)
    (hserial : c.bundle.serial = c'.bundle.serial) : i = j := by
  have hdiff : ∀ {l m k : VaultTrace} {i j : ℕ} {n n' : String} {c c' : Issued},
      c.bundle.serial = c'.bundle.serial →
      tr ≠ l ++ .did i (.issueCalled n (.ok c)) ::
        (m ++ .did j (.issueCalled n' (.ok c')) :: k) := by
    intro l m k i j n n' c c' hserial htr
    have hm : Event.restarted ∉ m := fun hr => hlife (by rw [htr]; simp [hr])
    exact (serials_differ h htr hm hcount).2 hserial
  obtain ⟨l, m, htr⟩ := List.append_of_mem hi
  rw [htr, List.mem_append, List.mem_cons] at hj
  rcases hj with hj | hj | hj
  · obtain ⟨l₁, l₂, rfl⟩ := List.append_of_mem hj
    have hsplit : tr = l₁ ++ .did j (.issueCalled n' (.ok c')) ::
        (l₂ ++ .did i (.issueCalled n (.ok c)) :: m) := by
      rw [htr]
      simp
    exact absurd hsplit (hdiff hserial.symm)
  · cases hj
    rfl
  · obtain ⟨m₁, m₂, rfl⟩ := List.append_of_mem hj
    exact absurd htr (hdiff hserial)

lemma grant_count_le (h : (vault D).exec (start file clock) as = some (s, tr))
    (hlife : Event.restarted ∉ tr) (hcount : issueCalls tr < 2 ^ 64) (serial : String) :
    (appended tr).countP (isGrantOf serial) ≤ 1 := by
  apply countP_le_one
  unfold appended
  rw [List.pairwise_filterMap]
  apply pairwise_of_split
  intro l x m y n htr piece hx piece' hy
  rintro ⟨hgrant, hgrant'⟩
  obtain ⟨i, rfl⟩ := appendedOf_eq hx
  obtain ⟨j, rfl⟩ := appendedOf_eq hy
  obtain ⟨entry, rfl, hg, hserial⟩ := isGrantOf_iff.mp hgrant
  obtain ⟨entry', rfl, hg', hserial'⟩ := isGrantOf_iff.mp hgrant'
  have hfirst : (vault D).exec (start file clock) as = some (s, l ++
    .did i (.appended (.line entry)) :: (m ++ .did j (.appended (.line entry')) :: n)) := by
    rw [← htr]
    exact h
  have hsecond : (vault D).exec (start file clock) as = some (s,
    (l ++ .did i (.appended (.line entry)) :: m) ++ .did j (.appended (.line entry')) :: n) := by
    rw [hfirst]
    simp
  obtain ⟨r, req, c, vpre, -, -, -, hpre, ⟨t, rfl⟩, hpost⟩ := run_grantLine hg hfirst
  obtain ⟨r', req', c', vpre', -, -, -, hpre', ⟨t', rfl⟩, -⟩ := run_grantLine hg' hsecond
  have hi : Event.did i (.issueCalled req.serviceName (.ok c)) ∈ tr := by
    rw [htr]
    exact List.mem_append_left _ (mem_history.mp (by rw [hpre]; simp))
  have hj : Event.did j (.issueCalled req'.serviceName (.ok c')) ∈ tr := by
    rw [htr, ← List.cons_append, ← List.append_assoc]
    exact List.mem_append_left _ (mem_history.mp (by rw [hpre']; simp))
  have hsame : i = j := issuer_unique h hlife hcount hi hj (hserial.trans hserial'.symm)
  subst hsame
  simp at hpost

lemma cert_count_le (h : (vault D).exec (start file clock) as = some (s, tr))
    (hlife : Event.restarted ∉ tr) (hcount : issueCalls tr < 2 ^ 64) (serial : String) :
    (issued tr).countP (fun c => c.bundle.serial == serial) ≤ 1 := by
  have hprocess : ∀ l m, tr = l ++ .restarted :: m → issued l = [] ∨ issued m = [] := by
    intro l m htr
    exact absurd (by rw [htr]; simp) hlife
  apply countP_le_one
  refine (issued_serials_differ h hcount hprocess).imp ?_
  rintro c c' hdiff ⟨hc, hc'⟩
  exact hdiff.2 ((eq_of_beq hc).trans (eq_of_beq hc').symm)

lemma response_logged {l m : VaultTrace} {i : ℕ} {b : CertBundle}
    (h : (vault D).exec (start file clock) as = some (s, l ++ .responded i (.unsealed ⟨b⟩) :: m))
    (hfiles : (vault D).Meets (Within FilesWork) (start file clock) as) :
    ∃ r req entry, Event.arrived i r ∈ l ∧ r.attested = some req ∧
      Event.did i (.appended (.line entry)) ∈ l ∧ Grants req b entry := by
  obtain ⟨r, harr, ho⟩ := run_outcome filesWork_ok h hfiles
  generalize hhist : history i l = H at ho
  generalize hresp : Response.unsealed ⟨b⟩ = a at ho
  cases ho with
  | granted r req c pre log entry hr hv he hl =>
    cases hresp
    cases hl with
    | line =>
      refine ⟨r, req, entry, harr, hr, mem_history.mp ?_, he⟩
      rw [hhist]
      simp
    | broken hbroken f => exact absurd trivial hbroken
  | _ => cases hresp

/-- The correspondence between bundles, certificates and granted entries in a trace. -/
structure GrantsMatch (D : Deployment) (tr : VaultTrace) : Prop where
  /-- A returned bundle has exactly one granted entry. It was written before the response, and
  agrees with the bundle and the request. -/
  returned : ∀ l m i b, tr = l ++ .responded i (.unsealed ⟨b⟩) :: m →
    (appended tr).countP (isGrantOf b.serial) = 1 ∧
    ∃ r req entry, Event.arrived i r ∈ l ∧ r.attested = some req ∧
      Event.did i (.appended (.line entry)) ∈ l ∧ entry.granted = true ∧
      entry.certSerial = b.serial ∧ entry.serviceName = req.serviceName ∧
      entry.machineId = req.machineId ∧ entry.expiresAt = b.expiresAt
  /-- A granted entry belongs to exactly one certificate, which its own task has signed for a
  request that passed `verify`. -/
  granted : ∀ l m i entry, tr = l ++ .did i (.appended (.line entry)) :: m →
    entry.granted = true →
    (issued tr).countP (fun c => c.bundle.serial == entry.certSerial) = 1 ∧
    ∃ r req c vpre, Event.arrived i r ∈ l ∧ r.attested = some req ∧
      Verified D req vpre (.ok ()) ∧
      history i l = vpre ++ [.issueCalled req.serviceName (.ok c)] ∧
      c.bundle.serial = entry.certSerial

/-- Within one process whose log file works, bundles, certificates and granted entries
correspond. -/
theorem grants_match_certificates (h : (vault D).exec (start file clock) as = some (s, tr))
    (hlife : Event.restarted ∉ tr) (hcount : issueCalls tr < 2 ^ 64)
    (hfiles : (vault D).Meets (Within FilesWork) (start file clock) as) :
    s.shared.file = file ++ appended tr ∧ GrantsMatch D tr := by
  refine ⟨file_eq_appended h, ?_, ?_⟩
  · intro l m i b htr
    have hrun := h
    rw [htr] at hrun
    obtain ⟨r, req, entry, harr, hatt, hline, hgrants⟩ := response_logged hrun hfiles
    have hentry : entry.granted = true ∧ entry.certSerial = b.serial ∧
        entry.serviceName = req.serviceName ∧ entry.machineId = req.machineId ∧
        entry.expiresAt = b.expiresAt := by
      obtain ⟨t, rfl⟩ := hgrants
      exact ⟨rfl, rfl, rfl, rfl, rfl⟩
    refine ⟨?_, r, req, entry, harr, hatt, hline, hentry⟩
    apply Nat.le_antisymm (grant_count_le h hlife hcount b.serial)
    apply List.countP_pos_iff.mpr
    refine ⟨.line entry, mem_appended.mpr ⟨i, ?_⟩,
      isGrantOf_iff.mpr ⟨entry, rfl, hentry.1, hentry.2.1⟩⟩
    rw [htr]
    exact List.mem_append_left _ hline
  · intro l m i entry htr hgrant
    have hrun := h
    rw [htr] at hrun
    obtain ⟨r, req, c, vpre, harr, hatt, hv, hpre, ⟨t, rfl⟩, -⟩ := run_grantLine hgrant hrun
    refine ⟨?_, r, req, c, vpre, harr, hatt, hv, hpre, rfl⟩
    apply Nat.le_antisymm (cert_count_le h hlife hcount _)
    apply List.countP_pos_iff.mpr
    refine ⟨c, mem_issued.mpr ⟨i, req.serviceName, ?_⟩, beq_self_eq_true _⟩
    have hmem : VaultEvent.issueCalled req.serviceName (.ok c) ∈ history i l := by simp [hpre]
    rw [htr]
    exact List.mem_append_left _ (mem_history.mp hmem)

/-- One unseal answered and one renewal dropped while its entry is being written. -/
def auditedRun : List VaultAction :=
  fetchNonce 0 ++ serve 1 8 (.postUnseal sampleRequest) ++ fetchNonce 2 ++
    serve 3 6 (.postRenew sampleRequest) ++ [.drop 3 (sampleInput 0)]

theorem grants_match_certificates_audited :
    ∃ s tr, (vault sampleDeployment).exec (start [] 0) auditedRun = some (s, tr) ∧
      (issued tr).length = 2 ∧ (appended tr).length = 1 ∧
      s.shared.file = appended tr ∧ GrantsMatch sampleDeployment tr := by
  have hrun : ((vault sampleDeployment).exec (start [] 0) auditedRun).any
      (fun p => decide (issueCalls p.2 < 2 ^ 64 ∧ Event.restarted ∉ p.2 ∧
        (issued p.2).length = 2 ∧ (appended p.2).length = 1)) = true := by
    decide +kernel
  obtain ⟨s, tr, h, htest⟩ := Machine.exec_any hrun
  obtain ⟨hcount, hlife, hissued, happended⟩ := of_decide_eq_true htest
  have hinputs : ∀ a ∈ auditedRun, ∀ inp ∈ a.inputs, inp.fileOk = true := by decide +kernel
  exact ⟨s, tr, h, hissued, happended,
    grants_match_certificates h hlife hcount (filesWork_of_inputs hinputs)⟩

end SecureNet
