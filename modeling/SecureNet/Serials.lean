import SecureNet.Outcomes
import SecureNet.VaultReplay

/-!
# Serial numbers

`SERIAL_COUNTER` is a static of the process, so a certificate carries the number of the issue
calls of its process before it. Within a process serials differ; a restart starts again at 1.
-/

namespace SecureNet

open EventMachine Tasks

variable {D : Deployment} {file : List LogPiece} {clock : ℕ} {as : List VaultAction}
  {s : VaultSystem} {tr : VaultTrace}

def issuedOf : VaultTraceEvent → Option Issued
  | .did _ (.issueCalled _ (.ok c)) => some c
  | _ => none

def issued (tr : VaultTrace) : List Issued := tr.filterMap issuedOf

def isIssueCall : VaultTraceEvent → Bool
  | .did _ (.issueCalled _ _) => true
  | _ => false

/-- The number of issue calls, failed ones included: each takes a value of the counter. -/
def issueCalls (tr : VaultTrace) : ℕ := tr.countP isIssueCall

def SerialsDiffer (c c' : Issued) : Prop :=
  c.certificate.params.serialNumber ≠ c'.certificate.params.serialNumber ∧
    c.bundle.serial ≠ c'.bundle.serial

lemma issuedOf_eq {e : VaultTraceEvent} {c : Issued} (h : issuedOf e = some c) :
    ∃ i serviceName, e = .did i (.issueCalled serviceName (.ok c)) := by
  unfold issuedOf at h
  split at h
  · next i serviceName c' =>
    cases h
    exact ⟨i, serviceName, rfl⟩
  · cases h

lemma mem_issued {c : Issued} :
    c ∈ issued tr ↔ ∃ i serviceName, .did i (.issueCalled serviceName (.ok c)) ∈ tr := by
  unfold issued
  rw [List.mem_filterMap]
  constructor
  · rintro ⟨e, he, hc⟩
    obtain ⟨i, serviceName, rfl⟩ := issuedOf_eq hc
    exact ⟨i, serviceName, he⟩
  · rintro ⟨i, serviceName, he⟩
    exact ⟨_, he, rfl⟩

lemma replay_serialCounter (g : Ledger) (hlife : Event.restarted ∉ tr) :
    (g.replay tr).serialCounter = g.serialCounter + UInt64.ofNat (issueCalls tr) := by
  induction tr generalizing g with
  | nil => simp [issueCalls]
  | cons e tr ih =>
    have htail : Event.restarted ∉ tr := fun h => hlife (List.mem_cons_of_mem _ h)
    rw [Ledger.replay_cons, ih _ htail]
    unfold issueCalls
    cases e with
    | did i e =>
      cases e with
      | issueCalled serviceName result =>
        rw [List.countP_cons_of_pos rfl, UInt64.ofNat_add, Ledger.record]
        simp only [UInt64.add_assoc, UInt64.add_comm]
        rfl
      | _ => rfl
    | restarted => exact absurd List.mem_cons_self hlife
    | _ => rfl

/-- An issue call takes the counter value that the trace before it leaves. -/
theorem issueCalled_serial {l m : VaultTrace} {i : ℕ} {serviceName : String} {c : Issued}
    (h : (vault D).exec (start file clock) as =
      some (s, l ++ .did i (.issueCalled serviceName (.ok c)) :: m)) :
    c.certificate.params.serialNumber =
        some ((Ledger.initial file).replay l).serialCounter.toNat ∧
      c.bundle.serial = Issuer.serialHex ((Ledger.initial file).replay l).serialCounter ∧
      c.certificate.params.commonName = serviceName ++ ".securenet" := by
  obtain ⟨as₁, s₁, t, h₁, heff⟩ := vault_did (fun _ => by simp) h
  obtain ⟨now, leafKey, utcNow, hok⟩ := heff.issueCalled
  have hserial := Issuer.issue_serialNumber hok.symm
  obtain ⟨⟨names, hparams⟩, hhex, -⟩ := Issuer.issue_ok hok.symm
  have hcounter : s₁.shared.serialCounter = ((Ledger.initial file).replay l).serialCounter :=
    congrArg Ledger.serialCounter (ledger_eq_replay h₁)
  rw [← hcounter]
  exact ⟨hserial, hhex, by rw [hparams, Issuer.leafParams]⟩

lemma counter_ne (n : UInt64) {k : ℕ} (hk : k < 2 ^ 64 - 1) : n ≠ n + 1 + UInt64.ofNat k := by
  intro heq
  have hnat := congrArg UInt64.toNat heq
  have hn := n.toNat_lt
  rw [UInt64.toNat_add, UInt64.toNat_add, UInt64.toNat_ofNat'] at hnat
  have hone : (1 : UInt64).toNat = 1 := rfl
  omega

theorem serials_differ {l m n : VaultTrace} {i j : ℕ} {nm nm' : String} {c c' : Issued}
    (h : (vault D).exec (start file clock) as = some (s, tr))
    (htr : tr = l ++ .did i (.issueCalled nm (.ok c)) ::
      (m ++ .did j (.issueCalled nm' (.ok c')) :: n))
    (hlife : Event.restarted ∉ m) (hcount : issueCalls tr < 2 ^ 64) : SerialsDiffer c c' := by
  subst htr
  have h₁ := issueCalled_serial h
  rw [← List.cons_append, ← List.append_assoc] at h
  have h₂ := issueCalled_serial h
  rw [Ledger.replay_append, Ledger.replay_cons, replay_serialCounter _ hlife] at h₂
  have hbetween : issueCalls m < 2 ^ 64 - 1 := by
    unfold issueCalls at hcount ⊢
    rw [List.countP_append, List.countP_cons_of_pos rfl, List.countP_append,
      List.countP_cons_of_pos rfl] at hcount
    omega
  have hne := counter_ne ((Ledger.initial file).replay l).serialCounter hbetween
  constructor
  · rw [h₁.1, h₂.1]
    intro heq
    exact hne (UInt64.toNat_inj.mp (Option.some.inj heq))
  · rw [h₁.2.1, h₂.2.1]
    intro heq
    exact hne (Issuer.serialHex_inj heq)

/-- As long as no restart comes between two certificates, no two certificates share a serial. -/
theorem issued_serials_differ (h : (vault D).exec (start file clock) as = some (s, tr))
    (hcount : issueCalls tr < 2 ^ 64)
    (hprocess : ∀ l m, tr = l ++ .restarted :: m → issued l = [] ∨ issued m = []) :
    (issued tr).Pairwise SerialsDiffer := by
  unfold issued
  rw [List.pairwise_filterMap]
  apply pairwise_of_split
  intro l x m y n htr c hc c' hc'
  obtain ⟨i, nm, rfl⟩ := issuedOf_eq hc
  obtain ⟨j, nm', rfl⟩ := issuedOf_eq hc'
  refine serials_differ h htr ?_ hcount
  intro hrestart
  obtain ⟨m₁, m₂, rfl⟩ := List.append_of_mem hrestart
  have hsides := hprocess (l ++ .did i (.issueCalled nm (.ok c)) :: m₁)
    (m₂ ++ .did j (.issueCalled nm' (.ok c')) :: n) (by rw [htr]; simp)
  have hleft : c ∈ issued (l ++ .did i (.issueCalled nm (.ok c)) :: m₁) :=
    mem_issued.mpr ⟨i, nm, by simp⟩
  have hright : c' ∈ issued (m₂ ++ .did j (.issueCalled nm' (.ok c')) :: n) :=
    mem_issued.mpr ⟨j, nm', by simp⟩
  rcases hsides with hnil | hnil
  · rw [hnil] at hleft
    cases hleft
  · rw [hnil] at hright
    cases hright

/-- The first certificate of a process has the serial number 1, whatever was signed before. -/
theorem first_serial_after_restart {l m n : VaultTrace} {i : ℕ} {serviceName : String} {c : Issued}
    (h : (vault D).exec (start file clock) as =
      some (s, l ++ .restarted :: (m ++ .did i (.issueCalled serviceName (.ok c)) :: n)))
    (hlife : Event.restarted ∉ m) (hfirst : issueCalls m = 0) :
    c.certificate.params.serialNumber = some 1 := by
  rw [← List.cons_append, ← List.append_assoc] at h
  have hserial := (issueCalled_serial h).1
  rw [Ledger.replay_append, Ledger.replay_cons, replay_serialCounter _ hlife, hfirst] at hserial
  exact hserial

def twoProcesses : List VaultAction :=
  fetchNonce 0 ++ serve 1 2 (.postUnseal sampleRequest) ++ [.restart (sampleInput 0)] ++
    fetchNonce 2 ++ serve 3 2 (.postRenew sampleRequest)

theorem restart_repeats_serial :
    ∃ s tr, (vault sampleDeployment).exec (start [] 0) twoProcesses = some (s, tr) ∧
      issueCalls tr < 2 ^ 64 ∧ ¬(issued tr).Pairwise SerialsDiffer := by
  have hrun : ((vault sampleDeployment).exec (start [] 0) twoProcesses).any
      (fun p => decide (issueCalls p.2 < 2 ^ 64 ∧ (issued p.2).map (·.bundle.serial) =
        ["0000000000000001", "0000000000000001"])) = true := by
    decide +kernel
  obtain ⟨s, tr, h, htest⟩ := Machine.exec_any hrun
  obtain ⟨hcount, hserials⟩ := of_decide_eq_true htest
  refine ⟨s, tr, h, hcount, ?_⟩
  intro hdiffer
  have hnodup : ((issued tr).map (·.bundle.serial)).Nodup :=
    List.pairwise_map.mpr (hdiffer.imp (fun hd => hd.2))
  rw [hserials] at hnodup
  exact absurd hnodup (by decide)

def oneProcess : List VaultAction :=
  fetchNonce 0 ++ serve 1 2 (.postUnseal sampleRequest) ++ fetchNonce 2 ++
    serve 3 2 (.postRenew sampleRequest)

theorem issued_serials_differ_oneProcess :
    ∃ s tr, (vault sampleDeployment).exec (start [] 0) oneProcess = some (s, tr) ∧
      (issued tr).length = 2 ∧ (issued tr).Pairwise SerialsDiffer := by
  have hrun : ((vault sampleDeployment).exec (start [] 0) oneProcess).any
      (fun p => decide (issueCalls p.2 < 2 ^ 64 ∧ (issued p.2).length = 2 ∧
        Event.restarted ∉ p.2)) = true := by
    decide +kernel
  obtain ⟨s, tr, h, htest⟩ := Machine.exec_any hrun
  obtain ⟨hcount, hlen, hlife⟩ := of_decide_eq_true htest
  refine ⟨s, tr, h, hlen, issued_serials_differ h hcount ?_⟩
  intro l m htr
  exact absurd (by simp [htr]) hlife

end SecureNet
