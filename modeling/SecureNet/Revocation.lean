import SecureNet.Serials

/-!
# Revocation

The revocation list of a process holds exactly the strings that its revoke requests have named.
It is kept in memory: nothing leaves it while the process lives, and a restart empties it.
-/

namespace SecureNet

open EventMachine Tasks

variable {D : Deployment} {file : List LogPiece} {clock : ℕ} {as : List VaultAction}
  {s : VaultSystem} {tr : VaultTrace}

lemma isRevoked_iff {self : AppState} {serial : String} :
    self.isRevoked serial = true ↔ serial ∈ self.revoked := AList.lookup_isSome

lemma count_revocationList (self : AppState) (serial : String) :
    self.revocationList.count serial = if self.isRevoked serial = true then 1 else 0 := by
  unfold AppState.revocationList
  rw [List.Nodup.count self.revoked.keys_nodup]
  simp only [isRevoked_iff, AList.mem_keys]

lemma mem_replay_revoked (g : Ledger) (hlife : Event.restarted ∉ tr) (serial : String) :
    serial ∈ (g.replay tr).revoked ↔
      serial ∈ g.revoked ∨ ∃ i reason, .did i (.revoked serial reason) ∈ tr := by
  induction tr generalizing g with
  | nil => simp
  | cons e tr ih =>
    have htail : Event.restarted ∉ tr := fun h => hlife (List.mem_cons_of_mem _ h)
    rw [Ledger.replay_cons, ih _ htail]
    cases e with
    | did i e =>
      cases e with
      | revoked serial' reason =>
        simp only [Ledger.record, AList.mem_insert, List.mem_cons, Event.did.injEq,
          VaultEvent.revoked.injEq]
        constructor
        · rintro ((rfl | h) | ⟨j, reason', h⟩)
          · exact .inr ⟨i, reason, .inl ⟨rfl, rfl, rfl⟩⟩
          · exact .inl h
          · exact .inr ⟨j, reason', .inr h⟩
        · rintro (h | ⟨j, reason', ⟨rfl, rfl, rfl⟩ | h⟩)
          · exact .inl (.inr h)
          · exact .inl (.inl rfl)
          · exact .inr ⟨j, reason', h⟩
      | _ => simp [Ledger.record]
    | restarted => exact absurd List.mem_cons_self hlife
    | _ => simp [Ledger.record]

lemma revoked_eq_replay (h : (vault D).exec (start file clock) as = some (s, tr)) :
    s.shared.appState.revoked = ((Ledger.initial file).replay tr).revoked := by
  rw [← ledger_eq_replay h]
  rfl

theorem isRevoked_iff_named (h : (vault D).exec (start file clock) as = some (s, tr))
    (hlife : Event.restarted ∉ tr) (serial : String) :
    s.shared.appState.isRevoked serial = true ↔
      ∃ i reason, .did i (.revoked serial reason) ∈ tr := by
  rw [isRevoked_iff, revoked_eq_replay h, mem_replay_revoked _ hlife]
  simp [Ledger.initial]

/-- What is on the list stays there until a restart. -/
theorem isRevoked_stays {as₁ as₂ : List VaultAction} {s₁ : VaultSystem} {tr₁ tr₂ : VaultTrace}
    (h₁ : (vault D).exec (start file clock) as₁ = some (s₁, tr₁))
    (h₂ : (vault D).exec s₁ as₂ = some (s, tr₂)) (hlife : Event.restarted ∉ tr₂)
    {serial : String} (hrevoked : s₁.shared.appState.isRevoked serial = true) :
    s.shared.appState.isRevoked serial = true := by
  have h := Machine.exec_append.mpr ⟨s₁, tr₁, tr₂, h₁, h₂, rfl⟩
  rw [isRevoked_iff, revoked_eq_replay h₁] at hrevoked
  rw [isRevoked_iff, revoked_eq_replay h, Ledger.replay_append, mem_replay_revoked _ hlife]
  exact .inl hrevoked

lemma step_issueCalled {t : VaultSystem} {a : VaultAction} {evs : VaultTrace} {i : ℕ}
    {serviceName : String} {c : Issued} (h : (vault D).step s a = some (t, evs))
    (hissue : .did i (.issueCalled serviceName (.ok c)) ∈ evs) :
    c.bundle.serial = Issuer.serialHex s.shared.serialCounter := by
  obtain ⟨l, m, rfl⟩ := List.append_of_mem hissue
  obtain ⟨r, evs₁, hcaused, -⟩ := step_did (step_cases h)
  obtain ⟨sh, evs₂, heff⟩ := caused_effect hcaused
  rw [heff.single (List.mem_append_right _ List.mem_cons_self) (fun _ => by simp)] at heff
  obtain ⟨now, leafKey, utcNow, hok⟩ := heff.issueCalled
  exact (Issuer.issue_ok hok.symm).2.1

lemma serial_fresh (h : (vault D).exec (start file clock) as = some (s, tr))
    (hlife : Event.restarted ∉ tr) (hcount : issueCalls tr < 2 ^ 64 - 1) {c : Issued}
    (hc : c ∈ issued tr) : c.bundle.serial ≠ Issuer.serialHex s.shared.serialCounter := by
  obtain ⟨i, serviceName, hmem⟩ := mem_issued.mp hc
  obtain ⟨l, m, rfl⟩ := List.append_of_mem hmem
  have hm : Event.restarted ∉ m :=
    fun hr => hlife (List.mem_append_right _ (List.mem_cons_of_mem _ hr))
  have hnow : s.shared.serialCounter = ((Ledger.initial file).replay _).serialCounter :=
    congrArg Ledger.serialCounter (ledger_eq_replay h)
  have hbetween : issueCalls m < 2 ^ 64 - 1 := by
    unfold issueCalls at hcount ⊢
    rw [List.countP_append, List.countP_cons_of_pos rfl] at hcount
    omega
  rw [(issueCalled_serial h).2.1, hnow, Ledger.replay_append, Ledger.replay_cons,
    replay_serialCounter _ hm]
  intro heq
  exact counter_ne _ hbetween (Issuer.serialHex_inj heq)

def namedOf : VaultTraceEvent → Option String
  | .did _ (.revoked serial _) => some serial
  | _ => none

/-- At the moment of its signing a serial is on the list exactly if a revoke request of the
process has named it already; with revocations of issued serials only, it never is. -/
theorem revoked_at_issuance_iff (h : (vault D).exec (start file clock) as = some (s, tr))
    (hlife : Event.restarted ∉ tr) {t : VaultSystem} {a : VaultAction} {evs : VaultTrace} {i : ℕ}
    {serviceName : String} {c : Issued} (hstep : (vault D).step s a = some (t, evs))
    (hissue : .did i (.issueCalled serviceName (.ok c)) ∈ evs) :
    (s.shared.appState.isRevoked c.bundle.serial = true ↔
      ∃ j reason, .did j (.revoked c.bundle.serial reason) ∈ tr) ∧
    (issueCalls tr < 2 ^ 64 - 1 →
      (∀ p serial, tr[p]?.bind namedOf = some serial →
        ∃ c' ∈ issued (tr.take p), c'.bundle.serial = serial) →
      s.shared.appState.isRevoked c.bundle.serial = false) := by
  refine ⟨isRevoked_iff_named h hlife _, ?_⟩
  intro hcount hknown
  rw [Bool.eq_false_iff]
  intro hrevoked
  obtain ⟨j, reason, hmem⟩ := (isRevoked_iff_named h hlife _).mp hrevoked
  obtain ⟨p, hp⟩ := List.mem_iff_getElem?.mp hmem
  obtain ⟨c', hc', hserial⟩ := hknown p c.bundle.serial (by rw [hp]; rfl)
  have hc : c' ∈ issued tr := by
    obtain ⟨k, nm, hin⟩ := mem_issued.mp hc'
    exact mem_issued.mpr ⟨k, nm, List.mem_of_mem_take hin⟩
  apply serial_fresh h hlife hcount hc
  rw [hserial, step_issueCalled hstep hissue]

def revokeBody (serial : String) : Value := .object [("serial", .string serial)]

/-- A serial is revoked before the first certificate is signed. -/
def revokedInAdvance : List VaultAction :=
  serve 0 1 (.postRevoke (revokeBody "0000000000000001")) ++ fetchNonce 1 ++
    serve 2 1 (.postUnseal sampleRequest)

theorem certificate_born_revoked :
    ∃ s tr t u m c, (vault sampleDeployment).exec (start [] 0) revokedInAdvance = some (s, tr) ∧
      (vault sampleDeployment).step s (.poll 2 (sampleInput 0)) =
        some (t, [.did 2 (.issueCalled "order-service" (.ok c))]) ∧
      (vault sampleDeployment).exec t (List.replicate 6 (.poll 2 (sampleInput 0))) =
        some (u, m ++ [.responded 2 (.unsealed ⟨c.bundle⟩)]) ∧
      Event.restarted ∉ tr ∧ s.shared.appState.isRevoked c.bundle.serial = true :=
  ⟨_, _, _, _, [.did 2 (.appended (.line (grantEntry 0 "order-service" "machine-1"
    "0000000000000001" 300000000000)))], _, rfl, rfl, rfl, by decide, rfl⟩

/-- A serial is revoked after it was issued, and another certificate is about to be signed. -/
def revokedAfterIssue : List VaultAction :=
  fetchNonce 0 ++ serve 1 8 (.postUnseal sampleRequest) ++
    serve 2 1 (.postRevoke (revokeBody "0000000000000001")) ++ fetchNonce 3 ++
    serve 4 1 (.postUnseal sampleRequest)

theorem revoked_at_issuance_iff_revokedAfterIssue :
    ∃ s tr t c, (vault sampleDeployment).exec (start [] 0) revokedAfterIssue = some (s, tr) ∧
      (vault sampleDeployment).step s (.poll 4 (sampleInput 0)) =
        some (t, [.did 4 (.issueCalled "order-service" (.ok c))]) ∧
      (s.shared.appState.isRevoked c.bundle.serial = true ↔
        ∃ j reason, .did j (.revoked c.bundle.serial reason) ∈ tr) ∧
      s.shared.appState.isRevoked c.bundle.serial = false := by
  have hrun : ∃ s tr t c,
      (vault sampleDeployment).exec (start [] 0) revokedAfterIssue = some (s, tr) ∧
      (vault sampleDeployment).step s (.poll 4 (sampleInput 0)) =
        some (t, [.did 4 (.issueCalled "order-service" (.ok c))]) := ⟨_, _, _, _, rfl, rfl⟩
  have htest : ((vault sampleDeployment).exec (start [] 0) revokedAfterIssue).any
      (fun r => decide (Event.restarted ∉ r.2 ∧ issueCalls r.2 < 2 ^ 64 - 1 ∧
        ∀ p < r.2.length, ∀ serial ∈ r.2[p]?.bind namedOf,
          ∃ c' ∈ issued (r.2.take p), c'.bundle.serial = serial)) = true := by
    decide +kernel
  obtain ⟨s, tr, t, c, h, hstep⟩ := hrun
  rw [h, Option.any_some] at htest
  obtain ⟨hlife, hcount, hknown⟩ := of_decide_eq_true htest
  have hmain := revoked_at_issuance_iff h hlife hstep (List.mem_singleton_self _)
  refine ⟨s, tr, t, c, h, hstep, hmain.1, hmain.2 hcount ?_⟩
  intro p serial hp
  refine hknown p ?_ serial hp
  by_contra hge
  rw [List.getElem?_eq_none (Nat.not_lt.mp hge)] at hp
  cases hp

section Durable

/-- Revoke and crl requests do nothing before their last call. -/
def OneCall (r : Request) (h : List VaultEvent) : Prop :=
  match r with
  | .postRevoke _ => h = []
  | .getCrl => h = []
  | _ => True

lemma handle_oneCall (r : Request) {ok : Process → VaultOp → Input → Prop} :
    Safe (vaultEnv D) ok (OneCall r) (Outcome D False r) (handle D r) [] := by
  cases r with
  | postRevoke body =>
    simp only [handle, Routes.revoke]
    split
    · next h => exact .revokeRefused body h
    · next serial h =>
      refine ⟨rfl, ?_, ?_⟩
      · intro s i inp t u evs _ hr
        cases hr
        exact .revoked body serial h
      · intro s i inp t evs _ hc
        cases hc
        rfl
  | getCrl =>
    refine ⟨rfl, ?_, ?_⟩
    · intro s i inp t serials evs _ hr
      cases hr
      exact .crl _
    · intro s i inp t evs _ hc
      cases hc
      rfl
  | _ => exact (handle_safe_any _).mono (fun _ _ => trivial) (fun _ _ ho => ho)

/-- The step that answers a revoke or crl request does all that the request does. -/
lemma answered_in_one_step {l m : VaultTrace} {i : ℕ} {a : Response}
    (h : (vault D).exec (start file clock) as = some (s, l ++ .responded i a :: m)) {r : Request}
    (harr : Event.arrived i r ∈ l) (hr : ∀ h, OneCall r h → h = []) :
    ∃ as₁ b as₂ s₁ tr₁ sh evs, as = as₁ ++ b :: as₂ ∧
      (vault D).exec (start file clock) as₁ = some (s₁, tr₁) ∧
      l = tr₁ ++ evs.map (.did i) ∧ Effect D s₁.shared sh evs ∧ Outcome D False r evs a := by
  have hstart : ∀ r : Request, OneCall r [] := by
    intro r
    cases r <;> first | rfl | trivial
  have hsafe : ∀ r, Safe (vaultEnv D) (fun _ _ _ => True) (OneCall r) (Outcome D False r)
      (handle D r) [] := fun r => handle_oneCall r
  obtain ⟨as₁, b, as₂, s₁, tr₁, r', sh, evs, has, h₁, hans, rfl, harr', hone, ho⟩ :=
    exec_responded hstart hsafe h (meets_true _ _)
  obtain rfl : r = r' :=
    arrived_unique h (List.mem_append_left _ harr)
      (List.mem_append_left _ (List.mem_append_left _ harr'))
  rw [hr _ hone, List.nil_append] at ho
  refine ⟨as₁, b, as₂, s₁, tr₁, sh, evs, has, h₁, rfl, ?_, ho⟩
  cases hans with
  | respond inp hi => exact .lock _
  | perform inp o k sh rep evs hi hrep hk => exact reply_effect hrep

lemma isRevoked_after {l m : VaultTrace} {i : ℕ} {serial reason : String}
    (h : (vault D).exec (start file clock) as =
      some (s, l ++ .did i (.revoked serial reason) :: m)) (hlife : Event.restarted ∉ m) :
    s.shared.appState.isRevoked serial = true := by
  rw [isRevoked_iff, revoked_eq_replay h, Ledger.replay_append, Ledger.replay_cons,
    mem_replay_revoked _ hlife, Ledger.record, AList.mem_insert]
  exact .inl (.inl rfl)

/-- A successful revocation holds in every later state of the process, and every later crl
response of the process has the serial exactly once. -/
theorem revoked_until_restart {l m : VaultTrace} {i : ℕ} {body : Value} {serial reason : String}
    (h : (vault D).exec (start file clock) as =
      some (s, l ++ .responded i (.json (revokedBody serial reason)) :: m))
    (harr : Event.arrived i (.postRevoke body) ∈ l) (hlife : Event.restarted ∉ m) :
    s.shared.appState.isRevoked serial = true ∧
    ∀ m₁ j b m₂, m = m₁ ++ .responded j b :: m₂ →
      Event.arrived j .getCrl ∈ l ++ .responded i (.json (revokedBody serial reason)) :: m₁ →
      ∃ serials, b = .json (crlBody serials) ∧ serials.count serial = 1 := by
  obtain ⟨-, -, -, -, tr₁, -, evs, -, -, rfl, -, ho⟩ := answered_in_one_step h harr (fun _ h => h)
  obtain ⟨serial', reason', rfl, hbody⟩ := ho.ofRevoke
  obtain ⟨rfl, rfl⟩ : serial = serial' ∧ reason = reason' := by simpa [revokedBody] using hbody
  have hlater : ∀ {as' : List VaultAction} {s' : VaultSystem} {m' : VaultTrace},
      (vault D).exec (start file clock) as' = some (s',
        (tr₁ ++ [.did i (.revoked serial reason)]) ++
          .responded i (.json (revokedBody serial reason)) :: m') →
      (∀ e ∈ m', e ∈ m) → s'.shared.appState.isRevoked serial = true := by
    intro as' s' m' h' hsub
    rw [List.append_assoc, List.singleton_append] at h'
    apply isRevoked_after h'
    intro hr
    rcases List.mem_cons.mp hr with hr | hr
    · cases hr
    · exact hlife (hsub _ hr)
  refine ⟨hlater h (fun _ he => he), ?_⟩
  rintro m₁ j b m₂ rfl hcrl
  rw [← List.cons_append, ← List.append_assoc] at h
  obtain ⟨as₁, -, -, s₂, tr₂, sh, evs₂, -, h₂, htr₂, heff, ho₂⟩ :=
    answered_in_one_step h hcrl (fun _ h => h)
  obtain ⟨serials, rfl, rfl⟩ := ho₂.ofCrl
  refine ⟨serials, rfl, ?_⟩
  -- the listing is the last event before the response, so the revocation came before it
  rw [heff.listed, count_revocationList, if_pos]
  rcases List.eq_nil_or_concat m₁ with rfl | ⟨m', z, rfl⟩
  · have hlast := (List.append_inj' htr₂ rfl).2
    simp at hlast
  · rw [List.concat_eq_append, ← List.cons_append, ← List.append_assoc] at htr₂
    obtain ⟨rfl, -⟩ := List.append_inj' htr₂ rfl
    exact hlater h₂ (fun e he => by simp [he])

end Durable

/-- A certificate is issued and revoked, and the list is served by the next process. -/
def revokedThenRestarted : List VaultAction :=
  fetchNonce 0 ++ serve 1 8 (.postUnseal sampleRequest) ++
    serve 2 1 (.postRevoke (revokeBody "0000000000000001")) ++ [.restart (sampleInput 0)] ++
    serve 3 1 .getCrl

theorem restart_forgets_revocation :
    ∃ s tr b, (vault sampleDeployment).exec (start [] 0) revokedThenRestarted = some (s, tr) ∧
      (∀ a ∈ revokedThenRestarted, ∀ inp ∈ a.inputs, inp.utcNow = 0) ∧
      tr[7]? = some (.responded 1 (.unsealed ⟨b⟩)) ∧ b.serial = "0000000000000001" ∧
      0 < b.expiresAt ∧
      tr[10]? = some (.responded 2
        (.json (revokedBody "0000000000000001" "no reason given"))) ∧
      tr[14]? = some (.responded 3 (.json (crlBody []))) ∧
      s.shared.appState.isRevoked "0000000000000001" = false :=
  ⟨_, _, _, rfl, by decide +kernel, rfl, rfl, by decide, rfl, rfl, rfl⟩

theorem revoked_until_restart_crl :
    ∃ s l, (vault sampleDeployment).exec (start [] 0)
        (serve 0 1 (.postRevoke (revokeBody "00")) ++ serve 1 1 .getCrl) =
          some (s, l ++ .responded 0 (.json (revokedBody "00" "no reason given")) ::
            [.arrived 1 .getCrl, .did 1 (.listed ["00"]),
              .responded 1 (.json (crlBody ["00"]))]) ∧
      s.shared.appState.isRevoked "00" = true ∧
      ∃ serials, Response.json (crlBody ["00"]) = .json (crlBody serials) ∧
        serials.count "00" = 1 := by
  have hrun : ∃ s, (vault sampleDeployment).exec (start [] 0)
      (serve 0 1 (.postRevoke (revokeBody "00")) ++ serve 1 1 .getCrl) =
        some (s, [.arrived 0 (.postRevoke (revokeBody "00")),
          .did 0 (.revoked "00" "no reason given")] ++
          .responded 0 (.json (revokedBody "00" "no reason given")) ::
            [.arrived 1 .getCrl, .did 1 (.listed ["00"]),
              .responded 1 (.json (crlBody ["00"]))]) := ⟨_, rfl⟩
  obtain ⟨s, h⟩ := hrun
  have hmain := revoked_until_restart h List.mem_cons_self (by decide)
  refine ⟨s, _, h, hmain.1, ?_⟩
  exact hmain.2 [.arrived 1 .getCrl, .did 1 (.listed ["00"])] 1 _ [] rfl (by simp)

end SecureNet
