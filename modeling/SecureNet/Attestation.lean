import SecureNet.Library.SoloRuns
import SecureNet.Routes

/-!
# What attestation decides and what it removes

The decision of `verify` and its effect on the nonce store, for every request, allowlist, store and
time. All that it changes is the entry of the nonce, and only after the checks that need no store.
-/

namespace SecureNet

open Hex (Bytes)
open Tasks

/-- The machine may be unsealed, and the nonce is hex text for some bytes. -/
structure Admissible (D : Deployment) (req : UnsealRequest) (bytes : Bytes) : Prop where
  machine : "dev" ∈ D.allowlist.machineIds ∨ req.machineId ∈ D.allowlist.machineIds
  nonempty : req.nonce ≠ ""
  hex : req.nonce.toLower = Hex.encode bytes

/-- A request that is accepted at time `now`. -/
structure Attested (D : Deployment) (store : NonceStore) (now : ℕ) (req : UnsealRequest)
    (bytes : Bytes) : Prop extends Admissible D req bytes where
  registered : ∃ issuedAt, store.lookup bytes = some issuedAt ∧ now - issuedAt < seconds 30
  quote : req.tpmQuote = "" ∨ req.tpmQuote = Hex.encode (D.sha256 bytes)

variable {D : Deployment} {req : UnsealRequest}

lemma allowlist_contains {allowlist : Allowlist} {machineId : String} :
    allowlist.contains machineId = true ↔
      "dev" ∈ allowlist.machineIds ∨ machineId ∈ allowlist.machineIds := by
  unfold Allowlist.contains
  by_cases hdev : "dev" ∈ allowlist.machineIds
  · simp [hdev]
  · simp [hdev]

lemma verifyRequest_iff {bytes : Bytes} :
    verifyRequest D req = .ok bytes ↔ Admissible D req bytes := by
  rw [verifyRequest_ok_iff, allowlist_contains, Hex.decode_eq_some]
  constructor
  · rintro ⟨hmachine, hnonempty, hhex⟩
    exact ⟨hmachine, hnonempty, hhex⟩
  · rintro ⟨hmachine, hnonempty, hhex⟩
    exact ⟨hmachine, hnonempty, hhex⟩

lemma Admissible.unique {bytes bytes' : Bytes} (h : Admissible D req bytes)
    (h' : Admissible D req bytes') : bytes = bytes' := by
  have heq := (verifyRequest_iff.mpr h).symm.trans (verifyRequest_iff.mpr h')
  exact Except.ok.inj heq

/-- `verify` behind its first three checks: the one call that it makes, and what follows. -/
lemma run_verify {s : Process} {inp : Input} {bytes : Bytes} (i : ℕ)
    (hclock : s.clockOk inp = true) (hrequest : verifyRequest D req = .ok bytes) :
    Prog.run (vaultEnv D) i inp s (verify D req) =
      some ({ s with
          appState.nonceStore := s.appState.nonceStore.erase bytes
          clock := inp.instant },
        if (s.appState.nonceStore.consume bytes inp.instant).1 then verifyQuote D req bytes
        else .error nonceRefused,
        [.consumed bytes inp.instant (s.appState.nonceStore.consume bytes inp.instant).1]) := by
  unfold verify
  rw [hrequest]
  have hreply : (vaultEnv D).reply s i (.consumeNonce bytes) inp =
      some ({ s with
          appState.nonceStore := s.appState.nonceStore.erase bytes
          clock := inp.instant },
        (s.appState.nonceStore.consume bytes inp.instant).1,
        [.consumed bytes inp.instant (s.appState.nonceStore.consume bytes inp.instant).1]) := by
    simp only [vaultEnv, Process.reply, hclock, ↓reduceIte]
    rfl
  refine Prog.run_call.mpr ⟨_, _, _, [], hreply, ?_, (List.append_nil _).symm⟩
  cases (s.appState.nonceStore.consume bytes inp.instant).1 <;> rfl

/-- `verify` accepts exactly the attested requests. If the machine or the text of the nonce is
refused, nothing changes. Otherwise the entry of the nonce is removed, and nothing else changes,
whatever is said about the nonce and the quote. -/
theorem verify_iff {s : Process} {inp : Input} (i : ℕ) (hclock : s.clockOk inp = true) :
    ∃ t result evs, Prog.run (vaultEnv D) i inp s (verify D req) = some (t, result, evs) ∧
      (result = .ok () ↔ ∃ bytes, Attested D s.appState.nonceStore inp.instant req bytes) ∧
      ((∀ bytes, ¬Admissible D req bytes) → t = s) ∧
      ∀ bytes, Admissible D req bytes →
        t = { s with
          appState.nonceStore := s.appState.nonceStore.erase bytes
          clock := inp.instant } ∧
        t.appState.nonceStore.lookup bytes = none ∧
        ∀ k, k ≠ bytes →
          t.appState.nonceStore.lookup k = s.appState.nonceStore.lookup k := by
  cases hrequest : verifyRequest D req with
  | error e =>
    have hnone : ∀ bytes, ¬Admissible D req bytes := by
      intro bytes hwell
      rw [verifyRequest_iff.mpr hwell] at hrequest
      cases hrequest
    refine ⟨s, .error e, [], ?_, ?_, fun _ => rfl, fun bytes hwell => absurd hwell (hnone bytes)⟩
    · unfold verify
      rw [hrequest]
      rfl
    · apply iff_of_false (by simp)
      rintro ⟨bytes, hattested⟩
      exact hnone bytes hattested.toAdmissible
  | ok bytes =>
    have hwell := verifyRequest_iff.mp hrequest
    refine ⟨_, _, _, run_verify i hclock hrequest, ?_, fun hnone => absurd hwell (hnone bytes), ?_⟩
    · have hdecision : ∀ fresh : Bool,
          (if fresh then verifyQuote D req bytes else .error nonceRefused) = .ok () ↔
            fresh = true ∧ verifyQuote D req bytes = .ok () := by
        intro fresh
        cases fresh <;> simp
      rw [hdecision, NonceStore.consume_accepts, verifyQuote_ok_iff]
      constructor
      · rintro ⟨hregistered, hquote⟩
        exact ⟨bytes, hwell, hregistered, hquote⟩
      · rintro ⟨bytes', hattested⟩
        rw [hwell.unique hattested.toAdmissible]
        exact ⟨hattested.registered, hattested.quote⟩
    · intro bytes' hwell'
      rw [← hwell.unique hwell']
      exact ⟨rfl, AList.lookup_erase _ _, fun k hk => AList.lookup_erase_ne hk⟩

section Sample

/-- The nonce of one byte that was registered at time 0. -/
def registeredProcess : Process :=
  { Process.new [] 0 with appState.nonceStore := NonceStore.new.insert [171] 0 }

/-- It is sent with a capital letter. -/
def capitalRequest : UnsealRequest := ⟨"order-service", "machine-1", "", "aB", ""⟩

lemma capitalRequest_admissible : Admissible sampleDeployment capitalRequest [171] :=
  ⟨.inl (by decide), by decide, Hex.decode_eq_some.mp (by decide)⟩

end Sample

theorem verify_iff_capital :
    ∃ t evs, Prog.run (vaultEnv sampleDeployment) 0 (sampleInput 5) registeredProcess
        (verify sampleDeployment capitalRequest) = some (t, .ok (), evs) ∧
      t.appState.nonceStore.lookup [171] = none := by
  obtain ⟨t, result, evs, hrun, haccepted, -, heffect⟩ :=
    @verify_iff sampleDeployment capitalRequest registeredProcess (sampleInput 5) 0 (by decide)
  have hattested : Attested sampleDeployment registeredProcess.appState.nonceStore 5
      capitalRequest [171] :=
    ⟨capitalRequest_admissible, ⟨0, by decide, by decide⟩, .inl rfl⟩
  rw [haccepted.mpr ⟨[171], hattested⟩] at hrun
  exact ⟨t, evs, hrun, (heffect [171] capitalRequest_admissible).2.1⟩

end SecureNet
