import Mathlib.Data.Set.Function
import SecureNet.Outcomes
import SecureNet.VaultReplay

/-!
# Nonces pay for certificates once

An entry of the nonce store stands for the last event that touched its nonce, a registration.
A nonce that is accepted is therefore paid by that registration, and the acceptance is itself
an event that touches the nonce, so nothing else can be paid by it.
-/

namespace SecureNet

open Hex (Bytes)
open EventMachine KeyedStore Tasks

variable {D : Deployment} {file : List LogPiece} {clock : ℕ} {as : List VaultAction}
  {s : VaultSystem} {tr : VaultTrace}

/-- What an event does to the entry of one nonce: a registration writes its time, a consumption
and a restart remove it. -/
def nonceEffect (k : Bytes) : VaultTraceEvent → Option (Option ℕ)
  | .did _ (.registered nonce t) => if nonce = k then some (some t) else none
  | .did _ (.consumed nonce _ _) => if nonce = k then some none else none
  | .restarted => some none
  | _ => none

lemma nonceEffect_idle {k : Bytes} {e : VaultTraceEvent} (he : e.Idle) :
    nonceEffect k e = none := by
  cases e with
  | did i e => exact he.elim
  | restarted => exact he.elim
  | _ => rfl

lemma nonceEffect_registered {k : Bytes} {t : ℕ} {e : VaultTraceEvent}
    (h : nonceEffect k e = some (some t)) : ∃ i, e = .did i (.registered k t) := by
  unfold nonceEffect at h
  split at h
  · next i nonce t' =>
    split at h
    · next hk =>
      cases h
      exact ⟨i, by rw [hk]⟩
    · cases h
  · split at h <;> cases h
  · cases h
  · cases h

lemma lastEffect_quiet {k : Bytes} {i : ℕ} {evs : List VaultEvent}
    (hevs : ∀ e ∈ evs, nonceEffect k (.did i e) = none) :
    lastEffect (nonceEffect k) (tr ++ evs.map (.did i)) = lastEffect (nonceEffect k) tr :=
  lastEffect_append_quiet (by simpa using hevs)

/-- An entry of the nonce store is the last effect of the trace on its nonce. -/
theorem lookup_lastEffect (h : (vault D).exec (start file clock) as = some (s, tr)) {k : Bytes}
    {t : ℕ} (hk : s.shared.appState.nonceStore.lookup k = some t) :
    lastEffect (nonceEffect k) tr = some (some t) ∧ t ≤ s.shared.clock := by
  revert k t
  refine vault_invariant (D := D) (I := fun tr s => ∀ {k t}, s.appState.nonceStore.lookup k = some t →
    lastEffect (nonceEffect k) tr = some (some t) ∧ t ≤ s.clock) ?_ ?_ ?_ ?_ h
  · intro k t hk
    simp [Process.new, AppState.new, NonceStore.new] at hk
  · intro tr s e he ih k t hk
    rw [lastEffect_append_none (nonceEffect_idle he)]
    exact ih hk
  · intro tr s i t evs ih heff k u hk
    cases heff with
    | register nonce elapsedAt now hnow =>
      by_cases hkn : k = nonce
      · subst hkn
        rw [NonceStore.lookup_register_self] at hk
        cases hk
        exact ⟨lastEffect_append_some (by simp [nonceEffect]), Nat.le_refl _⟩
      · rw [NonceStore.lookup_register_ne hkn] at hk
        obtain ⟨hlast, hle⟩ := ih hk.1
        have hne : nonce ≠ k := fun hk' => hkn hk'.symm
        exact ⟨by rw [lastEffect_quiet (by simp [nonceEffect, hne]), hlast],
          Nat.le_trans hle hnow⟩
    | consume nonce now hnow =>
      by_cases hkn : k = nonce
      · subst hkn
        rw [NonceStore.lookup_consume_self] at hk
        cases hk
      · rw [NonceStore.lookup_consume_ne hkn] at hk
        obtain ⟨hlast, hle⟩ := ih hk
        have hne : nonce ≠ k := fun hk' => hkn hk'.symm
        exact ⟨by rw [lastEffect_quiet (by simp [nonceEffect, hne]), hlast],
          Nat.le_trans hle hnow⟩
    | append pieces l =>
      rw [lastEffect_quiet (by simp [nonceEffect])]
      exact ih hk
    | _ =>
      rw [lastEffect_quiet (by simp [nonceEffect])]
      exact ih hk
  · intro tr s now ih k t hk
    simp [Process.new, AppState.new, NonceStore.new] at hk

/-- A nonce that is accepted was registered less than the lifetime ago, and nothing has touched
it since. -/
theorem accepted_registered (h : (vault D).exec (start file clock) as = some (s, tr)) {q i : ℕ}
    {nonce : Bytes} {t : ℕ} (hq : tr[q]? = some (.did i (.consumed nonce t true))) :
    ∃ k t₀, LastAt (nonceEffect nonce) tr q k (some t₀) ∧ t₀ ≤ t ∧ t < t₀ + nonceLifetime := by
  obtain ⟨htr, hlen⟩ := split_at hq
  rw [htr] at h
  obtain ⟨as₁, s₁, t', h₁, heff⟩ := vault_did (fun _ => by simp) h
  obtain ⟨hnow, hacc⟩ := heff.consumed
  obtain ⟨t₀, hlook, hage⟩ := NonceStore.consume_accepts.mp hacc.symm
  obtain ⟨hlast, hle⟩ := lookup_lastEffect h₁ hlook
  obtain ⟨k, hk⟩ := lastEffect_take hlast
  exact ⟨k, t₀, hk, Nat.le_trans hle hnow, by omega⟩

/-- The registration at position `k` of the trace pays for the issuance at position `p`. The
attested request was answered for the registered bytes at a position `q` between them. -/
def Pays (D : Deployment) (tr : VaultTrace) (k p : ℕ) : Prop :=
  ∃ (i j q t₀ t : ℕ) (nonce : Bytes) (r : Request) (req : UnsealRequest)
    (result : Except String Issued),
    k < q ∧ q < p ∧ tr[k]? = some (.did j (.registered nonce t₀)) ∧
    tr[q]? = some (.did i (.consumed nonce t true)) ∧
    tr[p]? = some (.did i (.issueCalled req.serviceName result)) ∧
    LastAt (nonceEffect nonce) tr q k (some t₀) ∧ t₀ ≤ t ∧ t < t₀ + nonceLifetime ∧
    Event.arrived i r ∈ tr.take p ∧ r.attested = some req ∧
    Hex.decode req.nonce = some nonce ∧ D.allowlist.contains req.machineId = true ∧
    (req.tpmQuote = "" ∨ req.tpmQuote = Hex.encode (D.sha256 nonce))

def IssuedAt (tr : VaultTrace) (p : ℕ) : Prop :=
  ∃ i serviceName result, tr[p]? = some (.did i (.issueCalled serviceName result))

lemma issuance_paid (h : (vault D).exec (start file clock) as = some (s, tr)) {p : ℕ}
    (hp : IssuedAt tr p) : ∃ k, Pays D tr k p := by
  obtain ⟨i, serviceName, result, hget⟩ := hp
  obtain ⟨htr, hlen⟩ := split_at hget
  have hrun := h
  rw [htr] at hrun
  obtain ⟨r, req, harr, hatt, hname, hv, -⟩ := run_issuance hrun
  obtain ⟨nonce, t, hreq, hquote, hhist⟩ := hv.accepted rfl
  have hmem : Event.did i (.consumed nonce t true) ∈ tr.take p :=
    mem_history.mp (by rw [hhist]; exact List.mem_singleton_self _)
  obtain ⟨q, hqlt, hq⟩ := List.mem_iff_getElem.mp hmem
  have hqp : q < p := by omega
  have hqget : tr[q]? = some (.did i (.consumed nonce t true)) := by
    rw [← List.getElem?_take_of_lt hqp, List.getElem?_eq_getElem hqlt, hq]
  obtain ⟨k, t₀, hlast, hle, hlt⟩ := accepted_registered h hqget
  obtain ⟨e, hk, he⟩ := hlast.here
  obtain ⟨j, rfl⟩ := nonceEffect_registered he
  obtain ⟨hallow, -, hdec⟩ := verifyRequest_ok_iff.mp hreq
  exact ⟨k, i, j, q, t₀, t, nonce, r, req, result, hlast.before, hqp, hk, hqget,
    by rw [← hname]; exact hget, hlast, hle, hlt, harr, hatt, hdec, hallow,
    verifyQuote_ok_iff.mp hquote⟩

lemma issuance_unique (h : (vault D).exec (start file clock) as = some (s, tr)) {p p' i : ℕ}
    {n n' : String} {c c' : Except String Issued}
    (hp : tr[p]? = some (.did i (.issueCalled n c)))
    (hp' : tr[p']? = some (.did i (.issueCalled n' c'))) : p = p' := by
  have hnot : ∀ {p p' : ℕ} {n n' : String} {c c' : Except String Issued},
      tr[p]? = some (.did i (.issueCalled n c)) →
      tr[p']? = some (.did i (.issueCalled n' c')) → ¬p < p' := by
    intro p p' n n' c c' hp hp' hlt
    obtain ⟨htr, -⟩ := split_at hp
    rw [htr] at h
    obtain ⟨-, -, -, -, -, -, hpost⟩ := run_issuance h
    have hdrop : (tr.drop (p + 1))[p' - (p + 1)]? = some (.did i (.issueCalled n' c')) := by
      rw [List.getElem?_drop, ← hp']
      congr 1
      omega
    obtain ⟨piece, hpiece⟩ := hpost _ (mem_history.mpr (List.mem_of_getElem? hdrop))
    cases hpiece
  have h₁ := hnot hp hp'
  have h₂ := hnot hp' hp
  omega

lemma pays_unique (h : (vault D).exec (start file clock) as = some (s, tr)) {k p p' : ℕ}
    (hp : Pays D tr k p) (hp' : Pays D tr k p') : p = p' := by
  obtain ⟨i, j, q, t₀, t, nonce, r, req, c, -, -, hk, hq, hissue, hlast, -⟩ := hp
  obtain ⟨i', j', q', t₀', t', nonce', r', req', c', -, -, hk', hq', hissue', hlast', -⟩ := hp'
  rw [hk] at hk'
  cases hk'
  have hqq : q = q' := hlast.unique hlast' hq hq' (by simp [nonceEffect]) (by simp [nonceEffect])
  rw [← hqq, hq] at hq'
  cases hq'
  exact issuance_unique h hissue hissue'

/-- Every call of `Issuer::issue` is paid by a registration of its own. -/
theorem issuances_paid_injectively
    (h : (vault D).exec (start file clock) as = some (s, tr)) :
    ∃ paid : ℕ → ℕ, Set.InjOn paid {p | IssuedAt tr p} ∧
      ∀ p, IssuedAt tr p → Pays D tr (paid p) p := by
  have hpaid : ∀ p, ∃ k, IssuedAt tr p → Pays D tr k p := by
    intro p
    by_cases hp : IssuedAt tr p
    · obtain ⟨k, hk⟩ := issuance_paid h hp
      exact ⟨k, fun _ => hk⟩
    · exact ⟨0, fun hissued => absurd hissued hp⟩
  choose paid hpays using hpaid
  refine ⟨paid, ?_, hpays⟩
  intro p hp p' hp' heq
  have h' := hpays p' hp'
  rw [← heq] at h'
  exact pays_unique h (hpays p hp) h'

/-- Two clients take turns, and the certificates are issued in the other order. -/
def pairedRun : List VaultAction :=
  [.arrive .getNonce, .arrive .getNonce, .poll 0 (sampleInput 0), .poll 1 (otherInput 0),
    .poll 0 (sampleInput 0), .poll 1 (otherInput 0), .arrive (.postUnseal sampleRequest),
    .arrive (.postRenew otherRequest), .poll 2 (sampleInput 1), .poll 3 (sampleInput 1),
    .poll 3 (sampleInput 1), .poll 2 (sampleInput 1)]

theorem issuances_paid_injectively_paired :
    ∃ s tr, (vault sampleDeployment).exec (start [] 0) pairedRun = some (s, tr) ∧
      IssuedAt tr 10 ∧ IssuedAt tr 11 ∧ ∃ paid : ℕ → ℕ, paid 10 ≠ paid 11 ∧
        Pays sampleDeployment tr (paid 10) 10 ∧ Pays sampleDeployment tr (paid 11) 11 := by
  have hrun : ∃ s tr, (vault sampleDeployment).exec (start [] 0) pairedRun = some (s, tr) ∧
      IssuedAt tr 10 ∧ IssuedAt tr 11 :=
    ⟨_, _, rfl, ⟨3, _, _, rfl⟩, ⟨2, _, _, rfl⟩⟩
  obtain ⟨s, tr, h, hfirst, hsecond⟩ := hrun
  obtain ⟨paid, hinj, hpays⟩ := issuances_paid_injectively h
  refine ⟨s, tr, h, hfirst, hsecond, paid, ?_, hpays 10 hfirst, hpays 11 hsecond⟩
  intro hsame
  exact absurd (hinj hfirst hsecond hsame) (by decide)

end SecureNet
