import SecureNet.Library.CallRules

/-!
# Two signatures side by side

Programs over one signature and programs over another run together over the pair of their states. A
program over one of them keeps what it is known to do.
-/

namespace Tasks

variable {S S' : Signature} {σ σ' ι ι' ε ε' α β : Type}

abbrev Signature.sum (S S' : Signature) : Signature where
  Op := S.Op ⊕ S'.Op
  Reply := Sum.elim S.Reply S'.Reply

namespace Prog

def inl : Prog S α → Prog (S.sum S') α
  | .done a => .done a
  | .call o k => .call (.inl o) (fun r => (k r).inl)

end Prog

/-- Each environment serves its own calls. -/
def Environment.sum (E : Environment S σ ι ε) (E' : Environment S' σ' ι' ε') :
    Environment (S.sum S') (σ × σ') (ι × ι') (ε ⊕ ε') where
  reply s i
    | .inl o, inp =>
      (E.reply s.1 i o inp.1).map (fun (t, r, evs) => ((t, s.2), r, evs.map .inl))
    | .inr o, inp =>
      (E'.reply s.2 i o inp.2).map (fun (t, r, evs) => ((s.1, t), r, evs.map .inr))
  cancel s i
    | .inl o, inp => (E.cancel s.1 i o inp.1).map (fun (t, evs) => ((t, s.2), evs.map .inl))
    | .inr o, inp => (E'.cancel s.2 i o inp.2).map (fun (t, evs) => ((s.1, t), evs.map .inr))
  restart s inp := (E.restart s.1 inp.1, E'.restart s.2 inp.2)

/-- The events of the first environment. -/
def lefts (h : List (ε ⊕ ε')) : List ε := h.filterMap Sum.getLeft?

@[simp] lemma lefts_append (h g : List (ε ⊕ ε')) : lefts (h ++ g) = lefts h ++ lefts g :=
  List.filterMap_append

@[simp] lemma lefts_map_inl (h : List ε) : lefts (h.map .inl : List (ε ⊕ ε')) = h := by
  induction h with
  | nil => rfl
  | cons e h ih => exact congrArg (e :: ·) ih

variable {E : Environment S σ ι ε} {E' : Environment S' σ' ι' ε'}

lemma sum_reply_inl {s t : σ × σ'} {i : ℕ} {o : S.Op} {inp : ι × ι'} {r : S.Reply o}
    {evs : List (ε ⊕ ε')} (h : (E.sum E').reply s i (.inl o) inp = some (t, r, evs)) :
    ∃ evs', E.reply s.1 i o inp.1 = some (t.1, r, evs') ∧ t.2 = s.2 ∧ evs = evs'.map .inl := by
  obtain ⟨⟨u, r', evs'⟩, hr, heq⟩ := Option.map_eq_some_iff.mp h
  cases heq
  exact ⟨evs', hr, rfl, rfl⟩

lemma sum_reply_inr {s t : σ × σ'} {i : ℕ} {o : S'.Op} {inp : ι × ι'} {r : S'.Reply o}
    {evs : List (ε ⊕ ε')} (h : (E.sum E').reply s i (.inr o) inp = some (t, r, evs)) :
    ∃ evs', E'.reply s.2 i o inp.2 = some (t.2, r, evs') ∧ t.1 = s.1 ∧ evs = evs'.map .inr := by
  obtain ⟨⟨u, r', evs'⟩, hr, heq⟩ := Option.map_eq_some_iff.mp h
  cases heq
  exact ⟨evs', hr, rfl, rfl⟩

lemma sum_cancel_quiet (hquiet : ∀ s i o inp t evs, E.cancel s i o inp = some (t, evs) → evs = [])
    (hquiet' : ∀ s i o inp t evs, E'.cancel s i o inp = some (t, evs) → evs = [])
    (s : σ × σ') (i : ℕ) (o : (S.sum S').Op) (inp : ι × ι') (t : σ × σ') (evs : List (ε ⊕ ε'))
    (h : (E.sum E').cancel s i o inp = some (t, evs)) : evs = [] := by
  cases o with
  | inl o =>
    obtain ⟨⟨u, evs'⟩, hc, heq⟩ := Option.map_eq_some_iff.mp h
    cases heq
    rw [hquiet _ i o _ u evs' hc]
    rfl
  | inr o =>
    obtain ⟨⟨u, evs'⟩, hc, heq⟩ := Option.map_eq_some_iff.mp h
    cases heq
    rw [hquiet' _ i o _ u evs' hc]
    rfl

/-- A program over the first signature does beside the second what it does alone. -/
theorem Calls.inl {Pre : List ε → S.Op → Prop} {Post : List ε → α → Prop} {p : Prog S α}
    {h : List ε} (hp : Calls E Pre Post p h) (g : List (ε ⊕ ε')) :
    Calls (E.sum E') (fun H o => ∃ h' o', H = g ++ h'.map .inl ∧ o = .inl o' ∧ Pre h' o')
      (fun H a => ∃ h', H = g ++ h'.map .inl ∧ Post h' a) p.inl (g ++ h.map .inl) := by
  induction p generalizing h with
  | done a => exact ⟨h, rfl, hp⟩
  | call o k ih =>
    obtain ⟨hpre, hreply⟩ := hp
    refine ⟨⟨h, o, rfl, rfl, hpre⟩, ?_⟩
    intro s i inp t r evs hr
    obtain ⟨evs', hr', -, rfl⟩ := sum_reply_inl hr
    rw [List.append_assoc, ← List.map_append]
    exact ih r (hreply _ i _ _ r evs' hr')

theorem Safe.inl {Φ : List ε → Prop} {Ψ : List ε → α → Prop}
    {ok : σ × σ' → (S.sum S').Op → ι × ι' → Prop} {p : Prog S α} {h : List ε} (hp : Safe E (fun _ _ _ => True) Φ Ψ p h) :
    Safe (E.sum E') ok (fun H => ∃ h', H = h'.map .inl ∧ Φ h')
      (fun H a => ∃ h', H = h'.map .inl ∧ Ψ h' a) p.inl (h.map .inl) := by
  induction p generalizing h with
  | done a => exact ⟨h, rfl, hp⟩
  | call o k ih =>
    obtain ⟨hnow, hreply, hcancel⟩ := hp
    refine ⟨⟨h, rfl, hnow⟩, ?_, ?_⟩
    · intro s i inp t r evs _ hr
      obtain ⟨evs', hr', -, rfl⟩ := sum_reply_inl hr
      rw [← List.map_append]
      exact ih r (hreply _ i _ _ r evs' trivial hr')
    · intro s i inp t evs _ hc
      obtain ⟨⟨u, evs'⟩, hc', heq⟩ := Option.map_eq_some_iff.mp hc
      cases heq
      rw [← List.map_append]
      exact ⟨h ++ evs', rfl, hcancel _ i _ u evs' trivial hc'⟩

end Tasks
