import SecureNet.Library.KeyedStore

/-!
# Readiness

Instances of a service that have to report ready before each call. A trace is read through a
function that says which instance an event is about, and whether the instance reported ready or was
called.
-/

namespace Readiness

open KeyedStore

inductive Signal
  | ready
  | called
  deriving DecidableEq

variable {ε ι : Type} [DecidableEq ι] (signal : ε → Option (ι × Signal))

def signalTo (i : ι) (e : ε) : Option Signal :=
  match signal e with
  | some (j, s) => if j = i then some s else none
  | none => none

variable {signal} in
lemma signalTo_eq_some {i : ι} {e : ε} {s : Signal} :
    signalTo signal i e = some s ↔ signal e = some (i, s) := by
  unfold signalTo
  split
  · next j s' hs =>
    rw [hs]
    by_cases hj : j = i <;> simp [hj]
  · next hs => simp [hs]

/-- The instance has reported ready and was not called since. -/
def Armed (tr : List ε) (i : ι) : Prop := lastEffect (signalTo signal i) tr = some .ready

instance (tr : List ε) (i : ι) : Decidable (Armed signal tr i) :=
  inferInstanceAs (Decidable (_ = _))

/-- Every call is one of an armed instance. -/
def Disciplined (tr : List ε) : Prop :=
  ∀ l e m i, tr = l ++ e :: m → signal e = some (i, .called) → Armed signal l i

variable {signal} {tr m : List ε} {e : ε} {i : ι}

lemma not_armed_nil : ¬Armed signal [] i := by simp [Armed]

lemma armed_ready (h : signal e = some (i, .ready)) : Armed signal (tr ++ [e]) i :=
  lastEffect_append_some (signalTo_eq_some.mpr h)

lemma not_armed_called (h : signal e = some (i, .called)) : ¬Armed signal (tr ++ [e]) i := by
  have hlast : lastEffect (signalTo signal i) (tr ++ [e]) = some .called :=
    lastEffect_append_some (signalTo_eq_some.mpr h)
  rw [Armed, hlast]
  simp

/-- Only a report makes an instance armed. -/
lemma armed_of_snoc (h : signal e ≠ some (i, .ready)) (harmed : Armed signal (tr ++ [e]) i) :
    Armed signal tr i := by
  cases hsignal : signalTo signal i e with
  | none => rwa [Armed, lastEffect_append_none hsignal] at harmed
  | some s =>
    rw [Armed, lastEffect_append_some hsignal] at harmed
    rw [Option.some.inj harmed] at hsignal
    exact absurd (signalTo_eq_some.mp hsignal) h

/-- Only a call takes it away. -/
lemma armed_snoc (h : signal e ≠ some (i, .called)) (harmed : Armed signal tr i) :
    Armed signal (tr ++ [e]) i := by
  cases hsignal : signalTo signal i e with
  | none => rwa [Armed, lastEffect_append_none hsignal]
  | some s =>
    rw [signalTo_eq_some] at hsignal
    cases s with
    | ready => exact armed_ready hsignal
    | called => exact absurd hsignal h

lemma disciplined_nil : Disciplined signal [] := by
  intro l e m i h
  simp at h

lemma disciplined_snoc : Disciplined signal (tr ++ [e]) ↔
    Disciplined signal tr ∧ ∀ i, signal e = some (i, .called) → Armed signal tr i := by
  constructor
  · intro h
    refine ⟨?_, fun i hi => h tr e [] i rfl hi⟩
    intro l x m i htr hx
    exact h l x (m ++ [e]) i (by rw [htr]; simp) hx
  · rintro ⟨hold, hnew⟩ l x m i htr hx
    rcases List.eq_nil_or_concat m with rfl | ⟨m, y, rfl⟩
    · obtain ⟨rfl, hxe⟩ := List.append_inj' htr rfl
      cases hxe
      exact hnew i hx
    · rw [List.concat_eq_append, ← List.cons_append, ← List.append_assoc] at htr
      obtain ⟨rfl, -⟩ := List.append_inj' htr rfl
      exact hold l x m i rfl hx

lemma Disciplined.append_left (h : Disciplined signal (tr ++ m)) : Disciplined signal tr := by
  intro l x n i htr hx
  exact h l x (n ++ m) i (by rw [htr]; simp) hx

instance (tr : List ε) : Decidable (Disciplined signal tr) :=
  decidable_of_iff (∀ n : Fin tr.length, ∀ p ∈ signal (tr.get n), p.2 = .called →
    Armed signal (tr.take n) p.1) (by
      constructor
      · rintro h l e m i rfl he
        have hn : l.length < (l ++ e :: m).length := by simp
        have hget : (l ++ e :: m).get ⟨l.length, hn⟩ = e := by simp
        have hcall := h ⟨l.length, hn⟩ (i, .called) (by rw [hget, he]; rfl) rfl
        rwa [List.take_left] at hcall
      · rintro h n ⟨i, s⟩ hp rfl
        have hsplit : tr = tr.take n ++ tr.get n :: tr.drop (n + 1) := by
          rw [List.get_eq_getElem, ← List.drop_eq_getElem_cons n.2, List.take_append_drop]
        exact h _ _ _ i hsplit hp)

end Readiness
