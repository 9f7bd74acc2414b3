import Mathlib.Data.List.Basic
import Mathlib.Data.List.Induction
import Mathlib.Tactic.Common

/-!
# Machines that emit events

A machine answers an action with its next state and the events it emits, or refuses it.
`exec` runs a list of actions and collects the trace. The rules below are what proofs about
whole runs use: induction on the last action, splitting a run, and finding the step that
emitted a given event of the trace.
-/

namespace EventMachine

lemma split_at {ε : Type*} {l : List ε} {n : ℕ} {e : ε} (h : l[n]? = some e) :
    l = l.take n ++ e :: l.drop (n + 1) ∧ (l.take n).length = n := by
  obtain ⟨hn, he⟩ := List.getElem?_eq_some_iff.mp h
  have hdrop : l.drop n = e :: l.drop (n + 1) := by rw [List.drop_eq_getElem_cons hn, he]
  refine ⟨?_, ?_⟩
  · rw [← hdrop, List.take_append_drop]
  · rw [List.length_take]
    omega

lemma split_singleton {ε : Type*} {l m : List ε} {e x : ε} (h : l ++ e :: m = [x]) :
    l = [] ∧ e = x ∧ m = [] := by
  obtain ⟨rfl, h⟩ | ⟨-, h⟩ := List.append_eq_singleton_iff.mp h
  · obtain ⟨rfl, rfl⟩ := List.cons_eq_cons.mp h
    exact ⟨rfl, rfl, rfl⟩
  · cases h

lemma pairwise_of_split {ε : Type*} {R : ε → ε → Prop} {tr : List ε}
    (h : ∀ l x m y n, tr = l ++ x :: (m ++ y :: n) → R x y) : tr.Pairwise R := by
  induction tr with
  | nil => exact .nil
  | cons e tr ih =>
    refine .cons ?_ (ih ?_)
    · intro y hy
      obtain ⟨m, n, rfl⟩ := List.append_of_mem hy
      exact h [] e m y n rfl
    · intro l x m y n htr
      exact h (e :: l) x m y n (by rw [htr, List.cons_append])

lemma countP_le_one {ε : Type*} {p : ε → Bool} {tr : List ε}
    (h : tr.Pairwise (fun x y => ¬(p x = true ∧ p y = true))) : tr.countP p ≤ 1 := by
  induction tr with
  | nil => simp
  | cons e tr ih =>
    rw [List.pairwise_cons] at h
    by_cases he : p e = true
    · have hzero : tr.countP p = 0 := by
        rw [List.countP_eq_zero]
        intro y hy hpy
        exact h.1 y hy ⟨he, hpy⟩
      rw [List.countP_cons_of_pos he]
      omega
    · rw [List.countP_cons_of_neg he]
      exact ih h.2

/-- A machine refuses an action, or moves to its next state and emits events. -/
structure Machine (σ α ε : Type*) where
  step : σ → α → Option (σ × List ε)

namespace Machine

variable {σ α ε : Type*} (M : Machine σ α ε)

def exec (s : σ) : List α → Option (σ × List ε)
  | [] => some (s, [])
  | a :: as =>
    match M.step s a with
    | none => none
    | some (t, evs) =>
      match exec t as with
      | none => none
      | some (u, tr) => some (u, evs ++ tr)

variable {M}

@[simp] lemma exec_nil {s t : σ} {tr : List ε} :
    M.exec s [] = some (t, tr) ↔ t = s ∧ tr = [] := by
  simp only [exec, Option.some.injEq, Prod.mk.injEq]
  exact and_congr eq_comm eq_comm

lemma exec_cons {s u : σ} {a : α} {as : List α} {tr : List ε} :
    M.exec s (a :: as) = some (u, tr) ↔
      ∃ t evs rest, M.step s a = some (t, evs) ∧ M.exec t as = some (u, rest) ∧
        tr = evs ++ rest := by
  rw [exec]
  constructor
  · intro h
    cases hs : M.step s a with
    | none => simp [hs] at h
    | some p =>
      cases hr : M.exec p.1 as with
      | none => simp [hs, hr] at h
      | some q =>
        simp only [hs, hr, Option.some.injEq, Prod.mk.injEq] at h
        exact ⟨p.1, p.2, q.2, rfl, by rw [hr, ← h.1], h.2.symm⟩
  · rintro ⟨t, evs, rest, hs, hr, rfl⟩
    simp [hs, hr]

theorem exec_append {s u : σ} {as bs : List α} {tr : List ε} :
    M.exec s (as ++ bs) = some (u, tr) ↔
      ∃ t tr₁ tr₂, M.exec s as = some (t, tr₁) ∧ M.exec t bs = some (u, tr₂) ∧
        tr = tr₁ ++ tr₂ := by
  induction as generalizing s tr with
  | nil =>
    simp only [List.nil_append, exec_nil]
    constructor
    · intro h
      exact ⟨s, [], tr, ⟨rfl, rfl⟩, h, rfl⟩
    · rintro ⟨t, tr₁, tr₂, ⟨rfl, rfl⟩, h, rfl⟩
      exact h
  | cons a as ih =>
    rw [List.cons_append, exec_cons]
    constructor
    · rintro ⟨t, evs, rest, hs, hr, rfl⟩
      obtain ⟨v, tr₁, tr₂, h₁, h₂, rfl⟩ := ih.mp hr
      exact ⟨v, evs ++ tr₁, tr₂, exec_cons.mpr ⟨t, evs, tr₁, hs, h₁, rfl⟩, h₂,
        (List.append_assoc _ _ _).symm⟩
    · rintro ⟨v, tr₁, tr₂, h₁, h₂, rfl⟩
      obtain ⟨t, evs, rest, hs, hr, rfl⟩ := exec_cons.mp h₁
      exact ⟨t, evs, rest ++ tr₂, hs, ih.mpr ⟨v, rest, tr₂, hr, h₂, rfl⟩,
        List.append_assoc _ _ _⟩

lemma exec_snoc {s u : σ} {as : List α} {a : α} {tr : List ε} :
    M.exec s (as ++ [a]) = some (u, tr) ↔
      ∃ t tr₁ evs, M.exec s as = some (t, tr₁) ∧ M.step t a = some (u, evs) ∧
        tr = tr₁ ++ evs := by
  rw [exec_append]
  constructor
  · rintro ⟨t, tr₁, tr₂, h₁, h₂, rfl⟩
    obtain ⟨v, evs, rest, hs, hr, rfl⟩ := exec_cons.mp h₂
    obtain ⟨rfl, rfl⟩ := exec_nil.mp hr
    exact ⟨t, tr₁, evs, h₁, hs, by simp⟩
  · rintro ⟨t, tr₁, evs, h₁, hs, rfl⟩
    exact ⟨t, tr₁, evs, h₁, exec_cons.mpr ⟨u, evs, [], hs, exec_nil.mpr ⟨rfl, rfl⟩, by simp⟩, rfl⟩

lemma exec_any {s : σ} {as : List α} {test : σ × List ε → Bool}
    (h : (M.exec s as).any test = true) :
    ∃ t tr, M.exec s as = some (t, tr) ∧ test (t, tr) = true := by
  cases hr : M.exec s as with
  | none => simp [hr] at h
  | some p => exact ⟨p.1, p.2, rfl, by simpa [hr] using h⟩

/-- A relation between actions, trace and state holds after every run if it holds before the
first action and every further action keeps it. -/
theorem exec_induction {s₀ : σ} {P : List α → List ε → σ → Prop} (h₀ : P [] [] s₀)
    (hstep : ∀ as tr s a t evs, M.exec s₀ as = some (s, tr) → P as tr s →
      M.step s a = some (t, evs) → P (as ++ [a]) (tr ++ evs) t)
    {as : List α} {s : σ} {tr : List ε} (h : M.exec s₀ as = some (s, tr)) : P as tr s := by
  induction as using List.reverseRecOn generalizing s tr with
  | nil =>
    obtain ⟨rfl, rfl⟩ := exec_nil.mp h
    exact h₀
  | append_singleton as a ih =>
    obtain ⟨t, tr₁, evs, h₁, hs, rfl⟩ := exec_snoc.mp h
    exact hstep as tr₁ t a s evs h₁ (ih h₁) hs

/-- Every action of the run meets `C` in the state that it finds. -/
def Meets (M : Machine σ α ε) (C : σ → α → Prop) (s : σ) (as : List α) : Prop :=
  ∀ as₁ a as₂ t tr, as = as₁ ++ a :: as₂ → M.exec s as₁ = some (t, tr) → C t a

lemma Meets.append_left {C : σ → α → Prop} {s : σ} {as bs : List α}
    (h : M.Meets C s (as ++ bs)) : M.Meets C s as := by
  intro as₁ a as₂ t tr has hr
  exact h as₁ a (as₂ ++ bs) t tr (by rw [has]; simp) hr

lemma meets_nil {C : σ → α → Prop} {s : σ} : M.Meets C s [] := by
  intro as₁ a as₂ t tr has
  simp at has

lemma meets_cons {C : σ → α → Prop} {s : σ} {a : α} {as : List α} :
    M.Meets C s (a :: as) ↔ C s a ∧ ∀ t evs, M.step s a = some (t, evs) → M.Meets C t as := by
  constructor
  · intro h
    refine ⟨h [] a as s [] rfl (exec_nil.mpr ⟨rfl, rfl⟩), ?_⟩
    intro t evs hs as₁ b as₂ u tr has hr
    exact h (a :: as₁) b as₂ u (evs ++ tr) (by rw [has, List.cons_append])
      (exec_cons.mpr ⟨t, evs, tr, hs, hr, rfl⟩)
  · rintro ⟨hnow, hnext⟩ as₁ b as₂ u tr has hr
    cases as₁ with
    | nil =>
      cases has
      rw [(exec_nil.mp hr).1]
      exact hnow
    | cons c as₁ =>
      cases has
      obtain ⟨t, evs, rest, hs, hrest, -⟩ := exec_cons.mp hr
      exact hnext t evs hs as₁ b as₂ u rest rfl hrest

def decidableMeets {C : σ → α → Prop} [∀ s a, Decidable (C s a)] :
    (s : σ) → (as : List α) → Decidable (M.Meets C s as)
  | _, [] => isTrue meets_nil
  | s, a :: as =>
    match hs : M.step s a with
    | none => decidable_of_iff (C s a) (by rw [meets_cons, hs]; simp)
    | some (t, _) =>
      have : Decidable (M.Meets C t as) := decidableMeets t as
      decidable_of_iff (C s a ∧ M.Meets C t as) (by rw [meets_cons, hs]; simp)

instance {C : σ → α → Prop} [∀ s a, Decidable (C s a)] (s : σ) (as : List α) :
    Decidable (M.Meets C s as) := decidableMeets s as

lemma Meets.last {C : σ → α → Prop} {s t : σ} {as : List α} {a : α} {tr : List ε}
    (h : M.Meets C s (as ++ [a])) (hr : M.exec s as = some (t, tr)) : C t a :=
  h as a [] t tr rfl hr

lemma Meets.snoc {C : σ → α → Prop} {s : σ} {as : List α} {a : α} (h : M.Meets C s as)
    (hlast : ∀ t tr, M.exec s as = some (t, tr) → C t a) : M.Meets C s (as ++ [a]) := by
  intro as₁ b as₂ t tr has hr
  rcases List.append_eq_append_iff.mp has with ⟨mid, rfl, hmid⟩ | ⟨mid, rfl, hmid⟩
  · cases mid with
    | nil =>
      rw [List.append_nil] at hr
      cases hmid
      exact hlast t tr hr
    | cons c mid => simp at hmid
  · cases mid with
    | nil =>
      cases hmid
      rw [List.append_nil] at hlast
      exact hlast t tr hr
    | cons c mid =>
      cases hmid
      exact h as₁ b mid t tr rfl hr

/-- What the actions of a run show in the states that they find, in order. -/
def collect (M : Machine σ α ε) {β : Type*} (shown : σ → α → Option β) (s : σ) : List α → List β
  | [] => []
  | a :: as =>
    (shown s a).toList ++
      match M.step s a with
      | none => []
      | some (t, _) => collect M shown t as

lemma collect_snoc {β : Type*} {shown : σ → α → Option β} {s t : σ} {as : List α} {a : α}
    {tr : List ε} (hr : M.exec s as = some (t, tr)) :
    M.collect shown s (as ++ [a]) = M.collect shown s as ++ (shown t a).toList := by
  induction as generalizing s tr with
  | nil =>
    obtain ⟨rfl, -⟩ := exec_nil.mp hr
    rw [List.nil_append, collect, collect, List.nil_append]
    cases M.step t a <;> exact List.append_nil _
  | cons b as ih =>
    obtain ⟨u, evs, rest, hs, hrest, -⟩ := exec_cons.mp hr
    rw [List.cons_append, collect, collect, hs]
    simp only [ih hrest, List.append_assoc]

/-- The step of a run that emitted a given event of its trace. -/
theorem exec_event {s u : σ} {as : List α} {l m : List ε} {e : ε}
    (h : M.exec s as = some (u, l ++ e :: m)) :
    ∃ as₁ a as₂ s₁ tr₁ s₂ evs₁ evs₂ tr₂, as = as₁ ++ a :: as₂ ∧
      M.exec s as₁ = some (s₁, tr₁) ∧ M.step s₁ a = some (s₂, evs₁ ++ e :: evs₂) ∧
      M.exec s₂ as₂ = some (u, tr₂) ∧ l = tr₁ ++ evs₁ ∧ m = evs₂ ++ tr₂ := by
  induction as generalizing s l with
  | nil => simp at h
  | cons a as ih =>
    obtain ⟨t, evs, rest, hs, hr, he⟩ := exec_cons.mp h
    rcases List.append_eq_append_iff.mp he with ⟨evs₂, rfl, hrest⟩ | ⟨l', rfl, hrest⟩
    · -- the event lies after this step's own events, or opens them
      cases evs₂ with
      | nil =>
        simp only [List.nil_append, List.append_nil] at hrest hs
        obtain ⟨as₁, b, as₂, s₁, tr₁, s₂, e₁, e₂, tr₂, rfl, h₁, h₂, h₃, h₄, rfl⟩ :=
          ih (l := []) (by rw [List.nil_append, hrest, hr])
        obtain ⟨rfl, rfl⟩ := List.append_eq_nil_iff.mp h₄.symm
        exact ⟨a :: as₁, b, as₂, s₁, l, s₂, [], e₂, tr₂, rfl,
          exec_cons.mpr ⟨t, l, [], hs, h₁, by simp⟩, h₂, h₃, by simp, rfl⟩
      | cons e' evs₂ =>
        simp only [List.cons_append, List.cons.injEq] at hrest
        obtain ⟨rfl, rfl⟩ := hrest
        exact ⟨[], a, as, s, [], t, l, evs₂, rest, rfl, exec_nil.mpr ⟨rfl, rfl⟩, hs, hr,
          by simp, rfl⟩
    · obtain ⟨as₁, b, as₂, s₁, tr₁, s₂, e₁, e₂, tr₂, rfl, h₁, h₂, h₃, rfl, rfl⟩ :=
        ih (by rw [← hrest, hr])
      exact ⟨a :: as₁, b, as₂, s₁, evs ++ tr₁, s₂, e₁, e₂, tr₂, rfl,
        exec_cons.mpr ⟨t, evs, tr₁, hs, h₁, rfl⟩, h₂, h₃, by simp, rfl⟩

end Machine

end EventMachine
