import Mathlib.Data.List.AList
import Mathlib.Data.List.Induction

/-!
# Keyed stores

A finite map is an association list without repeated keys. Mathlib gives insertion, erasure
and lookup; a map that is pruned also needs `retain`, and a trace of inserts and removals needs
to be read by key: `lastEffect` is what the last event that touches a key did to it.
-/

namespace KeyedStore

abbrev Store (κ ν : Type) := AList (fun _ : κ => ν)

variable {κ ν ε β : Type}

def retain (p : κ → ν → Bool) (m : Store κ ν) : Store κ ν :=
  ⟨m.entries.filter (fun e => p e.1 e.2), m.nodupKeys.sublist List.filter_sublist⟩

variable [DecidableEq κ]

lemma mem_entries_iff {m : Store κ ν} {k : κ} {v : ν} :
    (⟨k, v⟩ : Sigma fun _ : κ => ν) ∈ m.entries ↔ m.lookup k = some v :=
  (AList.mem_lookup_iff).symm

theorem lookup_retain {p : κ → ν → Bool} {m : Store κ ν} {k : κ} {v : ν} :
    (retain p m).lookup k = some v ↔ m.lookup k = some v ∧ p k v = true := by
  rw [← mem_entries_iff, ← mem_entries_iff]
  simp [retain]

/-- What the last event on which `f` is defined says. -/
def lastEffect (f : ε → Option β) (tr : List ε) : Option β := (tr.filterMap f).getLast?

@[simp] lemma lastEffect_nil (f : ε → Option β) : lastEffect f [] = none := rfl

lemma lastEffect_append_some {f : ε → Option β} {tr : List ε} {e : ε} {b : β}
    (h : f e = some b) : lastEffect f (tr ++ [e]) = some b := by
  simp [lastEffect, List.filterMap_append, h]

lemma lastEffect_append_none {f : ε → Option β} {tr : List ε} {e : ε} (h : f e = none) :
    lastEffect f (tr ++ [e]) = lastEffect f tr := by
  simp [lastEffect, List.filterMap_append, h]

lemma lastEffect_append (f : ε → Option β) (tr m : List ε) :
    lastEffect f (tr ++ m) = (lastEffect f m).or (lastEffect f tr) := by
  rw [lastEffect, List.filterMap_append, List.getLast?_append]
  rfl

lemma lastEffect_append_quiet {f : ε → Option β} {tr m : List ε} (hm : ∀ e ∈ m, f e = none) :
    lastEffect f (tr ++ m) = lastEffect f tr := by
  have hnil : m.filterMap f = [] := List.filterMap_eq_nil_iff.mpr hm
  rw [lastEffect, List.filterMap_append, hnil, List.append_nil]
  rfl

theorem lastEffect_split {f : ε → Option β} {tr : List ε} {b : β}
    (h : lastEffect f tr = some b) :
    ∃ l e m, tr = l ++ e :: m ∧ f e = some b ∧ ∀ x ∈ m, f x = none := by
  induction tr using List.reverseRecOn with
  | nil => simp at h
  | append_singleton tr x ih =>
    cases hx : f x with
    | none =>
      rw [lastEffect_append_none hx] at h
      obtain ⟨l, e, m, rfl, he, hm⟩ := ih h
      refine ⟨l, e, m ++ [x], by simp, he, ?_⟩
      intro y hy
      rcases List.mem_append.mp hy with hy | hy
      · exact hm y hy
      · rwa [List.mem_singleton.mp hy]
    | some c =>
      rw [lastEffect_append_some hx] at h
      exact ⟨tr, x, [], rfl, by rw [hx, h], by simp⟩

lemma lastEffect_of_quiet {f : ε → Option β} {l m : List ε} {e : ε} {b : β} (he : f e = some b)
    (hm : ∀ x ∈ m, f x = none ∨ f x = some b) : lastEffect f (l ++ e :: m) = some b := by
  induction m using List.reverseRecOn with
  | nil => exact lastEffect_append_some he
  | append_singleton m x ih =>
    have hlast := ih (fun y hy => hm y (List.mem_append_left _ hy))
    rw [← List.cons_append, ← List.append_assoc]
    rcases hm x (by simp) with hx | hx
    · rw [lastEffect_append_none hx, hlast]
    · exact lastEffect_append_some hx

/-- `j` is the last position before `q` whose event has an effect, which is `b`. -/
structure LastAt (f : ε → Option β) (tr : List ε) (q j : ℕ) (b : β) : Prop where
  before : j < q
  here : ∃ e, tr[j]? = some e ∧ f e = some b
  quiet : ∀ z x, j < z → z < q → tr[z]? = some x → f x = none

theorem lastEffect_take {f : ε → Option β} {tr : List ε} {q : ℕ} {b : β}
    (h : lastEffect f (tr.take q) = some b) : ∃ j, LastAt f tr q j b := by
  obtain ⟨l, e, m, htr, he, hm⟩ := lastEffect_split h
  have hlen : l.length < q := by
    have hq := congrArg List.length htr
    rw [List.length_take, List.length_append, List.length_cons] at hq
    omega
  have hget : ∀ z, z < q → tr[z]? = (l ++ e :: m)[z]? := by
    intro z hz
    rw [← htr, List.getElem?_take_of_lt hz]
  refine ⟨l.length, hlen, ⟨e, ?_, he⟩, ?_⟩
  · rw [hget _ hlen, List.getElem?_append_right (Nat.le_refl _), Nat.sub_self]
    rfl
  · intro z x hlz hzq hx
    rw [hget z hzq, List.getElem?_append_right (Nat.le_of_lt hlz)] at hx
    obtain ⟨n, hn⟩ : ∃ n, z - l.length = n + 1 := ⟨z - l.length - 1, by omega⟩
    rw [hn, List.getElem?_cons_succ] at hx
    exact hm x (List.mem_of_getElem? hx)

theorem LastAt.unique {f : ε → Option β} {tr : List ε} {q q' j : ℕ} {b b' : β} {x x' : ε}
    (h : LastAt f tr q j b) (h' : LastAt f tr q' j b') (hq : tr[q]? = some x)
    (hq' : tr[q']? = some x') (hx : f x ≠ none) (hx' : f x' ≠ none) : q = q' := by
  rcases Nat.lt_trichotomy q q' with hlt | heq | hlt
  · exact absurd (h'.quiet q x h.before hlt hq) hx
  · exact heq
  · exact absurd (h.quiet q' x' h'.before hlt hq') hx'

end KeyedStore
