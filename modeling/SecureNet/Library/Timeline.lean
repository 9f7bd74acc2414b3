import Mathlib.Data.Finset.Max
import Mathlib.Data.Int.Notation
import Mathlib.Data.Nat.Find
import Mathlib.Order.Interval.Finset.Nat
import Mathlib.Tactic.Common
import Mathlib.Tactic.Linarith

/-!
# Timelines

A sequence of instants that moves on by at least a fixed amount cuts the time after its first
instant into intervals.
-/

namespace Timeline

variable {t : ℕ → ℤ} {d : ℤ}

lemma le_of_step (hd : 0 < d) (hstep : ∀ n, t n + d ≤ t (n + 1)) (n : ℕ) : t 0 + n ≤ t n := by
  induction n with
  | zero => simp
  | succ n ih =>
    have hn := hstep n
    push_cast
    omega

lemma add_mul_le (hstep : ∀ n, t n + d ≤ t (n + 1)) (m k : ℕ) : t m + k * d ≤ t (m + k) := by
  induction k with
  | zero => simp
  | succ k ih =>
    have hk := hstep (m + k)
    rw [← Nat.add_assoc]
    push_cast
    linarith

/-- A window of `W` steps holds at most `W + 1` instants. -/
theorem card_window_le (hd : 0 < d) (hstep : ∀ n, t n + d ≤ t (n + 1)) {W : ℕ} {u : ℤ}
    {F : Finset ℕ} (hF : ∀ n ∈ F, u ≤ t n ∧ t n ≤ u + W * d) : F.card ≤ W + 1 := by
  rcases F.eq_empty_or_nonempty with rfl | hne
  · simp
  · have hfirst := hF _ (F.min'_mem hne)
    have hlast := hF _ (F.max'_mem hne)
    obtain ⟨k, hk⟩ := Nat.exists_eq_add_of_le (F.min'_le _ (F.max'_mem hne))
    have hspan := add_mul_le hstep (F.min' hne) k
    rw [← hk] at hspan
    have hkW : (k : ℤ) ≤ W := le_of_mul_le_mul_right (by linarith) hd
    have hsub : F ⊆ Finset.Icc (F.min' hne) (F.max' hne) := by
      intro n hn
      exact Finset.mem_Icc.mpr ⟨F.min'_le n hn, F.le_max' n hn⟩
    have hcard := Finset.card_le_card hsub
    rw [Nat.card_Icc] at hcard
    omega

/-- Every instant after the first lies in one of the intervals. -/
theorem exists_interval (hd : 0 < d) (hstep : ∀ n, t n + d ≤ t (n + 1)) {u : ℤ} (hu : t 0 ≤ u) :
    ∃ n, t n ≤ u ∧ u < t (n + 1) := by
  have hsome : ∃ n, u < t n := by
    refine ⟨(u - t 0).toNat + 1, ?_⟩
    have hle := le_of_step hd hstep ((u - t 0).toNat + 1)
    push_cast at hle
    omega
  have hspec := Nat.find_spec hsome
  obtain ⟨n, hn⟩ : ∃ n, Nat.find hsome = n + 1 := by
    refine Nat.exists_eq_succ_of_ne_zero ?_
    intro hzero
    rw [hzero] at hspec
    omega
  have hmin : ¬u < t n := Nat.find_min hsome (by omega)
  rw [hn] at hspec
  exact ⟨n, by omega, hspec⟩

/-- A bound that may change at the cuts holds at every instant exactly if it holds at the end of
every interval. -/
theorem forall_interval_iff (hstep : ∀ n, t n ≤ t (n + 1)) {bound : ℕ → ℤ} :
    (∀ n u, t n ≤ u → u ≤ t (n + 1) → u ≤ bound n) ↔ ∀ n, t (n + 1) ≤ bound n := by
  constructor
  · intro h n
    exact h n (t (n + 1)) (hstep n) (Int.le_refl _)
  · intro h n u _ hu
    exact Int.le_trans hu (h n)

end Timeline
