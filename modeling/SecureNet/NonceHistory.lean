import SecureNet.Library.ExpiringStore
import SecureNet.NonceStore

/-!
# The nonce store against its history

Whatever has been registered and consumed before, a nonce is accepted as if the store had kept
everything: pruning during `register` is never seen.
-/

namespace SecureNet

open Hex (Bytes)
open ExpiringStore KeyedStore

namespace NonceStore

/-- `put` is a `register` and `take` a `consume`. -/
def step (self : NonceStore) : Op Bytes → NonceStore
  | .put nonce elapsedAt now => self.register elapsedAt nonce now
  | .take nonce now => (self.consume nonce now).2

def after (ops : List (Op Bytes)) : NonceStore := ops.foldl step new

/-- What the `consume`s among some operations return. -/
def consumed (self : NonceStore) : List (Op Bytes) → List Bool
  | [] => []
  | .put nonce elapsedAt now :: ops => consumed (self.register elapsedAt nonce now) ops
  | .take nonce now :: ops =>
    (self.consume nonce now).1 :: consumed (self.consume nonce now).2 ops

lemma consume_eq (self : NonceStore) (nonce : Bytes) (now : ℕ) :
    self.consume nonce now = take nonceLifetime self nonce now := by
  unfold consume take isFresh
  cases self.lookup nonce <;> rfl

lemma step_eq : step = ExpiringStore.step nonceLifetime := by
  funext self o
  cases o <;> rfl

lemma consumed_eq (self : NonceStore) (ops : List (Op Bytes)) :
    self.consumed ops = answers nonceLifetime step self ops := by
  induction ops generalizing self with
  | nil => rfl
  | cons o ops ih =>
    cases o with
    | put nonce elapsedAt now => exact ih _
    | take nonce now =>
      rw [consumed, ih, consume_eq]
      rfl

end NonceStore

/-- For all operations at times that never go back: `consume` returns true exactly if the last
operation on the nonce is a `register` less than 30 seconds ago. The store answers like one that
never prunes. -/
theorem consume_iff_history :
    (∀ (past : List (Op Bytes)) (nonce : Bytes) (now : ℕ), Timely 0 (past ++ [.take nonce now]) →
      (((NonceStore.after past).consume nonce now).1 = true ↔
        ∃ l elapsedAt t₀ m, past = l ++ .put nonce elapsedAt t₀ :: m ∧ (∀ o ∈ m, o.key ≠ nonce) ∧
          t₀ ≤ now ∧ now - t₀ < seconds 30)) ∧
      ∀ ops : List (Op Bytes), Timely 0 ops →
        NonceStore.new.consumed ops = answers nonceLifetime keepStep ∅ ops := by
  constructor
  · intro past nonce now h
    rw [NonceStore.consume_eq, NonceStore.after, NonceStore.step_eq]
    exact take_iff h
  · intro ops h
    rw [NonceStore.consumed_eq, NonceStore.step_eq]
    exact (agree_empty 0).answers h

section Sample

/-- The second registration prunes the first one. -/
def prunedPast : List (Op Bytes) :=
  [.put [1] (fun _ => 0) 0, .put [2] (fun _ => seconds 31) (seconds 31)]

lemma prunedPast_timely (nonce : Bytes) :
    Timely 0 (prunedPast ++ [.take nonce (seconds 40)]) := by
  have hlater : seconds 31 ≤ seconds 40 := by
    unfold seconds
    omega
  exact ⟨Op.inOrder_put (Nat.le_refl 0) [1], Op.inOrder_put (Nat.zero_le _) [2],
    Op.inOrder_take hlater nonce, trivial⟩

end Sample

theorem consume_iff_history_pruned :
    ((NonceStore.after prunedPast).consume [2] (seconds 40)).1 = true ∧
      ((NonceStore.after prunedPast).consume [1] (seconds 40)).1 = false := by
  constructor
  · apply (consume_iff_history.1 prunedPast [2] (seconds 40) (prunedPast_timely [2])).mpr
    exact ⟨[.put [1] (fun _ => 0) 0], _, seconds 31, [], rfl, by simp, by decide, by decide⟩
  · rfl

end SecureNet
