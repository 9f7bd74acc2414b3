import SecureNet.Library.KeyedStore

/-!
# Stores with expiring entries

An entry can be taken for a limited time after it was put. The store forgets expired entries
whenever something is put; nobody who puts and takes can tell it from a store that never forgets,
nor from the list of everything that has been put and taken.
-/

namespace ExpiringStore

open KeyedStore

variable {κ : Type}

/-- `seenAt` is the clock when the entry of a key is looked at while expired entries are removed. -/
inductive Op (κ : Type)
  | put (key : κ) (seenAt : κ → ℕ) (now : ℕ)
  | take (key : κ) (now : ℕ)

namespace Op

def key : Op κ → κ
  | .put k _ _ => k
  | .take k _ => k

def now : Op κ → ℕ
  | .put _ _ t => t
  | .take _ t => t

/-- The readings of the clock lie between the operation before, at time `c`, and the end of this
one. -/
structure InOrder (c : ℕ) (o : Op κ) : Prop where
  le : c ≤ o.now
  seen : ∀ k seenAt t, o = .put k seenAt t → ∀ k', c ≤ seenAt k' ∧ seenAt k' ≤ t

/-- An operation whose readings are all taken at its end. -/
lemma inOrder_put {c t : ℕ} (h : c ≤ t) (k : κ) : (put k (fun _ => t) t).InOrder c := by
  refine ⟨h, ?_⟩
  rintro _ _ _ ⟨⟩ k'
  exact ⟨h, Nat.le_refl t⟩

lemma inOrder_take {c t : ℕ} (h : c ≤ t) (k : κ) : (take k t).InOrder c :=
  ⟨h, by rintro _ _ _ ⟨⟩⟩

end Op

/-- Operations at times that never go back, from time `c` on. -/
def Timely (c : ℕ) : List (Op κ) → Prop
  | [] => True
  | o :: ops => o.InOrder c ∧ Timely o.now ops

lemma Timely.last {c : ℕ} {ops : List (Op κ)} {o : Op κ} (h : Timely c (ops ++ [o])) :
    c ≤ o.now ∧ ∀ o' ∈ ops, o'.now ≤ o.now := by
  induction ops generalizing c with
  | nil => exact ⟨h.1.le, by simp⟩
  | cons o' ops ih =>
    obtain ⟨ho', hrest⟩ := h
    obtain ⟨hle, hall⟩ := ih hrest
    refine ⟨Nat.le_trans ho'.le hle, ?_⟩
    intro x hx
    rcases List.mem_cons.mp hx with rfl | hx
    · exact hle
    · exact hall x hx

variable [DecidableEq κ] (lifetime : ℕ)

def put (m : Store κ ℕ) (key : κ) (seenAt : κ → ℕ) (now : ℕ) : Store κ ℕ :=
  (retain (fun k t => decide (seenAt k - t < lifetime)) m).insert key now

def isFresh (now : ℕ) : Option ℕ → Bool
  | some t => decide (now - t < lifetime)
  | none => false

/-- Removes the entry, and tells whether it could still be taken. -/
def take (m : Store κ ℕ) (key : κ) (now : ℕ) : Bool × Store κ ℕ :=
  (isFresh lifetime now (m.lookup key), m.erase key)

def step (m : Store κ ℕ) : Op κ → Store κ ℕ
  | .put k seenAt t => put lifetime m k seenAt t
  | .take k t => (take lifetime m k t).2

def after (m : Store κ ℕ) (ops : List (Op κ)) : Store κ ℕ := ops.foldl (step lifetime) m

/-- The step of a store that never forgets. -/
def keepStep (m : Store κ ℕ) : Op κ → Store κ ℕ
  | .put k _ t => m.insert k t
  | .take k _ => m.erase k

def keepAfter (m : Store κ ℕ) (ops : List (Op κ)) : Store κ ℕ := ops.foldl keepStep m

def Op.answer (m : Store κ ℕ) : Op κ → Option Bool
  | .put _ _ _ => none
  | .take k t => some (isFresh lifetime t (m.lookup k))

/-- What the operations on a store answer. -/
def answers (step : Store κ ℕ → Op κ → Store κ ℕ) : Store κ ℕ → List (Op κ) → List Bool
  | _, [] => []
  | m, o :: ops => (o.answer lifetime m).toList ++ answers step (step m o) ops

/-- What an operation does to the entry of a key. -/
def touch (k : κ) : Op κ → Option (Option ℕ)
  | .put key _ t => if key = k then some (some t) else none
  | .take key _ => if key = k then some none else none

lemma touch_put (k : κ) (seenAt : κ → ℕ) (t : ℕ) : touch k (.put k seenAt t) = some (some t) :=
  if_pos rfl

lemma touch_take (k : κ) (t : ℕ) : touch k (.take k t) = some none := if_pos rfl

lemma touch_eq_none {k : κ} {o : Op κ} : touch k o = none ↔ o.key ≠ k := by
  cases o <;> simp [touch, Op.key]

section Full

/-- The store that never forgets has the last operation on each key. -/
lemma keepAfter_lookup (ops : List (Op κ)) (k : κ) :
    (keepAfter ∅ ops).lookup k = (lastEffect (touch k) ops).join := by
  induction ops using List.reverseRecOn with
  | nil => rfl
  | append_singleton ops o ih =>
    rw [keepAfter, List.foldl_append, List.foldl_cons, List.foldl_nil]
    cases o with
    | put key seenAt t =>
      by_cases hk : key = k
      · subst hk
        rw [lastEffect_append_some (touch_put key seenAt t)]
        exact AList.lookup_insert _
      · have hquiet : touch k (.put key seenAt t) = none := touch_eq_none.mpr hk
        rw [lastEffect_append_none hquiet, ← ih]
        exact AList.lookup_insert_ne (Ne.symm hk)
    | take key t =>
      by_cases hk : key = k
      · subst hk
        rw [lastEffect_append_some (touch_take key t)]
        exact AList.lookup_erase _ _
      · have hquiet : touch k (.take key t) = none := touch_eq_none.mpr hk
        rw [lastEffect_append_none hquiet, ← ih]
        exact AList.lookup_erase_ne (Ne.symm hk)

/-- The last operation on a key has put it at time `t`. -/
theorem lastEffect_put {ops : List (Op κ)} {k : κ} {t : ℕ} :
    lastEffect (touch k) ops = some (some t) ↔
      ∃ l seenAt m, ops = l ++ .put k seenAt t :: m ∧ ∀ o ∈ m, o.key ≠ k := by
  constructor
  · intro hlast
    obtain ⟨l, o, m, rfl, ho, hm⟩ := lastEffect_split hlast
    cases o with
    | take key t' =>
      simp only [touch] at ho
      split at ho <;> cases ho
    | put key seenAt t' =>
      simp only [touch] at ho
      split at ho
      · next hk =>
        cases ho
        exact ⟨l, seenAt, m, by rw [hk], fun o ho => touch_eq_none.mp (hm o ho)⟩
      · cases ho
  · rintro ⟨l, seenAt, m, rfl, hm⟩
    exact lastEffect_of_quiet (touch_put k seenAt t) (fun o ho => .inl (touch_eq_none.mpr (hm o ho)))

end Full

/-- A store that forgets, and one that does not, at time `c`. -/
structure Agree (c : ℕ) (m f : Store κ ℕ) : Prop where
  sub : ∀ k t, m.lookup k = some t → f.lookup k = some t
  fresh : ∀ k t, f.lookup k = some t → c - t < lifetime → m.lookup k = some t

variable {lifetime} {c : ℕ} {m f : Store κ ℕ}

lemma Agree.take (h : Agree lifetime c m f) {now : ℕ} (hle : c ≤ now) (k : κ) :
    isFresh lifetime now (m.lookup k) = isFresh lifetime now (f.lookup k) := by
  cases hm : m.lookup k with
  | some t => rw [h.sub k t hm]
  | none =>
    cases hf : f.lookup k with
    | none => rfl
    | some t =>
      have hold : ¬now - t < lifetime := by
        intro hlt
        rw [h.fresh k t hf (by omega)] at hm
        cases hm
      exact (decide_eq_false hold).symm

lemma Agree.step (h : Agree lifetime c m f) {o : Op κ} (ho : o.InOrder c) :
    Agree lifetime o.now (step lifetime m o) (keepStep f o) := by
  have hle := ho.le
  cases o with
  | put key seenAt now =>
    constructor
    · intro k t hk
      by_cases hkey : k = key
      · subst hkey
        rw [ExpiringStore.step, put, AList.lookup_insert] at hk
        rw [keepStep, AList.lookup_insert]
        exact hk
      · rw [ExpiringStore.step, put, AList.lookup_insert_ne hkey, lookup_retain] at hk
        rw [keepStep, AList.lookup_insert_ne hkey]
        exact h.sub k t hk.1
    · intro k t hk hfresh
      by_cases hkey : k = key
      · subst hkey
        rw [keepStep, AList.lookup_insert] at hk
        rw [ExpiringStore.step, put, AList.lookup_insert]
        exact hk
      · rw [keepStep, AList.lookup_insert_ne hkey] at hk
        obtain ⟨hbefore, hafter⟩ := ho.seen key seenAt now rfl k
        have hnow : now - t < lifetime := hfresh
        have hkept := h.fresh k t hk (by omega)
        rw [ExpiringStore.step, put, AList.lookup_insert_ne hkey, lookup_retain]
        exact ⟨hkept, decide_eq_true (by omega)⟩
  | take key now =>
    constructor
    · intro k t hk
      by_cases hkey : k = key
      · subst hkey
        rw [ExpiringStore.step, ExpiringStore.take, AList.lookup_erase] at hk
        cases hk
      · rw [ExpiringStore.step, ExpiringStore.take, AList.lookup_erase_ne hkey] at hk
        rw [keepStep, AList.lookup_erase_ne hkey]
        exact h.sub k t hk
    · intro k t hk hfresh
      by_cases hkey : k = key
      · subst hkey
        rw [keepStep, AList.lookup_erase] at hk
        cases hk
      · rw [keepStep, AList.lookup_erase_ne hkey] at hk
        rw [ExpiringStore.step, ExpiringStore.take, AList.lookup_erase_ne hkey]
        have hnow : now - t < lifetime := hfresh
        have hle' : c ≤ now := hle
        exact h.fresh k t hk (by omega)

/-- The two stores agree when an operation comes after others. -/
theorem Agree.after (h : Agree lifetime c m f) {ops : List (Op κ)} {o : Op κ}
    (hops : Timely c (ops ++ [o])) :
    ∃ c', o.InOrder c' ∧ Agree lifetime c' (after lifetime m ops) (keepAfter f ops) := by
  induction ops generalizing c m f with
  | nil => exact ⟨c, hops.1, h⟩
  | cons o' ops ih => exact ih (h.step hops.1) hops.2

/-- Nobody can tell the two stores apart. -/
theorem Agree.answers (h : Agree lifetime c m f) {ops : List (Op κ)} (hops : Timely c ops) :
    answers lifetime (ExpiringStore.step lifetime) m ops = answers lifetime keepStep f ops := by
  induction ops generalizing c m f with
  | nil => rfl
  | cons o ops ih =>
    obtain ⟨ho, hrest⟩ := hops
    rw [ExpiringStore.answers, ExpiringStore.answers, ih (h.step ho) hrest]
    cases o with
    | put k seenAt t => rfl
    | take k t =>
      have hsame : isFresh lifetime t (m.lookup k) = isFresh lifetime t (f.lookup k) :=
        h.take ho.le k
      rw [Op.answer, Op.answer, hsame]

lemma agree_empty (c : ℕ) : Agree lifetime c (∅ : Store κ ℕ) ∅ :=
  ⟨fun _ _ hk => hk, fun _ _ hk _ => hk⟩

/-- A key can be taken exactly if its last operation has put it, less than the lifetime ago. -/
theorem take_iff {past : List (Op κ)} {k : κ} {now : ℕ} (h : Timely c (past ++ [.take k now])) :
    (take lifetime (after lifetime ∅ past) k now).1 = true ↔
      ∃ l seenAt t m, past = l ++ .put k seenAt t :: m ∧ (∀ o ∈ m, o.key ≠ k) ∧ t ≤ now ∧
        now - t < lifetime := by
  obtain ⟨c', ho, hagree⟩ := Agree.after (agree_empty (κ := κ) c) h
  have hanswer : (take lifetime (after lifetime ∅ past) k now).1 =
      isFresh lifetime now (lastEffect (touch k) past).join := by
    rw [← keepAfter_lookup]
    exact hagree.take ho.le k
  rw [hanswer]
  constructor
  · intro hfresh
    cases hlast : lastEffect (touch k) past with
    | none =>
      rw [hlast] at hfresh
      cases hfresh
    | some last =>
      cases last with
      | none =>
        rw [hlast] at hfresh
        cases hfresh
      | some t =>
        rw [hlast] at hfresh
        obtain ⟨l, seenAt, m, rfl, hm⟩ := lastEffect_put.mp hlast
        exact ⟨l, seenAt, t, m, rfl, hm, h.last.2 (.put k seenAt t) (by simp),
          of_decide_eq_true hfresh⟩
  · rintro ⟨l, seenAt, t, m, hpast, hm, -, hlt⟩
    rw [lastEffect_put.mpr ⟨l, seenAt, m, hpast, hm⟩]
    exact decide_eq_true hlt

end ExpiringStore
