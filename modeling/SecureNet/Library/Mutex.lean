import SecureNet.Library.TaskHistory

/-!
# Tasks that share a mutex

The calls of a program are told apart by what they do to a mutex. A program that takes it, works
inside and releases it again keeps to this in every interleaving, and a task that is dropped inside
gives the mutex back. Then no running task waits for ever: polls alone bring all of them to an end.
-/

namespace Tasks

open EventMachine

/-- What a call does to the mutex. -/
inductive LockUse
  | acquire
  | inside
  | release
  | outside
  deriving DecidableEq

/-- Whether a program holds the mutex after a call. -/
def LockUse.after : LockUse → Bool → Option Bool
  | .acquire, false => some true
  | .inside, true => some true
  | .release, true => some false
  | .outside, false => some false
  | _, _ => none

variable {S : Signature} {σ ρ α β ι ε : Type} {use : S.Op → LockUse}

variable (use) in
/-- A program that makes each call where it may, beginning with the mutex if `held` and ending with
it if `last`. -/
def Bracketed (last : Bool) : Bool → Prog S α → Prop
  | held, .done _ => held = last
  | held, .call o k => ∃ next, (use o).after held = some next ∧ ∀ r, Bracketed last next (k r)

/-- A program that makes at most `n` calls. -/
def AtMost : ℕ → Prog S α → Prop
  | _, .done _ => True
  | 0, .call _ _ => False
  | n + 1, .call _ k => ∀ r, AtMost n (k r)

theorem Bracketed.bind {last mid held : Bool} {p : Prog S α} {f : α → Prog S β}
    (hp : Bracketed use mid held p) (hf : ∀ a, Bracketed use last mid (f a)) :
    Bracketed use last held (p >>= f) := by
  induction p generalizing held with
  | done a =>
    obtain rfl : held = mid := hp
    exact hf a
  | call o k ih =>
    obtain ⟨next, hnext, hk⟩ := hp
    exact ⟨next, hnext, fun r => ih r (hk r)⟩

lemma AtMost.mono {m n : ℕ} {p : Prog S α} (hp : AtMost m p) (hmn : m ≤ n) : AtMost n p := by
  induction p generalizing m n with
  | done a => cases n <;> trivial
  | call o k ih =>
    cases m with
    | zero => exact hp.elim
    | succ m =>
      obtain ⟨n, rfl⟩ : ∃ n', n = n' + 1 := ⟨n - 1, by omega⟩
      intro r
      exact ih r (hp r) (by omega)

theorem AtMost.bind {m n : ℕ} {p : Prog S α} {f : α → Prog S β} (hp : AtMost m p)
    (hf : ∀ a, AtMost n (f a)) : AtMost (m + n) (p >>= f) := by
  induction p generalizing m with
  | done a => exact (hf a).mono (Nat.le_add_left n m)
  | call o k ih =>
    cases m with
    | zero => exact hp.elim
    | succ m =>
      rw [Nat.add_right_comm]
      intro r
      exact ih r (hp r)

/-- How the environment keeps the mutex, whose holder is a task. -/
structure Guards (E : Environment S σ ι ε) (holder : σ → Option ℕ) (use : S.Op → LockUse) :
    Prop where
  acquire : ∀ {s i o inp t r evs}, use o = .acquire → E.reply s i o inp = some (t, r, evs) →
    holder s = none ∧ holder t = some i
  inside : ∀ {s i o inp t r evs}, use o = .inside → E.reply s i o inp = some (t, r, evs) →
    holder t = holder s
  release : ∀ {s i o inp t r evs}, use o = .release → E.reply s i o inp = some (t, r, evs) →
    holder t = none
  outside : ∀ {s i o inp t r evs}, use o = .outside → E.reply s i o inp = some (t, r, evs) →
    holder t = holder s
  /-- The guard of a dropped task is released. -/
  dropInside : ∀ {s i o inp t evs}, (use o).after true ≠ none →
    E.cancel s i o inp = some (t, evs) → holder t = none
  dropOutside : ∀ {s i o inp t evs}, (use o).after false ≠ none →
    E.cancel s i o inp = some (t, evs) → holder t = holder s
  restart : ∀ {s inp}, holder (E.restart s inp) = none

variable {E : Environment S σ ι ε} {handler : ρ → Prog S α} {holder : σ → Option ℕ}

/-- Task `i` is the only one that a step has given the mutex to or taken it from. -/
def OnlyMoves (holder : σ → Option ℕ) (i : ℕ) (s t : σ) : Prop :=
  ∀ j ≠ i, holder t = some j ↔ holder s = some j

lemma onlyMoves_of_eq {i : ℕ} {s t : σ} (h : holder t = holder s) : OnlyMoves holder i s t := by
  intro j _
  rw [h]

lemma onlyMoves_of_holder {i : ℕ} {s t : σ} (hs : holder s = none ∨ holder s = some i)
    (ht : holder t = none ∨ holder t = some i) : OnlyMoves holder i s t := by
  intro j hj
  have hother : ∀ {h : Option ℕ}, h = none ∨ h = some i → h ≠ some j := by
    rintro h (rfl | rfl) heq
    · cases heq
    · exact hj (Option.some.inj heq).symm
  constructor
  · intro h
    exact absurd h (hother ht)
  · intro h
    exact absurd h (hother hs)

lemma Guards.reply (hE : Guards E holder use) {s t : σ} {i : ℕ} {o : S.Op} {inp : ι}
    {r : S.Reply o} {evs : List ε} {held next : Bool} (hs : held = true ↔ holder s = some i)
    (hnext : (use o).after held = some next) (hr : E.reply s i o inp = some (t, r, evs)) :
    (next = true ↔ holder t = some i) ∧ OnlyMoves holder i s t := by
  cases huse : use o with
  | acquire =>
    obtain ⟨hnone, hsome⟩ := hE.acquire huse hr
    cases held with
    | true => simp [huse, LockUse.after] at hnext
    | false =>
      simp only [huse, LockUse.after, Option.some.injEq] at hnext
      rw [← hnext, hsome]
      exact ⟨by simp, onlyMoves_of_holder (.inl hnone) (.inr hsome)⟩
  | inside =>
    have hsame := hE.inside huse hr
    cases held with
    | false => simp [huse, LockUse.after] at hnext
    | true =>
      simp only [huse, LockUse.after, Option.some.injEq] at hnext
      rw [← hnext, hsame]
      exact ⟨hs, onlyMoves_of_eq hsame⟩
  | release =>
    have hnone := hE.release huse hr
    cases held with
    | false => simp [huse, LockUse.after] at hnext
    | true =>
      simp only [huse, LockUse.after, Option.some.injEq] at hnext
      rw [← hnext, hnone]
      exact ⟨by simp, onlyMoves_of_holder (.inr (hs.mp rfl)) (.inl hnone)⟩
  | outside =>
    have hsame := hE.outside huse hr
    cases held with
    | true => simp [huse, LockUse.after] at hnext
    | false =>
      simp only [huse, LockUse.after, Option.some.injEq] at hnext
      rw [← hnext, hsame]
      exact ⟨hs, onlyMoves_of_eq hsame⟩

lemma Guards.cancel (hE : Guards E holder use) {s t : σ} {i : ℕ} {o : S.Op} {inp : ι}
    {evs : List ε} {held next : Bool} (hs : held = true ↔ holder s = some i)
    (hnext : (use o).after held = some next) (hc : E.cancel s i o inp = some (t, evs)) :
    holder t ≠ some i ∧ OnlyMoves holder i s t := by
  cases held with
  | true =>
    have hnone := hE.dropInside (by simp [hnext]) hc
    rw [hnone]
    exact ⟨by simp, onlyMoves_of_holder (.inr (hs.mp rfl)) (.inl hnone)⟩
  | false =>
    have hsame := hE.dropOutside (by simp [hnext]) hc
    rw [hsame]
    exact ⟨fun hi => by simpa using hs.mpr hi, onlyMoves_of_eq hsame⟩

section Runs

/-- Whether a task holds the mutex, by where it stands in its program. -/
def Holds (use : S.Op → LockUse) (t : Task S ρ α) (held : Bool) : Prop :=
  match t.status with
  | .running p => Bracketed use false held p
  | _ => held = false

/-- The mutex belongs to the task that stands between taking and releasing it. -/
def Holding (holder : σ → Option ℕ) (use : S.Op → LockUse) (s : System S σ ρ α) : Prop :=
  (∀ i t, s.tasks[i]? = some t → ∃ held, Holds use t held ∧ (held = true ↔ holder s.shared = some i)) ∧
    ∀ i, s.tasks.length ≤ i → holder s.shared ≠ some i

lemma holds_settled {r : ρ} {p : Prog S α} {held : Bool} (hp : Bracketed use false held p) :
    Holds use ⟨r, settled p⟩ held := by
  cases p with
  | done a => exact hp
  | call o k => exact hp

/-- Task `i` moves, and nobody else gets or loses the mutex. -/
lemma Holding.move {s : System S σ ρ α} {i : ℕ} {t u : Task S ρ α} {sh : σ} {held : Bool}
    (h : Holding holder use s) (hi : s.tasks[i]? = some u) (ht : Holds use t held)
    (hheld : held = true ↔ holder sh = some i) (honly : OnlyMoves holder i s.shared sh) :
    Holding holder use ⟨sh, s.tasks.set i t⟩ := by
  obtain ⟨htasks, hrest⟩ := h
  have hlt := (List.getElem?_eq_some_iff.mp hi).1
  constructor
  · intro j v hj
    by_cases hji : j = i
    · subst hji
      rw [List.getElem?_set_self hlt] at hj
      cases hj
      exact ⟨held, ht, hheld⟩
    · rw [List.getElem?_set_ne (Ne.symm hji)] at hj
      obtain ⟨held', hv, hheld'⟩ := htasks j v hj
      exact ⟨held', hv, hheld'.trans (honly j hji).symm⟩
  · intro j hj hholder
    rw [List.length_set] at hj
    exact hrest j hj ((honly j (by omega)).mp hholder)

theorem Holding.step (hE : Guards E holder use) (hhandler : ∀ r, Bracketed use false false (handler r))
    {s t : System S σ ρ α} {a : Action ρ ι} {evs : List (Event ρ α ε)}
    (h : Holding holder use s) (hs : Step E handler s a t evs) : Holding holder use t := by
  cases hs with
  | arrive r =>
    obtain ⟨htasks, hrest⟩ := h
    constructor
    · intro i u hi
      by_cases hlt : i < s.tasks.length
      · rw [List.getElem?_append_left hlt] at hi
        exact htasks i u hi
      · have hlen := (List.getElem?_eq_some_iff.mp hi).1
        rw [List.length_append, List.length_singleton] at hlen
        obtain rfl : i = s.tasks.length := by omega
        rw [List.getElem?_concat_length] at hi
        cases hi
        exact ⟨false, hhandler r, by simpa using hrest _ (Nat.le_refl _)⟩
    · intro i hi
      rw [List.length_append] at hi
      exact hrest i (by omega)
  | respond i inp r a hi =>
    obtain ⟨held, hheld, hiff⟩ := h.1 i _ hi
    obtain rfl : held = false := hheld
    exact h.move hi (t := ⟨r, .finished a⟩) rfl hiff (onlyMoves_of_eq rfl)
  | perform i inp r o k sh rep evs hi hr =>
    obtain ⟨held, ⟨next, hnext, hk⟩, hiff⟩ := h.1 i _ hi
    obtain ⟨hheld, honly⟩ := hE.reply hiff hnext hr
    exact h.move hi (holds_settled (hk rep)) hheld honly
  | drop i inp r o k sh evs hi hc =>
    obtain ⟨held, ⟨next, hnext, -⟩, hiff⟩ := h.1 i _ hi
    obtain ⟨hheld, honly⟩ := hE.cancel hiff hnext hc
    have hdropped : Holds use (⟨r, .dropped⟩ : Task S ρ α) false := rfl
    exact h.move hi hdropped (by simpa using hheld) honly
  | restart inp =>
    constructor
    · intro i u hi
      rw [List.getElem?_map] at hi
      obtain ⟨⟨r, st⟩, -, rfl⟩ := Option.map_eq_some_iff.mp hi
      refine ⟨false, ?_, by simp [hE.restart]⟩
      cases st <;> rfl
    · intro i _
      rw [hE.restart]
      simp

lemma Holding.exec (hE : Guards E holder use) (hhandler : ∀ r, Bracketed use false false (handler r))
    {s t : System S σ ρ α} {as : List (Action ρ ι)} {tr : List (Event ρ α ε)}
    (h : Holding holder use s) (hs : (machine E handler).exec s as = some (t, tr)) :
    Holding holder use t :=
  Machine.exec_induction (P := fun _ _ s => Holding holder use s) h
    (fun _ _ _ _ _ _ _ ih hs => ih.step hE hhandler (step_cases hs)) hs

theorem exec_holding (hE : Guards E holder use) (hhandler : ∀ r, Bracketed use false false (handler r))
    {sh₀ : σ} (h₀ : holder sh₀ = none) {as : List (Action ρ ι)} {s : System S σ ρ α}
    {tr : List (Event ρ α ε)} (h : (machine E handler).exec ⟨sh₀, []⟩ as = some (s, tr)) :
    Holding holder use s := by
  have hstart : Holding holder use (⟨sh₀, []⟩ : System S σ ρ α) :=
    ⟨fun i t hi => by simp at hi, fun i _ => by simp [h₀]⟩
  exact hstart.exec hE hhandler h

end Runs

section Progress

def Task.isRunning (t : Task S ρ α) : Bool :=
  match t.status with
  | .running _ => true
  | _ => false

/-- A running task has come to its answer, and any other is as it was. -/
def Finishes (u v : Task S ρ α) : Prop :=
  match u.status with
  | .running _ => ∃ a, v = ⟨u.request, .finished a⟩
  | _ => v = u

def Action.IsPoll (a : Action ρ ι) : Prop := ∃ i inp, a = .poll i inp

/-- Every call can be served, only that nobody else may hold the mutex that is to be taken. -/
def Serves (E : Environment S σ ι ε) (holder : σ → Option ℕ) (use : S.Op → LockUse) : Prop :=
  ∀ s i o, (use o = .acquire → holder s = none) → ∃ inp t r evs, E.reply s i o inp = some (t, r, evs)

/-- The running programs make at most `n` more calls each. -/
def Short (n : ℕ) (s : System S σ ρ α) : Prop :=
  ∀ (i : ℕ) r p, s.tasks[i]? = some ⟨r, .running p⟩ → AtMost n p

lemma exec_short {n : ℕ} (hhandler : ∀ r, AtMost n (handler r)) {sh₀ : σ}
    {as : List (Action ρ ι)} {s : System S σ ρ α} {tr : List (Event ρ α ε)}
    (h : (machine E handler).exec ⟨sh₀, []⟩ as = some (s, tr)) : Short n s := by
  have hall : EachTask (fun _ t => ∀ p, t.status = .running p → AtMost n p) s tr := by
    refine exec_each ?_ ?_ ?_ ?_ ?_ h (meets_true sh₀ as)
    · intro r p hp
      cases hp
      exact hhandler r
    · intro _ r a _ p hp
      cases hp
    · intro _ r o k _ _ _ _ rep _ ht _ _ p hp
      have hk : AtMost n (.call o k) := ht _ rfl
      cases n with
      | zero => exact hk.elim
      | succ n =>
        have hrep : AtMost (n + 1) (k rep) := (hk rep).mono (Nat.le_succ n)
        cases hc : k rep with
        | done a =>
          rw [hc] at hp
          cases hp
        | call o' k' =>
          rw [hc] at hp hrep
          cases hp
          exact hrep
    · intro _ r o k _ _ _ _ _ _ _ _ p hp
      cases hp
    · intro _ t ht p hp
      obtain ⟨r, st⟩ := t
      cases st <;> cases hp
  intro i r p hi
  exact hall.1 i _ hi p rfl

/-- Polled alone, a task that holds the mutex, or finds it free, comes to its answer and leaves the
mutex free. -/
lemma settled_finishes (hE : Guards E holder use) (hserves : Serves E holder use) {i n : ℕ} {r : ρ}
    {p : Prog S α} {held : Bool} {s : System S σ ρ α} (hi : s.tasks[i]? = some ⟨r, settled p⟩)
    (hp : Bracketed use false held p) (hn : AtMost n p)
    (hheld : holder s.shared = if held then some i else none) :
    ∃ as t tr a, (machine E handler).exec s as = some (t, tr) ∧ as.length ≤ n ∧
      (∀ b ∈ as, b.IsPoll) ∧ t.tasks = s.tasks.set i ⟨r, .finished a⟩ ∧ holder t.shared = none := by
  have hlt := (List.getElem?_eq_some_iff.mp hi).1
  induction p generalizing s n held with
  | done a =>
    obtain rfl : held = false := hp
    refine ⟨[], s, [], a, rfl, Nat.zero_le n, by simp, ?_, hheld⟩
    have hget : s.tasks[i] = ⟨r, .finished a⟩ := (List.getElem?_eq_some_iff.mp hi).2
    rw [← hget, List.set_getElem_self]
  | call o k ih =>
    obtain ⟨next, hnext, hk⟩ := hp
    cases n with
    | zero => exact hn.elim
    | succ n =>
      have hfree : use o = .acquire → holder s.shared = none := by
        intro huse
        rw [hheld]
        cases held with
        | false => rfl
        | true => simp [huse, LockUse.after] at hnext
      obtain ⟨inp, sh, rep, evs, hr⟩ := hserves s.shared i o hfree
      have hpoll : (machine E handler).step s (.poll i inp) =
          some (⟨sh, s.tasks.set i ⟨r, settled (k rep)⟩⟩, evs.map (.did i) ++ answer i (k rep)) := by
        simp only [machine, hi, Option.bind_some, pollTask, settled, hr]
      have hiff : held = true ↔ holder s.shared = some i := by
        rw [hheld]
        cases held <;> simp
      obtain ⟨hiff', honly⟩ := hE.reply hiff hnext hr
      have hheld' : holder sh = if next then some i else none := by
        cases next with
        | true => exact hiff'.mp rfl
        | false =>
          cases hs : holder sh with
          | none => rfl
          | some j =>
            by_cases hj : j = i
            · exact absurd (hiff'.mpr (hs.trans (congrArg some hj))) (by simp)
            · have hbefore := (honly j hj).mp hs
              rw [hheld] at hbefore
              cases held with
              | false => simp at hbefore
              | true => exact absurd (Option.some.inj hbefore).symm hj
      obtain ⟨as, t, tr, a, hrun, hlen, hpolls, htasks, hnone⟩ := ih rep
        (s := ⟨sh, s.tasks.set i ⟨r, settled (k rep)⟩⟩) (List.getElem?_set_self hlt) (hk rep) (hn rep)
        hheld' (by rwa [List.length_set])
      refine ⟨.poll i inp :: as, t, _, a, Machine.exec_cons.mpr ⟨_, _, tr, hpoll, hrun, rfl⟩, ?_, ?_,
        ?_, hnone⟩
      · simpa using hlen
      · simpa using ⟨⟨i, inp, rfl⟩, hpolls⟩
      · rw [htasks, List.set_set]

variable (handler) in
lemma running_finishes [Inhabited ι] (hE : Guards E holder use) (hserves : Serves E holder use)
    {i n : ℕ} {r : ρ} {p : Prog S α} {held : Bool} {s : System S σ ρ α} (hpos : 1 ≤ n)
    (hi : s.tasks[i]? = some ⟨r, .running p⟩) (hp : Bracketed use false held p) (hn : AtMost n p)
    (hheld : holder s.shared = if held then some i else none) :
    ∃ as t tr a, (machine E handler).exec s as = some (t, tr) ∧ as.length ≤ n ∧
      (∀ b ∈ as, b.IsPoll) ∧ t.tasks = s.tasks.set i ⟨r, .finished a⟩ ∧ holder t.shared = none := by
  cases p with
  | call o k => exact settled_finishes hE hserves (p := .call o k) hi hp hn hheld
  | done a =>
    obtain rfl : held = false := hp
    have hpoll : (machine E handler).step s (.poll i default) =
        some (⟨s.shared, s.tasks.set i ⟨r, .finished a⟩⟩, [.responded i a]) := by
      simp only [machine, hi, Option.bind_some, pollTask]
    exact ⟨[.poll i default], _, _, a,
      Machine.exec_cons.mpr ⟨_, _, _, hpoll, Machine.exec_nil.mpr ⟨rfl, rfl⟩, rfl⟩, hpos,
      by simpa using ⟨i, default, rfl⟩, rfl, hheld⟩

/-- The task to poll first: the holder of the mutex, or else any that runs. -/
lemma Holding.next {s : System S σ ρ α} (h : Holding holder use s)
    (hsome : ∃ t ∈ s.tasks, t.isRunning = true) : ∃ i r p held, s.tasks[i]? = some ⟨r, .running p⟩ ∧
      Bracketed use false held p ∧ holder s.shared = if held then some i else none := by
  obtain ⟨htasks, hrest⟩ := h
  cases hholder : holder s.shared with
  | none =>
    obtain ⟨⟨r, st⟩, hmem, hrun⟩ := hsome
    obtain ⟨i, hi⟩ := List.getElem?_of_mem hmem
    obtain ⟨held, hheld, hiff⟩ := htasks i _ hi
    cases st with
    | running p =>
      obtain rfl : held = false := by
        cases held with
        | false => rfl
        | true => simpa [hholder] using hiff.mp rfl
      exact ⟨i, r, p, false, hi, hheld, rfl⟩
    | _ => cases hrun
  | some i =>
    have hlt : i < s.tasks.length := by
      by_contra hge
      exact hrest i (Nat.le_of_not_lt hge) hholder
    obtain ⟨⟨r, st⟩, hi⟩ : ∃ t, s.tasks[i]? = some t := ⟨_, List.getElem?_eq_getElem hlt⟩
    obtain ⟨held, hheld, hiff⟩ := htasks i _ hi
    obtain rfl : held = true := hiff.mpr hholder
    cases st with
    | running p => exact ⟨i, r, p, true, hi, hheld, rfl⟩
    | _ => cases hheld

lemma finishes_refl {u v : Task S ρ α} (h : v = u) (hu : u.isRunning = false) : Finishes u v := by
  obtain ⟨r, st⟩ := u
  cases st with
  | running p => cases hu
  | finished a => exact h
  | dropped => exact h

/-- In a system whose tasks keep to the mutex, polls alone bring every running task to its answer,
`n` for each of them, and leave the others as they are. -/
theorem drains [Inhabited ι] (hE : Guards E holder use) (hserves : Serves E holder use)
    (hhandler : ∀ r, Bracketed use false false (handler r)) {n : ℕ} (hpos : 1 ≤ n)
    {s : System S σ ρ α} (h : Holding holder use s) (hshort : Short n s) :
    ∃ as t tr, (machine E handler).exec s as = some (t, tr) ∧
      as.length ≤ n * s.tasks.countP Task.isRunning ∧ (∀ b ∈ as, b.IsPoll) ∧
      t.tasks.length = s.tasks.length ∧
      ∀ (i : ℕ) u, s.tasks[i]? = some u → ∃ v, t.tasks[i]? = some v ∧ Finishes u v := by
  induction hcount : s.tasks.countP Task.isRunning generalizing s with
  | zero =>
    rw [List.countP_eq_zero] at hcount
    refine ⟨[], s, [], rfl, Nat.zero_le _, by simp, rfl, ?_⟩
    intro i u hi
    exact ⟨u, hi, finishes_refl rfl (by simpa using hcount u (List.mem_of_getElem? hi))⟩
  | succ k ih =>
    obtain ⟨i, r, p, held, hi, hp, hholder⟩ := h.next (List.countP_pos_iff.mp (by omega))
    obtain ⟨as₁, t, tr₁, a, hrun₁, hlen₁, hpolls₁, htasks, -⟩ :=
      running_finishes handler hE hserves hpos hi hp (hshort i r p hi) hholder
    have hlt := (List.getElem?_eq_some_iff.mp hi).1
    have hcount' : t.tasks.countP Task.isRunning = k := by
      rw [htasks, List.countP_set hlt, hcount]
      have hget : s.tasks[i] = ⟨r, .running p⟩ := (List.getElem?_eq_some_iff.mp hi).2
      simp [hget, Task.isRunning]
    have hshort' : Short n t := by
      intro j r' q hj
      rw [htasks] at hj
      by_cases hji : j = i
      · subst hji
        rw [List.getElem?_set_self hlt] at hj
        cases hj
      · rw [List.getElem?_set_ne (Ne.symm hji)] at hj
        exact hshort j r' q hj
    obtain ⟨as₂, u, tr₂, hrun₂, hlen₂, hpolls₂, htotal, hdone⟩ :=
      ih (h.exec hE hhandler hrun₁) hshort' hcount'
    refine ⟨as₁ ++ as₂, u, tr₁ ++ tr₂, Machine.exec_append.mpr ⟨t, tr₁, tr₂, hrun₁, hrun₂, rfl⟩, ?_, ?_,
      ?_, ?_⟩
    · rw [List.length_append, Nat.mul_succ]
      omega
    · intro b hb
      rcases List.mem_append.mp hb with hb | hb
      · exact hpolls₁ b hb
      · exact hpolls₂ b hb
    · rw [htotal, htasks, List.length_set]
    · intro j v hj
      by_cases hji : j = i
      · subst hji
        rw [hi] at hj
        cases hj
        obtain ⟨w, hw, hcomp⟩ := hdone j ⟨r, .finished a⟩ (by rw [htasks, List.getElem?_set_self hlt])
        obtain rfl : w = ⟨r, .finished a⟩ := hcomp
        exact ⟨_, hw, a, rfl⟩
      · exact hdone j v (by rw [htasks, List.getElem?_set_ne (Ne.symm hji)]; exact hj)

end Progress

end Tasks
