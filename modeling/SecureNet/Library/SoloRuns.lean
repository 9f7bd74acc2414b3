import SecureNet.Library.TaskHistory

/-!
# A task that runs alone

`Prog.run` serves every call of one program, with one input for all of them, until it answers.
`exec_run` finds this run again in the machine of all interleavings: it is the one in which no
other task is polled.
-/

namespace Tasks

open EventMachine

variable {S : Signature} {σ ρ α β ι ε : Type} (E : Environment S σ ι ε) (i : ℕ) (inp : ι)

/-- The final state, the answer and the events, unless a call is refused. -/
def Prog.run : σ → Prog S α → Option (σ × α × List ε)
  | s, .done a => some (s, a, [])
  | s, .call o k =>
    match E.reply s i o inp with
    | none => none
    | some (t, r, evs) =>
      match Prog.run t (k r) with
      | none => none
      | some (u, a, rest) => some (u, a, evs ++ rest)

variable {E i inp}

@[simp] lemma Prog.run_done {s t : σ} {a b : α} {evs : List ε} :
    Prog.run E i inp s (.done a : Prog S α) = some (t, b, evs) ↔ t = s ∧ b = a ∧ evs = [] := by
  simp only [Prog.run, Option.some.injEq, Prod.mk.injEq]
  exact and_congr eq_comm (and_congr eq_comm eq_comm)

lemma Prog.run_call {s u : σ} {o : S.Op} {k : S.Reply o → Prog S α} {a : α} {evs : List ε} :
    Prog.run E i inp s (.call o k) = some (u, a, evs) ↔
      ∃ t r pre rest, E.reply s i o inp = some (t, r, pre) ∧
        Prog.run E i inp t (k r) = some (u, a, rest) ∧ evs = pre ++ rest := by
  rw [Prog.run]
  constructor
  · intro h
    split at h
    · cases h
    · next t r pre hr =>
      split at h
      · cases h
      · next v b rest hk =>
        simp only [Option.some.injEq, Prod.mk.injEq] at h
        obtain ⟨rfl, rfl, rfl⟩ := h
        exact ⟨t, r, pre, rest, hr, hk, rfl⟩
  · rintro ⟨t, r, pre, rest, hr, hk, rfl⟩
    simp only [hr, hk]

theorem Prog.run_bind {s u : σ} {p : Prog S α} {f : α → Prog S β} {b : β} {evs : List ε} :
    Prog.run E i inp s (p >>= f) = some (u, b, evs) ↔
      ∃ t a pre rest, Prog.run E i inp s p = some (t, a, pre) ∧
        Prog.run E i inp t (f a) = some (u, b, rest) ∧ evs = pre ++ rest := by
  induction p generalizing s evs with
  | done a =>
    constructor
    · intro h
      exact ⟨s, a, [], evs, run_done.mpr ⟨rfl, rfl, rfl⟩, h, rfl⟩
    · rintro ⟨t, a', pre, rest, hp, hf, rfl⟩
      obtain ⟨rfl, rfl, rfl⟩ := run_done.mp hp
      exact hf
  | call o k ih =>
    constructor
    · intro h
      obtain ⟨t, r, pre, rest, hr, hk, rfl⟩ := Prog.run_call.mp h
      obtain ⟨v, a, pre', rest', hp, hf, rfl⟩ := (ih r).mp hk
      exact ⟨v, a, pre ++ pre', rest', run_call.mpr ⟨t, r, pre, pre', hr, hp, rfl⟩, hf,
        (List.append_assoc _ _ _).symm⟩
    · rintro ⟨v, a, pre, rest, hp, hf, rfl⟩
      obtain ⟨t, r, pre₁, pre₂, hr, hk, rfl⟩ := run_call.mp hp
      exact run_call.mpr ⟨t, r, pre₁, pre₂ ++ rest, hr, (ih r).mpr ⟨v, a, pre₂, rest, hk, hf, rfl⟩,
        List.append_assoc _ _ _⟩

/-- What runs in one environment runs in another that serves every call alike from related states. -/
theorem Prog.run_related {κ τ : Type} {E' : Environment S τ κ ε} {i' : ℕ} {inp' : κ}
    {R : σ → τ → Prop}
    (hreply : ∀ s s' o t r evs, R s s' → E.reply s i o inp = some (t, r, evs) →
      ∃ t', E'.reply s' i' o inp' = some (t', r, evs) ∧ R t t')
    {s t : σ} {s' : τ} {p : Prog S α} {a : α} {evs : List ε} (hs : R s s')
    (h : Prog.run E i inp s p = some (t, a, evs)) :
    ∃ t', Prog.run E' i' inp' s' p = some (t', a, evs) ∧ R t t' := by
  induction p generalizing s s' evs with
  | done b =>
    obtain ⟨rfl, rfl, rfl⟩ := run_done.mp h
    exact ⟨s', rfl, hs⟩
  | call o k ih =>
    obtain ⟨u, r, pre, rest, hr, hk, rfl⟩ := run_call.mp h
    obtain ⟨u', hr', hu⟩ := hreply s s' o u r pre hs hr
    obtain ⟨t', hk', ht⟩ := ih r hu hk
    exact ⟨t', run_call.mpr ⟨u', r, pre, rest, hr', hk', rfl⟩, ht⟩

/-- The machine can run its last task alone, and it does what `Prog.run` says. -/
theorem exec_run (handler : ρ → Prog S α) (r : ρ) {ts : List (Task S ρ α)} {p : Prog S α}
    {s t : σ} {a : α} {evs : List ε} (h : Prog.run E ts.length inp s p = some (t, a, evs)) :
    ∃ n, (machine E handler).exec ⟨s, ts ++ [⟨r, .running p⟩]⟩
        (List.replicate n (.poll ts.length inp)) =
      some (⟨t, ts ++ [⟨r, .finished a⟩]⟩, evs.map (.did ts.length) ++ [.responded ts.length a]) := by
  have hlast : ∀ st : Status S α, (ts ++ [(⟨r, st⟩ : Task S ρ α)])[ts.length]? = some ⟨r, st⟩ :=
    fun st => List.getElem?_concat_length
  have hset : ∀ st st' : Status S α,
      (ts ++ [(⟨r, st⟩ : Task S ρ α)]).set ts.length ⟨r, st'⟩ = ts ++ [⟨r, st'⟩] := by
    intro st st'
    rw [List.set_append_right _ _ (Nat.le_refl _), Nat.sub_self, List.set_cons_zero]
  induction p generalizing s evs with
  | done b =>
    obtain ⟨rfl, rfl, rfl⟩ := Prog.run_done.mp h
    have hpoll : (machine E handler).step ⟨t, ts ++ [⟨r, .running (.done a)⟩]⟩
        (.poll ts.length inp) = some (⟨t, ts ++ [⟨r, .finished a⟩]⟩, [.responded ts.length a]) :=
      Option.bind_eq_some_iff.mpr ⟨_, hlast _, by simp only [pollTask, hset]⟩
    exact ⟨1, Machine.exec_cons.mpr ⟨_, _, _, hpoll, Machine.exec_nil.mpr ⟨rfl, rfl⟩, rfl⟩⟩
  | call o k ih =>
    obtain ⟨u, rep, pre, rest, hr, hk, rfl⟩ := Prog.run_call.mp h
    have hpoll : (machine E handler).step ⟨s, ts ++ [⟨r, .running (.call o k)⟩]⟩
        (.poll ts.length inp) = some (⟨u, ts ++ [⟨r, settled (k rep)⟩]⟩,
          pre.map (.did ts.length) ++ answer ts.length (k rep)) :=
      Option.bind_eq_some_iff.mpr ⟨_, hlast _, by simp only [pollTask, hr, hset]⟩
    cases hp : k rep with
    | done b =>
      rw [hp] at hk hpoll
      obtain ⟨rfl, rfl, rfl⟩ := Prog.run_done.mp hk
      refine ⟨1, Machine.exec_cons.mpr ⟨_, _, _, hpoll, Machine.exec_nil.mpr ⟨rfl, rfl⟩, ?_⟩⟩
      simp [answer]
    | call o' k' =>
      obtain ⟨n, hn⟩ := ih rep hk
      rw [hp] at hn hpoll
      refine ⟨n + 1, Machine.exec_cons.mpr ⟨_, _, _, hpoll, hn, ?_⟩⟩
      simp [answer]

section Rest

variable {handler : ρ → Prog S α} {s : System S σ ρ α}

/-- What can be told of a task that a poll does not move. -/
lemma refused_cases (hs : (machine E handler).step s (.poll i inp) = none) {r : ρ}
    {st : Status S α} (hi : s.tasks[i]? = some ⟨r, st⟩) :
    (∃ a, st = .finished a) ∨ st = .dropped ∨
      ∃ o k, st = .running (.call o k) ∧ E.reply s.shared i o inp = none := by
  simp only [machine, hi, Option.bind_some] at hs
  cases st with
  | finished a => exact .inl ⟨a, rfl⟩
  | dropped => exact .inr (.inl rfl)
  | running p =>
    cases p with
    | done a => cases hs
    | call o k =>
      refine .inr (.inr ⟨o, k, rfl, ?_⟩)
      cases hr : E.reply s.shared i o inp with
      | none => rfl
      | some served => simp only [pollTask, hr, reduceCtorEq] at hs

variable (E handler i inp) in
/-- Polled again and again, task `i` comes to a call that is refused, or to its end. -/
def ComesToRest (s : System S σ ρ α) : Prop :=
  ∃ n t tr, (machine E handler).exec s (List.replicate n (.poll i inp)) = some (t, tr) ∧
    (machine E handler).step t (.poll i inp) = none

lemma ComesToRest.here (hs : (machine E handler).step s (.poll i inp) = none) :
    ComesToRest E i inp handler s := ⟨0, s, [], rfl, hs⟩

lemma ComesToRest.next {t : System S σ ρ α} {evs : List (Event ρ α ε)}
    (hs : (machine E handler).step s (.poll i inp) = some (t, evs))
    (ht : ComesToRest E i inp handler t) : ComesToRest E i inp handler s := by
  obtain ⟨n, u, tr, hrun, hrest⟩ := ht
  exact ⟨n + 1, u, evs ++ tr, Machine.exec_cons.mpr ⟨t, evs, tr, hs, hrun, rfl⟩, hrest⟩

lemma comesToRest_settled {r : ρ} {p : Prog S α} (hi : s.tasks[i]? = some ⟨r, settled p⟩) :
    ComesToRest E i inp handler s := by
  induction p generalizing s with
  | done a => exact .here (by simp only [machine, hi, Option.bind_some, pollTask, settled])
  | call o k ih =>
    have hlt := (List.getElem?_eq_some_iff.mp hi).1
    cases hr : E.reply s.shared i o inp with
    | none => exact .here (by simp only [machine, hi, Option.bind_some, pollTask, settled, hr])
    | some served =>
      obtain ⟨sh, rep, evs⟩ := served
      have hpoll : (machine E handler).step s (.poll i inp) =
          some (⟨sh, s.tasks.set i ⟨r, settled (k rep)⟩⟩,
            evs.map (.did i) ++ answer i (k rep)) := by
        simp only [machine, hi, Option.bind_some, pollTask, settled, hr]
      exact .next hpoll (ih rep (List.getElem?_set_self hlt))

theorem comesToRest (s : System S σ ρ α) : ComesToRest E i inp handler s := by
  cases hi : s.tasks[i]? with
  | none => exact .here (by simp only [machine, hi, Option.bind_none])
  | some t =>
    obtain ⟨r, st⟩ := t
    cases st with
    | finished a => exact .here (by simp only [machine, hi, Option.bind_some, pollTask])
    | dropped => exact .here (by simp only [machine, hi, Option.bind_some, pollTask])
    | running p =>
      cases p with
      | call o k => exact comesToRest_settled (p := .call o k) hi
      | done a =>
        have hlt := (List.getElem?_eq_some_iff.mp hi).1
        have hpoll : (machine E handler).step s (.poll i inp) =
            some (⟨s.shared, s.tasks.set i ⟨r, .finished a⟩⟩, [.responded i a]) := by
          simp only [machine, hi, Option.bind_some, pollTask]
        exact .next hpoll (comesToRest_settled (p := .done a) (List.getElem?_set_self hlt))

lemma poll_status {t : System S σ ρ α} {evs : List (Event ρ α ε)}
    (hs : (machine E handler).step s (.poll i inp) = some (t, evs)) {r : ρ} {st : Status S α}
    (hi : s.tasks[i]? = some ⟨r, st⟩) : ∃ st', t.tasks[i]? = some ⟨r, st'⟩ ∧ st' ≠ .dropped := by
  have hlt := (List.getElem?_eq_some_iff.mp hi).1
  cases step_cases hs with
  | respond _ _ r' a hi' =>
    rw [hi] at hi'
    cases hi'
    exact ⟨.finished a, List.getElem?_set_self hlt, by simp⟩
  | perform _ _ r' o k sh rep evs hi' hr =>
    rw [hi] at hi'
    cases hi'
    refine ⟨settled (k rep), List.getElem?_set_self hlt, ?_⟩
    cases k rep <;> simp [settled]

lemma polls_status {n : ℕ} {t : System S σ ρ α} {tr : List (Event ρ α ε)}
    (h : (machine E handler).exec s (List.replicate n (.poll i inp)) = some (t, tr)) {r : ρ}
    {st : Status S α} (hi : s.tasks[i]? = some ⟨r, st⟩) (hst : st ≠ .dropped) :
    ∃ st', t.tasks[i]? = some ⟨r, st'⟩ ∧ st' ≠ .dropped := by
  induction n generalizing s st tr with
  | zero =>
    obtain ⟨rfl, -⟩ := Machine.exec_nil.mp h
    exact ⟨st, hi, hst⟩
  | succ n ih =>
    obtain ⟨u, evs, rest, hs, hrest, -⟩ := Machine.exec_cons.mp h
    obtain ⟨st', hi', hst'⟩ := poll_status hs hi
    exact ih hrest hi' hst'

/-- Polled again and again, a running task comes to its end if none of its calls is refused. -/
theorem polls_finish {r : ρ} {p : Prog S α} (hi : s.tasks[i]? = some ⟨r, .running p⟩)
    (hserved : ∀ n t tr o k, (machine E handler).exec s (List.replicate n (.poll i inp)) = some (t, tr) →
      t.tasks[i]? = some ⟨r, .running (.call o k)⟩ → E.reply t.shared i o inp ≠ none) :
    ∃ n t tr a, (machine E handler).exec s (List.replicate n (.poll i inp)) = some (t, tr) ∧
      t.tasks[i]? = some ⟨r, .finished a⟩ := by
  obtain ⟨n, t, tr, hrun, hrest⟩ : ComesToRest E i inp handler s := comesToRest s
  obtain ⟨st, ht, hst⟩ := polls_status hrun hi (by simp)
  obtain ⟨a, rfl⟩ | rfl | ⟨o, k, rfl, hnone⟩ := refused_cases hrest ht
  · exact ⟨n, t, tr, a, hrun, ht⟩
  · exact absurd rfl hst
  · exact absurd hnone (hserved n t tr o k hrun ht)

end Rest

end Tasks
