import SecureNet.Library.TaskHistory

/-!
# Reading the trace of a system

Where the events of a trace come from: a task's own event from a poll or a drop of that task,
an answer from the last poll of a task, an arrival from the task list. The shared
state is described by an invariant that only the replies, cancellations and restarts of the
environment can touch.
-/

namespace Tasks

open EventMachine

variable {S : Signature} {σ ρ α ι ε : Type} {E : Environment S σ ι ε} {handler : ρ → Prog S α}
  {ok : ρ → σ → S.Op → ι → Prop} {Φ : ρ → List ε → Prop} {Ψ : ρ → List ε → α → Prop}

/-- An event that leaves the shared state alone. -/
def Event.Idle : Event ρ α ε → Prop
  | .did _ _ => False
  | .restarted => False
  | _ => True

lemma filterMap_effect_idle {β : Type} {f : ε → Option β} {e : Event ρ α ε} (he : e.Idle) :
    [e].filterMap (Event.effect f) = [] := by
  cases e with
  | did i e => exact he.elim
  | _ => rfl

lemma filterMap_effect_restarted {β : Type} (f : ε → Option β) :
    ([.restarted] : List (Event ρ α ε)).filterMap (Event.effect f) = [] := rfl

def Event.isRestart : Event ρ α ε → Bool
  | .restarted => true
  | _ => false

lemma restarted_mem {tr : List (Event ρ α ε)} :
    Event.restarted ∈ tr ↔ tr.any Event.isRestart = true := by
  rw [List.any_eq_true]
  constructor
  · intro h
    exact ⟨_, h, rfl⟩
  · rintro ⟨e, he, hr⟩
    cases e <;> first | exact he | cases hr

instance (tr : List (Event ρ α ε)) : Decidable (Event.restarted ∈ tr) :=
  decidable_of_iff _ restarted_mem.symm

/-- An invariant of the shared state and the trace, from what the environment preserves. -/
theorem exec_shared {I : List (Event ρ α ε) → σ → Prop} {sh₀ : σ} (h₀ : I [] sh₀)
    (hidle : ∀ tr s e, e.Idle → I tr s → I (tr ++ [e]) s)
    (hreply : ∀ tr s i o inp t r evs, I tr s → E.reply s i o inp = some (t, r, evs) →
      I (tr ++ evs.map (.did i)) t)
    (hcancel : ∀ tr s i o inp t evs, I tr s → E.cancel s i o inp = some (t, evs) →
      I (tr ++ evs.map (.did i)) t)
    (hrestart : ∀ tr s inp, I tr s → I (tr ++ [.restarted]) (E.restart s inp))
    {as : List (Action ρ ι)} {s : System S σ ρ α} {tr : List (Event ρ α ε)}
    (h : (machine E handler).exec ⟨sh₀, []⟩ as = some (s, tr)) : I tr s.shared := by
  refine Machine.exec_induction (P := fun _ tr s => I tr s.shared) h₀ ?_ h
  intro as tr s a t evs _ ih hs
  cases step_cases hs with
  | arrive r => exact hidle _ _ _ trivial ih
  | respond i inp r a hi => exact hidle _ _ _ trivial ih
  | perform i inp r o k sh rep evs hi hr =>
    rw [← List.append_assoc]
    have hnext := hreply tr s.shared i o inp sh rep evs ih hr
    cases k rep with
    | done a => exact hidle _ _ _ trivial hnext
    | call o' k' => simpa [answer] using hnext
  | drop i inp r o k sh evs hi hc =>
    rw [← List.append_assoc]
    exact hidle _ _ _ trivial (hcancel tr s.shared i o inp sh evs ih hc)
  | restart inp => exact hrestart tr s.shared inp ih

theorem exec_arrived {sh₀ : σ} {as : List (Action ρ ι)} {s : System S σ ρ α}
    {tr : List (Event ρ α ε)} (h : (machine E handler).exec ⟨sh₀, []⟩ as = some (s, tr))
    (i : ℕ) (r : ρ) : Event.arrived i r ∈ tr ↔ ∃ t, s.tasks[i]? = some t ∧ t.request = r := by
  refine Machine.exec_induction
    (P := fun _ tr s => Event.arrived i r ∈ tr ↔ ∃ t, s.tasks[i]? = some t ∧ t.request = r)
    (by simp) ?_ h
  intro as tr s a t evs _ ih hs
  have hset : ∀ (j : ℕ) (r' : ρ) (st st' : Status S α), s.tasks[j]? = some ⟨r', st⟩ →
      ((∃ t, (s.tasks.set j ⟨r', st'⟩)[i]? = some t ∧ t.request = r) ↔
        ∃ t, s.tasks[i]? = some t ∧ t.request = r) := by
    intro j r' st st' hj
    by_cases hij : j = i
    · subst hij
      rw [List.getElem?_set_self (List.getElem?_eq_some_iff.mp hj).1, hj]
      simp
    · rw [List.getElem?_set_ne hij]
  cases step_cases hs with
  | arrive r' =>
    rw [List.mem_append, ih, List.getElem?_append]
    rcases Nat.lt_trichotomy i s.tasks.length with hlt | rfl | hgt
    · simp [hlt, Nat.ne_of_lt hlt]
    · simp [eq_comm]
    · have hnone : s.tasks[i]? = none := List.getElem?_eq_none (by omega)
      obtain ⟨n, hn⟩ : ∃ n, i - s.tasks.length = n + 1 := ⟨i - s.tasks.length - 1, by omega⟩
      rw [if_neg (by omega), hn, hnone]
      simp [Nat.ne_of_gt hgt]
  | respond j inp r' a hj =>
    rw [hset j r' _ _ hj, ← ih]
    simp
  | perform j inp r' o k sh rep evs hj hr =>
    rw [hset j r' _ _ hj, ← ih]
    cases k rep <;> simp [answer]
  | drop j inp r' o k sh evs hj hc =>
    rw [hset j r' _ _ hj, ← ih]
    simp
  | restart inp =>
    rw [List.mem_append, ih, List.getElem?_map]
    simp only [List.mem_singleton, reduceCtorEq, or_false, Option.map_eq_some_iff]
    constructor
    · rintro ⟨t, ht, hr⟩
      exact ⟨t.drop, ⟨t, ht, rfl⟩, by unfold Task.drop; split <;> exact hr⟩
    · rintro ⟨-, ⟨t, ht, rfl⟩, hr⟩
      exact ⟨t, ht, by unfold Task.drop at hr; split at hr <;> exact hr⟩

lemma arrived_arrive {sh₀ : σ} {as : List (Action ρ ι)} {s : System S σ ρ α}
    {tr : List (Event ρ α ε)} (h : (machine E handler).exec ⟨sh₀, []⟩ as = some (s, tr))
    {i : ℕ} {r : ρ} (hr : Event.arrived i r ∈ tr) : Action.arrive r ∈ as := by
  obtain ⟨l, m, rfl⟩ := List.append_of_mem hr
  obtain ⟨as₁, a, as₂, s₁, tr₁, s₂, evs₁, evs₂, tr₂, rfl, -, h₂, -, -, -⟩ :=
    Machine.exec_event h
  have hmem : Event.arrived i r ∈ evs₁ ++ .arrived i r :: evs₂ := by simp
  generalize evs₁ ++ Event.arrived i r :: evs₂ = evs at h₂ hmem
  cases step_cases h₂ with
  | arrive r' =>
    cases List.mem_singleton.mp hmem
    simp
  | respond j inp r' a hj => simp at hmem
  | perform j inp r' o k sh rep evs hj hrep =>
    generalize k rep = p at hmem
    cases p <;> simp [answer] at hmem
  | drop j inp r' o k sh evs hj hc => simp at hmem
  | restart inp => simp at hmem

lemma arrived_unique {sh₀ : σ} {as : List (Action ρ ι)} {s : System S σ ρ α}
    {tr : List (Event ρ α ε)} (h : (machine E handler).exec ⟨sh₀, []⟩ as = some (s, tr))
    {i : ℕ} {r r' : ρ} (hr : Event.arrived i r ∈ tr) (hr' : Event.arrived i r' ∈ tr) : r = r' := by
  obtain ⟨t, ht, rfl⟩ := (exec_arrived h i r).mp hr
  obtain ⟨t', ht', rfl⟩ := (exec_arrived h i r').mp hr'
  rw [ht] at ht'
  cases ht'
  rfl

lemma getElem?_set_cases {β : Type} {l : List β} {i j : ℕ} {x y : β}
    (h : (l.set j x)[i]? = some y) : (j = i ∧ x = y) ∨ l[i]? = some y := by
  rw [List.getElem?_set] at h
  split at h
  · next hji =>
    split at h
    · exact .inl ⟨hji, Option.some.inj h⟩
    · cases h
  · exact .inr h

/-- A finished task has given its answer. -/
lemma exec_finished {sh₀ : σ} {as : List (Action ρ ι)} {s : System S σ ρ α}
    {tr : List (Event ρ α ε)} (h : (machine E handler).exec ⟨sh₀, []⟩ as = some (s, tr))
    {i : ℕ} {r : ρ} {a : α} (hi : s.tasks[i]? = some ⟨r, .finished a⟩) :
    Event.responded i a ∈ tr := by
  revert hi
  refine Machine.exec_induction
    (P := fun _ tr s => s.tasks[i]? = some ⟨r, .finished a⟩ → Event.responded i a ∈ tr)
    (by simp) ?_ h
  intro as tr s b t evs _ ih hs hi
  have hprev : s.tasks[i]? = some ⟨r, .finished a⟩ → Event.responded i a ∈ tr ++ evs :=
    fun hi => List.mem_append_left _ (ih hi)
  cases step_cases hs with
  | arrive r' =>
    rw [List.getElem?_append] at hi
    split at hi
    · exact hprev hi
    · rw [List.getElem?_singleton] at hi
      split at hi <;> cases hi
  | respond j inp r' a' hj =>
    rcases getElem?_set_cases hi with ⟨rfl, hu⟩ | hi
    · cases hu
      simp
    · exact hprev hi
  | perform j inp r' o k sh rep evs hj hr =>
    rcases getElem?_set_cases hi with ⟨rfl, hu⟩ | hi
    · cases hk : k rep with
      | done a' =>
        rw [hk] at hu
        cases hu
        simp [answer]
      | call o' k' =>
        rw [hk] at hu
        cases hu
    · exact hprev hi
  | drop j inp r' o k sh evs hj hc =>
    rcases getElem?_set_cases hi with ⟨rfl, hu⟩ | hi
    · cases hu
    · exact hprev hi
  | restart inp =>
    rw [List.getElem?_map, Option.map_eq_some_iff] at hi
    obtain ⟨⟨r', st⟩, hget, hdrop⟩ := hi
    cases st with
    | running p => cases hdrop
    | finished a' =>
      cases hdrop
      exact hprev hget
    | dropped => cases hdrop

/-- The step that gives an answer: the task was still running before it, and performs its last
call in it, if it has one left. -/
inductive Answers (E : Environment S σ ι ε) (s : System S σ ρ α) (i : ℕ) (a : α) (r : ρ) :
    Action ρ ι → σ → List ε → Prop
  | respond (inp : ι) (hi : s.tasks[i]? = some ⟨r, .running (.done a)⟩) :
    Answers E s i a r (.poll i inp) s.shared []
  | perform (inp : ι) (o : S.Op) (k : S.Reply o → Prog S α) (sh : σ) (rep : S.Reply o)
      (evs : List ε) (hi : s.tasks[i]? = some ⟨r, .running (.call o k)⟩)
      (hr : E.reply s.shared i o inp = some (sh, rep, evs)) (hk : k rep = .done a) :
    Answers E s i a r (.poll i inp) sh evs

lemma step_responded {s t : System S σ ρ α} {b : Action ρ ι} {l m : List (Event ρ α ε)} {i : ℕ}
    {a : α} (h : Step E handler s b t (l ++ .responded i a :: m)) :
    ∃ r evs, Answers E s i a r b t.shared evs ∧ l = evs.map (.did i) ∧ m = [] := by
  have hlast : ∀ (evs : List ε) (j : ℕ) (p : Prog S α),
      evs.map (.did j) ++ answer j p = l ++ .responded i a :: m →
      i = j ∧ p = .done a ∧ l = evs.map (.did i) ∧ m = [] := by
    intro evs j p he
    rcases List.append_eq_append_iff.mp he with ⟨x, hx, hy⟩ | ⟨x, hx, hy⟩
    · cases p with
      | done b =>
        simp only [answer] at hy
        obtain ⟨rfl, hb⟩ | ⟨-, hb⟩ := List.append_eq_singleton_iff.mp hy.symm
        · simp only [List.cons.injEq, Event.responded.injEq] at hb
          obtain ⟨⟨rfl, rfl⟩, rfl⟩ := hb
          exact ⟨rfl, rfl, by simpa using hx, rfl⟩
        · cases hb
      | call o k => simp [answer] at hy
    · have hmem : (.responded i a : Event ρ α ε) ∈ evs.map (Event.did j) ∨ x = [] := by
        cases x with
        | nil => exact .inr rfl
        | cons e x =>
          simp only [List.cons_append, List.cons.injEq] at hy
          exact .inl (by rw [hx, hy.1]; simp)
      rcases hmem with hmem | rfl
      · simp at hmem
      · rw [List.append_nil] at hx
        cases p with
        | done b =>
          simp only [answer, List.nil_append, List.cons.injEq, Event.responded.injEq] at hy
          obtain ⟨⟨rfl, rfl⟩, rfl⟩ := hy
          exact ⟨rfl, rfl, hx.symm, rfl⟩
        | call o k => simp [answer] at hy
  have hmem : Event.responded i a ∈ l ++ Event.responded i a :: m := by simp
  generalize he : l ++ Event.responded i a :: m = out at h hmem
  cases h with
  | arrive r => simp at hmem
  | respond j inp r b hj =>
    obtain ⟨rfl, hb, rfl, rfl⟩ := hlast [] j (.done b : Prog S α) he.symm
    cases hb
    exact ⟨r, [], .respond inp hj, rfl, rfl⟩
  | perform j inp r o k sh rep evs hj hr =>
    obtain ⟨rfl, hk, rfl, rfl⟩ := hlast evs j (k rep) he.symm
    exact ⟨r, evs, .perform inp o k sh rep evs hj hr hk, rfl, rfl⟩
  | drop j inp r o k sh evs hj hc => simp at hmem
  | restart inp => simp at hmem

/-- An answer in a run: the step that gave it, what held of the history before that step, and
the postcondition of the program. -/
theorem exec_responded (hstart : ∀ r, Φ r [])
    (hsafe : ∀ r, Safe E (ok r) (Φ r) (Ψ r) (handler r) []) {sh₀ : σ}
    {as : List (Action ρ ι)} {s : System S σ ρ α} {l m : List (Event ρ α ε)} {i : ℕ} {a : α}
    (h : (machine E handler).exec ⟨sh₀, []⟩ as = some (s, l ++ .responded i a :: m))
    (hok : (machine E handler).Meets (Within ok) ⟨sh₀, []⟩ as) :
    ∃ as₁ b as₂ s₁ tr₁ r sh evs, as = as₁ ++ b :: as₂ ∧
      (machine E handler).exec ⟨sh₀, []⟩ as₁ = some (s₁, tr₁) ∧
      Answers E s₁ i a r b sh evs ∧ l = tr₁ ++ evs.map (.did i) ∧
      Event.arrived i r ∈ tr₁ ∧ Φ r (history i tr₁) ∧ Ψ r (history i tr₁ ++ evs) a := by
  obtain ⟨as₁, b, as₂, s₁, tr₁, s₂, evs₁, evs₂, tr₂, rfl, h₁, h₂, h₃, rfl, -⟩ :=
    Machine.exec_event h
  obtain ⟨r, evs, hans, rfl, rfl⟩ := step_responded (step_cases h₂)
  have hnext := hok as₁ b as₂ s₁ tr₁ rfl h₁
  have hall := (exec_history hstart hsafe h₁ hok.append_left).1 i
  have harr : ∀ t, s₁.tasks[i]? = some t → Event.arrived i t.request ∈ tr₁ :=
    fun t ht => (exec_arrived h₁ i t.request).mpr ⟨t, ht, rfl⟩
  refine ⟨as₁, b, as₂, s₁, tr₁, r, s₂.shared, evs, rfl, h₁, hans, rfl, ?_⟩
  generalize s₂.shared = sh at hans
  cases hans with
  | respond inp hi =>
    have ht : Tracked E ok Φ Ψ (history i tr₁) ⟨r, .running (.done a)⟩ := hall _ hi
    exact ⟨harr _ hi, ht.1, by rw [List.append_nil]; exact ht.2⟩
  | perform inp o k sh rep evs hi hr hk =>
    have ht : Tracked E ok Φ Ψ (history i tr₁) ⟨r, .running (.call o k)⟩ := hall _ hi
    have hin : CallMeets ok s₁.shared inp s₁.tasks[i]? := hnext
    have hpost := ht.2.2.1 _ i inp _ rep evs (hin.call hi) hr
    rw [hk] at hpost
    exact ⟨harr _ hi, ht.1, hpost⟩

lemma map_did_split {evs : List ε} {i j : ℕ} {e : ε} {l m rest : List (Event ρ α ε)}
    (hrest : ∀ k x, Event.did k x ∉ rest)
    (h : evs.map (.did j) ++ rest = l ++ .did i e :: m) :
    i = j ∧ ∃ evs₁ evs₂, evs = evs₁ ++ e :: evs₂ ∧ l = evs₁.map (.did i) := by
  induction evs generalizing l with
  | nil =>
    have hmem : Event.did i e ∈ rest := by
      rw [List.map_nil, List.nil_append] at h
      rw [h]
      simp
    exact absurd hmem (hrest i e)
  | cons x evs ih =>
    cases l with
    | nil =>
      simp only [List.map_cons, List.cons_append, List.nil_append, List.cons.injEq,
        Event.did.injEq] at h
      obtain ⟨⟨rfl, rfl⟩, -⟩ := h
      exact ⟨rfl, [], evs, rfl, rfl⟩
    | cons y l =>
      simp only [List.map_cons, List.cons_append, List.cons.injEq] at h
      obtain ⟨rfl, h⟩ := h
      obtain ⟨rfl, evs₁, evs₂, rfl, rfl⟩ := ih h
      exact ⟨rfl, x :: evs₁, evs₂, rfl, rfl⟩

inductive Caused (E : Environment S σ ι ε) (s : System S σ ρ α) (i : ℕ) (e : ε) (r : ρ) :
    Action ρ ι → List ε → Prop
  | poll (inp : ι) (o : S.Op) (k : S.Reply o → Prog S α) (sh : σ) (rep : S.Reply o)
      (evs₁ evs₂ : List ε) (hi : s.tasks[i]? = some ⟨r, .running (.call o k)⟩)
      (hr : E.reply s.shared i o inp = some (sh, rep, evs₁ ++ e :: evs₂)) :
    Caused E s i e r (.poll i inp) evs₁
  | drop (inp : ι) (o : S.Op) (k : S.Reply o → Prog S α) (sh : σ)
      (evs₁ evs₂ : List ε) (hi : s.tasks[i]? = some ⟨r, .running (.call o k)⟩)
      (hc : E.cancel s.shared i o inp = some (sh, evs₁ ++ e :: evs₂)) :
    Caused E s i e r (.drop i inp) evs₁

lemma Caused.request {s : System S σ ρ α} {i : ℕ} {e : ε} {r : ρ} {b : Action ρ ι}
    {evs : List ε} (h : Caused E s i e r b evs) : ∃ t, s.tasks[i]? = some t ∧ t.request = r := by
  cases h with
  | poll inp o k sh rep evs₁ evs₂ hi hr => exact ⟨_, hi, rfl⟩
  | drop inp o k sh evs₁ evs₂ hi hc => exact ⟨_, hi, rfl⟩

lemma step_did {s t : System S σ ρ α} {b : Action ρ ι} {l m : List (Event ρ α ε)} {i : ℕ}
    {e : ε} (h : Step E handler s b t (l ++ .did i e :: m)) :
    ∃ r evs₁, Caused E s i e r b evs₁ ∧ l = evs₁.map (.did i) := by
  have hmem : Event.did i e ∈ l ++ Event.did i e :: m := by simp
  generalize he : l ++ Event.did i e :: m = out at h hmem
  cases h with
  | arrive r => simp at hmem
  | respond j inp r b hj => simp at hmem
  | perform j inp r o k sh rep evs hj hr =>
    have hans : ∀ n x, (Event.did n x : Event ρ α ε) ∉ answer j (k rep) := by
      intro n x
      cases k rep <;> simp [answer]
    obtain ⟨rfl, evs₁, evs₂, rfl, rfl⟩ := map_did_split hans he.symm
    exact ⟨r, evs₁, .poll inp o k sh rep evs₁ evs₂ hj hr, rfl⟩
  | drop j inp r o k sh evs hj hc =>
    obtain ⟨rfl, evs₁, evs₂, rfl, rfl⟩ := map_did_split (by simp) he.symm
    exact ⟨r, evs₁, .drop inp o k sh evs₁ evs₂ hj hc, rfl⟩
  | restart inp => simp at hmem

/-- An event of a task was caused by a poll or a drop of that task, in the state that the run
had reached before it. -/
theorem exec_did {sh₀ : σ} {as : List (Action ρ ι)} {s : System S σ ρ α}
    {l m : List (Event ρ α ε)} {i : ℕ} {e : ε}
    (h : (machine E handler).exec ⟨sh₀, []⟩ as = some (s, l ++ .did i e :: m)) :
    ∃ as₁ b as₂ s₁ tr₁ r evs₁, as = as₁ ++ b :: as₂ ∧
      (machine E handler).exec ⟨sh₀, []⟩ as₁ = some (s₁, tr₁) ∧ Caused E s₁ i e r b evs₁ ∧
      l = tr₁ ++ evs₁.map (.did i) := by
  obtain ⟨as₁, b, as₂, s₁, tr₁, s₂, evs₁, evs₂, tr₂, rfl, h₁, h₂, -, rfl, -⟩ :=
    Machine.exec_event h
  obtain ⟨r, evs, hcaused, rfl⟩ := step_did (step_cases h₂)
  exact ⟨as₁, b, as₂, s₁, tr₁, r, evs, rfl, h₁, hcaused, rfl⟩

/-- Where a dropped call has no events, an event of a task is one of a reply. -/
theorem exec_replied {sh₀ : σ} {as : List (Action ρ ι)} {s : System S σ ρ α}
    {l m : List (Event ρ α ε)} {i : ℕ} {e : ε}
    (hquiet : ∀ s i o inp t evs, E.cancel s i o inp = some (t, evs) → evs = [])
    (h : (machine E handler).exec ⟨sh₀, []⟩ as = some (s, l ++ .did i e :: m)) :
    ∃ as₁ s₁ tr₁ o inp t r evs₁ evs₂, (machine E handler).exec ⟨sh₀, []⟩ as₁ = some (s₁, tr₁) ∧
      E.reply s₁.shared i o inp = some (t, r, evs₁ ++ e :: evs₂) ∧
      l = tr₁ ++ evs₁.map (.did i) := by
  obtain ⟨as₁, b, as₂, s₁, tr₁, r, evs₁, -, h₁, hcaused, hl⟩ := exec_did h
  cases hcaused with
  | poll inp o k sh rep evs₁ evs₂ hi hr =>
    exact ⟨as₁, s₁, tr₁, o, inp, sh, rep, evs₁, evs₂, h₁, hr, hl⟩
  | drop inp o k sh evs₁ evs₂ hi hc =>
    have hnil := hquiet _ i o inp sh _ hc
    simp at hnil

theorem did_arrived {sh₀ : σ} {as : List (Action ρ ι)} {s : System S σ ρ α}
    {l m : List (Event ρ α ε)} {i : ℕ} {e : ε}
    (h : (machine E handler).exec ⟨sh₀, []⟩ as = some (s, l ++ .did i e :: m)) :
    ∃ r, Event.arrived i r ∈ l := by
  obtain ⟨as₁, b, as₂, s₁, tr₁, r, evs₁, -, h₁, hcaused, rfl⟩ := exec_did h
  exact ⟨r, List.mem_append_left _ ((exec_arrived h₁ i r).mpr hcaused.request)⟩

end Tasks
