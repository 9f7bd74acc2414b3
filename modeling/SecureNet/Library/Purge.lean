import SecureNet.Library.Mutex

/-!
# Runs without some of the tasks

If hidden tasks leave nothing in the shared state that the other tasks could notice, the run in which
they are never served is the same for all others: the same events, the same answers.
-/

namespace Tasks

open EventMachine

variable {S : Signature} {σ ρ α ι ε : Type}

/-- The task that an action serves. -/
def Action.served {ρ ι : Type} : Action ρ ι → Option ℕ
  | .poll i _ => some i
  | .drop i _ => some i
  | _ => none

/-- The task that an event tells of, other than its arrival. -/
def Event.task : Event ρ α ε → Option ℕ
  | .did i _ => some i
  | .responded i _ => some i
  | .dropped i => some i
  | _ => none

def unserved (hidden : ℕ → Bool) (as : List (Action ρ ι)) : List (Action ρ ι) :=
  as.filter (fun a => !a.served.any hidden)

def purged (hidden : ℕ → Bool) (tr : List (Event ρ α ε)) : List (Event ρ α ε) :=
  tr.filter (fun e => !e.task.any hidden)

variable {E : Environment S σ ι ε} {handler : ρ → Prog S α} {hidden : ℕ → Bool}
  {R : σ → σ → Prop} {ok : List (Event ρ α ε) → Prop} {sh₀ : σ}

lemma step_task {s t : System S σ ρ α} {a : Action ρ ι} {i : ℕ} {evs : List (Event ρ α ε)}
    (h : Step E handler s a t evs) (ha : a.served = some i) : ∀ e ∈ evs, e.task = some i := by
  have hdid : ∀ (j : ℕ) (evs : List ε) (rest : List (Event ρ α ε)),
      (∀ e ∈ rest, e.task = some j) →
      ∀ e ∈ evs.map (Event.did j) ++ rest, e.task = some j := by
    intro j evs rest hrest e he
    rcases List.mem_append.mp he with he | he
    · obtain ⟨x, -, rfl⟩ := List.mem_map.mp he
      rfl
    · exact hrest e he
  cases h with
  | arrive r => cases ha
  | respond j inp r b hj =>
    cases ha
    simp [Event.task]
  | perform j inp r o k sh rep evs hj hr =>
    cases ha
    apply hdid
    cases k rep <;> simp [answer, Event.task]
  | drop j inp r o k sh evs hj hc =>
    cases ha
    apply hdid
    simp [Event.task]
  | restart inp => cases ha

/-- A step of a task moves the mutex to it or from it, and between no others. -/
lemma Holding.onlyMoves {holder : σ → Option ℕ} {use : S.Op → LockUse} (hE : Guards E holder use)
    {s t : System S σ ρ α} {a : Action ρ ι} {i : ℕ} {evs : List (Event ρ α ε)}
    (h : Holding holder use s) (hs : Step E handler s a t evs) (ha : a.served = some i) :
    OnlyMoves holder i s.shared t.shared := by
  cases hs with
  | arrive r => cases ha
  | restart inp => cases ha
  | respond j inp r b hj => exact onlyMoves_of_eq rfl
  | perform j inp r o k sh rep evs hj hr =>
    cases ha
    obtain ⟨held, ⟨next, hnext, -⟩, hiff⟩ := h.1 i _ hj
    exact (hE.reply hiff hnext hr).2
  | drop j inp r o k sh evs hj hc =>
    cases ha
    obtain ⟨held, ⟨next, hnext, -⟩, hiff⟩ := h.1 i _ hj
    exact (hE.cancel hiff hnext hc).2

lemma purged_hidden {i : ℕ} (hi : hidden i = true) {evs : List (Event ρ α ε)}
    (h : ∀ e ∈ evs, e.task = some i) : purged hidden evs = [] := by
  rw [purged, List.filter_eq_nil_iff]
  intro e he
  simp [h e he, hi]

lemma purged_visible {i : ℕ} (hi : hidden i = false) {evs : List (Event ρ α ε)}
    (h : ∀ e ∈ evs, e.task = some i) : purged hidden evs = evs := by
  rw [purged, List.filter_eq_self]
  intro e he
  simp [h e he, hi]

variable (E handler hidden R ok sh₀) in
/-- What the hidden tasks do in a good run cannot be noticed by the others: related states serve the
visible tasks alike, and a step of a hidden task does not leave the relation. -/
structure Unnoticed : Prop where
  hide : ∀ {as : List (Action ρ ι)} {s t : System S σ ρ α} {tr evs : List (Event ρ α ε)}
    {a : Action ρ ι} {i : ℕ} {x : σ}, (machine E handler).exec ⟨sh₀, []⟩ as = some (s, tr) →
    a.served = some i → hidden i = true → (machine E handler).step s a = some (t, evs) →
    ok (tr ++ evs) → R s.shared x → R t.shared x
  reply : ∀ {as : List (Action ρ ι)} {s t : System S σ ρ α} {tr out : List (Event ρ α ε)} {i : ℕ}
    {inp : ι} {o : S.Op} {sh x : σ} {rep : S.Reply o} {evs : List ε},
    (machine E handler).exec ⟨sh₀, []⟩ as = some (s, tr) →
    (machine E handler).step s (.poll i inp) = some (t, out) → hidden i = false →
    E.reply s.shared i o inp = some (sh, rep, evs) → evs.map (.did i) ⊆ out → ok (tr ++ out) →
    R s.shared x → ∃ y, E.reply x i o inp = some (y, rep, evs) ∧ R sh y
  cancel : ∀ {s x t : σ} {i : ℕ} {o : S.Op} {inp : ι} {evs : List ε}, hidden i = false →
    E.cancel s i o inp = some (t, evs) → R s x → ∃ y, E.cancel x i o inp = some (y, evs) ∧ R t y
  restart : ∀ {s x : σ} (inp : ι), R s x → R (E.restart s inp) (E.restart x inp)

variable (hidden R) in
/-- The two systems differ in the hidden tasks only. -/
structure Alike (s x : System S σ ρ α) : Prop where
  shared : R s.shared x.shared
  length : x.tasks.length = s.tasks.length
  visible : ∀ i, hidden i = false → x.tasks[i]? = s.tasks[i]?

lemma Alike.hide {s x : System S σ ρ α} (h : Alike hidden R s x) {i : ℕ} (hi : hidden i = true)
    {sh : σ} (hsh : R sh x.shared) (u : Task S ρ α) : Alike hidden R ⟨sh, s.tasks.set i u⟩ x := by
  refine ⟨hsh, by rw [List.length_set, h.length], ?_⟩
  intro j hj
  have hij : i ≠ j := by
    rintro rfl
    rw [hi] at hj
    cases hj
  rw [List.getElem?_set_ne hij, h.visible j hj]

lemma Alike.set {s x : System S σ ρ α} (h : Alike hidden R s x) {i : ℕ} {sh y : σ} (hsh : R sh y)
    (u : Task S ρ α) : Alike hidden R ⟨sh, s.tasks.set i u⟩ ⟨y, x.tasks.set i u⟩ := by
  refine ⟨hsh, by simp [h.length], ?_⟩
  intro j hj
  rw [List.getElem?_set, List.getElem?_set, h.length, h.visible j hj]

/-- A step of a visible task, from a state that looks alike. -/
lemma Alike.step (hC : Unnoticed E handler hidden R ok sh₀) {as : List (Action ρ ι)}
    {s t x : System S σ ρ α} {tr evs : List (Event ρ α ε)} {a : Action ρ ι}
    (hrun : (machine E handler).exec ⟨sh₀, []⟩ as = some (s, tr))
    (hs : (machine E handler).step s a = some (t, evs))
    (hvisible : ∀ i, a.served = some i → hidden i = false) (hok : ok (tr ++ evs))
    (h : Alike hidden R s x) :
    ∃ y, (machine E handler).step x a = some (y, evs) ∧ Alike hidden R t y := by
  have hstep := hs
  cases step_cases hs with
  | arrive r =>
    refine ⟨⟨x.shared, x.tasks ++ [⟨r, .running (handler r)⟩]⟩, ?_, h.shared, by simp [h.length], ?_⟩
    · simp [machine, h.length]
    · intro i hi
      rw [List.getElem?_append, List.getElem?_append, h.length, h.visible i hi]
  | respond i inp r b hi =>
    have hx := (h.visible i (hvisible i rfl)).trans hi
    refine ⟨⟨x.shared, x.tasks.set i ⟨r, .finished b⟩⟩, ?_, h.set h.shared _⟩
    simp [machine, pollTask, hx]
  | perform i inp r o k sh rep evs hi hr =>
    have hx := (h.visible i (hvisible i rfl)).trans hi
    obtain ⟨y, hy, hR⟩ := hC.reply hrun hstep (hvisible i rfl) hr (by simp) hok h.shared
    refine ⟨⟨y, x.tasks.set i ⟨r, settled (k rep)⟩⟩, ?_, h.set hR _⟩
    simp [machine, pollTask, hx, hy]
  | drop i inp r o k sh evs hi hc =>
    have hx := (h.visible i (hvisible i rfl)).trans hi
    obtain ⟨y, hy, hR⟩ := hC.cancel (hvisible i rfl) hc h.shared
    refine ⟨⟨y, x.tasks.set i ⟨r, .dropped⟩⟩, ?_, h.set hR _⟩
    simp [machine, dropTask, hx, hy]
  | restart inp =>
    refine ⟨⟨E.restart x.shared inp, x.tasks.map Task.drop⟩, rfl, hC.restart inp h.shared,
      by simp [h.length], ?_⟩
    intro i hi
    rw [List.getElem?_map, List.getElem?_map, h.visible i hi]

/-- The run in which the hidden tasks are never served. -/
theorem exec_unserved (hC : Unnoticed E handler hidden R ok sh₀)
    (hleft : ∀ l m, ok (l ++ m) → ok l) {x₀ : σ} (h₀ : R sh₀ x₀) {as : List (Action ρ ι)}
    {s : System S σ ρ α} {tr : List (Event ρ α ε)}
    (h : (machine E handler).exec ⟨sh₀, []⟩ as = some (s, tr)) (hok : ok tr) :
    ∃ x, (machine E handler).exec ⟨x₀, []⟩ (unserved hidden as) = some (x, purged hidden tr) ∧
      Alike hidden R s x := by
  have hstart : Alike hidden R (⟨sh₀, []⟩ : System S σ ρ α) ⟨x₀, []⟩ :=
    ⟨h₀, rfl, fun _ _ => rfl⟩
  revert hok
  refine Machine.exec_induction (P := fun as tr s => ok tr → ∃ x,
    (machine E handler).exec ⟨x₀, []⟩ (unserved hidden as) = some (x, purged hidden tr) ∧
      Alike hidden R s x) (fun _ => ⟨_, rfl, hstart⟩) ?_ h
  intro as tr s a t evs hrun ih hs hok
  obtain ⟨x, hx, halike⟩ := ih (hleft _ _ hok)
  have hactions : unserved hidden (as ++ [a]) = unserved hidden as ++ unserved hidden [a] :=
    List.filter_append _ _
  have htrace : purged hidden (tr ++ evs) = purged hidden tr ++ purged hidden evs :=
    List.filter_append _ _
  rw [hactions, htrace]
  cases hserved : a.served.any hidden with
  | true =>
    -- A hidden task moves: the other run stands still.
    obtain ⟨i, hi, hhidden⟩ : ∃ i, a.served = some i ∧ hidden i = true := by
      cases hi : a.served with
      | none => simp [hi] at hserved
      | some i => exact ⟨i, rfl, by simpa [hi] using hserved⟩
    have hnone : unserved hidden [a] = [] := by simp [unserved, hserved]
    rw [hnone, purged_hidden hhidden (step_task (step_cases hs) hi), List.append_nil,
      List.append_nil]
    refine ⟨x, hx, ?_⟩
    have hR := hC.hide hrun hi hhidden hs hok halike.shared
    cases step_cases hs with
    | arrive r => cases hi
    | restart inp => cases hi
    | respond j inp r b hj =>
      cases hi
      exact halike.hide hhidden hR _
    | perform j inp r o k sh rep evs hj hr =>
      cases hi
      exact halike.hide hhidden hR _
    | drop j inp r o k sh evs hj hc =>
      cases hi
      exact halike.hide hhidden hR _
  | false =>
    have hvisible : ∀ i, a.served = some i → hidden i = false := by
      intro i hi
      simpa [hi] using hserved
    have hone : unserved hidden [a] = [a] := by simp [unserved, hserved]
    have hevents : purged hidden evs = evs := by
      cases hi : a.served with
      | some i => exact purged_visible (hvisible i hi) (step_task (step_cases hs) hi)
      | none => cases step_cases hs <;> first | rfl | cases hi
    rw [hone, hevents]
    obtain ⟨y, hy, hnext⟩ := halike.step hC hrun hs hvisible hok
    exact ⟨y, Machine.exec_snoc.mpr ⟨x, _, evs, hx, hy, rfl⟩, hnext⟩

end Tasks
