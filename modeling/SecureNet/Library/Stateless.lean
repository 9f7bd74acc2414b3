import SecureNet.Library.TaskEvents

/-!
# Handlers without shared state

Where a reply depends on the input alone, tasks do not see each other. An answered task has run its
program over the inputs of its own polls, in their order, whatever ran in between.
-/

namespace Tasks

open EventMachine

variable {S : Signature} {σ ρ α ι ε : Type}

def Action.own {ρ ι : Type} (i : ℕ) : Action ρ ι → Option ι
  | .poll j inp => if j = i then some inp else none
  | _ => none

/-- The inputs of the polls of task `i`. -/
def pollsOf (i : ℕ) (as : List (Action ρ ι)) : List ι := as.filterMap (Action.own i)

@[simp] lemma pollsOf_append (i : ℕ) (as bs : List (Action ρ ι)) :
    pollsOf i (as ++ bs) = pollsOf i as ++ pollsOf i bs := List.filterMap_append

@[simp] lemma pollsOf_poll (i j : ℕ) (inp : ι) :
    pollsOf i ([.poll j inp] : List (Action ρ ι)) = if j = i then [inp] else [] := by
  by_cases h : j = i <;> simp [pollsOf, Action.own, h]

@[simp] lemma pollsOf_arrive (i : ℕ) (r : ρ) :
    pollsOf i ([.arrive r] : List (Action ρ ι)) = [] := rfl

@[simp] lemma pollsOf_drop (i j : ℕ) (inp : ι) :
    pollsOf i ([.drop j inp] : List (Action ρ ι)) = [] := rfl

@[simp] lemma pollsOf_restart (i : ℕ) (inp : ι) :
    pollsOf i ([.restart inp] : List (Action ρ ι)) = [] := rfl

lemma mem_pollsOf {i : ℕ} {as : List (Action ρ ι)} {inp : ι} (h : inp ∈ pollsOf i as) :
    ∃ a ∈ as, inp ∈ a.inputs := by
  obtain ⟨a, ha, hown⟩ := List.mem_filterMap.mp h
  refine ⟨a, ha, ?_⟩
  cases a with
  | poll j other =>
    simp only [Action.own, Option.ite_none_right_eq_some, Option.some.injEq] at hown
    simp [Action.inputs, hown.2]
  | _ => cases hown

variable (E : Environment S σ ι ε) (reply : (o : S.Op) → ι → S.Reply o) (events : S.Op → ι → List ε)

structure Stateless : Prop where
  replies : ∀ s i o inp, E.reply s i o inp = some (s, reply o inp, events o inp)
  quiet : ∀ s i o inp t evs, E.cancel s i o inp = some (t, evs) → evs = []

/-- The answer and the events of a program that is fed one input for each of its calls. -/
def Prog.fed : Prog S α → List ι → Option (α × List ε)
  | .done a, _ => some (a, [])
  | .call _ _, [] => none
  | .call o k, inp :: rest => (Prog.fed (k (reply o inp)) rest).map (Prod.map id (events o inp ++ ·))

variable {E reply events}

@[simp] lemma Prog.fed_done {a b : α} {inps : List ι} {h : List ε} :
    (Prog.done a : Prog S α).fed reply events inps = some (b, h) ↔ a = b ∧ h = [] := by
  simp [Prog.fed, eq_comm]

lemma Prog.fed_call {o : S.Op} {k : S.Reply o → Prog S α} {inps : List ι} {a : α} {h : List ε} :
    (Prog.call o k).fed reply events inps = some (a, h) ↔ ∃ inp rest h', inps = inp :: rest ∧
      (k (reply o inp)).fed reply events rest = some (a, h') ∧ h = events o inp ++ h' := by
  cases inps with
  | nil => simp [Prog.fed]
  | cons inp rest =>
    simp only [Prog.fed, Option.map_eq_some_iff, Prod.exists, Prod.map_apply, id_eq, Prod.mk.injEq,
      List.cons.injEq]
    constructor
    · rintro ⟨b, h', hfed, rfl, rfl⟩
      exact ⟨inp, rest, h', ⟨rfl, rfl⟩, hfed, rfl⟩
    · rintro ⟨inp', rest', h', ⟨rfl, rfl⟩, hfed, rfl⟩
      exact ⟨a, h', hfed, rfl, rfl⟩

variable (reply events) in
/-- A task has come to its status by the inputs that its program was fed. -/
def Follows (p : Prog S α) (inps : List ι) (h : List ε) : Status S α → Prop
  | .running q => ∀ rest, p.fed reply events (inps ++ rest) =
    (q.fed reply events rest).map (Prod.map id (h ++ ·))
  | .finished a => ∀ rest, p.fed reply events (inps ++ rest) = some (a, h)
  | .dropped => True

lemma Follows.settled {p q : Prog S α} {inps : List ι} {h : List ε}
    (hq : Follows reply events p inps h (.running q)) :
    Follows reply events p inps h (settled q) := by
  cases q with
  | done a =>
    intro rest
    rw [hq rest]
    simp [Prog.fed]
  | call o k => exact hq

lemma Follows.call {p : Prog S α} {o : S.Op} {k : S.Reply o → Prog S α} {inps : List ι} {h : List ε}
    (hcall : Follows reply events p inps h (.running (.call o k))) (inp : ι) :
    Follows reply events p (inps ++ [inp]) (h ++ events o inp) (.running (k (reply o inp))) := by
  intro rest
  have hnext := hcall (inp :: rest)
  rw [List.append_assoc, List.singleton_append, hnext, Prog.fed, Option.map_map]
  congr 1
  funext x
  simp [Prod.map]

variable {handler : ρ → Prog S α} {s : System S σ ρ α} {as : List (Action ρ ι)}
  {tr : List (Event ρ α ε)} {i : ℕ}

variable (reply events handler) in
/-- Every task follows its own polls, and there is nothing of a task that has not arrived. -/
structure AllFollow (as : List (Action ρ ι)) (tr : List (Event ρ α ε)) (s : System S σ ρ α) :
    Prop where
  tasks : ∀ i t, s.tasks[i]? = some t →
    Follows reply events (handler t.request) (pollsOf i as) (history i tr) t.status
  later : ∀ i, s.tasks.length ≤ i → pollsOf i as = [] ∧ history i tr = []

lemma AllFollow.poll (h : AllFollow reply events handler as tr s) {r : ρ} {st st' : Status S α}
    {inp : ι} {evs : List (Event ρ α ε)} {sh : σ} (hi : s.tasks[i]? = some ⟨r, st⟩)
    (hothers : ∀ j, i ≠ j → history j evs = [])
    (hnext : Follows reply events (handler r) (pollsOf i as ++ [inp]) (history i tr ++ history i evs)
      st') :
    AllFollow reply events handler (as ++ [.poll i inp]) (tr ++ evs) ⟨sh, s.tasks.set i ⟨r, st'⟩⟩ := by
  have hlt : i < s.tasks.length := (List.getElem?_eq_some_iff.mp hi).1
  constructor
  · intro j t hj
    rw [pollsOf_append, pollsOf_poll, history_append]
    by_cases hij : i = j
    · subst hij
      rw [List.getElem?_set_self hlt] at hj
      cases hj
      simpa using hnext
    · rw [List.getElem?_set_ne hij] at hj
      simpa [hij, hothers j hij] using h.tasks j t hj
  · intro j hj
    rw [List.length_set] at hj
    have hij : i ≠ j := by omega
    simpa [hij, hothers j hij] using h.later j hj

lemma AllFollow.drop (h : AllFollow reply events handler as tr s) {r : ρ}
    {inp : ι} {sh : σ} :
    AllFollow reply events handler (as ++ [.drop i inp]) (tr ++ [.dropped i])
      ⟨sh, s.tasks.set i ⟨r, .dropped⟩⟩ := by
  constructor
  · intro j t hj
    simp only [pollsOf_append, pollsOf_drop, history_append, history_dropped_cons, history_nil,
      List.append_nil]
    rcases getElem?_set_cases hj with ⟨-, rfl⟩ | hj
    · trivial
    · exact h.tasks j t hj
  · intro j hj
    rw [List.length_set] at hj
    simp only [pollsOf_append, pollsOf_drop, history_append, history_dropped_cons, history_nil,
      List.append_nil]
    exact h.later j hj

lemma AllFollow.arrive (h : AllFollow reply events handler as tr s) (r : ρ) :
    AllFollow reply events handler (as ++ [.arrive r]) (tr ++ [.arrived s.tasks.length r])
      ⟨s.shared, s.tasks ++ [⟨r, .running (handler r)⟩]⟩ := by
  constructor
  · intro j t hj
    simp only [pollsOf_append, pollsOf_arrive, history_append, history_arrived_cons, history_nil,
      List.append_nil]
    rw [List.getElem?_append] at hj
    split at hj
    · exact h.tasks j t hj
    · next hlt =>
      obtain ⟨hnil, hquiet⟩ := h.later j (by omega)
      rw [List.getElem?_singleton] at hj
      split at hj
      · cases hj
        intro rest
        have hid : Prod.map id (([] : List ε) ++ ·) = (id : α × List ε → α × List ε) := rfl
        rw [hnil, hquiet, hid, Option.map_id]
        rfl
      · cases hj
  · intro j hj
    rw [List.length_append, List.length_singleton] at hj
    simp only [pollsOf_append, pollsOf_arrive, history_append, history_arrived_cons, history_nil,
      List.append_nil]
    exact h.later j (by omega)

lemma AllFollow.restart (h : AllFollow reply events handler as tr s) (inp : ι) (sh : σ) :
    AllFollow reply events handler (as ++ [.restart inp]) (tr ++ [.restarted])
      ⟨sh, s.tasks.map Task.drop⟩ := by
  constructor
  · intro j t hj
    simp only [pollsOf_append, pollsOf_restart, history_append, history_restarted_cons, history_nil,
      List.append_nil]
    rw [List.getElem?_map, Option.map_eq_some_iff] at hj
    obtain ⟨⟨r, st⟩, hget, rfl⟩ := hj
    have hprev := h.tasks j _ hget
    cases st with
    | running p => trivial
    | finished a => exact hprev
    | dropped => trivial
  · intro j hj
    rw [List.length_map] at hj
    simp only [pollsOf_append, pollsOf_restart, history_append, history_restarted_cons, history_nil,
      List.append_nil]
    exact h.later j hj

theorem exec_follows (hE : Stateless E reply events) {sh₀ : σ}
    (h : (machine E handler).exec ⟨sh₀, []⟩ as = some (s, tr)) :
    AllFollow reply events handler as tr s := by
  refine Machine.exec_induction (P := AllFollow reply events handler) ⟨by simp, by simp [pollsOf]⟩ ?_ h
  intro as tr s a t evs _ ih hs
  cases step_cases hs with
  | arrive r => exact ih.arrive r
  | respond i inp r a hi =>
    refine ih.poll hi (by simp) ?_
    intro rest
    rw [List.append_assoc, ih.tasks i _ hi ([inp] ++ rest)]
    simp [Prog.fed]
  | perform i inp r o k sh rep evs hi hr =>
    rw [hE.replies] at hr
    cases hr
    refine ih.poll hi ?_ ?_
    · intro j hij
      simp [history_map_did, hij]
    · have hnext := ((ih.tasks i _ hi).call inp).settled
      simpa [history_map_did] using hnext
  | drop i inp r o k sh evs hi hc =>
    cases hE.quiet _ _ _ _ _ _ hc
    exact ih.drop
  | restart inp => exact ih.restart inp _

/-- A task that has answered is finished. -/
lemma responded_finished {sh₀ : σ} {a : α}
    (h : (machine E handler).exec ⟨sh₀, []⟩ as = some (s, tr)) (ha : Event.responded i a ∈ tr) :
    ∃ r, s.tasks[i]? = some ⟨r, .finished a⟩ := by
  revert ha
  refine Machine.exec_induction
    (P := fun _ tr s => Event.responded i a ∈ tr → ∃ r, s.tasks[i]? = some ⟨r, .finished a⟩)
    (by simp) ?_ h
  intro as tr s b t evs _ ih hs ha
  rcases List.mem_append.mp ha with ha | ha
  · obtain ⟨r, hi⟩ := ih ha
    refine ⟨r, ?_⟩
    have hlt : i < s.tasks.length := (List.getElem?_eq_some_iff.mp hi).1
    have hset : ∀ (j : ℕ) (u v : Task S ρ α), s.tasks[j]? = some u →
        (∀ c, u.status ≠ .finished c) → (s.tasks.set j v)[i]? = some ⟨r, .finished a⟩ := by
      intro j u v hj hu
      have hij : j ≠ i := by
        rintro rfl
        rw [hi] at hj
        cases hj
        exact hu a rfl
      rw [List.getElem?_set_ne hij, hi]
    cases step_cases hs with
    | arrive r' => rw [List.getElem?_append_left hlt, hi]
    | respond j inp r' a' hj => exact hset j _ _ hj (by simp)
    | perform j inp r' o k sh rep evs hj hr => exact hset j _ _ hj (by simp)
    | drop j inp r' o k sh evs hj hc => exact hset j _ _ hj (by simp)
    | restart inp =>
      rw [List.getElem?_map, hi]
      rfl
  · cases step_cases hs with
    | respond j inp r a' hj =>
      cases List.mem_singleton.mp ha
      exact ⟨r, List.getElem?_set_self (List.getElem?_eq_some_iff.mp hj).1⟩
    | perform j inp r o k sh rep evs hj hr =>
      cases hk : k rep with
      | done a' =>
        rw [hk] at ha
        obtain ⟨rfl, rfl⟩ : i = j ∧ a = a' := by simpa [answer] using ha
        exact ⟨r, List.getElem?_set_self (List.getElem?_eq_some_iff.mp hj).1⟩
      | call o' k' => simp [hk, answer] at ha
    | _ => simp at ha

/-- An answered task has run its program over the inputs of its own polls. -/
theorem responded_fed (hE : Stateless E reply events) {sh₀ : σ} {r : ρ} {a : α}
    (h : (machine E handler).exec ⟨sh₀, []⟩ as = some (s, tr)) (hr : Event.arrived i r ∈ tr)
    (ha : Event.responded i a ∈ tr) :
    (handler r).fed reply events (pollsOf i as) = some (a, history i tr) := by
  obtain ⟨r', hi⟩ := responded_finished h ha
  obtain ⟨t, ht, rfl⟩ := (exec_arrived h i r).mp hr
  rw [hi] at ht
  cases ht
  have hfed := (exec_follows hE h).tasks i _ hi []
  rwa [List.append_nil] at hfed

end Tasks
