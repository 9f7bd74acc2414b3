import SecureNet.Library.Tasks

/-!
# Histories of tasks

The history of a task is the list of its own events in the trace. `Safe` verifies one program
against its history, call by call; `exec_history` carries the result to all interleavings.
-/

namespace Tasks

open EventMachine

variable {S : Signature} {σ ρ α ι ε : Type}

def Event.own (i : ℕ) : Event ρ α ε → Option ε
  | .did j e => if j = i then some e else none
  | _ => none

/-- The events that task `i` caused itself. -/
def history (i : ℕ) (tr : List (Event ρ α ε)) : List ε := tr.filterMap (Event.own i)

@[simp] lemma history_nil (i : ℕ) : history i ([] : List (Event ρ α ε)) = [] := rfl

@[simp] lemma history_append (i : ℕ) (l m : List (Event ρ α ε)) :
    history i (l ++ m) = history i l ++ history i m := List.filterMap_append

@[simp] lemma history_did_cons (i j : ℕ) (e : ε) (l : List (Event ρ α ε)) :
    history i (.did j e :: l) = if j = i then e :: history i l else history i l := by
  unfold history
  by_cases h : j = i <;> simp [Event.own, h]

@[simp] lemma history_arrived_cons (i j : ℕ) (r : ρ) (l : List (Event ρ α ε)) :
    history i (.arrived j r :: l) = history i l := rfl

@[simp] lemma history_responded_cons (i j : ℕ) (a : α) (l : List (Event ρ α ε)) :
    history i (.responded j a :: l) = history i l := rfl

@[simp] lemma history_dropped_cons (i j : ℕ) (l : List (Event ρ α ε)) :
    history i (.dropped j :: l) = history i l := rfl

@[simp] lemma history_restarted_cons (i : ℕ) (l : List (Event ρ α ε)) :
    history i (.restarted :: l) = history i l := rfl

lemma history_map_did (i j : ℕ) (evs : List ε) :
    history i (evs.map (Event.did j) : List (Event ρ α ε)) = if j = i then evs else [] := by
  induction evs with
  | nil => simp
  | cons e evs ih =>
    by_cases h : j = i
    · simpa [h] using ih
    · simpa [h] using ih

@[simp] lemma history_answer (i j : ℕ) (p : Prog S α) :
    history i (answer j p : List (Event ρ α ε)) = [] := by
  cases p <;> rfl

lemma mem_history {i : ℕ} {e : ε} {tr : List (Event ρ α ε)} :
    e ∈ history i tr ↔ Event.did i e ∈ tr := by
  induction tr with
  | nil => simp
  | cons x tr ih =>
    cases x with
    | did j e' =>
      by_cases h : j = i
      · simp [h, ih]
      · simp [h, ih, Ne.symm h]
    | _ => simpa using ih

/-- What an event says, if it is one of a task. -/
def Event.effect {β : Type} (f : ε → Option β) : Event ρ α ε → Option β
  | .did _ e => f e
  | _ => none

@[simp] lemma effect_did {β : Type} (f : ε → Option β) (i : ℕ) (e : ε) :
    Event.effect f (.did i e : Event ρ α ε) = f e := rfl

lemma filterMap_effect_map {β : Type} (f : ε → Option β) (i : ℕ) (evs : List ε) :
    (evs.map (Event.did i) : List (Event ρ α ε)).filterMap (Event.effect f) = evs.filterMap f := by
  rw [List.filterMap_map]
  rfl

/-- If only task `k` has effects, those of the trace are those of its history. -/
lemma filterMap_effect {β : Type} {f : ε → Option β} {k : ℕ} {tr : List (Event ρ α ε)}
    (hothers : ∀ i e, .did i e ∈ tr → i ≠ k → f e = none) :
    tr.filterMap (Event.effect f) = (history k tr).filterMap f := by
  rw [history, List.filterMap_filterMap]
  apply List.filterMap_congr
  intro x hx
  cases x with
  | did i e =>
    by_cases hi : i = k
    · simp [Event.effect, Event.own, hi]
    · simpa [Event.effect, Event.own, hi] using hothers i e hx hi
  | _ => rfl

/-- An event of a history has its place in the trace. -/
lemma history_split {k : ℕ} {tr : List (Event ρ α ε)} {h g : List ε} {e : ε}
    (hsplit : history k tr = h ++ e :: g) :
    ∃ l m, tr = l ++ .did k e :: m ∧ history k l = h ∧ history k m = g := by
  obtain ⟨l, l', rfl, hl, hrest⟩ := List.filterMap_eq_append_iff.mp hsplit
  obtain ⟨quiet, x, m, rfl, hquiet, hx, hm⟩ := List.filterMap_eq_cons_iff.mp hrest
  have hnil : history k quiet = [] := List.filterMap_eq_nil_iff.mpr hquiet
  have hdid : x = .did k e := by
    cases x with
    | did i e' =>
      simp only [Event.own, Option.ite_none_right_eq_some, Option.some.injEq] at hx
      rw [hx.1, hx.2]
    | _ => cases hx
  refine ⟨l ++ quiet, m, ?_, ?_, hm⟩
  · rw [hdid, List.append_assoc]
  · rw [history_append, hnil, List.append_nil]
    exact hl

section Safe

variable {β : Type} (E : Environment S σ ι ε) (ok : σ → S.Op → ι → Prop)

/-- The weakest precondition of a program for its history `h`, over calls that meet `ok`: `Φ`
holds of the history at every call and when the task is dropped there, and `Ψ` of the history
and the answer. -/
def Safe (Φ : List ε → Prop) (Ψ : List ε → α → Prop) : Prog S α → List ε → Prop
  | .done a, h => Ψ h a
  | .call o k, h => Φ h ∧
    (∀ s i inp t r evs, ok s o inp → E.reply s i o inp = some (t, r, evs) →
      Safe Φ Ψ (k r) (h ++ evs)) ∧
    (∀ s i inp t evs, ok s o inp → E.cancel s i o inp = some (t, evs) → Φ (h ++ evs))

variable {E ok}

theorem Safe.bind {Φ : List ε → Prop} {Ψ : List ε → α → Prop} {Ψ' : List ε → β → Prop}
    {p : Prog S α} {f : α → Prog S β} {h : List ε} (hp : Safe E ok Φ Ψ p h)
    (hf : ∀ h a, Ψ h a → Safe E ok Φ Ψ' (f a) h) : Safe E ok Φ Ψ' (p >>= f) h := by
  induction p generalizing h with
  | done a => exact hf h a hp
  | call o k ih =>
    obtain ⟨hnow, hreply, hcancel⟩ := hp
    refine ⟨hnow, ?_, hcancel⟩
    intro s i inp t r evs hok hr
    exact ih r (hreply s i inp t r evs hok hr)

lemma safe_true {p : Prog S α} {h : List ε} :
    Safe E ok (fun _ => True) (fun _ _ => True) p h := by
  induction p generalizing h with
  | done a => trivial
  | call o k ih => exact ⟨trivial, fun _ _ _ _ r _ _ _ => ih r, fun _ _ _ _ _ _ _ => trivial⟩

lemma Safe.mono {Φ Φ' : List ε → Prop} {Ψ Ψ' : List ε → α → Prop} (hΦ : ∀ h, Φ h → Φ' h)
    (hΨ : ∀ h a, Ψ h a → Ψ' h a) {p : Prog S α} {h : List ε} (hp : Safe E ok Φ Ψ p h) :
    Safe E ok Φ' Ψ' p h := by
  induction p generalizing h with
  | done a => exact hΨ h a hp
  | call o k ih =>
    obtain ⟨hnow, hreply, hcancel⟩ := hp
    refine ⟨hΦ h hnow, ?_, ?_⟩
    · intro s i inp t r evs hok hr
      exact ih r (hreply s i inp t r evs hok hr)
    · intro s i inp t evs hok hc
      exact hΦ _ (hcancel s i inp t evs hok hc)

variable (E) (ok : ρ → σ → S.Op → ι → Prop)

def Tracked (Φ : ρ → List ε → Prop) (Ψ : ρ → List ε → α → Prop) (h : List ε)
    (t : Task S ρ α) : Prop :=
  match t.status with
  | .running p => Φ t.request h ∧ Safe E (ok t.request) (Φ t.request) (Ψ t.request) p h
  | .finished a => Ψ t.request h a
  | .dropped => Φ t.request h

end Safe

section Runs

variable {E : Environment S σ ι ε} {handler : ρ → Prog S α}
  {ok : ρ → σ → S.Op → ι → Prop}
  {Φ : ρ → List ε → Prop} {Ψ : ρ → List ε → α → Prop}

lemma Tracked.now (hΦ : ∀ r h a, Ψ r h a → Φ r h) {h : List ε} {t : Task S ρ α}
    (ht : Tracked E ok Φ Ψ h t) : Φ t.request h := by
  obtain ⟨r, st⟩ := t
  cases st with
  | running p => exact ht.1
  | finished a => exact hΦ r h a ht
  | dropped => exact ht

lemma Tracked.drop {h : List ε} {t : Task S ρ α} (ht : Tracked E ok Φ Ψ h t) :
    Tracked E ok Φ Ψ h t.drop := by
  obtain ⟨r, st⟩ := t
  cases st with
  | running p => exact ht.1
  | finished a => exact ht
  | dropped => exact ht

lemma tracked_settled {r : ρ} {p : Prog S α} {h : List ε}
    (hs : Safe E (ok r) (Φ r) (Ψ r) p h) : Tracked E ok Φ Ψ h ⟨r, settled p⟩ := by
  cases p with
  | done a => exact hs
  | call o k => exact ⟨hs.1, hs⟩

/-- Every task and its history meet `P`, and no event belongs to a task that has not arrived. -/
def EachTask (P : List ε → Task S ρ α → Prop) (s : System S σ ρ α) (tr : List (Event ρ α ε)) :
    Prop :=
  (∀ i t, s.tasks[i]? = some t → P (history i tr) t) ∧
    ∀ i, s.tasks.length ≤ i → history i tr = []

variable {P : List ε → Task S ρ α → Prop}

/-- Task `i` moves with the events `evs`; the other tasks and their histories stay. -/
lemma EachTask.move {s : System S σ ρ α} {tr out : List (Event ρ α ε)} {i : ℕ}
    {t u : Task S ρ α} {evs : List ε} (h : EachTask P s tr) (sh : σ)
    (hi : s.tasks[i]? = some u) (hout : ∀ j, history j out = if i = j then evs else [])
    (ht : P (history i tr ++ evs) t) :
    EachTask P ⟨sh, s.tasks.set i t⟩ (tr ++ out) := by
  have hlt := (List.getElem?_eq_some_iff.mp hi).1
  refine ⟨fun j v hj => ?_, fun j hj => ?_⟩
  · rw [history_append, hout]
    by_cases hij : i = j
    · subst hij
      rw [List.getElem?_set_self hlt] at hj
      cases hj
      rwa [if_pos rfl]
    · rw [List.getElem?_set_ne hij] at hj
      rw [if_neg hij, List.append_nil]
      exact h.1 j v hj
  · simp only [List.length_set] at hj
    rw [history_append, hout, if_neg (by omega), List.append_nil]
    exact h.2 j hj

lemma EachTask.arrive {s : System S σ ρ α} {tr : List (Event ρ α ε)} (h : EachTask P s tr)
    (r : ρ) {t : Task S ρ α} (ht : P [] t) :
    EachTask P ⟨s.shared, s.tasks ++ [t]⟩ (tr ++ [.arrived s.tasks.length r]) := by
  refine ⟨fun j u hj => ?_, fun j hj => ?_⟩
  · rw [history_append, history_arrived_cons, history_nil, List.append_nil]
    rw [List.getElem?_append] at hj
    split at hj
    · exact h.1 j u hj
    · next hge =>
      obtain ⟨-, rfl⟩ : j - s.tasks.length = 0 ∧ _ = u := by
        simpa [List.getElem?_singleton] using hj
      rw [h.2 j (by omega)]
      exact ht
  · rw [history_append, history_arrived_cons, history_nil, List.append_nil]
    exact h.2 j (by simp at hj; omega)

lemma EachTask.restart {s : System S σ ρ α} {tr : List (Event ρ α ε)} (h : EachTask P s tr)
    (hdrop : ∀ h t, P h t → P h t.drop) (sh : σ) :
    EachTask P ⟨sh, s.tasks.map Task.drop⟩ (tr ++ [.restarted]) := by
  refine ⟨fun j u hj => ?_, fun j hj => ?_⟩
  · rw [List.getElem?_map, Option.map_eq_some_iff] at hj
    obtain ⟨t, ht, rfl⟩ := hj
    rw [history_append, history_restarted_cons, history_nil, List.append_nil]
    exact hdrop _ t (h.1 j t ht)
  · rw [history_append, history_restarted_cons, history_nil, List.append_nil]
    exact h.2 j (by simpa using hj)

/-- What every arrival establishes and every move of a task preserves holds of all tasks in every
interleaving. -/
theorem exec_each (harrive : ∀ r, P [] ⟨r, .running (handler r)⟩)
    (hrespond : ∀ h r a, P h ⟨r, .running (.done a)⟩ → P h ⟨r, .finished a⟩)
    (hreply : ∀ h r o k s i inp t rep evs, P h ⟨r, .running (.call o k)⟩ → ok r s o inp →
      E.reply s i o inp = some (t, rep, evs) → P (h ++ evs) ⟨r, settled (k rep)⟩)
    (hcancel : ∀ h r o k s i inp t evs, P h ⟨r, .running (.call o k)⟩ → ok r s o inp →
      E.cancel s i o inp = some (t, evs) → P (h ++ evs) ⟨r, .dropped⟩)
    (hdrop : ∀ h t, P h t → P h t.drop) {sh₀ : σ} {as : List (Action ρ ι)} {s : System S σ ρ α}
    {tr : List (Event ρ α ε)} (h : (machine E handler).exec ⟨sh₀, []⟩ as = some (s, tr))
    (hok : (machine E handler).Meets (Within ok) ⟨sh₀, []⟩ as) : EachTask P s tr := by
  refine Machine.exec_induction
    (P := fun as tr s => (machine E handler).Meets (Within ok) ⟨sh₀, []⟩ as →
      EachTask P s tr) ?_ ?_ h hok
  · intro _
    exact ⟨fun i t hi => by simp at hi, fun _ _ => rfl⟩
  · intro as tr s a t evs hrun ih hs hok
    have hold := ih hok.append_left
    cases step_cases hs with
    | arrive r => exact hold.arrive r (harrive r)
    | respond i inp r a hi =>
      have hout : ∀ j, history j [(.responded i a : Event ρ α ε)] = if i = j then [] else [] := by
        simp
      apply hold.move _ hi hout
      rw [List.append_nil]
      exact hrespond _ r a (hold.1 i _ hi)
    | perform i inp r o k sh rep evs hi hr =>
      have hout : ∀ j, history j (evs.map (.did i) ++ answer i (k rep) : List (Event ρ α ε)) =
          if i = j then evs else [] := by
        simp [history_map_did]
      apply hold.move _ hi hout
      have hin : CallMeets ok s.shared inp s.tasks[i]? := hok.last hrun
      exact hreply _ r o k _ i inp sh rep evs (hold.1 i _ hi) (hin.call hi) hr
    | drop i inp r o k sh evs hi hc =>
      have hout : ∀ j, history j (evs.map (.did i) ++ [.dropped i] : List (Event ρ α ε)) =
          if i = j then evs else [] := by
        simp [history_map_did]
      apply hold.move _ hi hout
      have hin : CallMeets ok s.shared inp s.tasks[i]? := hok.last hrun
      exact hcancel _ r o k _ i inp sh evs (hold.1 i _ hi) (hin.call hi) hc
    | restart inp => exact hold.restart hdrop _

variable (E ok Φ Ψ) in
/-- Every task is tracked, and no event belongs to a task that has not arrived. -/
def AllTracked (s : System S σ ρ α) (tr : List (Event ρ α ε)) : Prop :=
  (∀ i t, s.tasks[i]? = some t → Tracked E ok Φ Ψ (history i tr) t) ∧
    ∀ i, s.tasks.length ≤ i → history i tr = []

/-- Programs that are safe for their own history are safe in every interleaving. -/
theorem exec_history (hstart : ∀ r, Φ r [])
    (hsafe : ∀ r, Safe E (ok r) (Φ r) (Ψ r) (handler r) []) {sh₀ : σ}
    {as : List (Action ρ ι)} {s : System S σ ρ α} {tr : List (Event ρ α ε)}
    (h : (machine E handler).exec ⟨sh₀, []⟩ as = some (s, tr))
    (hok : (machine E handler).Meets (Within ok) ⟨sh₀, []⟩ as) : AllTracked E ok Φ Ψ s tr := by
  refine exec_each (P := Tracked E ok Φ Ψ) (fun r => ⟨hstart r, hsafe r⟩) ?_ ?_ ?_
    (fun _ _ ht => ht.drop) h hok
  · intro h r a ht
    exact ht.2
  · intro h r o k s i inp t rep evs ht hin hr
    exact tracked_settled (ht.2.2.1 s i inp t rep evs hin hr)
  · intro h r o k s i inp t evs ht hin hc
    exact ht.2.2.2 s i inp t evs hin hc

lemma meets_of_inputs {C : ι → Prop} (hok : ∀ r s o inp, C inp → ok r s o inp) (sh₀ : σ)
    {as : List (Action ρ ι)} (has : ∀ a ∈ as, ∀ inp ∈ a.inputs, C inp) :
    (machine E handler).Meets (Within ok) ⟨sh₀, []⟩ as := by
  intro as₁ a as₂ t tr hsplit _
  have ha := has a (by rw [hsplit]; simp)
  have hcall : ∀ (u : Option (Task S ρ α)) {inp : ι}, C inp → CallMeets ok t.shared inp u := by
    intro u inp hinp
    unfold CallMeets
    split
    · next r o k => exact hok r _ o inp hinp
    · trivial
  cases a with
  | poll i inp => exact hcall t.tasks[i]? (ha inp (List.mem_singleton_self _))
  | drop i inp => exact hcall t.tasks[i]? (ha inp (List.mem_singleton_self _))
  | _ => exact trivial

/-- What holds of every reachable shared state holds at every call. -/
lemma meets_of_shared {I : σ → Prop} {sh₀ : σ}
    (hI : ∀ as s tr, (machine E handler).exec ⟨sh₀, []⟩ as = some (s, tr) → I s.shared)
    (as : List (Action ρ ι)) :
    (machine E handler).Meets (Within (fun _ s _ _ => I s)) ⟨sh₀, []⟩ as := by
  intro as₁ a as₂ t tr _ hrun
  have hnow := hI as₁ t tr hrun
  have hcall : ∀ (inp : ι) (u : Option (Task S ρ α)),
      CallMeets (fun _ s _ _ => I s) t.shared inp u := by
    intro inp u
    unfold CallMeets
    split
    · exact hnow
    · trivial
  cases a with
  | poll i inp => exact hcall inp t.tasks[i]?
  | drop i inp => exact hcall inp t.tasks[i]?
  | _ => trivial

lemma meets_true (sh₀ : σ) (as : List (Action ρ ι)) :
    (machine E handler).Meets (Within (fun _ _ _ _ => True)) ⟨sh₀, []⟩ as :=
  meets_of_inputs (C := fun _ => True) (fun _ _ _ _ _ => trivial) sh₀ (fun _ _ _ _ => trivial)

end Runs

end Tasks
