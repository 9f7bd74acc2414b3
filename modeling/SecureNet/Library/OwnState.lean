import Mathlib.Logic.Function.Basic
import SecureNet.Library.TaskHistory

/-!
# Tasks with a state of their own

Every task runs over its own copy of the state, as processes on different hosts do. What a task
knows of its state when it makes a call is then what its own calls have left there: `Keeps` verifies
a program against its state and its history together, and `exec_own` carries that to all
interleavings. `Prog.interp` replaces the calls of a program by programs.
-/

namespace Tasks

open EventMachine

variable {S S' : Signature} {σ ρ α β ι ε : Type}

/-- Each call is made by the program given for it. -/
def Prog.interp (g : (o : S.Op) → Prog S' (S.Reply o)) : Prog S α → Prog S' α
  | .done a => .done a
  | .call o k => g o >>= fun r => (k r).interp g

lemma Prog.bind_assoc {γ : Type} (p : Prog S α) (f : α → Prog S β) (g : β → Prog S γ) :
    (p >>= f) >>= g = p >>= fun a => f a >>= g := by
  induction p with
  | done a => rfl
  | call o k ih => exact congrArg (Prog.call o) (funext ih)

lemma Prog.interp_bind (g : (o : S.Op) → Prog S' (S.Reply o)) (p : Prog S α) (f : α → Prog S β) :
    (p >>= f).interp g = p.interp g >>= fun a => (f a).interp g := by
  induction p with
  | done a => rfl
  | call o k ih =>
    have hcall : (Prog.call o k >>= f).interp g = g o >>= fun r => (k r >>= f).interp g := rfl
    rw [hcall, Prog.interp, Prog.bind_assoc]
    exact congrArg (g o >>= ·) (funext ih)

/-- Each task has its own copy of the state. -/
def Environment.own (E : Environment S σ ι ε) : Environment S (ℕ → σ) ι ε where
  reply s i o inp :=
    (E.reply (s i) i o inp).map fun (t, r, evs) => (Function.update s i t, r, evs)
  cancel s i o inp := (E.cancel (s i) i o inp).map fun (t, evs) => (Function.update s i t, evs)
  restart s inp := fun i => E.restart (s i) inp

section Keeps

variable (E : Environment S σ ι ε) (ok : S.Op → ι → Prop)

/-- Over calls that meet `ok`, `Φ` holds of the state and the history at every call of the program
and when it is dropped there, and `Ψ` when it answers. -/
def Keeps (Φ : σ → List ε → Prop) (Ψ : σ → List ε → α → Prop) : Prog S α → σ → List ε → Prop
  | .done a, s, h => Ψ s h a
  | .call o k, s, h => Φ s h ∧
    (∀ i inp t r evs, ok o inp → E.reply s i o inp = some (t, r, evs) →
      Keeps Φ Ψ (k r) t (h ++ evs)) ∧
    (∀ i inp t evs, E.cancel s i o inp = some (t, evs) → Φ t (h ++ evs))

variable {E ok} {Φ : σ → List ε → Prop} {Ψ : σ → List ε → α → Prop}

theorem Keeps.bind {Ψ' : σ → List ε → β → Prop} {p : Prog S α} {f : α → Prog S β} {s : σ}
    {h : List ε} (hp : Keeps E ok Φ Ψ p s h)
    (hf : ∀ s h a, Ψ s h a → Keeps E ok Φ Ψ' (f a) s h) : Keeps E ok Φ Ψ' (p >>= f) s h := by
  induction p generalizing s h with
  | done a => exact hf s h a hp
  | call o k ih =>
    obtain ⟨hnow, hreply, hcancel⟩ := hp
    refine ⟨hnow, ?_, hcancel⟩
    intro i inp t r evs hok hr
    exact ih r (hreply i inp t r evs hok hr)

/-- What a task is known to keep, by where it stands in its program. -/
def OwnTask (E : Environment S σ ι ε) (ok : S.Op → ι → Prop) (Φ : ρ → σ → List ε → Prop)
    (Ψ : ρ → σ → List ε → α → Prop) (t : Task S ρ α) (s : σ) (h : List ε) : Prop :=
  match t.status with
  | .running p => Φ t.request s h ∧ Keeps E ok (Φ t.request) (Ψ t.request) p s h
  | .finished a => Ψ t.request s h a
  | .dropped => Φ t.request s h

variable {Φ : ρ → σ → List ε → Prop} {Ψ : ρ → σ → List ε → α → Prop}

lemma ownTask_settled {r : ρ} {p : Prog S α} {s : σ} {h : List ε}
    (hp : Keeps E ok (Φ r) (Ψ r) p s h) : OwnTask E ok Φ Ψ ⟨r, settled p⟩ s h := by
  cases p with
  | done a => exact hp
  | call o k => exact ⟨hp.1, hp⟩

lemma OwnTask.now (hΨ : ∀ r s h a, Ψ r s h a → Φ r s h) {t : Task S ρ α} {s : σ} {h : List ε}
    (ht : OwnTask E ok Φ Ψ t s h) : Φ t.request s h := by
  obtain ⟨r, st⟩ := t
  cases st with
  | running p => exact ht.1
  | finished a => exact hΨ r s h a ht
  | dropped => exact ht

end Keeps

section Runs

variable {E : Environment S σ ι ε} {ok : S.Op → ι → Prop} {handler : ρ → Prog S α}
  {Φ : ρ → σ → List ε → Prop} {Ψ : ρ → σ → List ε → α → Prop} {s₀ : σ}

/-- The call that an action serves meets `ok`. -/
def Polled (ok : S.Op → ι → Prop) (s : System S σ ρ α) : Action ρ ι → Prop
  | .poll i inp => CallMeets (fun _ _ o inp => ok o inp) s.shared inp s.tasks[i]?
  | _ => True

/-- Every task keeps what it is known to keep, and nothing has happened to the state of a task that
has not arrived. -/
def OwnTracked (E : Environment S σ ι ε) (ok : S.Op → ι → Prop) (Φ : ρ → σ → List ε → Prop)
    (Ψ : ρ → σ → List ε → α → Prop) (s₀ : σ) (s : System S (ℕ → σ) ρ α)
    (tr : List (Event ρ α ε)) : Prop :=
  (∀ i t, s.tasks[i]? = some t → OwnTask E ok Φ Ψ t (s.shared i) (history i tr)) ∧
    ∀ i, s.tasks.length ≤ i → history i tr = [] ∧ s.shared i = s₀

lemma OwnTracked.move {s : System S (ℕ → σ) ρ α} {tr out : List (Event ρ α ε)} {i : ℕ}
    {t u : Task S ρ α} {c : σ} {evs : List ε} (h : OwnTracked E ok Φ Ψ s₀ s tr)
    (hi : s.tasks[i]? = some u) (hout : ∀ j, history j out = if i = j then evs else [])
    (ht : OwnTask E ok Φ Ψ t c (history i tr ++ evs)) :
    OwnTracked E ok Φ Ψ s₀ ⟨Function.update s.shared i c, s.tasks.set i t⟩ (tr ++ out) := by
  have hlt := (List.getElem?_eq_some_iff.mp hi).1
  constructor
  · intro j v hj
    rw [history_append, hout]
    by_cases hij : i = j
    · subst hij
      rw [List.getElem?_set_self hlt] at hj
      cases hj
      rw [if_pos rfl]
      simpa only [Function.update_self] using ht
    · rw [List.getElem?_set_ne hij] at hj
      rw [if_neg hij, List.append_nil]
      simpa only [Function.update_of_ne (Ne.symm hij)] using h.1 j v hj
  · intro j hj
    rw [List.length_set] at hj
    have hij : i ≠ j := by omega
    rw [history_append, hout, if_neg hij, List.append_nil]
    simpa only [Function.update_of_ne (Ne.symm hij)] using h.2 j hj

theorem OwnTracked.step (hstart : ∀ r, Φ r s₀ [])
    (hkeeps : ∀ r, Keeps E ok (Φ r) (Ψ r) (handler r) s₀ [])
    (hrestart : ∀ s inp, E.restart s inp = s) {s t : System S (ℕ → σ) ρ α} {a : Action ρ ι}
    {tr evs : List (Event ρ α ε)} (h : OwnTracked E ok Φ Ψ s₀ s tr)
    (hok : Polled ok s a) (hs : Step E.own handler s a t evs) :
    OwnTracked E ok Φ Ψ s₀ t (tr ++ evs) := by
  cases hs with
  | arrive r =>
    have hnone : ∀ j, history j (tr ++ [.arrived s.tasks.length r]) = history j tr := by simp
    constructor
    · intro j u hj
      rw [hnone]
      by_cases hlt : j < s.tasks.length
      · rw [List.getElem?_append_left hlt] at hj
        exact h.1 j u hj
      · have hlen := (List.getElem?_eq_some_iff.mp hj).1
        rw [List.length_append, List.length_singleton] at hlen
        obtain rfl : j = s.tasks.length := by omega
        rw [List.getElem?_concat_length] at hj
        cases hj
        obtain ⟨hhistory, hshared⟩ := h.2 s.tasks.length (Nat.le_refl _)
        rw [hhistory, hshared]
        exact ⟨hstart r, hkeeps r⟩
    · intro j hj
      rw [List.length_append, List.length_singleton] at hj
      rw [hnone]
      exact h.2 j (by omega)
  | respond i inp r a hi =>
    have hout : ∀ j, history j [(.responded i a : Event ρ α ε)] = if i = j then [] else [] := by simp
    have hnext : OwnTask E ok Φ Ψ ⟨r, .finished a⟩ (s.shared i) (history i tr ++ []) := by
      rw [List.append_nil]
      exact (h.1 i _ hi).2
    have hmoved := h.move hi hout hnext
    rwa [Function.update_eq_self] at hmoved
  | perform i inp r o k sh rep evs hi hr =>
    obtain ⟨⟨c, rep', evs'⟩, hc, heq⟩ := Option.map_eq_some_iff.mp hr
    cases heq
    have hout : ∀ j, history j (evs.map (.did i) ++ answer i (k rep) : List (Event ρ α ε)) =
        if i = j then evs else [] := by
      simp [history_map_did]
    have hin : CallMeets (fun _ _ o inp => ok o inp) s.shared inp s.tasks[i]? := hok
    exact h.move hi hout (ownTask_settled ((h.1 i _ hi).2.2.1 i inp c rep evs (hin.call hi) hc))
  | drop i inp r o k sh evs hi hc =>
    obtain ⟨⟨c, evs'⟩, hcancel, heq⟩ := Option.map_eq_some_iff.mp hc
    cases heq
    have hout : ∀ j, history j (evs.map (.did i) ++ [.dropped i] : List (Event ρ α ε)) =
        if i = j then evs else [] := by
      simp [history_map_did]
    have hdropped : OwnTask E ok Φ Ψ ⟨r, .dropped⟩ c (history i tr ++ evs) :=
      (h.1 i _ hi).2.2.2 i inp c evs hcancel
    exact h.move hi hout hdropped
  | restart inp =>
    have hnone : ∀ j, history j (tr ++ [.restarted]) = history j tr := by simp
    have hsame : E.own.restart s.shared inp = s.shared := funext fun i => hrestart (s.shared i) inp
    constructor
    · intro j u hj
      rw [List.getElem?_map, Option.map_eq_some_iff] at hj
      obtain ⟨⟨r, st⟩, hget, rfl⟩ := hj
      have hold := h.1 j _ hget
      rw [hnone, hsame]
      cases st with
      | running p => exact hold.1
      | finished a => exact hold
      | dropped => exact hold
    · intro j hj
      rw [hnone, hsame]
      exact h.2 j (by simpa using hj)

/-- A program that keeps `Φ` for its own state and history keeps it in every interleaving. -/
theorem exec_own (hstart : ∀ r, Φ r s₀ []) (hkeeps : ∀ r, Keeps E ok (Φ r) (Ψ r) (handler r) s₀ [])
    (hrestart : ∀ s inp, E.restart s inp = s) {as : List (Action ρ ι)} {s : System S (ℕ → σ) ρ α}
    {tr : List (Event ρ α ε)} (h : (machine E.own handler).exec ⟨fun _ => s₀, []⟩ as = some (s, tr))
    (hok : (machine E.own handler).Meets (Polled ok) ⟨fun _ => s₀, []⟩ as) :
    OwnTracked E ok Φ Ψ s₀ s tr := by
  refine Machine.exec_induction (P := fun as tr s =>
    (machine E.own handler).Meets (Polled ok) ⟨fun _ => s₀, []⟩ as →
      OwnTracked E ok Φ Ψ s₀ s tr) ?_ ?_ h hok
  · intro _
    exact ⟨fun i t hi => by simp at hi, fun _ _ => ⟨rfl, rfl⟩⟩
  · intro as tr s a t evs hrun ih hs hok
    exact (ih hok.append_left).step hstart hkeeps hrestart (hok.last hrun) (step_cases hs)

end Runs

end Tasks
