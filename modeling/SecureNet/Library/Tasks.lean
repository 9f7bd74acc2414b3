import SecureNet.Library.EventMachine

/-!
# Concurrent tasks over a shared state

A program is a tree of calls: it asks its environment for one operation at a time and goes on
with the reply. A system runs any number of such programs, one per request, over a shared
state. Between two calls of a task any other task may run, a task may be dropped while it
waits in a call, and the whole system may be restarted.

`Safe` is the weakest precondition of a program for its own history of events: what must hold
of the history at every call, when the task answers, and when it is dropped. `exec_history`
lifts it to every run of the system, whatever the other tasks do.
-/

namespace Tasks

open EventMachine

/-- The operations a program may call, with the type of each reply. -/
structure Signature where
  Op : Type
  Reply : Op → Type

/-- A program that answers `α` after finitely many calls. -/
inductive Prog (S : Signature) (α : Type) : Type
  | done (a : α)
  | call (o : S.Op) (k : S.Reply o → Prog S α)

namespace Prog

variable {S : Signature} {α β : Type}

def bind : Prog S α → (α → Prog S β) → Prog S β
  | .done a, f => f a
  | .call o k, f => .call o (fun r => (k r).bind f)

instance : Monad (Prog S) where
  pure := .done
  bind := Prog.bind

def perform (o : S.Op) : Prog S (S.Reply o) := .call o .done

end Prog

/-- How the shared state `σ` serves a call of task `i`. The input `ι` supplies what the outside
world decides (clock readings, random bytes, results of file operations). `cancel` is the effect
of dropping a task that waits in a call, where the call is a point at which it can be dropped. -/
structure Environment (S : Signature) (σ ι ε : Type) where
  reply : σ → ℕ → (o : S.Op) → ι → Option (σ × S.Reply o × List ε)
  cancel : σ → ℕ → (o : S.Op) → ι → Option (σ × List ε)
  restart : σ → ι → σ

inductive Status (S : Signature) (α : Type)
  | running (p : Prog S α)
  | finished (a : α)
  | dropped

structure Task (S : Signature) (ρ α : Type) where
  request : ρ
  status : Status S α

structure System (S : Signature) (σ ρ α : Type) where
  shared : σ
  tasks : List (Task S ρ α)

inductive Action (ρ ι : Type)
  | arrive (r : ρ)
  | poll (i : ℕ) (inp : ι)
  | drop (i : ℕ) (inp : ι)
  | restart (inp : ι)

inductive Event (ρ α ε : Type)
  | arrived (i : ℕ) (r : ρ)
  | did (i : ℕ) (e : ε)
  | responded (i : ℕ) (a : α)
  | dropped (i : ℕ)
  | restarted

def Action.inputs {ρ ι : Type} : Action ρ ι → List ι
  | .poll _ inp => [inp]
  | .drop _ inp => [inp]
  | _ => []

section Machine

variable {S : Signature} {σ ρ α ι ε : Type}

/-- A task that has nothing left to call answers in the same poll. -/
def settled : Prog S α → Status S α
  | .done a => .finished a
  | .call o k => .running (.call o k)

def answer (i : ℕ) : Prog S α → List (Event ρ α ε)
  | .done a => [.responded i a]
  | .call _ _ => []

def Task.drop (t : Task S ρ α) : Task S ρ α :=
  match t.status with
  | .running _ => { t with status := .dropped }
  | _ => t

variable (E : Environment S σ ι ε) (handler : ρ → Prog S α)

def pollTask (s : System S σ ρ α) (i : ℕ) (inp : ι) (t : Task S ρ α) :
    Option (System S σ ρ α × List (Event ρ α ε)) :=
  match t.status with
  | .running (.done a) =>
    some (⟨s.shared, s.tasks.set i ⟨t.request, .finished a⟩⟩, [.responded i a])
  | .running (.call o k) =>
    match E.reply s.shared i o inp with
    | none => none
    | some (sh, r, evs) =>
      some (⟨sh, s.tasks.set i ⟨t.request, settled (k r)⟩⟩, evs.map (.did i) ++ answer i (k r))
  | _ => none

def dropTask (s : System S σ ρ α) (i : ℕ) (inp : ι) (t : Task S ρ α) :
    Option (System S σ ρ α × List (Event ρ α ε)) :=
  match t.status with
  | .running (.call o _) =>
    match E.cancel s.shared i o inp with
    | none => none
    | some (sh, evs) =>
      some (⟨sh, s.tasks.set i ⟨t.request, .dropped⟩⟩, evs.map (.did i) ++ [.dropped i])
  | _ => none

/-- The machine of all interleavings of the handlers of the requests that arrive. -/
def machine : Machine (System S σ ρ α) (Action ρ ι) (Event ρ α ε) where
  step s
    | .arrive r =>
      some (⟨s.shared, s.tasks ++ [⟨r, .running (handler r)⟩]⟩, [.arrived s.tasks.length r])
    | .poll i inp => s.tasks[i]?.bind (pollTask E s i inp)
    | .drop i inp => s.tasks[i]?.bind (dropTask E s i inp)
    | .restart inp => some (⟨E.restart s.shared inp, s.tasks.map Task.drop⟩, [.restarted])

inductive Step (s : System S σ ρ α) :
    Action ρ ι → System S σ ρ α → List (Event ρ α ε) → Prop
  | arrive (r : ρ) :
    Step s (.arrive r) ⟨s.shared, s.tasks ++ [⟨r, .running (handler r)⟩]⟩
      [.arrived s.tasks.length r]
  | respond (i : ℕ) (inp : ι) (r : ρ) (a : α) (hi : s.tasks[i]? = some ⟨r, .running (.done a)⟩) :
    Step s (.poll i inp) ⟨s.shared, s.tasks.set i ⟨r, .finished a⟩⟩ [.responded i a]
  | perform (i : ℕ) (inp : ι) (r : ρ) (o : S.Op) (k : S.Reply o → Prog S α) (sh : σ)
      (rep : S.Reply o) (evs : List ε) (hi : s.tasks[i]? = some ⟨r, .running (.call o k)⟩)
      (hr : E.reply s.shared i o inp = some (sh, rep, evs)) :
    Step s (.poll i inp) ⟨sh, s.tasks.set i ⟨r, settled (k rep)⟩⟩
      (evs.map (.did i) ++ answer i (k rep))
  | drop (i : ℕ) (inp : ι) (r : ρ) (o : S.Op) (k : S.Reply o → Prog S α) (sh : σ)
      (evs : List ε) (hi : s.tasks[i]? = some ⟨r, .running (.call o k)⟩)
      (hc : E.cancel s.shared i o inp = some (sh, evs)) :
    Step s (.drop i inp) ⟨sh, s.tasks.set i ⟨r, .dropped⟩⟩ (evs.map (.did i) ++ [.dropped i])
  | restart (inp : ι) :
    Step s (.restart inp) ⟨E.restart s.shared inp, s.tasks.map Task.drop⟩ [.restarted]

def CallMeets (ok : ρ → σ → S.Op → ι → Prop) (sh : σ) (inp : ι) : Option (Task S ρ α) → Prop
  | some ⟨r, .running (.call o _)⟩ => ok r sh o inp
  | _ => True

/-- The call that an action serves or cancels meets `ok`, in the shared state that it finds. -/
def Within (ok : ρ → σ → S.Op → ι → Prop) (s : System S σ ρ α) : Action ρ ι → Prop
  | .poll i inp => CallMeets ok s.shared inp s.tasks[i]?
  | .drop i inp => CallMeets ok s.shared inp s.tasks[i]?
  | _ => True

lemma CallMeets.call {ok : ρ → σ → S.Op → ι → Prop} {s : System S σ ρ α} {i : ℕ} {inp : ι}
    {r : ρ} {o : S.Op} {k : S.Reply o → Prog S α} (h : CallMeets ok s.shared inp s.tasks[i]?)
    (hi : s.tasks[i]? = some ⟨r, .running (.call o k)⟩) : ok r s.shared o inp := by
  rw [hi] at h
  exact h

section Decide

variable {ok : ρ → σ → S.Op → ι → Prop} [∀ r s o inp, Decidable (ok r s o inp)]

instance (sh : σ) (inp : ι) : (t : Option (Task S ρ α)) → Decidable (CallMeets ok sh inp t)
  | some ⟨r, .running (.call o _)⟩ => inferInstanceAs (Decidable (ok r sh o inp))
  | some ⟨_, .running (.done _)⟩ => isTrue trivial
  | some ⟨_, .finished _⟩ => isTrue trivial
  | some ⟨_, .dropped⟩ => isTrue trivial
  | none => isTrue trivial

instance (s : System S σ ρ α) : (a : Action ρ ι) → Decidable (Within ok s a)
  | .poll i inp => inferInstanceAs (Decidable (CallMeets ok s.shared inp s.tasks[i]?))
  | .drop i inp => inferInstanceAs (Decidable (CallMeets ok s.shared inp s.tasks[i]?))
  | .arrive _ => isTrue trivial
  | .restart _ => isTrue trivial

end Decide

variable {E handler}

theorem step_cases {s t : System S σ ρ α} {a : Action ρ ι} {evs : List (Event ρ α ε)}
    (h : (machine E handler).step s a = some (t, evs)) : Step E handler s a t evs := by
  cases a with
  | arrive r =>
    cases h
    exact .arrive r
  | poll i inp =>
    obtain ⟨⟨r, st⟩, hi, hp⟩ := Option.bind_eq_some_iff.mp h
    rw [pollTask] at hp
    split at hp
    · next a hst =>
      cases hp
      exact .respond i inp r a (by rw [hi, ← hst])
    · next o k hst =>
      split at hp
      · cases hp
      · next sh rep evs' hr =>
        cases hp
        exact .perform i inp r o k sh rep evs' (by rw [hi, ← hst]) hr
    · cases hp
  | drop i inp =>
    obtain ⟨⟨r, st⟩, hi, hp⟩ := Option.bind_eq_some_iff.mp h
    rw [dropTask] at hp
    split at hp
    · next o k hst =>
      split at hp
      · cases hp
      · next sh evs' hc =>
        cases hp
        exact .drop i inp r o k sh evs' (by rw [hi, ← hst]) hc
    · cases hp
  | restart inp =>
    cases h
    exact .restart inp

end Machine

end Tasks
