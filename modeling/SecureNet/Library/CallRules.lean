import SecureNet.Library.TaskEvents

/-!
# What a program calls

`Safe` says what holds of the history of a task, whatever the task calls next. `Calls` looks at the
calls too: each is met with a condition on the history and the operation. Where a dropped task emits
nothing, it gives `Safe`.
-/

namespace Tasks

open EventMachine

variable {S : Signature} {σ ρ α β ι ε : Type} {E : Environment S σ ι ε}

variable (E) in
/-- Every call of a program with history `h` meets `Pre`, and its answer meets `Post`. -/
def Calls (Pre : List ε → S.Op → Prop) (Post : List ε → α → Prop) : Prog S α → List ε → Prop
  | .done a, h => Post h a
  | .call o k, h => Pre h o ∧ ∀ s i inp t r evs, E.reply s i o inp = some (t, r, evs) →
      Calls Pre Post (k r) (h ++ evs)

variable {Pre Pre' : List ε → S.Op → Prop} {Post Post' : List ε → α → Prop} {h : List ε}

theorem Calls.bind {Post' : List ε → β → Prop} {p : Prog S α} {f : α → Prog S β}
    (hp : Calls E Pre Post p h) (hf : ∀ h a, Post h a → Calls E Pre Post' (f a) h) :
    Calls E Pre Post' (p >>= f) h := by
  induction p generalizing h with
  | done a => exact hf h a hp
  | call o k ih =>
    obtain ⟨hpre, hreply⟩ := hp
    refine ⟨hpre, ?_⟩
    intro s i inp t r evs hr
    exact ih r (hreply s i inp t r evs hr)

lemma Calls.mono (hPre : ∀ h o, Pre h o → Pre' h o) (hPost : ∀ h a, Post h a → Post' h a)
    {p : Prog S α} (hp : Calls E Pre Post p h) : Calls E Pre' Post' p h := by
  induction p generalizing h with
  | done a => exact hPost h a hp
  | call o k ih =>
    obtain ⟨hpre, hreply⟩ := hp
    refine ⟨hPre h o hpre, ?_⟩
    intro s i inp t r evs hr
    exact ih r (hreply s i inp t r evs hr)

lemma calls_true {p : Prog S α} {h : List ε} :
    Calls E (fun _ _ => True) (fun _ _ => True) p h := by
  induction p generalizing h with
  | done a => trivial
  | call o k ih => exact ⟨trivial, fun _ _ _ _ r _ _ => ih r⟩

lemma Calls.safe {ok : σ → S.Op → ι → Prop} {Φ : List ε → Prop}
    (hquiet : ∀ s i o inp t evs, E.cancel s i o inp = some (t, evs) → evs = [])
    (hΦ : ∀ h o, Pre h o → Φ h) {p : Prog S α} (hp : Calls E Pre Post p h) :
    Safe E ok Φ Post p h := by
  induction p generalizing h with
  | done a => exact hp
  | call o k ih =>
    obtain ⟨hpre, hreply⟩ := hp
    refine ⟨hΦ h o hpre, ?_, ?_⟩
    · intro s i inp t r evs _ hr
      exact ih r (hreply s i inp t r evs hr)
    · intro s i inp t evs _ hc
      rw [hquiet s i o inp t evs hc, List.append_nil]
      exact hΦ h o hpre

variable {handler : ρ → Prog S α} {P : ρ → List ε → S.Op → Prop} {Q : ρ → List ε → α → Prop}

variable (E P Q) in
/-- A task that meets its conditions from here on, unless it was dropped. -/
def Obeys (h : List ε) (t : Task S ρ α) : Prop :=
  match t.status with
  | .running p => Calls E (P t.request) (Q t.request) p h
  | .finished a => Q t.request h a
  | .dropped => True

lemma Obeys.drop {t : Task S ρ α} (ht : Obeys E P Q h t) : Obeys E P Q h t.drop := by
  obtain ⟨r, st⟩ := t
  cases st with
  | running p => trivial
  | finished a => exact ht
  | dropped => trivial

lemma obeys_settled {r : ρ} {p : Prog S α} (hp : Calls E (P r) (Q r) p h) :
    Obeys E P Q h ⟨r, settled p⟩ := by
  cases p <;> exact hp

/-- In every interleaving every task that waits in a call meets the condition of that call, and
every answer meets its own. -/
theorem exec_calls (hcalls : ∀ r, Calls E (P r) (Q r) (handler r) []) {sh₀ : σ}
    {as : List (Action ρ ι)} {s : System S σ ρ α} {tr : List (Event ρ α ε)}
    (h : (machine E handler).exec ⟨sh₀, []⟩ as = some (s, tr)) : EachTask (Obeys E P Q) s tr := by
  refine exec_each hcalls ?_ ?_ ?_ (fun _ _ ht => ht.drop) h
    (meets_true _ _)
  · intro h r a ht
    exact ht
  · intro h r o k s i inp t rep evs ht _ hr
    exact obeys_settled (ht.2 s i inp t rep evs hr)
  · intro h r o k s i inp t evs _ _ _
    trivial

/-- An invariant of the shared state and the trace that the replies need to preserve only at calls
that the programs make. -/
theorem exec_called {I : List (Event ρ α ε) → σ → Prop} {sh₀ : σ} (h₀ : I [] sh₀)
    (hcalls : ∀ r, Calls E (P r) (Q r) (handler r) [])
    (hquiet : ∀ s i o inp t evs, E.cancel s i o inp = some (t, evs) → t = s ∧ evs = [])
    (hidle : ∀ tr s e, e.Idle → I tr s → I (tr ++ [e]) s)
    (hreply : ∀ tr s i r o inp t rep evs, Event.arrived i r ∈ tr → P r (history i tr) o → I tr s →
      E.reply s i o inp = some (t, rep, evs) → I (tr ++ evs.map (.did i)) t)
    (hrestart : ∀ tr s inp, I tr s → I (tr ++ [.restarted]) (E.restart s inp))
    {as : List (Action ρ ι)} {s : System S σ ρ α} {tr : List (Event ρ α ε)}
    (h : (machine E handler).exec ⟨sh₀, []⟩ as = some (s, tr)) : I tr s.shared := by
  refine Machine.exec_induction (P := fun _ tr s => I tr s.shared) h₀ ?_ h
  intro as tr s a t evs hrun ih hs
  cases step_cases hs with
  | arrive r => exact hidle _ _ _ trivial ih
  | respond i inp r a hi => exact hidle _ _ _ trivial ih
  | perform i inp r o k sh rep evs hi hr =>
    have hobeys : Obeys E P Q (history i tr) ⟨r, .running (.call o k)⟩ :=
      (exec_calls hcalls hrun).1 i _ hi
    have harrived : Event.arrived i r ∈ tr := (exec_arrived hrun i r).mpr ⟨_, hi, rfl⟩
    have hnext := hreply tr s.shared i r o inp sh rep evs harrived hobeys.1 ih hr
    rw [← List.append_assoc]
    cases k rep with
    | done a => exact hidle _ _ _ trivial hnext
    | call o' k' => simpa [answer] using hnext
  | drop i inp r o k sh evs hi hc =>
    obtain ⟨rfl, rfl⟩ := hquiet _ _ _ _ _ _ hc
    exact hidle _ _ _ trivial ih
  | restart inp => exact hrestart tr s.shared inp ih

end Tasks
