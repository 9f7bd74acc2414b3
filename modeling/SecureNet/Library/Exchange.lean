import Mathlib.Data.List.Nodup
import SecureNet.Library.SoloRuns
import SecureNet.Library.TaskEvents
import SecureNet.Library.TaskSum

/-!
# Clients of a server

The tasks of a system are the requests of a server. Its clients are a machine of their own, and the
network in between carries a request to the server, where it becomes a task, and the answer of that
task back to the client that has asked. Requests and answers may get lost, and clients that are not
part of the system may send requests too. In every run each answer that a client gets is that of its
own request, and no two answers are of the same task.
-/

namespace Tasks

open EventMachine

variable {S : Signature} {σ ρ α ι ε : Type} {τ A ε' ι' : Type}

/-- The machine of the clients. `wants` is the request that a client waits to have sent, `deliver`
hands it an answer, and `seen` is the event of that. -/
structure Clients (τ A ε' ρ α ι' : Type) where
  client : Machine τ A ε'
  wants : τ → ℕ → Option ρ
  moves : A → ℕ → Bool
  claim : τ → A → Option (ℕ × ρ × α)
  deliver : ℕ → ι' → ℕ × ρ × α → A
  seen : ε' → Option (ℕ × ρ × α)
  claim_deliver : ∀ {c i r} inp x, wants c i = some r → claim c (deliver i inp x) = some x
  moves_deliver : ∀ i inp x, moves (deliver i inp x) i = true
  wants_frame : ∀ {c d b evs i r}, client.step c b = some (d, evs) → moves b i = false →
    wants c i = some r → wants d i = some r
  seen_step : ∀ {c d b evs}, client.step c b = some (d, evs) →
    evs.filterMap seen = (claim c b).toList

/-- `pending` tells which task of the server a client waits for. -/
structure Net (S : Signature) (σ ρ α τ : Type) where
  server : System S σ ρ α
  clients : τ
  pending : List (ℕ × ℕ)

inductive NetAction (ρ ι A ι' : Type)
  | server (a : Action ρ ι)
  | send (i : ℕ)
  | deliver (i : ℕ) (inp : ι')
  | client (b : A)

variable (E : Environment S σ ι ε) (handler : ρ → Prog S α) (C : Clients τ A ε' ρ α ι')

/-- A client moves, and what it has waited for is forgotten. -/
def Clients.act (n : Net S σ ρ α τ) (b : A) : Option (Net S σ ρ α τ × List (Event ρ α ε ⊕ ε')) :=
  (C.client.step n.clients b).map fun (c, evs) =>
    ({ n with clients := c, pending := n.pending.filter (fun p => !C.moves b p.1) }, evs.map .inr)

def net : Machine (Net S σ ρ α τ) (NetAction ρ ι A ι') (Event ρ α ε ⊕ ε') where
  step n
    | .server a =>
      ((machine E handler).step n.server a).map fun (s, evs) =>
        ({ n with server := s }, evs.map .inl)
    | .send i =>
      match C.wants n.clients i, n.pending.lookup i with
      | some r, none =>
        ((machine E handler).step n.server (.arrive r)).map fun (s, evs) =>
          ({ n with server := s, pending := (i, n.server.tasks.length) :: n.pending }, evs.map .inl)
      | _, _ => none
    | .deliver i inp =>
      match n.pending.lookup i with
      | none => none
      | some v =>
        match n.server.tasks[v]? with
        | some ⟨r, .finished a⟩ => C.act n (C.deliver i inp (v, r, a))
        | _ => none
    | .client b => if (C.claim n.clients b).isNone then C.act n b else none

inductive NetStep (n : Net S σ ρ α τ) :
    NetAction ρ ι A ι' → Net S σ ρ α τ → List (Event ρ α ε ⊕ ε') → Prop
  | server (a : Action ρ ι) (s : System S σ ρ α) (evs : List (Event ρ α ε))
      (hs : (machine E handler).step n.server a = some (s, evs)) :
    NetStep n (.server a) { n with server := s } (evs.map .inl)
  | send (i : ℕ) (r : ρ) (s : System S σ ρ α) (evs : List (Event ρ α ε))
      (hwants : C.wants n.clients i = some r) (hfree : n.pending.lookup i = none)
      (hs : (machine E handler).step n.server (.arrive r) = some (s, evs)) :
    NetStep n (.send i) { n with server := s, pending := (i, n.server.tasks.length) :: n.pending }
      (evs.map .inl)
  | deliver (i : ℕ) (inp : ι') (v : ℕ) (r : ρ) (a : α) (c : τ) (evs : List ε')
      (hpending : (i, v) ∈ n.pending) (hdone : n.server.tasks[v]? = some ⟨r, .finished a⟩)
      (hc : C.client.step n.clients (C.deliver i inp (v, r, a)) = some (c, evs)) :
    NetStep n (.deliver i inp) { n with
      clients := c
      pending := n.pending.filter (fun p => !C.moves (C.deliver i inp (v, r, a)) p.1) }
      (evs.map .inr)
  | client (b : A) (c : τ) (evs : List ε') (hclaim : C.claim n.clients b = none)
      (hc : C.client.step n.clients b = some (c, evs)) :
    NetStep n (.client b) { n with
      clients := c
      pending := n.pending.filter (fun p => !C.moves b p.1) } (evs.map .inr)

variable {E handler C}

lemma mem_of_lookup {β : Type} {l : List (ℕ × β)} {i : ℕ} {v : β} (h : l.lookup i = some v) :
    (i, v) ∈ l := by
  induction l with
  | nil => cases h
  | cons p l ih =>
    rw [List.lookup_cons] at h
    by_cases hp : i = p.1
    · rw [hp, beq_self_eq_true, Option.some.injEq] at h
      rw [hp, ← h]
      exact List.mem_cons_self
    · rw [beq_eq_false_iff_ne.mpr hp] at h
      exact List.mem_cons_of_mem p (ih h)

lemma act_some {n m : Net S σ ρ α τ} {b : A} {out : List (Event ρ α ε ⊕ ε')}
    (h : C.act n b = some (m, out)) : ∃ c evs, C.client.step n.clients b = some (c, evs) ∧
      m = { n with clients := c, pending := n.pending.filter (fun p => !C.moves b p.1) } ∧
      out = evs.map .inr := by
  obtain ⟨⟨c, evs⟩, hc, heq⟩ := Option.map_eq_some_iff.mp h
  cases heq
  exact ⟨c, evs, hc, rfl, rfl⟩

theorem net_cases {n m : Net S σ ρ α τ} {a : NetAction ρ ι A ι'} {out : List (Event ρ α ε ⊕ ε')}
    (h : (net E handler C).step n a = some (m, out)) : NetStep E handler C n a m out := by
  cases a with
  | server a =>
    obtain ⟨⟨s, evs⟩, hs, heq⟩ := Option.map_eq_some_iff.mp h
    cases heq
    exact .server a s evs hs
  | send i =>
    simp only [net] at h
    split at h
    · next r hwants hfree =>
      obtain ⟨⟨s, evs⟩, hs, heq⟩ := Option.map_eq_some_iff.mp h
      cases heq
      exact .send i r s evs hwants hfree hs
    · cases h
  | deliver i inp =>
    simp only [net] at h
    split at h
    · cases h
    · next v hv =>
      split at h
      · next r b hdone =>
        obtain ⟨c, evs, hc, rfl, rfl⟩ := act_some h
        exact .deliver i inp v r b c evs (mem_of_lookup hv) hdone hc
      · cases h
  | client b =>
    simp only [net] at h
    split at h
    · next hclaim =>
      obtain ⟨c, evs, hc, rfl, rfl⟩ := act_some h
      exact .client b c evs (Option.isNone_iff_eq_none.mp hclaim) hc
    · cases h

/-- The events of the second machine. -/
def rights (tr : List (Event ρ α ε ⊕ ε')) : List ε' := tr.filterMap Sum.getRight?

@[simp] lemma rights_append (l m : List (Event ρ α ε ⊕ ε')) : rights (l ++ m) = rights l ++ rights m :=
  List.filterMap_append

@[simp] lemma rights_map_inr (l : List ε') : rights (l.map .inr : List (Event ρ α ε ⊕ ε')) = l := by
  induction l with
  | nil => rfl
  | cons e l ih => exact congrArg (e :: ·) ih

@[simp] lemma rights_map_inl (l : List (Event ρ α ε)) :
    rights (l.map .inl : List (Event ρ α ε ⊕ ε')) = [] := by
  induction l with
  | nil => rfl
  | cons e l ih => exact ih

@[simp] lemma lefts_map_inr (l : List ε') : lefts (l.map .inr : List (Event ρ α ε ⊕ ε')) = [] := by
  induction l with
  | nil => rfl
  | cons e l ih => exact ih

/-- What the outside world supplies to the server. -/
def NetAction.serverInputs : NetAction ρ ι A ι' → List ι
  | .server a => a.inputs
  | _ => []

section Projection

/-- The condition on the actions of the server alone. -/
def OnServer (ok : System S σ ρ α → Action ρ ι → Prop) (n : Net S σ ρ α τ) :
    NetAction ρ ι A ι' → Prop
  | .server a => ok n.server a
  | _ => True

variable {n : Net S σ ρ α τ} {as : List (NetAction ρ ι A ι')} {tr : List (Event ρ α ε ⊕ ε')}

/-- What the server does in a run with its clients it does in a run of its own. -/
theorem net_server {ok : System S σ ρ α → Action ρ ι → Prop} (harrive : ∀ s r, ok s (.arrive r))
    {s₀ : System S σ ρ α} {c₀ : τ} (h : (net E handler C).exec ⟨s₀, c₀, []⟩ as = some (n, tr))
    (hok : (net E handler C).Meets (OnServer ok) ⟨s₀, c₀, []⟩ as) :
    ∃ bs, (machine E handler).exec s₀ bs = some (n.server, lefts tr) ∧
      (machine E handler).Meets ok s₀ bs := by
  refine Machine.exec_induction (P := fun as tr n =>
    (net E handler C).Meets (OnServer ok) ⟨s₀, c₀, []⟩ as → ∃ bs,
      (machine E handler).exec s₀ bs = some (n.server, lefts tr) ∧
        (machine E handler).Meets ok s₀ bs) ?_ ?_ h hok
  · intro _
    exact ⟨[], rfl, Machine.meets_nil⟩
  · intro as tr n a m out hrun ih hs hok
    obtain ⟨bs, hbs, hmeets⟩ := ih hok.append_left
    cases net_cases hs with
    | server a s evs hstep =>
      refine ⟨bs ++ [a], Machine.exec_snoc.mpr ⟨_, _, evs, hbs, hstep, by simp⟩, hmeets.snoc ?_⟩
      intro t l hl
      cases hbs.symm.trans hl
      exact hok.last hrun
    | send i r s evs _ _ hstep =>
      exact ⟨bs ++ [.arrive r], Machine.exec_snoc.mpr ⟨_, _, evs, hbs, hstep, by simp⟩,
        hmeets.snoc fun t _ _ => harrive t r⟩
    | deliver i inp v r b c evs _ _ _ => exact ⟨bs, by simpa using hbs, hmeets⟩
    | client b c evs _ _ => exact ⟨bs, by simpa using hbs, hmeets⟩

lemma onServer_of_inputs (ok : ρ → σ → S.Op → ι → Prop) {p : ι → Prop}
    (hok : ∀ r s o inp, p inp → ok r s o inp) (n : Net S σ ρ α τ)
    (has : ∀ a ∈ as, ∀ inp ∈ a.serverInputs, p inp) :
    (net E handler C).Meets (OnServer (Within ok)) n as := by
  intro as₁ a as₂ m tr hsplit _
  have ha := has a (by rw [hsplit]; simp)
  have hcall : ∀ (u : Option (Task S ρ α)) {inp : ι}, p inp →
      CallMeets ok m.server.shared inp u := by
    intro u inp hinp
    unfold CallMeets
    split
    · next r o k => exact hok r _ o inp hinp
    · trivial
  cases a with
  | server b =>
    cases b with
    | poll i inp => exact hcall m.server.tasks[i]? (ha inp (List.mem_singleton_self _))
    | drop i inp => exact hcall m.server.tasks[i]? (ha inp (List.mem_singleton_self _))
    | _ => trivial
  | _ => trivial

end Projection

section Faithful

lemma task_kept {s t : System S σ ρ α} {a : Action ρ ι} {evs : List (Event ρ α ε)}
    (h : Step E handler s a t evs) {v : ℕ} {u : Task S ρ α} (hv : s.tasks[v]? = some u) :
    ∃ w, t.tasks[v]? = some w ∧ w.request = u.request ∧ ((∀ p, u.status ≠ .running p) → w = u) := by
  have hset : ∀ {i : ℕ} {old new : Task S ρ α} {p : Prog S α}, s.tasks[i]? = some old →
      new.request = old.request → old.status = .running p → ∃ w, (s.tasks.set i new)[v]? = some w ∧
        w.request = u.request ∧ ((∀ p, u.status ≠ .running p) → w = u) := by
    intro i old new p hi hnew hold
    by_cases hiv : i = v
    · subst hiv
      rw [hv] at hi
      cases hi
      rw [List.getElem?_set_self (List.getElem?_eq_some_iff.mp hv).1]
      exact ⟨new, rfl, hnew, fun hu => absurd hold (hu p)⟩
    · rw [List.getElem?_set_ne hiv]
      exact ⟨u, hv, rfl, fun _ => rfl⟩
  cases h with
  | arrive r =>
    refine ⟨u, ?_, rfl, fun _ => rfl⟩
    rw [List.getElem?_append_left (List.getElem?_eq_some_iff.mp hv).1]
    exact hv
  | respond i inp r a hi => exact hset hi rfl rfl
  | perform i inp r o k sh rep evs hi hr => exact hset hi rfl rfl
  | drop i inp r o k sh evs hi hc => exact hset hi rfl rfl
  | restart inp =>
    obtain ⟨r, st⟩ := u
    refine ⟨Task.drop ⟨r, st⟩, by rw [List.getElem?_map, hv]; rfl, ?_, ?_⟩
    · cases st <;> rfl
    · intro hst
      cases st with
      | running p => exact absurd rfl (hst p)
      | _ => rfl

/-- The answers that the clients have got. -/
def answers (C : Clients τ A ε' ρ α ι') (tr : List (Event ρ α ε ⊕ ε')) : List (ℕ × ρ × α) :=
  (rights tr).filterMap C.seen

lemma answers_append (l m : List (Event ρ α ε ⊕ ε')) :
    answers C (l ++ m) = answers C l ++ answers C m := by
  rw [answers, rights_append, List.filterMap_append]
  rfl

/-- What the network knows of its requests and answers. -/
structure Faithful (C : Clients τ A ε' ρ α ι') (n : Net S σ ρ α τ) (tr : List (Event ρ α ε ⊕ ε')) :
    Prop where
  asked : ∀ p ∈ n.pending, ∃ t, n.server.tasks[p.2]? = some t ∧ C.wants n.clients p.1 = some t.request
  answered : ∀ x ∈ answers C tr, n.server.tasks[x.1]? = some ⟨x.2.1, .finished x.2.2⟩
  fresh : (n.pending.map Prod.snd).Nodup
  distinct : ((answers C tr).map Prod.fst).Nodup
  disjoint : ∀ p ∈ n.pending, ∀ x ∈ answers C tr, p.2 ≠ x.1

variable {n m : Net S σ ρ α τ} {tr : List (Event ρ α ε ⊕ ε')}

lemma Faithful.server (hn : Faithful C n tr) {s : System S σ ρ α} {a : Action ρ ι}
    {evs : List (Event ρ α ε)} (hs : (machine E handler).step n.server a = some (s, evs)) :
    Faithful C { n with server := s } (tr ++ evs.map .inl) := by
  have hanswers : answers C (tr ++ evs.map .inl) = answers C tr := by
    rw [answers_append, answers, answers, rights_map_inl, List.filterMap_nil, List.append_nil]
  obtain ⟨hasked, hanswered, hfresh, hdistinct, hdisjoint⟩ := hn
  refine ⟨?_, ?_, hfresh, by rwa [hanswers], by rwa [hanswers]⟩
  · intro p hp
    obtain ⟨t, ht, hwants⟩ := hasked p hp
    obtain ⟨w, hw, hrequest, -⟩ := task_kept (step_cases hs) ht
    exact ⟨w, hw, hrequest ▸ hwants⟩
  · intro x hx
    rw [hanswers] at hx
    obtain ⟨w, hw, -, hsame⟩ := task_kept (step_cases hs) (hanswered x hx)
    rw [hw, hsame (by simp)]

lemma pending_filter {pending : List (ℕ × ℕ)} {b : A} {p : ℕ × ℕ}
    (hp : p ∈ pending.filter (fun p => !C.moves b p.1)) : p ∈ pending ∧ C.moves b p.1 = false := by
  obtain ⟨hmem, hmoves⟩ := List.mem_filter.mp hp
  rw [Bool.not_eq_true'] at hmoves
  exact ⟨hmem, hmoves⟩

/-- What is still pending after a client has moved. -/
lemma Faithful.pending (hn : Faithful C n tr) {b : A} {c : τ} {evs : List ε'}
    (hc : C.client.step n.clients b = some (c, evs)) :
    (∀ p ∈ n.pending.filter (fun p => !C.moves b p.1),
      ∃ t, n.server.tasks[p.2]? = some t ∧ C.wants c p.1 = some t.request) ∧
      ((n.pending.filter (fun p => !C.moves b p.1)).map Prod.snd).Nodup := by
  refine ⟨?_, hn.fresh.sublist (List.filter_sublist.map _)⟩
  intro p hp
  obtain ⟨hmem, hmoves⟩ := pending_filter hp
  obtain ⟨t, ht, hwants⟩ := hn.asked p hmem
  exact ⟨t, ht, C.wants_frame hc hmoves hwants⟩

theorem Faithful.step (hn : Faithful C n tr) {a : NetAction ρ ι A ι'}
    {out : List (Event ρ α ε ⊕ ε')} (h : NetStep E handler C n a m out) :
    Faithful C m (tr ++ out) := by
  cases h with
  | server a s evs hs => exact hn.server hs
  | send i r s evs hwants hfree hs =>
    have hnext := hn.server hs
    have hlast : s.tasks[n.server.tasks.length]? = some ⟨r, .running (handler r)⟩ := by
      cases step_cases hs
      exact List.getElem?_concat_length
    have hbelow : ∀ {v : ℕ} {t : Task S ρ α}, n.server.tasks[v]? = some t →
        v < n.server.tasks.length := fun ht => (List.getElem?_eq_some_iff.mp ht).1
    obtain ⟨hasked, hanswered, hfresh, hdistinct, hdisjoint⟩ := hnext
    refine ⟨?_, hanswered, ?_, hdistinct, ?_⟩
    · intro p hp
      rcases List.mem_cons.mp hp with rfl | hp
      · exact ⟨_, hlast, hwants⟩
      · exact hasked p hp
    · rw [List.map_cons, List.nodup_cons]
      refine ⟨?_, hfresh⟩
      intro hmem
      obtain ⟨p, hp, heq⟩ := List.mem_map.mp hmem
      obtain ⟨t, ht, -⟩ := hn.asked p hp
      exact absurd (hbelow ht) (by omega)
    · intro p hp x hx
      rcases List.mem_cons.mp hp with rfl | hp
      · have hold : x ∈ answers C tr := by
          rwa [answers_append, answers, answers, rights_map_inl, List.filterMap_nil,
            List.append_nil] at hx
        have hlt := hbelow (hn.answered x hold)
        simp only
        omega
      · exact hdisjoint p hp x hx
  | deliver i inp v r b c evs hpending hdone hc =>
    obtain ⟨hasked, hfresh⟩ := hn.pending hc
    obtain ⟨t, -, hwants⟩ := hn.asked _ hpending
    have hanswers : answers C (tr ++ evs.map .inr) = answers C tr ++ [(v, r, b)] := by
      rw [answers_append, answers, answers, rights_map_inr, C.seen_step hc,
        C.claim_deliver inp _ hwants]
      rfl
    refine ⟨hasked, ?_, hfresh, ?_, ?_⟩
    · intro x hx
      rw [hanswers] at hx
      rcases List.mem_append.mp hx with hx | hx
      · exact hn.answered x hx
      · rw [List.mem_singleton.mp hx]
        exact hdone
    · rw [hanswers, List.map_append, List.nodup_append]
      refine ⟨hn.distinct, by simp, ?_⟩
      intro w hw u hu
      obtain ⟨x, hx, rfl⟩ := List.mem_map.mp hw
      rw [List.map_singleton, List.mem_singleton] at hu
      rw [hu]
      exact (hn.disjoint _ hpending x hx).symm
    · intro p hp x hx
      obtain ⟨hmem, hmoves⟩ := pending_filter hp
      rw [hanswers] at hx
      rcases List.mem_append.mp hx with hx | hx
      · exact hn.disjoint p hmem x hx
      · rw [List.mem_singleton.mp hx]
        intro heq
        have hsame : p = (i, v) := List.inj_on_of_nodup_map hn.fresh hmem hpending heq
        rw [hsame, C.moves_deliver] at hmoves
        cases hmoves
  | client b c evs hclaim hc =>
    obtain ⟨hasked, hfresh⟩ := hn.pending hc
    have hanswers : answers C (tr ++ evs.map .inr) = answers C tr := by
      rw [answers_append, answers, answers, rights_map_inr, C.seen_step hc, hclaim]
      exact List.append_nil _
    refine ⟨hasked, by rw [hanswers]; exact hn.answered, hfresh, by rw [hanswers]; exact hn.distinct,
      ?_⟩
    intro p hp x hx
    rw [hanswers] at hx
    exact hn.disjoint p (pending_filter hp).1 x hx

/-- In every run the answers that the clients get are those of the server's tasks, each of another
one. -/
theorem net_faithful {s₀ : System S σ ρ α} {c₀ : τ} {as : List (NetAction ρ ι A ι')}
    (h : (net E handler C).exec ⟨s₀, c₀, []⟩ as = some (n, tr)) : Faithful C n tr := by
  refine Machine.exec_induction (P := fun _ tr n => Faithful C n tr) ?_ ?_ h
  · exact ⟨by simp, by simp [answers, rights], .nil, .nil, by simp⟩
  · intro as tr n a m out _ ih hs
    exact ih.step (net_cases hs)

end Faithful

section Asked

/-- An answer that a client is given is one to the request that it waits to have sent. -/
def Asked (C : Clients τ A ε' ρ α ι') (c : τ) (b : A) : Prop :=
  ∀ x, C.claim c b = some x → ∃ i, C.moves b i = true ∧ C.wants c i = some x.2.1

/-- What the clients do in a run with the server they do in a run of their own, in which they are
given answers to what they have asked. -/
theorem net_clients {n : Net S σ ρ α τ} {tr : List (Event ρ α ε ⊕ ε')} {s₀ : System S σ ρ α} {c₀ : τ}
    {as : List (NetAction ρ ι A ι')} (h : (net E handler C).exec ⟨s₀, c₀, []⟩ as = some (n, tr)) :
    ∃ bs, C.client.exec c₀ bs = some (n.clients, rights tr) ∧ C.client.Meets (Asked C) c₀ bs := by
  refine Machine.exec_induction (P := fun _ tr n => ∃ bs,
    C.client.exec c₀ bs = some (n.clients, rights tr) ∧ C.client.Meets (Asked C) c₀ bs) ?_ ?_ h
  · exact ⟨[], rfl, Machine.meets_nil⟩
  · intro as tr n a m out hrun ih hs
    obtain ⟨bs, hbs, hmeets⟩ := ih
    cases net_cases hs with
    | server a s evs hs => exact ⟨bs, by simpa using hbs, hmeets⟩
    | send i r s evs _ _ hs => exact ⟨bs, by simpa using hbs, hmeets⟩
    | deliver i inp v r b c evs hpending hdone hc =>
      refine ⟨bs ++ [C.deliver i inp (v, r, b)],
        Machine.exec_snoc.mpr ⟨_, _, evs, hbs, hc, by simp⟩, hmeets.snoc ?_⟩
      intro t l hl x hx
      cases hbs.symm.trans hl
      obtain ⟨u, hu, hwants⟩ := (net_faithful hrun).asked _ hpending
      rw [hdone] at hu
      cases hu
      rw [C.claim_deliver inp _ hwants] at hx
      cases hx
      exact ⟨i, C.moves_deliver i inp _, hwants⟩
    | client b c evs hclaim hc =>
      refine ⟨bs ++ [b], Machine.exec_snoc.mpr ⟨_, _, evs, hbs, hc, by simp⟩, hmeets.snoc ?_⟩
      intro t l hl x hx
      cases hbs.symm.trans hl
      rw [hclaim] at hx
      cases hx

end Asked

section Progress

variable {n : Net S σ ρ α τ}

/-- What the server can do on its own it can do in the network. -/
theorem exec_server {bs : List (Action ρ ι)} {s : System S σ ρ α} {evs : List (Event ρ α ε)}
    (h : (machine E handler).exec n.server bs = some (s, evs)) :
    (net E handler C).exec n (bs.map .server) = some ({ n with server := s }, evs.map .inl) := by
  induction bs generalizing n evs with
  | nil =>
    obtain ⟨rfl, rfl⟩ := Machine.exec_nil.mp h
    rfl
  | cons b bs ih =>
    obtain ⟨t, evs₁, rest, hs, hrest, rfl⟩ := Machine.exec_cons.mp h
    have hstep : (net E handler C).step n (.server b) =
        some ({ n with server := t }, evs₁.map .inl) := Option.map_eq_some_iff.mpr ⟨_, hs, rfl⟩
    rw [List.map_cons, List.map_append]
    exact Machine.exec_cons.mpr ⟨_, _, _, hstep, ih (n := { n with server := t }) hrest, rfl⟩

lemma step_client {b : A} {c : τ} {evs : List ε'} (hclaim : C.claim n.clients b = none)
    (hc : C.client.step n.clients b = some (c, evs)) :
    (net E handler C).step n (.client b) = some ({ n with
      clients := c
      pending := n.pending.filter (fun p => !C.moves b p.1) }, evs.map .inr) := by
  simp only [net, hclaim, Option.isNone_none, ↓reduceIte, Clients.act, hc, Option.map_some]

lemma lookup_filter_moves {i : ℕ} {b : A} (hi : C.moves b i = true) (pending : List (ℕ × ℕ)) :
    (pending.filter (fun p => !C.moves b p.1)).lookup i = none := by
  rw [List.lookup_eq_none_iff]
  intro p hp
  obtain ⟨-, hmoves⟩ := pending_filter hp
  rw [bne_iff_ne]
  rintro rfl
  rw [hi] at hmoves
  cases hmoves

/-- A client that waits for a request gets the answer that the server gives when it is left alone
with it. -/
theorem net_ask {i : ℕ} {r : ρ} (inp' : ι') (hwants : C.wants n.clients i = some r)
    (hfree : n.pending.lookup i = none) {inp : ι} {s : σ} {a : α} {evs : List ε}
    (hrun : Prog.run E n.server.tasks.length inp n.server.shared (handler r) = some (s, a, evs))
    {c : τ} {evs' : List ε'}
    (hc : C.client.step n.clients (C.deliver i inp' (n.server.tasks.length, r, a)) = some (c, evs')) :
    ∃ as tr, (net E handler C).exec n as = some (⟨⟨s, n.server.tasks ++ [⟨r, .finished a⟩]⟩, c,
      n.pending.filter (fun p => !C.moves (C.deliver i inp' (n.server.tasks.length, r, a)) p.1)⟩, tr) ∧
      (∀ b ∈ as, ∀ x ∈ b.serverInputs, x = inp) ∧ lefts tr = .arrived n.server.tasks.length r ::
        (evs.map (.did n.server.tasks.length) ++ [.responded n.server.tasks.length a]) := by
  set v := n.server.tasks.length with hv
  obtain ⟨k, hpolls⟩ := exec_run handler r hrun
  set s₁ : System S σ ρ α := ⟨n.server.shared, n.server.tasks ++ [⟨r, .running (handler r)⟩]⟩ with hs₁
  set s₂ : System S σ ρ α := ⟨s, n.server.tasks ++ [⟨r, .finished a⟩]⟩ with hs₂
  have hsend : (net E handler C).step n (.send i) =
      some ({ n with server := s₁, pending := (i, v) :: n.pending }, [.inl (.arrived v r)]) := by
    simp only [net, hwants, hfree, machine, Option.map_some, List.map_cons, List.map_nil]
    rfl
  have hserver := exec_server (C := C) (n := { n with server := s₁, pending := (i, v) :: n.pending })
    hpolls
  have hdeliver : (net E handler C).step { n with server := s₂, pending := (i, v) :: n.pending }
      (.deliver i inp') = some (⟨s₂, c, n.pending.filter
        (fun p => !C.moves (C.deliver i inp' (v, r, a)) p.1)⟩, evs'.map .inr) := by
    have hlookup : List.lookup i ((i, v) :: n.pending) = some v := by
      rw [List.lookup_cons, beq_self_eq_true]
    have hdone : s₂.tasks[v]? = some ⟨r, .finished a⟩ := List.getElem?_concat_length
    simp only [net, hlookup, hdone, Clients.act, hc, Option.map_some, List.filter_cons,
      C.moves_deliver, Bool.not_true, Bool.false_eq_true, ↓reduceIte]
  refine ⟨[.send i] ++ ((List.replicate k (.poll v inp)).map .server ++ [.deliver i inp']), _,
    Machine.exec_append.mpr ⟨_, _, _, Machine.exec_cons.mpr ⟨_, _, _, hsend,
      Machine.exec_nil.mpr ⟨rfl, rfl⟩, rfl⟩, Machine.exec_snoc.mpr ⟨_, _, _, hserver, hdeliver, rfl⟩,
      rfl⟩, ?_, ?_⟩
  · intro b hb x hx
    simp only [List.mem_append, List.mem_cons, List.mem_map, List.mem_replicate, List.not_mem_nil,
      or_false] at hb
    rcases hb with rfl | ⟨b, ⟨-, rfl⟩, rfl⟩ | rfl
    · cases hx
    · exact List.mem_singleton.mp hx
    · cases hx
  · simp only [lefts_append, lefts_map_inl, lefts_map_inr, List.append_nil]
    rfl

end Progress

end Tasks
