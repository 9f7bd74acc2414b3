import SecureNet.Chaos
import SecureNet.Library.SoloRuns

/-!
# Readiness through the chaos middleware

Each wrapper owns the instance that it polls, and the future of a call the one that the call swapped
out. No instance has two owners, so what a wrapper has heard of its instance is still true when the
instance is called.
-/

namespace SecureNet

open EventMachine Readiness Tasks Tasks.Prog

/-- A poll of the wrapper returned `Ready`, and the wrapper was not called since. -/
abbrev WrapperReady (tr : ChaosTrace) (w : ℕ) : Prop := Armed (Event.effect wrapperSignal) tr w

abbrev InstanceReady (tr : ChaosTrace) (i : ℕ) : Prop := Armed (Event.effect instanceSignal) tr i

inductive Holder
  | wrapper (w : ℕ)
  | call (k : ℕ)

def Owns (tr : ChaosTrace) (s : Tower) (i : ℕ) : Holder → Prop
  | .wrapper w => ∃ self, s.wrappers[w]? = some self ∧ self.inner = i
  | .call k => ∃ w config, .called w (.block config i) ∈ history k tr

/-- The holders that may still call what they own. -/
def MayCall (tr : ChaosTrace) : Holder → Prop
  | .wrapper w => WrapperReady tr w
  | .call k => innerCalls (history k tr) = []

lemma mayCall_call {tr : ChaosTrace} {k : ℕ} :
    MayCall tr (.call k) ↔ innerCalls (history k tr) = [] := Iff.rfl

structure Held (tr : ChaosTrace) (s : Tower) : Prop where
  below : ∀ {i x}, Owns tr s i x → i < s.instances
  unique : ∀ {i x y}, Owns tr s i x → Owns tr s i y → x = y
  ready : ∀ {i x}, Owns tr s i x → MayCall tr x → InstanceReady tr i
  known : ∀ {w}, WrapperReady tr w → w < s.wrappers.length

variable {tr : ChaosTrace} {s : Tower} {k w i : ℕ} {self : ChaosMiddleware}

section Events

variable {e : Event ChaosRequest ChaosAnswer ChaosEvent} {x : Holder}

lemma mem_history_snoc {j : ℕ} {e' : ChaosEvent} :
    e' ∈ history j (tr ++ [e]) ↔ e' ∈ history j tr ∨ e = .did j e' := by
  rw [mem_history, mem_history, List.mem_append, List.mem_singleton]
  exact or_congr_right eq_comm

/-- The events but those of a call that swaps the instance out hand nothing over. -/
lemma owns_snoc (he : ∀ k w config i, e ≠ .did k (.called w (.block config i))) :
    Owns (tr ++ [e]) s i x ↔ Owns tr s i x := by
  cases x with
  | wrapper w => exact Iff.rfl
  | call j =>
    constructor
    · rintro ⟨w, config, hcalled⟩
      obtain hold | hnew := mem_history_snoc.mp hcalled
      · exact ⟨w, config, hold⟩
      · exact absurd hnew (he j w config i)
    · rintro ⟨w, config, hcalled⟩
      exact ⟨w, config, mem_history_snoc.mpr (.inl hcalled)⟩

lemma mayCall_snoc (he : ∀ w, x = .wrapper w → e.effect wrapperSignal ≠ some (w, .ready))
    (hx : MayCall (tr ++ [e]) x) : MayCall tr x := by
  cases x with
  | wrapper w => exact armed_of_snoc (he w rfl) hx
  | call j =>
    rw [mayCall_call, history_append, innerCalls, List.filterMap_append] at hx
    exact (List.append_eq_nil_iff.mp hx).1

/-- An event keeps the owners apart if it hands nothing over, and what it calls has no owner that
may call it again. -/
lemma Held.snoc (h : Held tr s) (he : ∀ k w config i, e ≠ .did k (.called w (.block config i)))
    (hwrapper : ∀ w, e.effect wrapperSignal ≠ some (w, .ready))
    (hcalled : ∀ i x, e.effect instanceSignal = some (i, .called) → Owns tr s i x →
      ¬MayCall (tr ++ [e]) x) : Held (tr ++ [e]) s := by
  constructor
  · intro i x hx
    exact h.below ((owns_snoc he).mp hx)
  · intro i x y hx hy
    exact h.unique ((owns_snoc he).mp hx) ((owns_snoc he).mp hy)
  · intro i x hx hmay
    have hold := (owns_snoc he).mp hx
    apply armed_snoc
    · intro hi
      exact hcalled i x hi hold hmay
    · exact h.ready hold (mayCall_snoc (fun w _ => hwrapper w) hmay)
  · intro w hready
    exact h.known (armed_of_snoc (hwrapper w) hready)

end Events

/-- What was owned may get another owner, and the new instance has its first one. -/
lemma Held.handOver {tr' : ChaosTrace} {t : Tower} (h : Held tr s) (f : Holder → Holder)
    (first : Holder) (hinstances : t.instances = s.instances + 1)
    (howns : ∀ {i x}, Owns tr' t i x →
      (x = first ∧ i = s.instances) ∨ ∃ y, Owns tr s i y ∧ x = f y)
    (hfirst : ¬MayCall tr' first)
    (hready : ∀ {i y}, Owns tr s i y → MayCall tr' (f y) → InstanceReady tr' i)
    (hknown : ∀ {w}, WrapperReady tr' w → w < t.wrappers.length) : Held tr' t := by
  constructor
  · intro i x hx
    rw [hinstances]
    obtain ⟨-, rfl⟩ | ⟨y, hy, -⟩ := howns hx
    · exact Nat.lt_succ_self _
    · exact Nat.lt_succ_of_lt (h.below hy)
  · have hfresh : ∀ {y}, ¬Owns tr s s.instances y := fun hy => absurd (h.below hy) (Nat.lt_irrefl _)
    intro i x x' hx hx'
    obtain ⟨rfl, rfl⟩ | ⟨y, hy, rfl⟩ := howns hx <;> obtain ⟨rfl, hi⟩ | ⟨y', hy', rfl⟩ := howns hx'
    · rfl
    · exact absurd hy' hfresh
    · exact absurd (hi ▸ hy) hfresh
    · rw [h.unique hy hy']
  · intro i x hx hmay
    obtain ⟨rfl, -⟩ | ⟨y, hy, rfl⟩ := howns hx
    · exact absurd hmay hfirst
    · exact hready hy hmay
  · exact hknown

/-- The wrapper of a layer or of a clone, with an instance of its own. -/
lemma Held.add (h : Held tr s) (hself : self.inner = s.instances) :
    Held tr ⟨s.wrappers ++ [self], s.instances + 1⟩ := by
  apply h.handOver id (.wrapper s.wrappers.length) rfl
  · intro i x hx
    cases x with
    | call j => exact .inr ⟨.call j, hx, rfl⟩
    | wrapper w =>
      obtain ⟨self', hget, hinner⟩ := hx
      rw [List.getElem?_append] at hget
      split at hget
      · exact .inr ⟨.wrapper w, ⟨self', hget, hinner⟩, rfl⟩
      · rw [List.getElem?_singleton] at hget
        split at hget
        · cases hget
          have hlength : w = s.wrappers.length := by omega
          rw [hlength]
          exact .inl ⟨rfl, hinner.symm.trans hself⟩
        · cases hget
  · exact fun hready => absurd (h.known hready) (Nat.lt_irrefl _)
  · exact h.ready
  · intro w hw
    rw [List.length_append]
    exact Nat.lt_add_right 1 (h.known hw)

/-- `poll_ready` of a wrapper. -/
lemma Held.polled (h : Held tr s) (hget : s.wrappers[w]? = some self) (r : PollReady) :
    Held (tr ++ [.did k (.polled w self.inner r)]) s := by
  cases r with
  | pending | failed error =>
    exact h.snoc (by simp) (by simp [wrapperSignal])
      (by simp [instanceSignal])
  | ready =>
    have he : ∀ k' w' config i, (Event.did k (.polled w self.inner .ready) :
        Event ChaosRequest ChaosAnswer ChaosEvent) ≠ .did k' (.called w' (.block config i)) := by
      simp
    constructor
    · intro i x hx
      exact h.below ((owns_snoc he).mp hx)
    · intro i x y hx hy
      exact h.unique ((owns_snoc he).mp hx) ((owns_snoc he).mp hy)
    · intro i x hx hmay
      have hold := (owns_snoc he).mp hx
      by_cases hi : i = self.inner
      · rw [hi]
        exact armed_ready rfl
      · apply armed_snoc (by simp [instanceSignal])
        apply h.ready hold (mayCall_snoc _ hmay)
        rintro w' rfl hw
        cases hw
        obtain ⟨self', hget', rfl⟩ := hold
        rw [hget] at hget'
        cases hget'
        exact hi rfl
    · intro w' hready
      by_cases hw : w' = w
      · rw [hw]
        exact (List.getElem?_eq_some_iff.mp hget).1
      · apply h.known (armed_of_snoc _ hready)
        simp [wrapperSignal, Ne.symm hw]

/-- A wrapper without chaos calls the instance that it owns, and keeps it. -/
lemma Held.direct (h : Held tr s) (hget : s.wrappers[w]? = some self) :
    Held (tr ++ [.did k (.called w (.direct self.inner))] ++ [.did k (.innerCalled self.inner)]) s := by
  have hcall : Held (tr ++ [.did k (.called w (.direct self.inner))]) s :=
    h.snoc (by simp) (by simp [wrapperSignal]) (by simp [instanceSignal])
  have hspent : ¬WrapperReady (tr ++ [.did k (.called w (.direct self.inner))]) w :=
    not_armed_called rfl
  apply hcall.snoc (by simp) (by simp [wrapperSignal])
  intro i x hi hx hmay
  cases hi
  have howner : Owns (tr ++ [.did k (.called w (.direct self.inner))]) s self.inner (.wrapper w) :=
    ⟨self, hget, rfl⟩
  obtain rfl : x = .wrapper w := hcall.unique hx howner
  exact hspent (mayCall_snoc (fun _ _ => by simp [wrapperSignal]) hmay)

/-- Call `k` takes over what wrapper `w` owns. -/
def swapped (w k : ℕ) : Holder → Holder
  | .wrapper w' => if w' = w then .call k else .wrapper w'
  | .call j => .call j

/-- A wrapper with chaos hands the instance that it owns to the future of call `k`, and goes on with
a new one. -/
lemma Held.block (h : Held tr s) (hget : s.wrappers[w]? = some self)
    (hready : InstanceReady tr self.inner) :
    Held (tr ++ [.did k (.called w (.block self.config self.inner))])
      ⟨s.wrappers.set w { self with inner := s.instances }, s.instances + 1⟩ := by
  have howner : Owns tr s self.inner (.wrapper w) := ⟨self, hget, rfl⟩
  apply h.handOver (swapped w k) (.wrapper w) rfl
  · intro i x hx
    cases x with
    | wrapper w' =>
      obtain ⟨self', hget', rfl⟩ := hx
      by_cases hw : w' = w
      · rw [hw, List.getElem?_set_self (List.getElem?_eq_some_iff.mp hget).1] at hget'
        cases hget'
        exact .inl ⟨congrArg _ hw, rfl⟩
      · rw [List.getElem?_set_ne (Ne.symm hw)] at hget'
        exact .inr ⟨.wrapper w', ⟨self', hget', rfl⟩, (if_neg hw).symm⟩
    | call j =>
      obtain ⟨w', config, hcalled⟩ := hx
      obtain hold | hcall := mem_history_snoc.mp hcalled
      · exact .inr ⟨.call j, ⟨w', config, hold⟩, rfl⟩
      · cases hcall
        exact .inr ⟨.wrapper w, howner, (if_pos rfl).symm⟩
  · exact not_armed_called rfl
  · intro i y hy hmay
    apply armed_snoc (by simp [instanceSignal])
    by_cases hw : y = .wrapper w
    · rw [hw] at hy
      obtain ⟨self', hget', rfl⟩ := hy
      rw [hget] at hget'
      cases hget'
      exact hready
    · have hsame : swapped w k y = y := by
        cases y with
        | wrapper w' => exact if_neg fun hw' => hw (congrArg _ hw')
        | call j => rfl
      rw [hsame] at hmay
      exact h.ready hy (mayCall_snoc (fun _ _ => by simp [wrapperSignal]) hmay)
  · intro w' hw'
    rw [List.length_set]
    exact h.known (armed_of_snoc (by simp [wrapperSignal]) hw')

lemma Held.grow (h : Held tr s) : Held tr ⟨s.wrappers, s.instances + 1⟩ :=
  ⟨fun hx => Nat.lt_succ_of_lt (h.below hx), h.unique, h.ready, h.known⟩

/-- The future of call `k` calls the instance that it owns. -/
lemma Held.callInner (h : Held tr s) (howns : Owns tr s i (.call k)) :
    Held (tr ++ [.did k (.innerCalled i)]) s := by
  apply h.snoc (by simp) (by simp [wrapperSignal])
  intro j x hj hx hmay
  cases hj
  obtain rfl : x = .call k := h.unique hx howns
  rw [mayCall_call, history_append, history_did_cons, if_pos rfl] at hmay
  simp [innerCalls, List.filterMap_append] at hmay

lemma disciplined_did {f : ChaosEvent → Option (ℕ × Signal)} {e : ChaosEvent} :
    Disciplined (Event.effect f) (tr ++ [.did k e]) ↔ Disciplined (Event.effect f) tr ∧
      ∀ i, f e = some (i, .called) → Armed (Event.effect f) tr i := disciplined_snoc

/-- The call of a wrapper that has reported ready. -/
lemma held_call (h : Held tr s) (hinner : Disciplined (Event.effect instanceSignal) tr)
    {inp : ChaosInput} {t : Tower} {future : ChaosFuture} {evs : List ChaosEvent}
    (hr : s.reply (.call w) inp = some (t, future, evs))
    (houter : Disciplined (Event.effect wrapperSignal) (tr ++ evs.map (.did k))) :
    Held (tr ++ evs.map (.did k)) t ∧
      Disciplined (Event.effect instanceSignal) (tr ++ evs.map (.did k)) := by
  obtain ⟨self, hget, rfl, rfl, rfl⟩ := reply_call inp hr
  have howner : Owns tr s self.inner (.wrapper w) := ⟨self, hget, rfl⟩
  obtain hcall | hcall := call_cases self s.instances
  · have hsame : s.wrappers.set w self = s.wrappers := by
      obtain ⟨hlt, hself⟩ := List.getElem?_eq_some_iff.mp hget
      rw [← hself, List.set_getElem_self]
    have hsplit : ∀ e e' : ChaosEvent, tr ++ [e, e'].map (Event.did k) =
        tr ++ [.did k e] ++ [.did k e'] := by simp
    rw [hcall] at houter ⊢
    simp only [Tower.innerCalled, hsplit, hsame] at houter ⊢
    have hready : WrapperReady tr w :=
      (disciplined_did.mp houter.append_left).2 w rfl
    refine ⟨(h.direct hget).grow, disciplined_did.mpr ⟨disciplined_did.mpr ⟨hinner, ?_⟩, ?_⟩⟩
    · intro i hi
      cases hi
    · intro i hi
      cases hi
      exact armed_snoc (by simp [instanceSignal]) (h.ready howner hready)
  · rw [hcall] at houter ⊢
    have hready : WrapperReady tr w := (disciplined_did.mp houter).2 w rfl
    have hinst : InstanceReady tr self.inner := h.ready howner hready
    refine ⟨h.block hget hinst, disciplined_did.mpr ⟨hinner, ?_⟩⟩
    intro i hi
    cases hi

/-- What a reply does to the owners, where the wrapper that is called has reported ready. -/
lemma held_reply (h : Held tr s) (hinner : Disciplined (Event.effect instanceSignal) tr)
    {r : ChaosRequest} {o : ChaosOp} {inp : ChaosInput} {t : Tower} {rep : chaosSig.Reply o}
    {evs : List ChaosEvent} (hrule : ChaosRule r (history k tr) o)
    (hr : s.reply o inp = some (t, rep, evs))
    (houter : Disciplined (Event.effect wrapperSignal) (tr ++ evs.map (.did k))) :
    Held (tr ++ evs.map (.did k)) t ∧
      Disciplined (Event.effect instanceSignal) (tr ++ evs.map (.did k)) := by
  cases o with
  | layer l =>
    cases hr
    rw [List.map_nil, List.append_nil]
    exact ⟨h.add rfl, hinner⟩
  | clone w =>
    obtain ⟨self, -, heq⟩ := Option.map_eq_some_iff.mp hr
    cases heq
    rw [List.map_nil, List.append_nil]
    exact ⟨h.add rfl, hinner⟩
  | pollReady w =>
    obtain ⟨self, hget, heq⟩ := Option.map_eq_some_iff.mp hr
    cases heq
    refine ⟨h.polled hget inp.ready, disciplined_did.mpr ⟨hinner, ?_⟩⟩
    intro i hi
    cases hready : inp.ready <;> simp [instanceSignal, hready] at hi
  | call w => exact held_call h hinner hr houter
  | warn fault =>
    cases hr
    have hheld : Held (tr ++ [.did k (.injected fault)]) s := h.snoc (by simp)
      (by simp [wrapperSignal]) (by simp [instanceSignal])
    refine ⟨hheld, disciplined_did.mpr ⟨hinner, ?_⟩⟩
    intro i hi
    cases hi
  | callInner i =>
    cases hr
    obtain ⟨hnone, howns⟩ := hrule
    refine ⟨h.callInner howns, disciplined_did.mpr ⟨hinner, ?_⟩⟩
    intro j hj
    cases hj
    exact h.ready (x := .call k) howns hnone
  | firstPoll | gen | genRange min max | sleep ms | awaitInner =>
    obtain ⟨rfl, rfl⟩ := reply_quiet rfl hr
    rw [List.map_nil, List.append_nil]
    exact ⟨h, hinner⟩

lemma held_start : Held [] ⟨[], 0⟩ := by
  have hnone : ∀ i x, ¬Owns [] ⟨[], 0⟩ i x := by
    intro i x hx
    cases x with
    | wrapper w =>
      obtain ⟨self, hget, -⟩ := hx
      simp at hget
    | call k =>
      obtain ⟨w, config, hcalled⟩ := hx
      cases hcalled
  exact ⟨fun hx => absurd hx (hnone _ _), fun hx => absurd hx (hnone _ _),
    fun hx => absurd hx (hnone _ _), fun hready => absurd hready not_armed_nil⟩

section Idle

variable {e : Event ChaosRequest ChaosAnswer ChaosEvent}

lemma other_signal (he : ∀ k e', e ≠ .did k e') {f : ChaosEvent → Option (ℕ × Signal)} (i : ℕ)
    (y : Signal) : Event.effect f e ≠ some (i, y) := by
  cases e with
  | did k e' => exact absurd rfl (he k e')
  | _ => simp [Event.effect]

/-- An event that no call of a task causes. -/
lemma Held.idle (h : Held tr s) (he : ∀ k e', e ≠ .did k e') : Held (tr ++ [e]) s :=
  h.snoc (fun k _ _ _ => he k _) (fun w => other_signal he w _)
    (fun i _ hi => absurd hi (other_signal he i _))

lemma disciplined_idle (he : ∀ k e', e ≠ .did k e') {f : ChaosEvent → Option (ℕ × Signal)}
    (h : Disciplined (Event.effect f) tr) : Disciplined (Event.effect f) (tr ++ [e]) :=
  disciplined_snoc.mpr ⟨h, fun i hi => absurd hi (other_signal he i _)⟩

lemma idle_other (he : e.Idle) (k : ℕ) (e' : ChaosEvent) : e ≠ .did k e' := by
  rintro rfl
  exact he

end Idle

section Runs

variable {as : List (Action ChaosRequest ChaosInput)}
  {sys : System chaosSig Tower ChaosRequest ChaosAnswer}

/-- Where every call of a wrapper follows a `Ready` of its own, so does every call of an
instance. -/
lemma exec_held (hrun : chaosTower.exec ⟨⟨[], 0⟩, []⟩ as = some (sys, tr))
    (hready : Disciplined (Event.effect wrapperSignal) tr) :
    Held tr sys.shared ∧ Disciplined (Event.effect instanceSignal) tr := by
  refine exec_called (Q := ChaosPost) (I := fun tr s => Disciplined (Event.effect wrapperSignal) tr →
    Held tr s ∧ Disciplined (Event.effect instanceSignal) tr) ?_ chaosHandler_calls
    chaos_cancel_quiet ?_ ?_ ?_ hrun hready
  · intro _
    exact ⟨held_start, disciplined_nil⟩
  · intro tr s e he ih hall
    obtain ⟨hheld, hinner⟩ := ih hall.append_left
    exact ⟨hheld.idle (idle_other he), disciplined_idle (idle_other he) hinner⟩
  · intro tr s k r o inp t rep evs _ hrule ih hr hall
    obtain ⟨hheld, hinner⟩ := ih hall.append_left
    exact held_reply hheld hinner hrule hr hall
  · intro tr s inp ih hall
    obtain ⟨hheld, hinner⟩ := ih hall.append_left
    exact ⟨hheld.idle (by simp), disciplined_idle (by simp) hinner⟩

/-- A layer with this configuration was put on a service. -/
def Layered (tr : ChaosTrace) (config : ChaosConfig) : Prop :=
  ∃ k, Event.arrived k (.layer ⟨config⟩) ∈ tr

lemma Layered.append {config : ChaosConfig} (h : Layered tr config) (m : ChaosTrace) :
    Layered (tr ++ m) config := by
  obtain ⟨k, hk⟩ := h
  exact ⟨k, List.mem_append_left m hk⟩

structure FromLayers (tr : ChaosTrace) (s : Tower) : Prop where
  wrappers : ∀ self ∈ s.wrappers, Layered tr self.config
  futures : ∀ k w config i, .did k (.called w (.block config i)) ∈ tr → Layered tr config

lemma FromLayers.append {t : Tower} {m : ChaosTrace} (h : FromLayers tr s)
    (hwrappers : ∀ self ∈ t.wrappers, Layered tr self.config)
    (hfutures : ∀ k w config i, .did k (.called w (.block config i)) ∈ m → Layered tr config) :
    FromLayers (tr ++ m) t := by
  constructor
  · intro self hself
    exact (hwrappers self hself).append m
  · intro k w config i hcalled
    obtain hold | hnew := List.mem_append.mp hcalled
    · exact (h.futures k w config i hold).append m
    · exact (hfutures k w config i hnew).append m

lemma layers_reply (h : FromLayers tr s) {r : ChaosRequest} (harrived : .arrived k r ∈ tr)
    {o : ChaosOp} {inp : ChaosInput} {t : Tower} {rep : chaosSig.Reply o} {evs : List ChaosEvent}
    (hrule : ChaosRule r (history k tr) o) (hr : s.reply o inp = some (t, rep, evs)) :
    FromLayers (tr ++ evs.map (.did k)) t := by
  cases o with
  | layer l =>
    obtain ⟨rfl, -⟩ := hrule
    cases hr
    apply h.append _ (by simp)
    intro self hself
    obtain hself | hself := List.mem_append.mp hself
    · exact h.wrappers self hself
    · rw [List.mem_singleton.mp hself]
      exact ⟨k, harrived⟩
  | clone w =>
    obtain ⟨self, hget, heq⟩ := Option.map_eq_some_iff.mp hr
    cases heq
    apply h.append _ (by simp)
    intro self' hself
    obtain hself | hself := List.mem_append.mp hself
    · exact h.wrappers self' hself
    · rw [List.mem_singleton.mp hself]
      exact h.wrappers self (List.mem_of_getElem? hget)
  | pollReady w =>
    obtain ⟨self, -, heq⟩ := Option.map_eq_some_iff.mp hr
    cases heq
    exact h.append h.wrappers (by simp)
  | call w =>
    obtain ⟨self, hget, rfl, rfl, rfl⟩ := reply_call inp hr
    have hself := h.wrappers self (List.mem_of_getElem? hget)
    apply h.append
    · intro self' hself'
      obtain hmem | rfl := List.mem_or_eq_of_mem_set hself'
      · exact h.wrappers self' hmem
      · rw [call_config]
        exact hself
    · intro k' w' config i hcalled
      obtain ⟨e, he, hdid⟩ := List.mem_map.mp hcalled
      cases hdid
      rw [block_config (called_of_mem he).symm]
      exact hself
  | warn fault | callInner i =>
    cases hr
    exact h.append h.wrappers (by simp)
  | firstPoll | gen | genRange min max | sleep ms | awaitInner =>
    obtain ⟨rfl, rfl⟩ := reply_quiet rfl hr
    rw [List.map_nil, List.append_nil]
    exact h

lemma exec_layers (hrun : chaosTower.exec ⟨⟨[], 0⟩, []⟩ as = some (sys, tr)) :
    FromLayers tr sys.shared := by
  refine exec_called (Q := ChaosPost) (I := FromLayers) ⟨by simp, by simp⟩ chaosHandler_calls
    chaos_cancel_quiet ?_ ?_ ?_ hrun
  · intro tr s e he h
    exact h.append h.wrappers (by rintro k w config i (_ | ⟨_, ⟨⟩⟩); exact he.elim)
  · intro tr s k r o inp t rep evs harrived hrule h hr
    exact layers_reply h harrived hrule hr
  · intro tr s inp h
    exact h.append h.wrappers (by simp)

/-- The layers of a run have configurations of `from_env`. -/
def LayersFromEnv (as : List (Action ChaosRequest ChaosInput)) : Prop :=
  ∀ layer, Action.arrive (.layer layer) ∈ as → ∃ parse env, layer = ChaosLayer.fromEnv parse env

/-- The future of such a layer draws its delay from 100 to 500 ms. -/
lemma exec_fromEnv (hrun : chaosTower.exec ⟨⟨[], 0⟩, []⟩ as = some (sys, tr))
    (hlayers : LayersFromEnv as) {config : ChaosConfig}
    (hcalled : .did k (.called w (.block config i)) ∈ tr) :
    config.delayMinMs = 100 ∧ config.delayMaxMs = 500 := by
  obtain ⟨j, hj⟩ := (exec_layers hrun).futures k w config i hcalled
  obtain ⟨parse, env, hlayer⟩ := hlayers _ (arrived_arrive hrun hj)
  have hconfig : config = ChaosConfig.fromEnv parse env := congrArg ChaosLayer.config hlayer
  rw [hconfig]
  exact ⟨rfl, rfl⟩

/-- The future that call `k` has returned can be polled to its end. -/
def CanFinish (sys : System chaosSig Tower ChaosRequest ChaosAnswer) (k : ℕ) : Prop :=
  ∃ inp n t tr r a, chaosTower.exec sys (List.replicate n (.poll k inp)) = some (t, tr) ∧
    t.tasks[k]? = some ⟨r, .finished a⟩

def shortestDelay : ChaosInput where
  ready := .ready
  draw := .finite 0
  ms := 100
  result := .ok ⟨StatusCode.ok, "ok"⟩

lemma exec_canFinish (hrun : chaosTower.exec ⟨⟨[], 0⟩, []⟩ as = some (sys, tr))
    (hlayers : LayersFromEnv as) {p : ChaosTask}
    (hk : sys.tasks[k]? = some ⟨.call w, .running p⟩) {future : ChaosFuture}
    (hcalled : .did k (.called w future) ∈ tr) : CanFinish sys k := by
  have hserved : ∀ n t tr' o f,
      chaosTower.exec sys (List.replicate n (.poll k shortestDelay)) = some (t, tr') →
      t.tasks[k]? = some ⟨.call w, .running (.call o f)⟩ →
      chaosEnv.reply t.shared k o shortestDelay ≠ none := by
    intro n t tr' o f hpolls ht hnone
    have hall : chaosTower.exec ⟨⟨[], 0⟩, []⟩ (as ++ List.replicate n (.poll k shortestDelay)) =
        some (t, tr ++ tr') := Machine.exec_append.mpr ⟨sys, tr, tr', hrun, hpolls, rfl⟩
    have hpollsOnly : LayersFromEnv (as ++ List.replicate n (.poll k shortestDelay)) := by
      intro layer hlayer
      obtain hlayer | hlayer := List.mem_append.mp hlayer
      · exact hlayers layer hlayer
      · cases List.eq_of_mem_replicate hlayer
    have hobeys : Obeys chaosEnv ChaosRule ChaosPost (history k (tr ++ tr'))
        ⟨.call w, .running (.call o f)⟩ := (exec_calls chaosHandler_calls hall).1 k _ ht
    have hrule : ChaosRule (.call w) (history k (tr ++ tr')) o := hobeys.1
    have hmem : ChaosEvent.called w future ∈ history k (tr ++ tr') :=
      mem_history.mpr (List.mem_append_left _ hcalled)
    cases o with
    | layer l | clone w' | pollReady w' => cases hrule.1
    | call w' =>
      rw [hrule.2] at hmem
      cases hmem
    | genRange min max =>
      obtain ⟨-, w', config, i, hblock, rfl, rfl⟩ := hrule
      obtain ⟨hmin, hmax⟩ := exec_fromEnv hall hpollsOnly (mem_history.mp hblock)
      simp [chaosEnv, Tower.reply, hmin, hmax, shortestDelay] at hnone
    | _ => cases hnone
  obtain ⟨n, t, tr', a, hpolls, ht⟩ := polls_finish hk hserved
  exact ⟨shortestDelay, n, t, tr', _, a, hpolls, ht⟩

/-- The contract of readiness passes through the middleware. Each call of a wrapper answers 503
without a call of the wrapped service, or makes one call, of an instance that has reported ready and
was not called since. -/
theorem chaos_calls_ready (hrun : chaosTower.exec ⟨⟨[], 0⟩, []⟩ as = some (sys, tr))
    (hlayers : LayersFromEnv as) (hready : Disciplined (Event.effect wrapperSignal) tr) :
    Disciplined (Event.effect instanceSignal) tr ∧
      ∀ k w status, sys.tasks[k]? = some ⟨.call w, status⟩ →
        (innerCalls (history k tr)).length ≤ 1 ∧
        (∀ a, status = .finished a →
          (a = .response (.ok chaosDrop) ∧ innerCalls (history k tr) = []) ∨
            ∃ r i, a = .response r ∧ innerCalls (history k tr) = [i]) ∧
        ∀ p future, status = .running p → .did k (.called w future) ∈ tr → CanFinish sys k := by
  refine ⟨(exec_held hrun hready).2, ?_⟩
  intro k w status hk
  have hsafe : ∀ r, Safe chaosEnv (fun _ _ _ => True) (fun h => (innerCalls h).length ≤ 1)
      (ChaosPost r) (chaosHandler r) [] := by
    intro r
    exact (chaosHandler_calls r).safe (fun s k o inp t evs hc => (chaos_cancel_quiet s k o inp t evs
      hc).2) (fun _ _ hrule => hrule.length_le)
  have htracked := (exec_history (fun _ => Nat.zero_le 1) hsafe hrun (meets_true _ _)).1 k _ hk
  have hfinished : ∀ a, status = .finished a → ChaosOutcome (history k tr) a := by
    rintro a rfl
    exact htracked
  refine ⟨?_, ?_, ?_⟩
  · exact htracked.now (fun _ _ _ hpost => hpost.length_le)
  · intro a ha
    cases hfinished a ha with
    | dropped hnone => exact .inl ⟨rfl, hnone⟩
    | forwarded r i hone => exact .inr ⟨r, i, rfl, hone⟩
    | panicked w' config i _ hcalled hempty =>
      obtain ⟨hmin, hmax⟩ := exec_fromEnv hrun hlayers (mem_history.mp hcalled)
      omega
  · rintro p future rfl hcalled
    exact exec_canFinish hrun hlayers hk hcalled

end Runs

section Sample

/-- Every second request is dropped. -/
def sampleChaos : ChaosLayer :=
  ChaosLayer.fromEnv (fun text => if text = "0.5" then some (.finite (1 / 2)) else none)
    (fun var => if var = "CHAOS_DROP_P" then some "0.5" else none)

def drawing (draw : ℚ) : ChaosInput := { shortestDelay with draw := .finite draw }

/-- A wrapper is called and cloned. While the future of its call waits, the clone is called, and that
call is dropped. -/
def sampleTower : List (Action ChaosRequest ChaosInput) :=
  [.arrive (.layer sampleChaos), .poll 0 (drawing 0), .arrive (.pollReady 0), .poll 1 (drawing 0),
    .arrive (.call 0), .poll 2 (drawing 0), .arrive (.clone 0), .poll 3 (drawing 0),
    .arrive (.pollReady 1), .poll 4 (drawing 0), .arrive (.call 1)] ++
  List.replicate 6 (.poll 5 (drawing (1 / 4))) ++ List.replicate 6 (.poll 2 (drawing (3 / 4)))

end Sample

theorem chaos_calls_ready_sample :
    ∃ sys tr, chaosTower.exec ⟨⟨[], 0⟩, []⟩ sampleTower = some (sys, tr) ∧
      Disciplined (Event.effect instanceSignal) tr ∧ innerCalls (history 2 tr) = [0] ∧
      innerCalls (history 5 tr) = [] := by
  have hrun : (chaosTower.exec ⟨⟨[], 0⟩, []⟩ sampleTower).any (fun p => decide
      (Disciplined (Event.effect wrapperSignal) p.2 ∧ innerCalls (history 2 p.2) = [0] ∧
        innerCalls (history 5 p.2) = [])) = true := by
    decide +kernel
  obtain ⟨sys, tr, h, htest⟩ := Machine.exec_any hrun
  obtain ⟨hready, hforwarded, hdropped⟩ := of_decide_eq_true htest
  have hlayers : LayersFromEnv sampleTower := by
    intro layer hlayer
    have hsample : layer = sampleChaos := by simpa [sampleTower] using hlayer
    rw [hsample]
    exact ⟨_, _, rfl⟩
  exact ⟨sys, tr, h, (chaos_calls_ready h hlayers hready).1, hforwarded, hdropped⟩

end SecureNet
