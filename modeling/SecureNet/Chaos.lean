import Mathlib.Data.Rat.Defs
import SecureNet.Library.CallRules
import SecureNet.Library.Readiness
import SecureNet.Proxy

/-!
# Chaos injection

`shared/src/chaos.rs` with the clones of a middleware, which are polled and called in any order, and
the futures of their calls. The wrapped service is seen through its instances: each `clone` of it is
a new one, with a readiness of its own.
-/

namespace SecureNet

open EventMachine Readiness Tasks Tasks.Prog

/-- The values of an `f64`. The finite ones are rational, and the two zeros are one. -/
inductive F64
  | nan
  | negInf
  | finite (q : ℚ)
  | posInf
  deriving DecidableEq

namespace F64

def lt : F64 → F64 → Bool
  | .nan, _ => false
  | _, .nan => false
  | .finite p, .finite q => decide (p < q)
  | .negInf, y => y != .negInf
  | .finite _, y => y == .posInf
  | .posInf, _ => false

/-- NaN is not equal to itself. -/
def eq : F64 → F64 → Bool
  | .nan, _ => false
  | x, y => x == y

/-- NaN stays NaN. -/
def clamp (self min max : F64) : F64 :=
  let self := if self.lt min then min else self
  if max.lt self then max else self

end F64

structure ChaosConfig where
  delayP : F64
  dropP : F64
  delayMinMs : ℕ
  delayMaxMs : ℕ
  deriving DecidableEq

namespace ChaosConfig

def probability (parse : String → Option F64) (var : Option String) : F64 :=
  ((var.bind parse).getD (.finite 0)).clamp (.finite 0) (.finite 1)

/-- `env` is `std::env::var`, and `parse` reads an `f64`. -/
def fromEnv (parse : String → Option F64) (env : String → Option String) : ChaosConfig where
  delayP := probability parse (env "CHAOS_DELAY_P")
  dropP := probability parse (env "CHAOS_DROP_P")
  delayMinMs := 100
  delayMaxMs := 500

def isNoop (self : ChaosConfig) : Bool :=
  self.delayP.eq (.finite 0) && self.dropP.eq (.finite 0)

end ChaosConfig

/-- The wrapped service is given by the number of its instance. -/
structure ChaosMiddleware where
  inner : ℕ
  config : ChaosConfig
  deriving DecidableEq

structure ChaosLayer where
  config : ChaosConfig
  deriving DecidableEq

namespace ChaosLayer

def fromEnv (parse : String → Option F64) (env : String → Option String) : ChaosLayer :=
  ⟨ChaosConfig.fromEnv parse env⟩

def withConfig (config : ChaosConfig) : ChaosLayer := ⟨config⟩

def layer (self : ChaosLayer) (inner : ℕ) : ChaosMiddleware := ⟨inner, self.config⟩

end ChaosLayer

/-- What a call returns: the future of the inner call that it has made, or the async block with the
variables that it captures. -/
inductive ChaosFuture
  | direct (inner : ℕ)
  | block (config : ChaosConfig) (inner : ℕ)
  deriving DecidableEq

/-- `call` up to its return. `clone` is the instance that `self.inner.clone()` makes. -/
def ChaosMiddleware.call (self : ChaosMiddleware) (clone : ℕ) : ChaosMiddleware × ChaosFuture :=
  if self.config.isNoop then (self, .direct self.inner)
  else
    let inner := clone
    -- `std::mem::swap`
    let (selfInner, inner) := (inner, self.inner)
    ({ self with inner := selfInner }, .block self.config inner)

structure ChaosResponse where
  status : StatusCode
  body : String
  deriving DecidableEq

def chaosDrop : ChaosResponse where
  status := ⟨503, by decide⟩
  body := "\x7b\"error\":\"CHAOS_DROP\",\"message\":\"chaos fault injected\"\x7d"

inductive PollReady
  | pending
  | ready
  | failed (error : String)
  deriving DecidableEq

inductive Fault
  | drop
  | delay (ms : ℕ)
  deriving DecidableEq

inductive ChaosOp
  | layer (layer : ChaosLayer)
  | clone (wrapper : ℕ)
  | pollReady (wrapper : ℕ)
  | call (wrapper : ℕ)
  | firstPoll
  | gen
  | genRange (min max : ℕ)
  | warn (fault : Fault)
  | sleep (ms : ℕ)
  | callInner (inner : ℕ)
  | awaitInner

/-- `genRange` panics on an empty range, which is the reply `none`. -/
abbrev chaosSig : Signature where
  Op := ChaosOp
  Reply
    | .layer _ => Unit
    | .clone _ => Unit
    | .pollReady _ => PollReady
    | .call _ => ChaosFuture
    | .firstPoll => Unit
    | .gen => F64
    | .genRange _ _ => Option ℕ
    | .warn _ => Unit
    | .sleep _ => Unit
    | .callInner _ => Unit
    | .awaitInner => Except String ChaosResponse

inductive ChaosAnswer
  | done
  | polled (r : PollReady)
  | response (r : Except String ChaosResponse)
  | panicked
  deriving DecidableEq

abbrev ChaosTask := Prog chaosSig ChaosAnswer

namespace ChaosFuture

def forward (inner : ℕ) : ChaosTask := do
  let _ ← perform (S := chaosSig) (.callInner inner)
  let r : Except String ChaosResponse ← perform (S := chaosSig) .awaitInner
  return .response r

def run : ChaosFuture → ChaosTask
  | .direct _ => do
    let r : Except String ChaosResponse ← perform (S := chaosSig) .awaitInner
    return .response r
  | .block config inner => do
    let _ ← perform (S := chaosSig) .firstPoll
    let dropDraw : F64 ← perform (S := chaosSig) .gen
    let delayDraw : F64 ← perform (S := chaosSig) .gen
    let drawn : Option ℕ ← perform (S := chaosSig) (.genRange config.delayMinMs config.delayMaxMs)
    match drawn with
    | none => return .panicked
    | some delayMs =>
      if dropDraw.lt config.dropP then
        let _ ← perform (S := chaosSig) (.warn .drop)
        return .response (.ok chaosDrop)
      else if delayDraw.lt config.delayP then
        let _ ← perform (S := chaosSig) (.warn (.delay delayMs))
        let _ ← perform (S := chaosSig) (.sleep delayMs)
        forward inner
      else forward inner

end ChaosFuture

inductive ChaosRequest
  | layer (layer : ChaosLayer)
  | clone (wrapper : ℕ)
  | pollReady (wrapper : ℕ)
  | call (wrapper : ℕ)
  deriving DecidableEq

def chaosHandler : ChaosRequest → ChaosTask
  | .layer l => do
    let _ ← perform (S := chaosSig) (.layer l)
    return .done
  | .clone w => do
    let _ ← perform (S := chaosSig) (.clone w)
    return .done
  | .pollReady w => do
    let r : PollReady ← perform (S := chaosSig) (.pollReady w)
    return .polled r
  | .call w => do
    let future : ChaosFuture ← perform (S := chaosSig) (.call w)
    future.run

inductive ChaosEvent
  | polled (wrapper inner : ℕ) (r : PollReady)
  | called (wrapper : ℕ) (future : ChaosFuture)
  | injected (fault : Fault)
  | innerCalled (inner : ℕ)
  deriving DecidableEq

/-- The wrappers, and a number above those of all instances. -/
structure Tower where
  wrappers : List ChaosMiddleware
  instances : ℕ

structure ChaosInput where
  ready : PollReady
  draw : F64
  ms : ℕ
  result : Except String ChaosResponse

namespace Tower

/-- The inner call that a wrapper makes itself. -/
def innerCalled : ChaosFuture → List ChaosEvent
  | .direct inner => [.innerCalled inner]
  | .block _ _ => []

def reply (s : Tower) : (o : ChaosOp) → ChaosInput →
    Option (Tower × chaosSig.Reply o × List ChaosEvent)
  | .layer l, _ => some (⟨s.wrappers ++ [l.layer s.instances], s.instances + 1⟩, (), [])
  | .clone w, _ => s.wrappers[w]?.map fun self =>
    (⟨s.wrappers ++ [{ self with inner := s.instances }], s.instances + 1⟩, (), [])
  | .pollReady w, inp => s.wrappers[w]?.map fun self =>
    (s, inp.ready, [.polled w self.inner inp.ready])
  | .call w, _ => s.wrappers[w]?.map fun self =>
    let (self, future) := self.call s.instances
    (⟨s.wrappers.set w self, s.instances + 1⟩, future, .called w future :: innerCalled future)
  | .firstPoll, _ => some (s, (), [])
  | .gen, inp => some (s, inp.draw, [])
  | .genRange min max, inp =>
    if max < min then some (s, none, [])
    else if min ≤ inp.ms ∧ inp.ms ≤ max then some (s, some inp.ms, [])
    else none
  | .warn fault, _ => some (s, (), [.injected fault])
  | .sleep _, _ => some (s, (), [])
  | .callInner inner, _ => some (s, (), [.innerCalled inner])
  | .awaitInner, inp => some (s, inp.result, [])

/-- A future is dropped before its first poll or at an await. -/
def cancel (s : Tower) : ChaosOp → Option (Tower × List ChaosEvent)
  | .firstPoll => some (s, [])
  | .sleep _ => some (s, [])
  | .awaitInner => some (s, [])
  | _ => none

end Tower

def chaosEnv : Environment chaosSig Tower ChaosInput ChaosEvent where
  reply s _ o inp := s.reply o inp
  cancel s _ o _ := s.cancel o
  restart s _ := s

def chaosTower := machine chaosEnv chaosHandler

abbrev ChaosTrace := List (Event ChaosRequest ChaosAnswer ChaosEvent)

def wrapperSignal : ChaosEvent → Option (ℕ × Signal)
  | .polled w _ .ready => some (w, .ready)
  | .called w _ => some (w, .called)
  | _ => none

def instanceSignal : ChaosEvent → Option (ℕ × Signal)
  | .polled _ i .ready => some (i, .ready)
  | .innerCalled i => some (i, .called)
  | _ => none

section Programs

def innerCalls (h : List ChaosEvent) : List ℕ :=
  h.filterMap fun
    | .innerCalled i => some i
    | _ => none

/-- What the history of a task is when it makes a call. -/
def ChaosRule (r : ChaosRequest) (h : List ChaosEvent) : ChaosOp → Prop
  | .layer l => r = .layer l ∧ h = []
  | .clone w => r = .clone w ∧ h = []
  | .pollReady w => r = .pollReady w ∧ h = []
  | .call w => r = .call w ∧ h = []
  | .genRange min max => innerCalls h = [] ∧ ∃ w config i, .called w (.block config i) ∈ h ∧
      min = config.delayMinMs ∧ max = config.delayMaxMs
  | .callInner i => innerCalls h = [] ∧ ∃ w config, .called w (.block config i) ∈ h
  | .awaitInner => ∃ i, innerCalls h = [i]
  | _ => innerCalls h = []

/-- How the call of a wrapper ends. -/
inductive ChaosOutcome (h : List ChaosEvent) : ChaosAnswer → Prop
  | dropped (hnone : innerCalls h = []) : ChaosOutcome h (.response (.ok chaosDrop))
  | forwarded (r : Except String ChaosResponse) (i : ℕ) (hone : innerCalls h = [i]) :
    ChaosOutcome h (.response r)
  | panicked (w : ℕ) (config : ChaosConfig) (i : ℕ) (hnone : innerCalls h = [])
    (hcalled : .called w (.block config i) ∈ h)
    (hempty : config.delayMaxMs < config.delayMinMs) : ChaosOutcome h .panicked

def ChaosPost : ChaosRequest → List ChaosEvent → ChaosAnswer → Prop
  | .call _, h, a => ChaosOutcome h a
  | _, h, _ => innerCalls h = []

lemma length_innerCalls_le {h : List ChaosEvent}
    (hcalls : innerCalls h = [] ∨ ∃ i, innerCalls h = [i]) : (innerCalls h).length ≤ 1 := by
  obtain hnone | ⟨i, hone⟩ := hcalls
  · rw [hnone]
    exact Nat.zero_le 1
  · rw [hone]
    exact Nat.le_refl 1

lemma ChaosRule.length_le {r : ChaosRequest} {h : List ChaosEvent} {o : ChaosOp}
    (hrule : ChaosRule r h o) : (innerCalls h).length ≤ 1 := by
  apply length_innerCalls_le
  cases o with
  | layer l | clone w | pollReady w | call w => exact .inl (by rw [hrule.2]; rfl)
  | genRange min max | callInner i => exact .inl hrule.1
  | firstPoll | gen | warn fault | sleep ms => exact .inl hrule
  | awaitInner => exact .inr hrule

lemma ChaosPost.length_le {r : ChaosRequest} {h : List ChaosEvent} {a : ChaosAnswer}
    (hpost : ChaosPost r h a) : (innerCalls h).length ≤ 1 := by
  apply length_innerCalls_le
  cases r with
  | layer l | clone w | pollReady w => exact .inl hpost
  | call w =>
    cases hpost with
    | dropped hnone => exact .inl hnone
    | forwarded r i hone => exact .inr ⟨i, hone⟩
    | panicked w config i hnone _ _ => exact .inl hnone

lemma chaos_cancel_quiet (s : Tower) (k : ℕ) (o : ChaosOp) (inp : ChaosInput) (t : Tower)
    (evs : List ChaosEvent) (h : chaosEnv.cancel s k o inp = some (t, evs)) : t = s ∧ evs = [] := by
  cases o <;> cases h <;> exact ⟨rfl, rfl⟩

lemma reply_call {s t : Tower} {w : ℕ} (inp : ChaosInput) {future : ChaosFuture}
    {evs : List ChaosEvent} (h : s.reply (.call w) inp = some (t, future, evs)) :
    ∃ self, s.wrappers[w]? = some self ∧
      t = ⟨s.wrappers.set w (self.call s.instances).1, s.instances + 1⟩ ∧
      future = (self.call s.instances).2 ∧ evs = .called w future :: Tower.innerCalled future := by
  obtain ⟨self, hself, heq⟩ := Option.map_eq_some_iff.mp h
  cases heq
  exact ⟨self, hself, rfl, rfl, rfl⟩

lemma call_cases (self : ChaosMiddleware) (clone : ℕ) :
    self.call clone = (self, .direct self.inner) ∨
      self.call clone = ({ self with inner := clone }, .block self.config self.inner) := by
  unfold ChaosMiddleware.call
  split
  · exact .inl rfl
  · exact .inr rfl

lemma call_config (self : ChaosMiddleware) (clone : ℕ) :
    (self.call clone).1.config = self.config := by
  obtain hcall | hcall := call_cases self clone <;> rw [hcall]

lemma block_config {self : ChaosMiddleware} {clone i : ℕ} {config : ChaosConfig}
    (h : (self.call clone).2 = .block config i) : config = self.config := by
  obtain hcall | hcall := call_cases self clone
  · rw [hcall] at h
    cases h
  · rw [hcall] at h
    cases h
    rfl

lemma called_of_mem {w w' : ℕ} {future future' : ChaosFuture}
    (h : ChaosEvent.called w' future' ∈ .called w future :: Tower.innerCalled future) :
    future' = future := by
  cases future <;> simp [Tower.innerCalled] at h <;> exact h.2

variable {r : ChaosRequest} {h : List ChaosEvent} {w i : ℕ} {config : ChaosConfig}

/-- Calls that change nothing and leave no events. -/
def ChaosOp.isQuiet : ChaosOp → Bool
  | .firstPoll => true
  | .gen => true
  | .genRange _ _ => true
  | .sleep _ => true
  | .awaitInner => true
  | _ => false

lemma reply_genRange {s t : Tower} {min max : ℕ} {inp : ChaosInput} {drawn : Option ℕ}
    {evs : List ChaosEvent} (h : s.reply (.genRange min max) inp = some (t, drawn, evs)) :
    t = s ∧ evs = [] ∧ ((drawn = none ∧ max < min) ∨ drawn = some inp.ms) := by
  simp only [Tower.reply] at h
  split at h
  · next hempty =>
    cases h
    exact ⟨rfl, rfl, .inl ⟨rfl, hempty⟩⟩
  · split at h
    · cases h
      exact ⟨rfl, rfl, .inr rfl⟩
    · cases h

lemma reply_quiet {s t : Tower} {o : ChaosOp} {inp : ChaosInput} {rep : chaosSig.Reply o}
    {evs : List ChaosEvent} (hquiet : o.isQuiet = true)
    (h : s.reply o inp = some (t, rep, evs)) : t = s ∧ evs = [] := by
  cases o with
  | genRange min max =>
    obtain ⟨rfl, rfl, -⟩ := reply_genRange h
    exact ⟨rfl, rfl⟩
  | firstPoll | gen | sleep ms | awaitInner =>
    cases h
    exact ⟨rfl, rfl⟩
  | _ => cases hquiet

lemma calls_quiet {o : ChaosOp} {f : chaosSig.Reply o → ChaosTask}
    {post : List ChaosEvent → ChaosAnswer → Prop} (hquiet : o.isQuiet = true)
    (hrule : ChaosRule r h o) (hf : ∀ rep, Calls chaosEnv (ChaosRule r) post (f rep) h) :
    Calls chaosEnv (ChaosRule r) post (.call o f) h := by
  refine ⟨hrule, ?_⟩
  intro s k inp t rep evs hr
  obtain ⟨-, rfl⟩ := reply_quiet hquiet hr
  rw [List.append_nil]
  exact hf rep

lemma forward_calls (hcalled : .called w (.block config i) ∈ h) (hnone : innerCalls h = []) :
    Calls chaosEnv (ChaosRule r) ChaosOutcome (ChaosFuture.forward i) h := by
  refine ⟨⟨hnone, w, config, hcalled⟩, ?_⟩
  intro s k inp t _ evs hr
  cases hr
  have hone : innerCalls (h ++ [.innerCalled i]) = [i] := by
    unfold innerCalls at *
    rw [List.filterMap_append, hnone]
    rfl
  apply calls_quiet (o := .awaitInner) rfl ⟨i, hone⟩
  intro result
  exact .forwarded result i hone

lemma warn_calls {fault : Fault} {p : ChaosTask} (hnone : innerCalls h = [])
    (hp : Calls chaosEnv (ChaosRule r) ChaosOutcome p (h ++ [.injected fault])) :
    Calls chaosEnv (ChaosRule r) ChaosOutcome (.call (.warn fault) fun _ => p) h := by
  refine ⟨hnone, ?_⟩
  intro s k inp t _ evs hr
  cases hr
  exact hp

lemma block_calls (w : ℕ) (config : ChaosConfig) (i : ℕ) :
    Calls chaosEnv (ChaosRule r) ChaosOutcome (ChaosFuture.block config i).run
      [.called w (.block config i)] := by
  have hcalled : ChaosEvent.called w (.block config i) ∈ [ChaosEvent.called w (.block config i)] :=
    List.mem_singleton_self _
  have hnone : innerCalls [.called w (.block config i)] = [] := rfl
  apply calls_quiet (o := .firstPoll) rfl hnone
  intro _
  apply calls_quiet (o := .gen) rfl hnone
  intro dropDraw
  apply calls_quiet (o := .gen) rfl hnone
  intro delayDraw
  refine ⟨⟨rfl, w, config, i, hcalled, rfl, rfl⟩, ?_⟩
  intro s k inp t drawn evs hr
  obtain ⟨-, rfl, ⟨rfl, hempty⟩ | rfl⟩ := reply_genRange hr
  · exact .panicked w config i hnone hcalled hempty
  · rw [List.append_nil]
    change Calls _ _ _ (if dropDraw.lt config.dropP = true then _ else _) _
    by_cases hdrop : dropDraw.lt config.dropP = true
    · rw [if_pos hdrop]
      exact warn_calls hnone (.dropped rfl)
    · rw [if_neg hdrop]
      by_cases hdelay : delayDraw.lt config.delayP = true
      · rw [if_pos hdelay]
        have hwarned : innerCalls
          ([.called w (.block config i)] ++ [.injected (.delay inp.ms)]) = [] := rfl
        apply warn_calls hnone
        apply calls_quiet (o := .sleep inp.ms) rfl hwarned
        intro _
        exact forward_calls (List.mem_append_left _ hcalled) hwarned
      · rw [if_neg hdelay]
        exact forward_calls hcalled hnone

lemma chaosHandler_calls (r : ChaosRequest) :
    Calls chaosEnv (ChaosRule r) (ChaosPost r) (chaosHandler r) [] := by
  cases r with
  | layer l =>
    refine ⟨⟨rfl, rfl⟩, ?_⟩
    intro s k inp t _ evs hr
    cases hr
    exact rfl
  | clone w =>
    refine ⟨⟨rfl, rfl⟩, ?_⟩
    intro s k inp t _ evs hr
    obtain ⟨self, -, heq⟩ := Option.map_eq_some_iff.mp hr
    cases heq
    exact rfl
  | pollReady w =>
    refine ⟨⟨rfl, rfl⟩, ?_⟩
    intro s k inp t polled evs hr
    obtain ⟨self, -, heq⟩ := Option.map_eq_some_iff.mp hr
    cases heq
    exact rfl
  | call w =>
    refine ⟨⟨rfl, rfl⟩, ?_⟩
    intro s k inp t future evs hr
    obtain ⟨self, -, -, -, rfl⟩ := reply_call inp hr
    cases future with
    | block config i => exact block_calls w config i
    | direct i =>
      apply calls_quiet (o := .awaitInner) rfl ⟨i, rfl⟩
      intro result
      exact .forwarded result i rfl

end Programs

end SecureNet
