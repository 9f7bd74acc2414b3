import SecureNet.Library.KeyedStore
import SecureNet.Library.TaskEvents
import SecureNet.RotationTask

/-!
# The two writes of a swap

The rotation task writes the configuration and then the serial, each under a lock of its own.
Between the two writes the cells belong to different bundles, and at no other time.
-/

namespace SecureNet

open EventMachine KeyedStore Tasks

abbrev TlsTrace := List (Event TlsRequest Unit TlsEvent)

/-- The configuration that an event leaves in `inner`, with its bundle. -/
def TlsEvent.innerWrite : TlsEvent → Option (CertBundle × ServerConfig)
  | .innerSet bundle config => some (bundle, config)
  | _ => none

def TlsEvent.serialWrite : TlsEvent → Option String
  | .serialSet serial => some serial
  | _ => none

/-- The bundle whose configuration new connections get, after the events of the rotation task. -/
def presented (boot : CertBundle) (h : List TlsEvent) : CertBundle :=
  ((lastEffect TlsEvent.innerWrite h).map Prod.fst).getD boot

/-- The rotation task has written the configuration of a bundle, but not its serial, which
differs from that of the bundle before. -/
def HalfSwapped (boot : CertBundle) (h : List TlsEvent) : Prop :=
  ∃ g bundle config, h = g ++ [.innerSet bundle config] ∧
    (presented boot g).serial ≠ bundle.serial

/-- Task `k` is the rotation task, and every other task is a reader. -/
def OnlyRotation (k : ℕ) (tr : TlsTrace) : Prop :=
  ∀ i r, .arrived i r ∈ tr → (r.isRotation = true ↔ i = k)

variable (T : Rustls) (isGateway : Bool)

/-- The events of completed swaps. -/
inductive Swapped : List TlsEvent → Prop
  | nil : Swapped []
  | snoc (h : List TlsEvent) (bundle : CertBundle) (config : ServerConfig) (hs : Swapped h)
      (hc : buildConfig T isGateway bundle = .ok config) :
    Swapped (h ++ [.innerSet bundle config, .serialSet bundle.serial])

/-- The events of completed swaps, and perhaps the first write of the next one. -/
inductive Swapping : List TlsEvent → Prop
  | closed (h : List TlsEvent) (hs : Swapped T isGateway h) : Swapping h
  | half (h : List TlsEvent) (bundle : CertBundle) (config : ServerConfig)
      (hs : Swapped T isGateway h) (hc : buildConfig T isGateway bundle = .ok config) :
    Swapping (h ++ [.innerSet bundle config])

def OnlyReads (h : List TlsEvent) : Prop :=
  ∀ e ∈ h, e.innerWrite = none ∧ e.serialWrite = none

/-- What a task has done at any time. -/
def TlsGrammar : TlsRequest → List TlsEvent → Prop
  | .rotate _ _ => Swapping T isGateway
  | .read _ => OnlyReads

section Programs

variable {T isGateway} {ok : TlsCells → TlsOp → TlsInput → Prop} {Φ : List TlsEvent → Prop}
  {α : Type}

def TlsOp.isQuiet : TlsOp → Bool
  | .logScheduled _ _ => true
  | .sleep _ => true
  | .renew _ => true
  | .ttlSecs _ => true
  | .releaseInner => true
  | .releaseSerial => true
  | _ => false

lemma tls_cancel_quiet {s t : TlsCells} {i : ℕ} {o : TlsOp} {inp : TlsInput}
    {evs : List TlsEvent} (h : tlsEnv.cancel s i o inp = some (t, evs)) : t = s ∧ evs = [] := by
  cases o <;> cases h <;> exact ⟨rfl, rfl⟩

lemma quiet_safe {Ψ : List TlsEvent → α → Prop} {o : TlsOp} {k : tlsSig.Reply o → TlsTask α}
    {h : List TlsEvent} (ho : o.isQuiet = true) (hnow : Φ h)
    (hk : ∀ r, Safe tlsEnv ok Φ Ψ (k r) h) : Safe tlsEnv ok Φ Ψ (.call o k) h := by
  refine ⟨hnow, ?_, ?_⟩
  · intro s i inp t r evs _ hr
    have hevs : evs = [] := by
      cases o <;> first | (cases hr; rfl) | cases ho
    rw [hevs, List.append_nil]
    exact hk r
  · intro s i inp t evs _ hc
    rw [(tls_cancel_quiet hc).2, List.append_nil]
    exact hnow

lemma retryLoop_safe {serviceName : String} {maxAttempts remaining attempt delay : ℕ}
    {h : List TlsEvent} (hnow : Φ h) :
    Safe tlsEnv ok Φ (fun h' _ => h' = h)
      (RotationTask.retryLoop serviceName maxAttempts remaining attempt delay) h := by
  induction remaining generalizing attempt delay with
  | zero => exact rfl
  | succ remaining ih =>
    apply quiet_safe rfl hnow
    intro renewed
    cases renewed with
    | ok bundle => exact rfl
    | error e =>
      by_cases hlt : attempt < maxAttempts
      · simp only [Prog.bind, hlt, ↓reduceIte]
        apply quiet_safe rfl hnow
        intro _
        exact ih
      · simp only [Prog.bind, hlt, ↓reduceIte]
        exact ih

lemma rotationRound_safe {serviceName : String} {ttl : ℕ} {h : List TlsEvent}
    (hs : Swapped T isGateway h) :
    Safe tlsEnv ok (Swapping T isGateway) (fun h' _ => Swapped T isGateway h')
      (RotationTask.rotationRound T isGateway serviceName ttl) h := by
  have hnow : Swapping T isGateway h := .closed h hs
  refine quiet_safe rfl hnow (fun _ => quiet_safe rfl hnow (fun _ => ?_))
  apply Safe.bind (p := RotationTask.retryRenew serviceName 3) (retryLoop_safe hnow)
  rintro _ renewed rfl
  cases renewed with
  | error e => exact hs
  | ok bundle =>
    apply quiet_safe rfl hnow
    intro newTtl
    simp only [Prog.bind]
    cases hconfig : buildConfig T isGateway bundle with
    | error e => exact hs
    | ok config =>
      refine ⟨hnow, ?_, ?_⟩
      · intro s i inp t r evs _ hr
        simp only [tlsEnv, TlsCells.reply] at hr
        split at hr
        · cases hr
          have hhalf := Swapping.half _ bundle config hs hconfig
          refine ⟨hhalf, ?_, ?_⟩
          · intro s' i' inp' t' r' evs' _ hr'
            simp only [tlsEnv, TlsCells.reply] at hr'
            split at hr'
            · cases hr'
              rw [List.append_assoc]
              exact .snoc _ bundle config hs hconfig
            · cases hr'
          · intro s' i' inp' t' evs' _ hc'
            rw [(tls_cancel_quiet hc').2, List.append_nil]
            exact hhalf
        · cases hr
      · intro s i inp t evs _ hc
        rw [(tls_cancel_quiet hc).2, List.append_nil]
        exact hnow

lemma rotationLoop_safe {serviceName : String} {rounds ttl : ℕ} {h : List TlsEvent}
    (hs : Swapped T isGateway h) :
    Safe tlsEnv ok (Swapping T isGateway) (fun h' _ => Swapping T isGateway h')
      (RotationTask.rotationLoop T isGateway serviceName rounds ttl) h := by
  induction rounds generalizing ttl h with
  | zero => exact .closed h hs
  | succ rounds ih =>
    apply Safe.bind (rotationRound_safe hs)
    intro h' ttl' hs'
    exact ih hs'

lemma readCells_safe {cells : List Cell} {h : List TlsEvent} (hs : OnlyReads h) :
    Safe tlsEnv ok OnlyReads (fun h' _ => OnlyReads h') (readCells cells) h := by
  have hsnoc : ∀ {h : List TlsEvent} {e : TlsEvent}, OnlyReads h →
      e.innerWrite = none ∧ e.serialWrite = none → OnlyReads (h ++ [e]) := by
    intro h e hs he x hx
    rcases List.mem_append.mp hx with hx | hx
    · exact hs x hx
    · rw [List.mem_singleton.mp hx]
      exact he
  induction cells generalizing h with
  | nil => exact hs
  | cons cell cells ih =>
    cases cell with
    | inner =>
      refine ⟨hs, ?_, ?_⟩
      · intro s i inp t r evs _ hr
        cases hr
        have hnext := hsnoc (e := .sawInner s.inner) hs ⟨rfl, rfl⟩
        exact quiet_safe rfl hnext (fun _ => ih hnext)
      · intro s i inp t evs _ hc
        rw [(tls_cancel_quiet hc).2, List.append_nil]
        exact hs
    | serial =>
      refine ⟨hs, ?_, ?_⟩
      · intro s i inp t r evs _ hr
        cases hr
        have hnext := hsnoc (e := .sawSerial s.serial) hs ⟨rfl, rfl⟩
        exact quiet_safe rfl hnext (fun _ => ih hnext)
      · intro s i inp t evs _ hc
        rw [(tls_cancel_quiet hc).2, List.append_nil]
        exact hs

variable (T isGateway) in
lemma tlsHandler_safe (serviceName : String) (r : TlsRequest) :
    Safe tlsEnv (fun _ _ _ => True) (TlsGrammar T isGateway r)
      (fun h _ => TlsGrammar T isGateway r h) (tlsHandler T isGateway serviceName r) [] := by
  cases r with
  | rotate rounds ttl => exact rotationLoop_safe .nil
  | read cells => exact readCells_safe (by simp [OnlyReads])

end Programs

section Trace

variable {T isGateway} {serviceName : String} {as : List (Action TlsRequest TlsInput)}
  {s : System tlsSig TlsCells TlsRequest Unit} {tr : TlsTrace} {k : ℕ} {boot : CertBundle}
  {sh₀ : TlsCells}

/-- The effect of a trace event of any task. -/
def ofTask {β : Type} (f : TlsEvent → Option β) : Event TlsRequest Unit TlsEvent → Option β
  | .did _ e => f e
  | _ => none

lemma ofTask_idle {β : Type} {f : TlsEvent → Option β} {e : Event TlsRequest Unit TlsEvent}
    (he : e.Idle) : ofTask f e = none := by
  cases e with
  | did i e => exact he.elim
  | _ => rfl

lemma ofTask_eq {β : Type} (f : TlsEvent → Option β) : ofTask f = Event.effect f := by
  funext e
  cases e <;> rfl

/-- If only task `k` has effects, the last effect of the trace is the last one of its history. -/
lemma lastEffect_ofTask {β : Type} {f : TlsEvent → Option β}
    (hothers : ∀ i e, .did i e ∈ tr → i ≠ k → f e = none) :
    lastEffect (ofTask f) tr = lastEffect f (history k tr) := by
  rw [lastEffect, lastEffect, ofTask_eq, filterMap_effect hothers]

/-- What a call leaves in the cells. -/
lemma reply_writes {s t : TlsCells} {i : ℕ} {o : TlsOp} {inp : TlsInput} {r : tlsSig.Reply o}
    {evs : List TlsEvent} (h : tlsEnv.reply s i o inp = some (t, r, evs)) :
    t.inner = ((lastEffect TlsEvent.innerWrite evs).map Prod.snd).getD s.inner ∧
      t.serial = (lastEffect TlsEvent.serialWrite evs).getD s.serial := by
  cases o <;> simp only [tlsEnv, TlsCells.reply] at h
  case writeInner bundle config | writeSerial serial =>
    split at h
    · cases h
      exact ⟨rfl, rfl⟩
    · cases h
  all_goals
    cases h
    exact ⟨rfl, rfl⟩

/-- The cells hold what was written last. -/
lemma cells_lastEffect {rotating : RotatingTlsConfig}
    (h : (rotatingTls T isGateway serviceName).exec ⟨rotating.cells, []⟩ as = some (s, tr)) :
    s.shared.inner =
        ((lastEffect (ofTask TlsEvent.innerWrite) tr).map Prod.snd).getD rotating.inner ∧
      s.shared.serial =
        (lastEffect (ofTask TlsEvent.serialWrite) tr).getD rotating.serial := by
  refine exec_shared (I := fun tr s =>
    s.inner = ((lastEffect (ofTask TlsEvent.innerWrite) tr).map Prod.snd).getD rotating.inner ∧
      s.serial = (lastEffect (ofTask TlsEvent.serialWrite) tr).getD rotating.serial)
    ⟨rfl, rfl⟩ ?_ ?_ ?_ ?_ h
  · intro tr s e he ih
    rw [lastEffect_append_none (ofTask_idle he), lastEffect_append_none (ofTask_idle he)]
    exact ih
  · intro tr s i o inp t r evs ih hr
    obtain ⟨hinner, hserial⟩ := reply_writes hr
    have hevs : ∀ {β : Type} (f : TlsEvent → Option β),
        lastEffect (ofTask f) (tr ++ evs.map (.did i)) =
          (lastEffect f evs).or (lastEffect (ofTask f) tr) := by
      intro β f
      rw [lastEffect_append, ofTask_eq, lastEffect, filterMap_effect_map]
      rfl
    rw [hinner, hserial, hevs, hevs, ih.1, ih.2]
    constructor
    · cases lastEffect TlsEvent.innerWrite evs <;> rfl
    · cases lastEffect TlsEvent.serialWrite evs <;> rfl
  · intro tr s i o inp t evs ih hc
    obtain ⟨rfl, rfl⟩ := tls_cancel_quiet hc
    rw [List.map_nil, List.append_nil]
    exact ih
  · intro tr s inp ih
    rw [lastEffect_append_none rfl, lastEffect_append_none rfl]
    exact ih

/-- What the tasks have done in a run with one rotation task. -/
lemma run_swapping
    (h : (rotatingTls T isGateway serviceName).exec ⟨sh₀, []⟩ as = some (s, tr))
    (hone : OnlyRotation k tr) :
    Swapping T isGateway (history k tr) ∧ ∀ i, i ≠ k → OnlyReads (history i tr) := by
  have hstart : ∀ r, TlsGrammar T isGateway r [] := by
    intro r
    cases r with
    | rotate rounds ttl => exact .closed [] .nil
    | read cells => simp [TlsGrammar, OnlyReads]
  have hall := exec_history (Φ := TlsGrammar T isGateway)
    (Ψ := fun r h _ => TlsGrammar T isGateway r h) hstart (tlsHandler_safe T isGateway serviceName) h
    (meets_true _ _)
  have hnow : ∀ i t, s.tasks[i]? = some t → TlsGrammar T isGateway t.request (history i tr) :=
    fun i t hi => (hall.1 i t hi).now (Φ := TlsGrammar T isGateway) (fun _ _ _ ho => ho)
  have harr : ∀ i t, s.tasks[i]? = some t → (t.request.isRotation = true ↔ i = k) :=
    fun i t hi => hone i t.request ((exec_arrived h i t.request).mpr ⟨t, hi, rfl⟩)
  constructor
  · cases hk : s.tasks[k]? with
    | none =>
      rw [hall.2 k (List.getElem?_eq_none_iff.mp hk)]
      exact .closed [] .nil
    | some t =>
      have hgrammar := hnow k t hk
      have hrotation := (harr k t hk).mpr rfl
      cases hr : t.request with
      | rotate rounds ttl =>
        rw [hr] at hgrammar
        exact hgrammar
      | read cells =>
        rw [hr] at hrotation
        cases hrotation
  · intro i hi
    cases hget : s.tasks[i]? with
    | none =>
      rw [hall.2 i (List.getElem?_eq_none_iff.mp hget)]
      simp [OnlyReads]
    | some t =>
      have hgrammar := hnow i t hget
      cases hr : t.request with
      | rotate rounds ttl => exact absurd ((harr i t hget).mp (by rw [hr]; rfl)) hi
      | read cells =>
        rw [hr] at hgrammar
        exact hgrammar

lemma Swapped.serial (boot : CertBundle) {h : List TlsEvent} (hs : Swapped T isGateway h) :
    (lastEffect TlsEvent.serialWrite h).getD boot.serial = (presented boot h).serial ∧
      (h = [] ∨ ∃ g serial, h = g ++ [.serialSet serial]) := by
  cases hs with
  | nil => exact ⟨rfl, .inl rfl⟩
  | snoc g bundle config hs hc =>
    have hlast : g ++ [.innerSet bundle config, .serialSet bundle.serial] =
        (g ++ [.innerSet bundle config]) ++ [.serialSet bundle.serial] := by simp
    rw [hlast]
    refine ⟨?_, .inr ⟨_, _, rfl⟩⟩
    unfold presented
    rw [lastEffect_append_some (f := TlsEvent.serialWrite) rfl,
      lastEffect_append_none (f := TlsEvent.innerWrite) rfl,
      lastEffect_append_some (f := TlsEvent.innerWrite) rfl]
    rfl

lemma Swapping.serial_iff {h : List TlsEvent} (hs : Swapping T isGateway h) :
    (lastEffect TlsEvent.serialWrite h).getD boot.serial = (presented boot h).serial ↔
      ¬HalfSwapped boot h := by
  cases hs with
  | closed _ hs =>
    obtain ⟨hserial, hlast⟩ := hs.serial boot
    apply iff_of_true hserial
    rintro ⟨g, bundle, config, rfl, -⟩
    rcases hlast with hlast | ⟨g', serial, hlast⟩
    · simp at hlast
    · have heq := (List.append_inj' hlast rfl).2
      cases heq
  | half h bundle config hs hc =>
    have hpresented : presented boot (h ++ [.innerSet bundle config]) = bundle := by
      unfold presented
      rw [lastEffect_append_some (f := TlsEvent.innerWrite) rfl]
      rfl
    rw [lastEffect_append_none (f := TlsEvent.serialWrite) rfl, (hs.serial boot).1, hpresented]
    constructor
    · rintro heq ⟨g, bundle', config', hsplit, hne⟩
      obtain ⟨rfl, hlast⟩ := List.append_inj' hsplit rfl
      cases hlast
      exact hne heq
    · intro hnot
      by_contra hne
      exact hnot ⟨h, bundle, config, rfl, hne⟩

lemma Swapping.inner {rotating : RotatingTlsConfig} {h : List TlsEvent}
    (hboot : buildConfig T isGateway boot = .ok rotating.inner) (hs : Swapping T isGateway h) :
    buildConfig T isGateway (presented boot h) =
      .ok (((lastEffect TlsEvent.innerWrite h).map Prod.snd).getD rotating.inner) := by
  have hswapped : ∀ {h : List TlsEvent}, Swapped T isGateway h →
      buildConfig T isGateway (presented boot h) =
        .ok (((lastEffect TlsEvent.innerWrite h).map Prod.snd).getD rotating.inner) := by
    intro h hs
    cases hs with
    | nil => exact hboot
    | snoc g bundle config hs hc =>
      have hlast : g ++ [.innerSet bundle config, .serialSet bundle.serial] =
          (g ++ [.innerSet bundle config]) ++ [.serialSet bundle.serial] := by simp
      unfold presented
      rw [hlast, lastEffect_append_none (f := TlsEvent.innerWrite) rfl,
        lastEffect_append_some (f := TlsEvent.innerWrite) rfl]
      exact hc
  cases hs with
  | closed _ hs => exact hswapped hs
  | half g bundle config hs hc =>
    unfold presented
    rw [lastEffect_append_some (f := TlsEvent.innerWrite) rfl]
    exact hc

/-- The cells of any reachable state. -/
lemma cells_swapping {rotating : RotatingTlsConfig}
    (hboot : buildConfig T isGateway boot = .ok rotating.inner)
    (hserial : rotating.serial = boot.serial)
    (h : (rotatingTls T isGateway serviceName).exec ⟨rotating.cells, []⟩ as = some (s, tr))
    (hone : OnlyRotation k tr) :
    buildConfig T isGateway (presented boot (history k tr)) = .ok s.shared.inner ∧
      (s.shared.serial = (presented boot (history k tr)).serial ↔
        ¬HalfSwapped boot (history k tr)) := by
  obtain ⟨hrotation, hreaders⟩ := run_swapping h hone
  obtain ⟨hinner, hcell⟩ := cells_lastEffect h
  have hquiet : ∀ i e, .did i e ∈ tr → i ≠ k → e.innerWrite = none ∧ e.serialWrite = none :=
    fun i e he hi => hreaders i hi e (mem_history.mpr he)
  rw [lastEffect_ofTask (fun i e he hi => (hquiet i e he hi).1)] at hinner
  rw [lastEffect_ofTask (fun i e he hi => (hquiet i e he hi).2), hserial] at hcell
  rw [hinner, hcell]
  exact ⟨hrotation.inner hboot, hrotation.serial_iff⟩

lemma OnlyRotation.before {l m : TlsTrace} (hone : OnlyRotation k (l ++ m)) : OnlyRotation k l :=
  fun i r hr => hone i r (List.mem_append_left _ hr)

/-- The one call that serves a read, which emits nothing else. -/
lemma read_reply {sh sh' : TlsCells} {i : ℕ} {o : TlsOp} {inp : TlsInput} {rep : tlsSig.Reply o}
    {e : TlsEvent} {evs₁ evs₂ : List TlsEvent} (he : e.innerWrite = none)
    (he' : e.serialWrite = none)
    (hr : tlsEnv.reply sh i o inp = some (sh', rep, evs₁ ++ e :: evs₂)) :
    evs₁ = [] ∧ (e = .sawInner sh.inner ∨ e = .sawSerial sh.serial) := by
  generalize hout : evs₁ ++ e :: evs₂ = out at hr
  cases o <;> simp only [tlsEnv, TlsCells.reply] at hr
  case writeInner bundle config =>
    split at hr
    · cases hr
      obtain ⟨-, rfl, -⟩ := split_singleton hout
      cases he
    · cases hr
  case writeSerial serial =>
    split at hr
    · cases hr
      obtain ⟨-, rfl, -⟩ := split_singleton hout
      cases he'
    · cases hr
  case readInner =>
    cases hr
    obtain ⟨rfl, rfl, -⟩ := split_singleton hout
    exact ⟨rfl, .inl rfl⟩
  case readSerial =>
    cases hr
    obtain ⟨rfl, rfl, -⟩ := split_singleton hout
    exact ⟨rfl, .inr rfl⟩
  all_goals
    cases hr
    simp at hout

/-- A read in a run: the state that it was served in, after the trace before it. -/
lemma read_state {l m : TlsTrace} {i : ℕ} {e : TlsEvent} (he : e.innerWrite = none)
    (he' : e.serialWrite = none)
    (h : (rotatingTls T isGateway serviceName).exec ⟨sh₀, []⟩ as = some (s, l ++ .did i e :: m)) :
    ∃ as₁ s₁, (rotatingTls T isGateway serviceName).exec ⟨sh₀, []⟩ as₁ = some (s₁, l) ∧
      (e = .sawInner s₁.shared.inner ∨ e = .sawSerial s₁.shared.serial) := by
  obtain ⟨as₁, s₁, tr₁, o, inp, t, r, evs₁, evs₂, h₁, hr, rfl⟩ :=
    exec_replied (fun _ _ _ _ _ _ hc => (tls_cancel_quiet hc).2) h
  obtain ⟨rfl, hsaw⟩ := read_reply he he' hr
  rw [List.map_nil, List.append_nil]
  exact ⟨as₁, s₁, h₁, hsaw⟩

end Trace

/-- The cells and every reader. At any point of any run the configuration in `inner` and the text
in `serial` come from the same bundle exactly if no swap is half done. -/
theorem swap_atomic_iff {T : Rustls} {serviceName : String} {boot : CertBundle}
    {rotating : RotatingTlsConfig} {as : List (Action TlsRequest TlsInput)}
    {s : System tlsSig TlsCells TlsRequest Unit} {tr : TlsTrace} {k : ℕ}
    (hnew : RotatingTlsConfig.new T boot = .ok rotating ∨
      RotatingTlsConfig.newGateway T boot = .ok rotating)
    (h : (rotatingTls T rotating.isGateway serviceName).exec ⟨rotating.cells, []⟩ as =
      some (s, tr))
    (hone : OnlyRotation k tr) :
    buildConfig T rotating.isGateway (presented boot (history k tr)) = .ok s.shared.inner ∧
      (s.shared.serial = (presented boot (history k tr)).serial ↔
        ¬HalfSwapped boot (history k tr)) ∧
      ∀ l m i,
        (∀ config, tr = l ++ .did i (.sawInner config) :: m →
          buildConfig T rotating.isGateway (presented boot (history k l)) = .ok config) ∧
        (∀ serial, tr = l ++ .did i (.sawSerial serial) :: m →
          (serial = (presented boot (history k l)).serial ↔ ¬HalfSwapped boot (history k l))) := by
  have hboots := created_boots hnew 0 0
  obtain ⟨hinner, hserial⟩ := cells_swapping hboots.inner hboots.serial h hone
  refine ⟨hinner, hserial, ?_⟩
  intro l m i
  constructor
  · rintro config rfl
    obtain ⟨as₁, s₁, h₁, hsaw⟩ := read_state rfl rfl h
    rcases hsaw with hsaw | hsaw
    · cases hsaw
      exact (cells_swapping hboots.inner hboots.serial h₁ hone.before).1
    · cases hsaw
  · rintro serial rfl
    obtain ⟨as₁, s₁, h₁, hsaw⟩ := read_state rfl rfl h
    rcases hsaw with hsaw | hsaw
    · cases hsaw
    · cases hsaw
      exact (cells_swapping hboots.inner hboots.serial h₁ hone.before).2

section Sample

def swapInput : TlsInput := ⟨.ok (sampleBundle "B" 570), 0⟩

/-- A rotation from `A` to `B` without a reader. -/
def wholeSwap : List (Action TlsRequest TlsInput) :=
  .arrive (.rotate 1 300) :: List.replicate 6 (.poll 0 swapInput)

/-- The same rotation with two readers. Task 1 holds the lock of `serial` when the rotation wants
it, and task 2 reads `inner` in the meantime. -/
def splitSwap : List (Action TlsRequest TlsInput) :=
  .arrive (.rotate 1 300) :: List.replicate 4 (.poll 0 swapInput) ++
    [.arrive (.read [.serial]), .poll 1 swapInput, .poll 0 swapInput,
      .arrive (.read [.inner]), .poll 2 swapInput]

def swappedConfig : ServerConfig := ⟨[[66]], [75], some [[67]]⟩

end Sample

theorem swap_atomic_iff_whole :
    ∃ s tr, (rotatingTls sampleRustls false "order-service").exec ⟨sampleRotating.cells, []⟩
        wholeSwap = some (s, tr) ∧
      serverConfig sampleRustls (presented (sampleBundle "A" 300) (history 0 tr)) =
        .ok s.shared.inner ∧
      s.shared.serial = (presented (sampleBundle "A" 300) (history 0 tr)).serial ∧
      s.shared.serial = "B" := by
  have hrun : ∃ s, (rotatingTls sampleRustls false "order-service").exec ⟨sampleRotating.cells, []⟩
      wholeSwap = some (s, [.arrived 0 (.rotate 1 300),
        .did 0 (.innerSet (sampleBundle "B" 570) swappedConfig), .did 0 (.serialSet "B"),
        .responded 0 ()]) ∧ s.shared.serial = "B" :=
    ⟨_, rfl, rfl⟩
  obtain ⟨s, h, hserial⟩ := hrun
  have hone : OnlyRotation 0 [.arrived 0 (.rotate 1 300),
      .did 0 (.innerSet (sampleBundle "B" 570) swappedConfig), .did 0 (.serialSet "B"),
      .responded 0 ()] := by
    intro i r hr
    simp only [List.mem_cons, Event.arrived.injEq, reduceCtorEq, or_false, List.not_mem_nil] at hr
    obtain ⟨rfl, rfl⟩ := hr
    exact iff_of_true rfl rfl
  have hnew : RotatingTlsConfig.new sampleRustls (sampleBundle "A" 300) = .ok sampleRotating := rfl
  obtain ⟨hinner, hiff, -⟩ := swap_atomic_iff (.inl hnew) h hone
  refine ⟨s, _, h, hinner, hiff.mpr ?_, hserial⟩
  rintro ⟨g, bundle, config, hsplit, -⟩
  have hlast := congrArg List.getLast? hsplit
  simp at hlast

/-- Two readers find the old serial and the new configuration, and so do the cells. -/
theorem splitSwap_mixed :
    RotatingTlsConfig.new sampleRustls (sampleBundle "A" 300) = .ok sampleRotating ∧
      ∃ s tr, (rotatingTls sampleRustls false "order-service").exec ⟨sampleRotating.cells, []⟩
          splitSwap = some (s, tr) ∧
        OnlyRotation 0 tr ∧
        serverConfig sampleRustls (sampleBundle "B" 570) = .ok s.shared.inner ∧
        s.shared.serial = "A" ∧
        (∀ bundle ∈ [sampleBundle "A" 300, sampleBundle "B" 570],
          ¬(serverConfig sampleRustls bundle = .ok s.shared.inner ∧
            s.shared.serial = bundle.serial)) ∧
        .did 1 (.sawSerial "A") ∈ tr ∧ .did 2 (.sawInner swappedConfig) ∈ tr := by
  refine ⟨rfl, _, [.arrived 0 (.rotate 1 300), .arrived 1 (.read [.serial]),
    .did 1 (.sawSerial "A"), .did 0 (.innerSet (sampleBundle "B" 570) swappedConfig),
    .arrived 2 (.read [.inner]), .did 2 (.sawInner swappedConfig)], rfl, ?_, rfl, rfl, by decide,
    by simp, by simp⟩
  intro i r hr
  simp only [List.mem_cons, Event.arrived.injEq, reduceCtorEq, false_or, or_false,
    List.not_mem_nil] at hr
  rcases hr with ⟨rfl, rfl⟩ | ⟨rfl, rfl⟩ | ⟨rfl, rfl⟩
  · exact iff_of_true rfl rfl
  · exact iff_of_false (by decide) (by decide)
  · exact iff_of_false (by decide) (by decide)

end SecureNet
