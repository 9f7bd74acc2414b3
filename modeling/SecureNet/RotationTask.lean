import SecureNet.Library.SoloRuns
import SecureNet.Rotation

/-!
# The rotation task and its readers

`rotation_loop` of `shared/src/rotation.rs` call by call, next to the tasks that read the two cells
of a `RotatingTlsConfig`. Each cell has a lock of its own. `run_rotationLoop` finds the loop of
`Rotation.lean` again in the task that runs alone.
-/

namespace SecureNet

open Tasks Tasks.Prog

/-- The cells that the clones of a `RotatingTlsConfig` share, each with the number of its read
guards. -/
structure TlsCells where
  inner : ServerConfig
  serial : String
  innerReaders : ℕ
  serialReaders : ℕ

def RotatingTlsConfig.cells (self : RotatingTlsConfig) : TlsCells := ⟨self.inner, self.serial, 0, 0⟩

inductive TlsOp
  | logScheduled (ttl sleepSecs : ℕ)
  | sleep (nanos : ℕ)
  | renew (serviceName : String)
  | ttlSecs (bundle : CertBundle)
  | writeInner (bundle : CertBundle) (config : ServerConfig)
  | writeSerial (serial : String)
  | readInner
  | releaseInner
  | readSerial
  | releaseSerial

/-- The calls of the tasks and what they return. The bundle of `writeInner` is the one that the
configuration was built from; it only goes into the trace. -/
abbrev tlsSig : Signature where
  Op := TlsOp
  Reply
    | .logScheduled _ _ => Unit
    | .sleep _ => Unit
    | .renew _ => Except AppError CertBundle
    | .ttlSecs _ => ℕ
    | .writeInner _ _ => Unit
    | .writeSerial _ => Unit
    | .readInner => ServerConfig
    | .releaseInner => Unit
    | .readSerial => String
    | .releaseSerial => Unit

structure TlsInput where
  renewed : Except AppError CertBundle
  now : ℤ

inductive TlsEvent
  | innerSet (bundle : CertBundle) (config : ServerConfig)
  | serialSet (serial : String)
  | sawInner (config : ServerConfig)
  | sawSerial (serial : String)

namespace TlsCells

/-- A write waits until no read guard of its cell is left. -/
def reply (s : TlsCells) : (o : TlsOp) → TlsInput → Option (TlsCells × tlsSig.Reply o × List TlsEvent)
  | .logScheduled _ _, _ => some (s, (), [])
  | .sleep _, _ => some (s, (), [])
  | .renew _, inp => some (s, inp.renewed, [])
  | .ttlSecs bundle, inp => some (s, bundle.ttlSecs inp.now, [])
  | .writeInner bundle config, _ =>
    if s.innerReaders = 0 then some ({ s with inner := config }, (), [.innerSet bundle config])
    else none
  | .writeSerial serial, _ =>
    if s.serialReaders = 0 then some ({ s with serial := serial }, (), [.serialSet serial])
    else none
  | .readInner, _ =>
    some ({ s with innerReaders := s.innerReaders + 1 }, s.inner, [.sawInner s.inner])
  | .releaseInner, _ => some ({ s with innerReaders := s.innerReaders - 1 }, (), [])
  | .readSerial, _ =>
    some ({ s with serialReaders := s.serialReaders + 1 }, s.serial, [.sawSerial s.serial])
  | .releaseSerial, _ => some ({ s with serialReaders := s.serialReaders - 1 }, (), [])

/-- A task that is dropped at an await has not yet done what it waits for. -/
def cancel (s : TlsCells) : TlsOp → Option (TlsCells × List TlsEvent)
  | .logScheduled _ _ => none
  | .ttlSecs _ => none
  | .releaseInner => none
  | .releaseSerial => none
  | _ => some (s, [])

end TlsCells

def tlsEnv : Environment tlsSig TlsCells TlsInput TlsEvent where
  reply s _ o inp := s.reply o inp
  cancel s _ o _ := s.cancel o
  restart s _ := s

abbrev TlsTask := Prog tlsSig

section Readers

def RotatingTlsConfig.current : TlsTask ServerConfig := do
  let config : ServerConfig ← perform (S := tlsSig) .readInner
  let _ ← perform (S := tlsSig) .releaseInner
  return config

def RotatingTlsConfig.currentSerial : TlsTask String := do
  let serial : String ← perform (S := tlsSig) .readSerial
  let _ ← perform (S := tlsSig) .releaseSerial
  return serial

inductive Cell
  | inner
  | serial

/-- A task that reads the given cells one after the other. -/
def readCells : List Cell → TlsTask Unit
  | [] => return ()
  | .inner :: rest => do
    let _ ← RotatingTlsConfig.current
    readCells rest
  | .serial :: rest => do
    let _ ← RotatingTlsConfig.currentSerial
    readCells rest

end Readers

namespace RotationTask

variable (T : Rustls) (isGateway : Bool) (serviceName : String)

def retryLoop (maxAttempts : ℕ) : ℕ → ℕ → ℕ → TlsTask (Except AppError CertBundle)
  | 0, _, _ =>
    return .error (.vaultUnreachable
      ("cert renewal failed after " ++ toString maxAttempts ++ " attempts"))
  | remaining + 1, attempt, delay => do
    let renewed : Except AppError CertBundle ← perform (S := tlsSig) (.renew serviceName)
    match renewed with
    | .ok bundle => return .ok bundle
    | .error _ =>
      if attempt < maxAttempts then
        let _ ← perform (S := tlsSig) (.sleep delay)
        retryLoop maxAttempts remaining (attempt + 1) (delay * 2)
      else retryLoop maxAttempts remaining (attempt + 1) delay

def retryRenew (maxAttempts : ℕ) : TlsTask (Except AppError CertBundle) :=
  retryLoop serviceName maxAttempts maxAttempts 1 (seconds 2)

/-- One turn of the loop, from its sleep to the TTL of the next turn. -/
def rotationRound (ttl : ℕ) : TlsTask ℕ := do
  let _ ← perform (S := tlsSig) (.logScheduled ttl (sleepSecs ttl))
  let _ ← perform (S := tlsSig) (.sleep (seconds (sleepSecs ttl)))
  match ← retryRenew serviceName 3 with
  | .ok bundle =>
    let newTtl : ℕ ← perform (S := tlsSig) (.ttlSecs bundle)
    match buildConfig T isGateway bundle with
    | .ok config =>
      let _ ← perform (S := tlsSig) (.writeInner bundle config)
      let _ ← perform (S := tlsSig) (.writeSerial bundle.serial)
      return newTtl
    | .error _ => return 30
  | .error _ => return 30

/-- The first rounds of the loop, which has no end. -/
def rotationLoop : ℕ → ℕ → TlsTask Unit
  | 0, _ => return ()
  | rounds + 1, ttl => do
    let ttl ← rotationRound T isGateway serviceName ttl
    rotationLoop rounds ttl

end RotationTask

inductive TlsRequest
  | rotate (rounds ttl : ℕ)
  | read (cells : List Cell)

def TlsRequest.isRotation : TlsRequest → Bool
  | .rotate _ _ => true
  | .read _ => false

def tlsHandler (T : Rustls) (isGateway : Bool) (serviceName : String) : TlsRequest → TlsTask Unit
  | .rotate rounds ttl => RotationTask.rotationLoop T isGateway serviceName rounds ttl
  | .read cells => readCells cells

def rotatingTls (T : Rustls) (isGateway : Bool) (serviceName : String) :=
  machine tlsEnv (tlsHandler T isGateway serviceName)

section Alone

/-- The rotation task alone with the renewals of `Rotation.lean`. `round` counts the rounds that
have begun, and `attempt` is the next attempt of the current one. -/
structure LoneRotation where
  round : ℕ
  attempt : ℕ
  now : ℤ
  inner : ServerConfig
  serial : String

def LoneRotation.reply (env : ℕ → ℕ → RenewCall) (s : LoneRotation) :
    (o : TlsOp) → LoneRotation × tlsSig.Reply o
  | .logScheduled _ _ => ({ s with round := s.round + 1, attempt := 1 }, ())
  | .sleep nanos => ({ s with now := s.now + nanos }, ())
  | .renew _ =>
    let call := env (s.round - 1) s.attempt
    ({ s with attempt := s.attempt + 1, now := s.now + call.latency }, call.result)
  | .ttlSecs bundle => (s, bundle.ttlSecs s.now)
  | .writeInner _ config => ({ s with inner := config }, ())
  | .writeSerial serial => ({ s with serial := serial }, ())
  | .readInner => (s, s.inner)
  | .releaseInner => (s, ())
  | .readSerial => (s, s.serial)
  | .releaseSerial => (s, ())

def loneEnv (env : ℕ → ℕ → RenewCall) : Environment tlsSig LoneRotation Unit TlsEvent where
  reply s _ o _ := some ((s.reply env o).1, (s.reply env o).2, [])
  cancel _ _ _ _ := none
  restart s _ := s

variable (T : Rustls) (isGateway : Bool) (serviceName : String) (env : ℕ → ℕ → RenewCall)

variable {env} in
lemma run_lone_call {α : Type} {s t : LoneRotation} {o : TlsOp} {k : tlsSig.Reply o → TlsTask α}
    {a : α} (h : Prog.run (loneEnv env) 0 () (s.reply env o).1 (k (s.reply env o).2) =
      some (t, a, [])) :
    Prog.run (loneEnv env) 0 () s (.call o k) = some (t, a, []) :=
  Prog.run_call.mpr ⟨_, _, [], [], rfl, h, rfl⟩

lemma run_retryLoop (maxAttempts : ℕ) (remaining attempt delay : ℕ) (s : LoneRotation)
    (hs : s.attempt = attempt) :
    ∃ next, Prog.run (loneEnv env) 0 () s
        (RotationTask.retryLoop serviceName maxAttempts remaining attempt delay) =
      some ({ s with
          attempt := next
          now := s.now + (retryLoop (env (s.round - 1)) maxAttempts remaining attempt delay).2 },
        (retryLoop (env (s.round - 1)) maxAttempts remaining attempt delay).1, []) := by
  induction remaining generalizing s attempt delay with
  | zero => exact ⟨s.attempt, by simp [RotationTask.retryLoop, retryLoop, pure]⟩
  | succ remaining ih =>
    subst hs
    simp only [RotationTask.retryLoop, retryLoop]
    cases hresult : (env (s.round - 1) s.attempt).result with
    | ok bundle =>
      refine ⟨s.attempt + 1, run_lone_call ?_⟩
      simp only [LoneRotation.reply, hresult]
      rfl
    | error e =>
      by_cases hlt : s.attempt < maxAttempts
      · obtain ⟨next, hnext⟩ := ih (s.attempt + 1) (delay * 2)
          { s with
            attempt := s.attempt + 1
            now := s.now + (env (s.round - 1) s.attempt).latency + delay } rfl
        refine ⟨next, run_lone_call ?_⟩
        simp only [LoneRotation.reply, hresult, hlt, ↓reduceIte]
        refine run_lone_call ?_
        push_cast
        rw [← Int.add_assoc, ← Int.add_assoc]
        exact hnext
      · obtain ⟨next, hnext⟩ := ih (s.attempt + 1) delay
          { s with
            attempt := s.attempt + 1
            now := s.now + (env (s.round - 1) s.attempt).latency } rfl
        refine ⟨next, run_lone_call ?_⟩
        simp only [LoneRotation.reply, hresult, hlt, ↓reduceIte]
        push_cast
        rw [← Int.add_assoc]
        exact hnext

/-- A round of the task that runs alone does what `rotationRound` says. -/
lemma run_rotationRound (ttl : ℕ) (s : LoneRotation) :
    ∃ next, Prog.run (loneEnv env) 0 () s
        (RotationTask.rotationRound T isGateway serviceName ttl) =
      (let r := rotationRound T isGateway (env s.round) ⟨ttl, s.now, s.inner, s.serial⟩
      some (⟨s.round + 1, next, r.now, r.inner, r.serial⟩, r.ttl, [])) := by
  obtain ⟨next, hretry⟩ := run_retryLoop serviceName env 3 3 1 (seconds 2)
    ⟨s.round + 1, 1, s.now + seconds (sleepSecs ttl), s.inner, s.serial⟩ rfl
  refine ⟨next, run_lone_call (run_lone_call ?_)⟩
  refine (Prog.run_bind (p := RotationTask.retryRenew serviceName 3)).mpr
    ⟨_, _, [], [], hretry, ?_, rfl⟩
  unfold rotationRound retryRenew
  simp only [Nat.add_sub_cancel]
  cases hrenewed : (retryLoop (env s.round) 3 3 1 (seconds 2)).1 with
  | error e => rfl
  | ok bundle =>
    refine run_lone_call ?_
    simp only [LoneRotation.reply]
    cases hconfig : buildConfig T isGateway bundle with
    | error e => rfl
    | ok config => exact run_lone_call (run_lone_call rfl)

lemma rotationLoop_succ (s : RotationState) (n : ℕ) :
    rotationLoop T isGateway env s (n + 1) =
      rotationLoop T isGateway (fun k => env (k + 1)) (rotationRound T isGateway (env 0) s) n := by
  induction n with
  | zero => rfl
  | succ n ih => rw [rotationLoop, ih, rotationLoop]

/-- The task that runs alone passes through the heads of `rotationLoop`. -/
theorem run_rotationLoop (rounds ttl : ℕ) (s : LoneRotation) :
    ∃ next, Prog.run (loneEnv env) 0 () s
        (RotationTask.rotationLoop T isGateway serviceName rounds ttl) =
      (let r := rotationLoop T isGateway (fun k => env (s.round + k))
        ⟨ttl, s.now, s.inner, s.serial⟩ rounds
      some (⟨s.round + rounds, next, r.now, r.inner, r.serial⟩, (), [])) := by
  induction rounds generalizing ttl s with
  | zero => exact ⟨s.attempt, rfl⟩
  | succ rounds ih =>
    obtain ⟨next, hround⟩ := run_rotationRound T isGateway serviceName env ttl s
    set r := rotationRound T isGateway (env s.round) ⟨ttl, s.now, s.inner, s.serial⟩ with hr
    obtain ⟨last, hrest⟩ := ih r.ttl ⟨s.round + 1, next, r.now, r.inner, r.serial⟩
    refine ⟨last, (Prog.run_bind (p := RotationTask.rotationRound T isGateway serviceName ttl)).mpr
      ⟨_, _, [], [], hround, ?_, rfl⟩⟩
    rw [hrest, rotationLoop_succ]
    simp only [Nat.add_zero, ← hr, Nat.add_assoc, Nat.add_comm 1]

end Alone

end SecureNet
