import SecureNet.Library.TaskEvents
import SecureNet.VaultClient

/-!
# The identity of a service

Calls of `unseal` on clones of one identity write its two locks at different await points. Every
call writes the bundle before it announces `Serving`, which orders the writes of all calls
together. One call alone restores `Locked` on one of its failing exits only.
-/

namespace SecureNet

open EventMachine Tasks

variable {hexError : String → String} {serviceName : String}

variable (hexError serviceName) in
/-- All interleavings of calls of `unseal`, each given by its vault URL. -/
def identityRuns := machine clientEnv (ServiceIdentity.unseal hexError serviceName)

abbrev IdentitySystem := System clientSig ServiceIdentity String (Except AppError CertBundle)

abbrev IdentityTrace := List (Event String (Except AppError CertBundle) ClientEvent)

/-- A call writes only a bundle that it has received, and `Serving` only after a bundle. -/
structure InOrder (h : List ClientEvent) : Prop where
  received : ∀ b, .bundleWritten b ∈ h → .received b ∈ h
  written : .stateWritten .serving ∈ h → ∃ b, .bundleWritten b ∈ h

lemma inOrder_nil : InOrder [] :=
  ⟨fun _ hb => (List.not_mem_nil hb).elim, fun hs => (List.not_mem_nil hs).elim⟩

def ClientEvent.isPlain : ClientEvent → Bool
  | .bundleWritten _ => false
  | .stateWritten .serving => false
  | _ => true

lemma InOrder.append_plain {h evs : List ClientEvent} (hh : InOrder h)
    (hevs : ∀ e ∈ evs, e.isPlain = true) : InOrder (h ++ evs) := by
  constructor
  · intro b hb
    rcases List.mem_append.mp hb with hb | hb
    · exact List.mem_append_left _ (hh.received b hb)
    · cases hevs _ hb
  · intro hs
    rcases List.mem_append.mp hs with hs | hs
    · obtain ⟨b, hb⟩ := hh.written hs
      exact ⟨b, List.mem_append_left _ hb⟩
    · cases hevs _ hs

def ClientOp.isPlain : ClientOp → Bool
  | .writeBundle _ => false
  | .writeState .serving => false
  | _ => true

lemma ClientOp.events_plain {o : ClientOp} (ho : o.isPlain = true) (inp : ClientInput) :
    ∀ e ∈ o.events inp, e.isPlain = true := by
  intro e he
  cases o with
  | writeState state =>
    rw [List.mem_singleton.mp he]
    cases state <;> first | rfl | cases ho
  | post url req =>
    rw [List.mem_singleton.mp he]
    rfl
  | jsonResponse =>
    simp only [ClientOp.events] at he
    split at he
    · rw [List.mem_singleton.mp he]
      rfl
    · cases he
  | writeBundle bundle => cases ho
  | _ => cases he

lemma InOrder.cancel {h evs : List ClientEvent} (hh : InOrder h) {s t : ServiceIdentity}
    {o : ClientOp} (hc : s.cancel o = some (t, evs)) : InOrder (h ++ evs) := by
  refine hh.append_plain ?_
  intro e he
  cases o <;> cases hc
  case post url req =>
    rw [List.mem_singleton.mp he]
    rfl
  all_goals cases he

section Safety

variable {α : Type} {Ψ : List ClientEvent → α → Prop} {h : List ClientEvent}

abbrev anyCall : ServiceIdentity → ClientOp → ClientInput → Prop := fun _ _ _ => True

/-- The rule for one call: what it writes keeps the order, and so does what follows. -/
lemma call_safe {o : ClientOp} {k : clientSig.Reply o → Client α} (hh : InOrder h)
    (hnext : ∀ inp : ClientInput, Safe clientEnv anyCall InOrder Ψ (k (inp.answer o)) (h ++ o.events inp)) :
    Safe clientEnv anyCall InOrder Ψ (.call o k) h := by
  refine ⟨hh, ?_, ?_⟩
  · intro s i inp t r evs _ hr
    cases hr
    exact hnext inp
  · intro s i inp t evs _ hc
    exact hh.cancel hc

lemma plain_safe {o : ClientOp} {k : clientSig.Reply o → Client α} (ho : o.isPlain = true)
    (hh : InOrder h)
    (hnext : ∀ r h', InOrder h' → Safe clientEnv anyCall InOrder Ψ (k r) h') :
    Safe clientEnv anyCall InOrder Ψ (.call o k) h :=
  call_safe hh (fun inp => hnext _ _ (hh.append_plain (ClientOp.events_plain ho inp)))

end Safety

lemma fetchNonce_safe {missing vaultUrl : String} {h : List ClientEvent} (hh : InOrder h) :
    Safe clientEnv anyCall InOrder (fun h' _ => InOrder h') (fetchNonceWith missing vaultUrl) h := by
  unfold fetchNonceWith
  refine plain_safe rfl hh ?_
  intro sent h₁ hh₁
  cases sent with
  | error e => exact hh₁
  | ok u =>
    refine plain_safe rfl hh₁ ?_
    intro body h₂ hh₂
    cases body with
    | error e => exact hh₂
    | ok body =>
      simp only [Prog.bind]
      cases (body.index "nonce").asStr with
      | none => exact hh₂
      | some nonce => exact hh₂

lemma grant_inOrder {h : List ClientEvent} (hh : InOrder h) (b : CertBundle) :
    InOrder (h ++ [.received b] ++ [.bundleWritten b]) := by
  constructor
  · intro c hc
    rcases List.mem_append.mp hc with hc | hc
    · rcases List.mem_append.mp hc with hc | hc
      · simp [hh.received c hc]
      · simp at hc
    · cases List.mem_singleton.mp hc
      simp
  · intro _
    exact ⟨b, by simp⟩

lemma InOrder.serve {h : List ClientEvent} (hh : InOrder h) {b : CertBundle}
    (hb : .bundleWritten b ∈ h) : InOrder (h ++ [.stateWritten .serving]) := by
  constructor
  · intro c hc
    rcases List.mem_append.mp hc with hc | hc
    · exact List.mem_append_left _ (hh.received c hc)
    · simp at hc
  · intro _
    exact ⟨b, List.mem_append_left _ hb⟩

variable (hexError serviceName) in
theorem unseal_inOrder (vaultUrl : String) :
    Safe clientEnv anyCall InOrder (fun h _ => InOrder h)
      (ServiceIdentity.unseal hexError serviceName vaultUrl) [] := by
  unfold ServiceIdentity.unseal
  refine plain_safe rfl inOrder_nil ?_
  intro _ h₁ hh₁
  refine plain_safe rfl hh₁ ?_
  intro machineId h₂ hh₂
  simp only [Prog.bind]
  refine Safe.bind (fetchNonce_safe hh₂) ?_
  intro h₃ nonce hh₃
  cases nonce with
  | error e => exact hh₃
  | ok nonceHex =>
    simp only
    cases Hex.decode nonceHex with
    | none => exact hh₃
    | some nonceBytes =>
      refine plain_safe rfl hh₃ ?_
      intro quote h₄ hh₄
      refine plain_safe rfl hh₄ ?_
      intro posted h₅ hh₅
      cases posted with
      | error e => exact hh₅
      | ok status =>
        simp only [Prog.bind]
        by_cases hstatus : isSuccess status = true
        · simp only [hstatus, Bool.not_true, Bool.false_eq_true, ↓reduceIte]
          refine call_safe hh₅ ?_
          rintro ⟨-, -, -, -, -, -, response⟩
          cases response with
          | error e =>
            simp only [ClientInput.answer, ClientOp.events, Prog.bind, List.append_nil]
            exact hh₅
          | ok resp =>
            have hreceived : InOrder (h₅ ++ [.received resp.bundle]) :=
              hh₅.append_plain (by simp [ClientEvent.isPlain])
            refine call_safe hreceived ?_
            intro _
            have hwritten := grant_inOrder hh₅ resp.bundle
            refine call_safe hwritten ?_
            intro _
            exact hwritten.serve (List.mem_append_right _ (List.mem_singleton_self _))
        · simp only [hstatus, Bool.not_false, ↓reduceIte]
          refine plain_safe rfl hh₅ ?_
          intro body h₆ hh₆
          refine plain_safe rfl hh₆ ?_
          intro _ h₇ hh₇
          exact hh₇

variable {as : List (Action String ClientInput)} {s : IdentitySystem} {tr : IdentityTrace}

/-- What the locks hold was written in the run, and a bundle that was written is not lost. -/
structure Written (tr : IdentityTrace) (s : ServiceIdentity) : Prop where
  state : s.state = .serving → ∃ i, .did i (.stateWritten .serving) ∈ tr
  bundle : ∀ b, s.bundle = some b → ∃ i, .did i (.bundleWritten b) ∈ tr
  kept : s.bundle = none → ∀ i b, .did i (.bundleWritten b) ∉ tr

lemma Written.append {s : ServiceIdentity} {out : IdentityTrace} (h : Written tr s)
    (hout : ∀ i b, .did i (.bundleWritten b) ∉ out) : Written (tr ++ out) s := by
  constructor
  · intro hs
    obtain ⟨i, hi⟩ := h.state hs
    exact ⟨i, List.mem_append_left _ hi⟩
  · intro b hb
    obtain ⟨i, hi⟩ := h.bundle b hb
    exact ⟨i, List.mem_append_left _ hi⟩
  · intro hnone i b hmem
    rcases List.mem_append.mp hmem with hmem | hmem
    · exact h.kept hnone i b hmem
    · exact hout i b hmem

lemma Written.write {s : ServiceIdentity} (h : Written tr s) (i : ℕ) (o : ClientOp)
    (inp : ClientInput) : Written (tr ++ (o.events inp).map (.did i)) (o.write s) := by
  cases o with
  | writeState state =>
    refine ⟨?_, ?_, ?_⟩
    · rintro rfl
      exact ⟨i, by simp [ClientOp.events]⟩
    · intro b hb
      obtain ⟨j, hj⟩ := h.bundle b hb
      exact ⟨j, List.mem_append_left _ hj⟩
    · intro hnone j b hmem
      exact h.kept hnone j b (by simpa [ClientOp.events] using hmem)
  | writeBundle bundle =>
    refine ⟨?_, ?_, ?_⟩
    · intro hs
      obtain ⟨j, hj⟩ := h.state hs
      exact ⟨j, List.mem_append_left _ hj⟩
    · intro b hb
      cases hb
      exact ⟨i, by simp [ClientOp.events]⟩
    · intro hnone
      cases hnone
  | jsonResponse =>
    refine h.append ?_
    intro j b hmem
    simp only [ClientOp.events] at hmem
    split at hmem <;> simp at hmem
  | _ => exact h.append (by simp [ClientOp.events])

lemma run_written (h : (identityRuns hexError serviceName).exec ⟨.new, []⟩ as = some (s, tr)) :
    Written tr s.shared := by
  refine exec_shared (I := Written) ?_ ?_ ?_ ?_ ?_ h
  · constructor
    · intro hs
      cases hs
    · intro b hb
      cases hb
    · intro _ i b hmem
      cases hmem
  · intro tr s e he hw
    refine hw.append ?_
    intro i b hmem
    rw [← List.mem_singleton.mp hmem] at he
    exact he
  · intro tr s i o inp t r evs hw hr
    cases hr
    exact hw.write i o inp
  · intro tr s i o inp t evs hw hc
    have hevs : t = s ∧ ∀ b, .bundleWritten b ∉ evs := by
      cases o <;> cases hc <;> simp
    rw [hevs.1]
    refine hw.append ?_
    intro j b hmem
    obtain ⟨e, he, heq⟩ := List.mem_map.mp hmem
    cases heq
    exact hevs.2 b he
  · intro tr s inp hw
    exact hw.append (by simp)

lemma run_inOrder (h : (identityRuns hexError serviceName).exec ⟨.new, []⟩ as = some (s, tr))
    {i : ℕ} {e : ClientEvent} (he : .did i e ∈ tr) : InOrder (history i tr) := by
  have hall := exec_history (Φ := fun _ => InOrder) (Ψ := fun _ h _ => InOrder h)
    (fun _ => inOrder_nil)
    (unseal_inOrder hexError serviceName) h (meets_true _ _)
  cases hi : s.tasks[i]? with
  | none =>
    have hmem : e ∈ history i tr := mem_history.mpr he
    rw [hall.2 i (List.getElem?_eq_none_iff.mp hi)] at hmem
    cases hmem
  | some t => exact (hall.1 i t hi).now (Φ := fun _ => InOrder) (fun _ _ _ ho => ho)

/-- An identity that serves has a bundle, which the vault gave to one of the calls, and no call
ever takes the bundle away. -/
theorem serving_has_bundle
    (h : (identityRuns hexError serviceName).exec ⟨.new, []⟩ as = some (s, tr)) :
    (s.shared.isServing = true →
      ∃ b i, s.shared.bundle = some b ∧ .did i (.received b) ∈ tr) ∧
    ∀ as₁ as₂ s₁ tr₁, as = as₁ ++ as₂ →
      (identityRuns hexError serviceName).exec ⟨.new, []⟩ as₁ = some (s₁, tr₁) →
      s₁.shared.bundle ≠ none → s.shared.bundle ≠ none := by
  have hwritten := run_written h
  constructor
  · intro hserving
    obtain ⟨i, hi⟩ := hwritten.state (by simpa [ServiceIdentity.isServing] using hserving)
    -- the call that announced `Serving` had written a bundle, so the lock holds some bundle
    obtain ⟨b₀, hb₀⟩ := (run_inOrder h hi).written (mem_history.mpr hi)
    cases hb : s.shared.bundle with
    | none => exact absurd (mem_history.mp hb₀) (hwritten.kept hb i b₀)
    | some b =>
      obtain ⟨j, hj⟩ := hwritten.bundle b hb
      exact ⟨b, j, rfl, mem_history.mp ((run_inOrder h hj).received b (mem_history.mpr hj))⟩
  · intro as₁ as₂ s₁ tr₁ has h₁ hsome hnone
    obtain ⟨b, hb⟩ := Option.ne_none_iff_exists'.mp hsome
    obtain ⟨i, hi⟩ := (run_written h₁).bundle b hb
    rw [has] at h
    obtain ⟨t, tr₁', tr₂, h₁', -, rfl⟩ := Machine.exec_append.mp h
    rw [h₁] at h₁'
    cases h₁'
    exact hwritten.kept hnone i b (List.mem_append_left _ hi)

section Sample

def clientSample : ClientInput where
  machineId := .ok "machine-1"
  sent := .ok ()
  body := .ok (.object [("nonce", .string "0a0b")])
  quote := generateQuote id
  posted := .ok 200
  text := none
  response := .ok ⟨⟨"CERT", "KEY", "CA", seconds 300, "01"⟩⟩

/-- A call on a new identity that is polled `n` times. -/
def callOnce (n : ℕ) (inp : ClientInput) : List (Action String ClientInput) :=
  .arrive "http://localhost:8003" :: List.replicate n (.poll 0 inp)

end Sample

theorem serving_has_bundle_granted :
    ∃ s tr b i, (identityRuns id "user-service").exec ⟨.new, []⟩ (callOnce 9 clientSample) =
        some (s, tr) ∧
      s.shared.isServing = true ∧ s.shared.bundle = some b ∧ .did i (.received b) ∈ tr := by
  have hrun : ∃ s tr, (identityRuns id "user-service").exec ⟨.new, []⟩
      (callOnce 9 clientSample) = some (s, tr) ∧ s.shared.isServing = true := ⟨_, _, rfl, rfl⟩
  obtain ⟨s, tr, h, hserving⟩ := hrun
  obtain ⟨b, i, hb, hi⟩ := (serving_has_bundle h).1 hserving
  exact ⟨s, tr, b, i, h, hserving, hb, hi⟩

/-- What a call owes to an identity that it found in state `s`, once it has returned. -/
def Restores (s t : ServiceIdentity) : Except AppError CertBundle → Prop
  | .ok bundle => t.state = .serving ∧ t.bundle = some bundle
  | .error _ => t.state = .locked ∧ t.bundle = s.bundle

/-- The vault gives a nonce in hex and answers the request, and if the answer grants a bundle it
can be read. -/
def Completes (inp : ClientInput) : Prop :=
  ∃ body nonce bytes status, inp.sent = .ok () ∧ inp.body = .ok body ∧
    (body.index "nonce").asStr = some nonce ∧ Hex.decode nonce = some bytes ∧
    inp.posted = .ok status ∧ (isSuccess status = true → ∃ resp, inp.response = .ok resp)

lemma stuck_iff {s t : ServiceIdentity} {e : AppError} {P : Prop} (ht : t.state = .unsealing)
    (hP : ¬P) : (Restores s t (.error e) ↔ P) ∧ (t.state ≠ .unsealing ↔ P) := by
  simp [Restores, ht, hP]

lemma restored_iff {s t : ServiceIdentity} {a : Except AppError CertBundle} {P : Prop}
    (hr : Restores s t a) (hP : P) : (Restores s t a ↔ P) ∧ (t.state ≠ .unsealing ↔ P) := by
  have ht : t.state ≠ .unsealing := by
    cases a <;> simp [hr.1]
  simp [hr, ht, hP]

lemma unseal_finish (hexError : String → String) (serviceName vaultUrl : String)
    (inp : ClientInput) (s : ServiceIdentity) :
    let done := Client.finish inp s (ServiceIdentity.unseal hexError serviceName vaultUrl)
    (Restores s done.1 done.2.1 ↔ Completes inp) ∧ (done.1.state ≠ .unsealing ↔ Completes inp) := by
  obtain ⟨machineId, sent, body, quote, posted, text, response⟩ := inp
  cases sent with
  | error e => exact stuck_iff rfl (by simp [Completes])
  | ok u =>
    cases body with
    | error e => exact stuck_iff rfl (by simp [Completes])
    | ok body =>
      unfold ServiceIdentity.unseal ServiceIdentity.fetchNonce fetchNonceWith
      simp only [Prog.perform, finish_bind, Client.finish, ClientInput.answer]
      cases hnonce : (body.index "nonce").asStr with
      | none => exact stuck_iff rfl (by simp [Completes, hnonce])
      | some nonce =>
        simp only [pure, Client.finish]
        cases hdec : Hex.decode nonce with
        | none => exact stuck_iff rfl (by simp [Completes, hnonce, hdec])
        | some bytes =>
          cases posted with
          | error e => exact stuck_iff rfl (by simp [Completes])
          | ok status =>
            simp only [finish_bind, Client.finish, ClientInput.answer]
            have hreached : Completes ⟨machineId, .ok u, .ok body, quote, .ok status, text, response⟩ ↔
                (isSuccess status = true → ∃ resp, response = .ok resp) := by
              simp [Completes, hnonce, hdec]
            rw [hreached]
            by_cases hstatus : isSuccess status = true
            · simp only [hstatus, Bool.not_true, Bool.false_eq_true, ↓reduceIte, forall_const]
              cases response with
              | error e => exact stuck_iff rfl (by simp)
              | ok resp => exact restored_iff ⟨rfl, rfl⟩ ⟨resp, rfl⟩
            · simp only [hstatus, Bool.not_false, ↓reduceIte]
              exact restored_iff ⟨rfl, rfl⟩ (by simp)

/-- No call is in flight. -/
def Quiet (s : IdentitySystem) : Prop :=
  ∀ t ∈ s.tasks, ∀ p, t.status ≠ .running p

/-- A call that starts with no other call in flight returns, and it keeps what the state diagram
promises exactly if the vault's answers are of the kind that it expects. On every other answer it
leaves the identity in `Unsealing`. -/
theorem unseal_restores_iff (hexError : String → String) (serviceName vaultUrl : String)
    (inp : ClientInput) (sys : IdentitySystem) (hquiet : Quiet sys) :
    ∃ (n : ℕ) (s : IdentitySystem) (tr : IdentityTrace) (a : Except AppError CertBundle),
      (identityRuns hexError serviceName).exec sys
        (.arrive vaultUrl :: List.replicate n (.poll sys.tasks.length inp)) = some (s, tr) ∧
      .responded sys.tasks.length a ∈ tr ∧ Quiet s ∧
      (Restores sys.shared s.shared a ↔ Completes inp) ∧
      (s.shared.state ≠ .unsealing ↔ Completes inp) := by
  have hrun := run_finish sys.tasks.length inp sys.shared
    (ServiceIdentity.unseal hexError serviceName vaultUrl)
  have hdone := unseal_finish hexError serviceName vaultUrl inp sys.shared
  generalize Client.finish inp sys.shared (ServiceIdentity.unseal hexError serviceName vaultUrl) =
    done at hrun hdone
  obtain ⟨t, a, evs⟩ := done
  obtain ⟨n, hexec⟩ := exec_run (ServiceIdentity.unseal hexError serviceName) vaultUrl hrun
  refine ⟨n, _, _, a, Machine.exec_cons.mpr ⟨_, _, _, rfl, hexec, rfl⟩, by simp, ?_, hdone⟩
  intro task htask p
  rcases List.mem_append.mp htask with htask | htask
  · exact hquiet task htask p
  · rw [List.mem_singleton.mp htask]
    simp

def clientRefused : ClientInput := { clientSample with sent := .error "connection refused" }

/-- The vault cannot be reached: `unseal` returns the error and the identity stays in `Unsealing`
with no request in flight. -/
theorem unseal_leaves_unsealing :
    ∃ s, (identityRuns id "user-service").exec ⟨.new, []⟩ (callOnce 3 clientRefused) =
        some (s, [.arrived 0 "http://localhost:8003", .did 0 (.stateWritten .unsealing),
          .responded 0 (.error (.vaultUnreachable "connection refused"))]) ∧
      Quiet s ∧ s.shared.state = .unsealing ∧
      ¬Restores .new s.shared (.error (.vaultUnreachable "connection refused")) := by
  refine ⟨_, rfl, ?_, rfl, fun h => by cases h.1⟩
  intro t ht p hp
  cases List.mem_singleton.mp ht
  cases hp

theorem unseal_restores_iff_granted :
    ∃ (n : ℕ) (s : IdentitySystem) (tr : IdentityTrace) (a : Except AppError CertBundle),
      (identityRuns id "user-service").exec ⟨.new, []⟩
        (.arrive "http://localhost:8003" :: List.replicate n (.poll 0 clientSample)) =
          some (s, tr) ∧
      .responded 0 a ∈ tr ∧ Restores .new s.shared a := by
  obtain ⟨n, s, tr, a, hrun, hresponded, -, hrestores, -⟩ := unseal_restores_iff id "user-service"
    "http://localhost:8003" clientSample ⟨.new, []⟩ (fun t ht => (List.not_mem_nil ht).elim)
  have hdecode : Hex.decode "0a0b" = some [10, 11] := by decide
  refine ⟨n, s, tr, a, hrun, hresponded, hrestores.mpr ?_⟩
  exact ⟨_, "0a0b", [10, 11], 200, rfl, rfl, rfl, hdecode, rfl, fun _ => ⟨_, rfl⟩⟩

end SecureNet
