import SecureNet.CertSwap
import SecureNet.Serve

/-!
# Runs of the accept loop

What the loop, its connections and the rotation task have done at any time, and what becomes of the
streams that the listener offers. A failure on a connection stays in the task of that connection. A
failure of `accept` ends the loop.
-/

namespace SecureNet

open EventMachine KeyedStore Tasks

abbrev ServeEvent := TlsEvent ⊕ ServerEvent

/-- The events of a turn that handed a stream over. -/
def turnEvents (turn : ℕ × ServerConfig) : List ServeEvent :=
  [.inr (.accepted turn.1), .inl (.sawInner turn.2), .inr (.handed turn.1 turn.2)]

def turnsEvents (turns : List (ℕ × ServerConfig)) : List ServeEvent := turns.flatMap turnEvents

@[simp] lemma turnsEvents_append (l m : List (ℕ × ServerConfig)) :
    turnsEvents (l ++ m) = turnsEvents l ++ turnsEvents m := List.flatMap_append

@[simp] lemma turnsEvents_cons (turn : ℕ × ServerConfig) (l : List (ℕ × ServerConfig)) :
    turnsEvents (turn :: l) = turnEvents turn ++ turnsEvents l := List.flatMap_cons

/-- The turns before, and which call of the current one comes next. -/
inductive Serving (limit : ℕ) : List ServeEvent → serveSig.Op → Prop
  | accepting (turns : List (ℕ × ServerConfig)) (h : turns.length < limit) :
    Serving limit (turnsEvents turns) (.inr .accept)
  | reading (turns : List (ℕ × ServerConfig)) (stream : ℕ) :
    Serving limit (turnsEvents turns ++ [.inr (.accepted stream)]) (.inl .readInner)
  | releasing (turns : List (ℕ × ServerConfig)) (stream : ℕ) (config : ServerConfig) :
    Serving limit (turnsEvents turns ++ [.inr (.accepted stream), .inl (.sawInner config)])
      (.inl .releaseInner)
  | spawning (turns : List (ℕ × ServerConfig)) (stream : ℕ) (config : ServerConfig) :
    Serving limit (turnsEvents turns ++ [.inr (.accepted stream), .inl (.sawInner config)])
      (.inr (.spawn stream config))

/-- How the loop has ended, or that its turns are over. -/
inductive Served (limit : ℕ) : List ServeEvent → ServeResponse → Prop
  | looping (turns : List (ℕ × ServerConfig)) (h : turns.length = limit) :
    Served limit (turnsEvents turns) .looping
  | failed (turns : List (ℕ × ServerConfig)) (error : String) :
    Served limit (turnsEvents turns ++ [.inr (.acceptFailed error)]) (.failed error)

/-- What the loop has done at any time. -/
inductive Turning : List ServeEvent → Prop
  | head (turns : List (ℕ × ServerConfig)) : Turning (turnsEvents turns)
  | accepted (turns : List (ℕ × ServerConfig)) (stream : ℕ) :
    Turning (turnsEvents turns ++ [.inr (.accepted stream)])
  | read (turns : List (ℕ × ServerConfig)) (stream : ℕ) (config : ServerConfig) :
    Turning (turnsEvents turns ++ [.inr (.accepted stream), .inl (.sawInner config)])
  | failed (turns : List (ℕ × ServerConfig)) (error : String) :
    Turning (turnsEvents turns ++ [.inr (.acceptFailed error)])

/-- What a spawned task has done: it began, and its handshake used what it was handed. -/
inductive Connecting : List ServeEvent → Prop
  | idle : Connecting []
  | begun (stream : ℕ) (config : ServerConfig) (flights : ℕ) :
    Connecting (.inr (.begun stream config) :: List.replicate flights (.inr (.used stream config)))

lemma Serving.turning {limit : ℕ} {h : List ServeEvent} {o : serveSig.Op} (hs : Serving limit h o) :
    Turning h := by
  cases hs with
  | accepting turns h => exact .head turns
  | reading turns stream => exact .accepted turns stream
  | releasing turns stream config => exact .read turns stream config
  | spawning turns stream config => exact .read turns stream config

lemma Served.turning {limit : ℕ} {h : List ServeEvent} {a : ServeResponse} (hs : Served limit h a) :
    Turning h := by
  cases hs with
  | looping turns h => exact .head turns
  | failed turns error => exact .failed turns error

lemma turnsEvents_mem {turns : List (ℕ × ServerConfig)} {e : ServeEvent}
    (he : e ∈ turnsEvents turns) : ∃ turn ∈ turns, e ∈ turnEvents turn := List.mem_flatMap.mp he

/-- The events of the loop. -/
lemma Turning.mem {h : List ServeEvent} (ht : Turning h) {e : ServeEvent} (he : e ∈ h) :
    (∃ stream, e = .inr (.accepted stream)) ∨ (∃ config, e = .inl (.sawInner config)) ∨
      (∃ stream config, e = .inr (.handed stream config)) ∨
      ∃ error, e = .inr (.acceptFailed error) := by
  have hturns : ∀ {turns : List (ℕ × ServerConfig)}, e ∈ turnsEvents turns →
      (∃ stream, e = .inr (.accepted stream)) ∨ (∃ config, e = .inl (.sawInner config)) ∨
        (∃ stream config, e = .inr (.handed stream config)) ∨
        ∃ error, e = .inr (.acceptFailed error) := by
    intro turns hin
    obtain ⟨turn, -, hevent⟩ := turnsEvents_mem hin
    simp only [turnEvents, List.mem_cons, List.not_mem_nil, or_false] at hevent
    rcases hevent with rfl | rfl | rfl <;> simp
  cases ht with
  | head turns => exact hturns he
  | accepted turns _ | read turns _ _ | failed turns _ =>
    rcases List.mem_append.mp he with he | he
    · exact hturns he
    · simp only [List.mem_cons, List.not_mem_nil, or_false] at he
      rcases he with rfl | rfl <;> simp

/-- The events of a spawned task. -/
lemma Connecting.mem {h : List ServeEvent} (hc : Connecting h) {e : ServeEvent} (he : e ∈ h) :
    (∃ stream config, e = .inr (.begun stream config)) ∨
      ∃ stream config, e = .inr (.used stream config) := by
  cases hc with
  | idle => cases he
  | begun stream config flights =>
    rcases List.mem_cons.mp he with rfl | he
    · exact .inl ⟨stream, config, rfl⟩
    · exact .inr ⟨stream, config, List.eq_of_mem_replicate he⟩

/-- A call that the environment neither counts nor reports. -/
def ServerOp.isQuiet : ServerOp → Bool
  | .readRequest _ => true
  | .callApp _ => true
  | .writeResponse _ _ => true
  | _ => false

section Programs

lemma server_cancel_quiet (s : Server) (i : ℕ) (o : ServerOp) (inp : ServerInput) (t : Server)
    (evs : List ServerEvent) (h : serverEnv.cancel s i o inp = some (t, evs)) : evs = [] := by
  cases o <;> cases h <;> rfl

lemma serve_cancel_quiet : ∀ s i o inp t evs, serveEnv.cancel s i o inp = some (t, evs) → evs = [] :=
  sum_cancel_quiet (fun _ i _ _ _ _ hc => (tls_cancel_quiet (i := i) hc).2) server_cancel_quiet

lemma current_calls :
    Calls tlsEnv (fun h o => (h = [] ∧ o = .readInner) ∨
        ∃ config, h = [.sawInner config] ∧ o = .releaseInner)
      (fun h config => h = [.sawInner config]) RotatingTlsConfig.current [] := by
  refine ⟨.inl ⟨rfl, rfl⟩, ?_⟩
  intro s i inp t config evs hr
  cases hr
  refine ⟨.inr ⟨_, rfl, rfl⟩, ?_⟩
  intro s' i' inp' t' _ evs' hr'
  cases hr'
  exact rfl

lemma accept_reply {s t : TlsCells × Server} {i : ℕ} {inp : TlsInput × ServerInput}
    {accepted : Except String ℕ} {evs : List ServeEvent}
    (hr : serveEnv.reply s i (.inr .accept) inp = some (t, accepted, evs)) :
    (accepted = .ok s.2.accepted ∧ evs = [.inr (.accepted s.2.accepted)]) ∨
      ∃ error, accepted = .error error ∧ evs = [.inr (.acceptFailed error)] := by
  obtain ⟨evs', hr', -, rfl⟩ := sum_reply_inr hr
  generalize t.2 = server at hr'
  simp only [serverEnv, Server.reply] at hr'
  split at hr'
  · cases hr'
  · cases hr'
    exact .inl ⟨rfl, rfl⟩
  · cases hr'
    exact .inr ⟨_, rfl, rfl⟩

lemma spawn_reply {s t : TlsCells × Server} {i stream : ℕ} {config : ServerConfig}
    {inp : TlsInput × ServerInput} {u : Unit} {evs : List ServeEvent}
    (hr : serveEnv.reply s i (.inr (.spawn stream config)) inp = some (t, u, evs)) :
    evs = [.inr (.handed stream config)] := by
  obtain ⟨evs', hr', -, rfl⟩ := sum_reply_inr hr
  generalize t.2 = server at hr'
  cases hr'
  rfl

lemma current_turn {limit stream : ℕ} (turns : List (ℕ × ServerConfig)) :
    Calls serveEnv (Serving limit)
      (fun h config => h = turnsEvents turns ++ [.inr (.accepted stream), .inl (.sawInner config)])
      RotatingTlsConfig.current.inl (turnsEvents turns ++ [.inr (.accepted stream)]) := by
  have hcurrent : Calls serveEnv _ _ _ _ :=
    current_calls.inl (turnsEvents turns ++ [.inr (.accepted stream)])
  rw [List.map_nil, List.append_nil] at hcurrent
  apply hcurrent.mono
  · rintro _ _ ⟨h, o, rfl, rfl, ⟨rfl, rfl⟩ | ⟨config, rfl, rfl⟩⟩
    · rw [List.map_nil, List.append_nil]
      exact .reading turns stream
    · rw [List.append_assoc]
      exact .releasing turns stream config
  · rintro _ config ⟨_, rfl, rfl⟩
    rw [List.append_assoc]
    rfl

lemma serveMtls_calls {limit n : ℕ} {turns : List (ℕ × ServerConfig)}
    (hn : turns.length + n = limit) :
    Calls serveEnv (Serving limit) (Served limit) (serveMtls n) (turnsEvents turns) := by
  induction n generalizing turns with
  | zero => exact .looping turns hn
  | succ n ih =>
    refine ⟨.accepting turns (by omega), ?_⟩
    intro s i inp t accepted evs hr
    obtain ⟨rfl, rfl⟩ | ⟨error, rfl, rfl⟩ := accept_reply hr
    · apply (current_turn turns).bind
      rintro _ config rfl
      refine ⟨.spawning turns s.2.accepted config, ?_⟩
      intro s' i' inp' t' _ evs hr'
      rw [spawn_reply hr']
      have hturn : turnsEvents (turns ++ [(s.2.accepted, config)]) =
          turnsEvents turns ++ [.inr (.accepted s.2.accepted), .inl (.sawInner config)] ++
            [.inr (.handed s.2.accepted config)] := by
        simp [turnsEvents, turnEvents]
      rw [← hturn]
      exact ih (by rw [List.length_append, List.length_singleton]; omega)
    · exact .failed turns error

lemma server_quiet {s t : TlsCells × Server} {i : ℕ} {o : ServerOp} {inp : TlsInput × ServerInput}
    {r : serverSig.Reply o} {evs : List ServeEvent} (ho : o.isQuiet = true)
    (hr : serveEnv.reply s i (.inr o) inp = some (t, r, evs)) : evs = [] := by
  obtain ⟨evs', hr', -, rfl⟩ := sum_reply_inr hr
  cases o with
  | readRequest stream | callApp stream | writeResponse stream status =>
    generalize t.2 = server at hr'
    cases hr'
    rfl
  | _ => cases ho

variable {h : List ServeEvent}

lemma acceptTls_calls {stream flights used : ℕ} {config : ServerConfig} :
    Calls serveEnv (fun h _ => Connecting h) (fun h _ => Connecting h)
      (acceptTls stream config flights)
      (.inr (.begun stream config) :: List.replicate used (.inr (.used stream config))) := by
  induction flights generalizing used with
  | zero => exact .begun stream config used
  | succ flights ih =>
    refine ⟨.begun stream config used, ?_⟩
    intro s i inp t flight evs hr
    obtain ⟨evs', hr', -, rfl⟩ := sum_reply_inr hr
    generalize t.2 = server at hr'
    cases hr'
    have hused : .inr (.begun stream config) :: List.replicate used (.inr (.used stream config)) ++
        [.inr (.used stream config)] =
          (.inr (.begun stream config) ::
            List.replicate (used + 1) (.inr (.used stream config)) : List ServeEvent) := by
      rw [List.cons_append, ← List.replicate_succ']
    rw [List.map_singleton, hused]
    cases inp.2.flight with
    | error e => exact .begun stream config (used + 1)
    | ok last =>
      cases last with
      | false => exact ih
      | true => exact .begun stream config (used + 1)

lemma serveConnection_calls {stream requests : ℕ} (hc : Connecting h) :
    Calls serveEnv (fun h _ => Connecting h) (fun h _ => Connecting h)
      (serveConnection stream requests) h := by
  induction requests with
  | zero => exact hc
  | succ requests ih =>
    refine ⟨hc, ?_⟩
    intro s i inp t request evs hr
    rw [server_quiet rfl hr, List.append_nil]
    cases request with
    | error e => exact hc
    | ok u =>
      refine ⟨hc, ?_⟩
      intro s i inp t called evs hr
      rw [server_quiet rfl hr, List.append_nil]
      refine ⟨hc, ?_⟩
      intro s i inp t written evs hr
      rw [server_quiet rfl hr, List.append_nil]
      cases written with
      | error e => exact hc
      | ok u => exact ih

lemma connection_calls (n flights requests : ℕ) :
    Calls serveEnv (fun h _ => Connecting h) (fun h _ => Connecting h)
      (connection n flights requests) [] := by
  refine ⟨.idle, ?_⟩
  intro s i inp t handed evs hr
  obtain ⟨evs', hr', -, rfl⟩ := sum_reply_inr hr
  have hbegun : evs' = [.begun handed.1 handed.2] := by
    generalize t.2 = server at hr'
    simp only [serverEnv, Server.reply] at hr'
    split at hr'
    · cases hr'
      rfl
    · cases hr'
  rw [hbegun]
  have hshake : Calls serveEnv _ _ (acceptTls handed.1 handed.2 flights)
      (.inr (.begun handed.1 handed.2) :: List.replicate 0 _) := acceptTls_calls
  apply Calls.bind (p := acceptTls handed.1 handed.2 flights) hshake
  intro h shaken hc
  cases shaken with
  | error e => exact hc
  | ok u =>
    apply (serveConnection_calls hc).bind
    intro h' _ hc'
    exact hc'

variable (T : Rustls) (isGateway : Bool) (serviceName : String)

/-- What a task has done at any time. -/
def ServeGrammar : ServeRequest → List ServeEvent → Prop
  | .rotate _ _, h => ∃ h', h = h'.map .inl ∧ Swapping T isGateway h'
  | .serve _, h => Turning h
  | .connection _ _ _, h => Connecting h

lemma serveGrammar_nil (r : ServeRequest) : ServeGrammar T isGateway r [] := by
  cases r with
  | rotate rounds ttl => exact ⟨[], rfl, .closed [] .nil⟩
  | serve turns => exact .head []
  | connection n flights requests => exact .idle

lemma serveHandler_safe (r : ServeRequest) :
    Safe serveEnv (fun _ _ _ => True) (ServeGrammar T isGateway r)
      (fun h _ => ServeGrammar T isGateway r h) (serveHandler T isGateway serviceName r) [] := by
  cases r with
  | rotate rounds ttl =>
    apply Safe.bind (Safe.inl (h := []) (rotationLoop_safe .nil))
    intro h _ hh
    exact hh
  | serve turns =>
    have hcalls : Calls serveEnv _ _ (serveMtls turns) (turnsEvents []) :=
      serveMtls_calls (Nat.zero_add turns)
    exact (hcalls.safe serve_cancel_quiet (fun _ _ hs => hs.turning)).mono (fun _ hh => hh)
      (fun _ _ hs => hs.turning)
  | connection n flights requests =>
    apply (connection_calls n flights requests).safe serve_cancel_quiet
    intro h _ hc
    exact hc

end Programs

section Trace

/-- What the listener gave, as an event of the loop says it. -/
def outcome : ServeEvent → Option (Except String Unit)
  | .inr (.accepted _) => some (.ok ())
  | .inr (.acceptFailed error) => some (.error error)
  | _ => none

def acceptedStream : ServeEvent → Option ℕ
  | .inr (.accepted stream) => some stream
  | _ => none

def handedStream : ServeEvent → Option ℕ
  | .inr (.handed stream _) => some stream
  | _ => none

/-- The streams that were given to a task of their own. -/
def handedStreams (tr : ServeTrace) : List ℕ := tr.filterMap (Event.effect handedStream)

/-- How many streams a listener has. They are numbered in their order. -/
def offered (listener : List (Except String Unit)) : ℕ := listener.countP Except.isOk

/-- Task `j` is the accept loop, and no other task is one. -/
def OnlyServer (j : ℕ) (tr : ServeTrace) : Prop :=
  ∀ i r, .arrived i r ∈ tr → (r.isServer = true ↔ i = j)

variable {T : Rustls} {isGateway : Bool} {serviceName : String} {as : List ServeAction}
  {s : ServeSystem} {tr : ServeTrace} {cells : TlsCells} {server : Server}
  {listener : List (Except String Unit)} {j : ℕ}

/-- A call takes from the listener what its events say. -/
lemma reply_consumes {s t : TlsCells × Server} {i : ℕ} {o : serveSig.Op}
    {inp : TlsInput × ServerInput} {r : serveSig.Reply o} {evs : List ServeEvent}
    (hr : serveEnv.reply s i o inp = some (t, r, evs)) :
    evs.filterMap outcome ++ t.2.listener = s.2.listener ∧
      List.range s.2.accepted ++ evs.filterMap acceptedStream = List.range t.2.accepted := by
  cases o with
  | inl o =>
    obtain ⟨evs', -, hsame, rfl⟩ := sum_reply_inl hr
    rw [hsame, List.filterMap_map, List.filterMap_map]
    simp [Function.comp_def, outcome, acceptedStream]
  | inr o =>
    obtain ⟨evs', hr', -, rfl⟩ := sum_reply_inr hr
    generalize t.2 = server at hr' ⊢
    cases o with
    | accept =>
      simp only [serverEnv, Server.reply] at hr'
      split at hr'
      · cases hr'
      · next rest hlistener =>
        cases hr'
        exact ⟨hlistener.symm, (List.range_succ).symm⟩
      · next error rest hlistener =>
        cases hr'
        exact ⟨hlistener.symm, List.append_nil _⟩
    | begin n =>
      simp only [serverEnv, Server.reply] at hr'
      split at hr'
      · cases hr'
        exact ⟨rfl, List.append_nil _⟩
      · cases hr'
    | _ =>
      cases hr'
      exact ⟨rfl, List.append_nil _⟩

lemma cancel_keeps {s t : TlsCells × Server} {i : ℕ} {o : serveSig.Op}
    {inp : TlsInput × ServerInput} {evs : List ServeEvent}
    (hc : serveEnv.cancel s i o inp = some (t, evs)) : t = s := by
  cases o with
  | inl o =>
    obtain ⟨u, hu, heq⟩ := Option.map_eq_some_iff.mp hc
    cases heq
    have hsame : u.1 = s.1 := (tls_cancel_quiet (i := i) (o := o) hu).1
    rw [hsame]
  | inr o =>
    obtain ⟨u, hu, heq⟩ := Option.map_eq_some_iff.mp hc
    cases heq
    cases o <;> cases hu <;> rfl

/-- What the listener gave, and what it still has. -/
lemma listener_consumed
    (h : (service T isGateway serviceName).exec ⟨(cells, .listening listener), []⟩ as =
      some (s, tr)) :
    tr.filterMap (Event.effect outcome) ++ s.shared.2.listener = listener ∧
      tr.filterMap (Event.effect acceptedStream) = List.range s.shared.2.accepted := by
  refine exec_shared (I := fun tr s =>
    tr.filterMap (Event.effect outcome) ++ s.2.listener = listener ∧
      tr.filterMap (Event.effect acceptedStream) = List.range s.2.accepted) ⟨rfl, rfl⟩ ?_ ?_ ?_ ?_ h
  · intro tr s e he ih
    rw [List.filterMap_append, List.filterMap_append, filterMap_effect_idle he,
      filterMap_effect_idle he, List.append_nil, List.append_nil]
    exact ih
  · intro tr s i o inp t r evs ih hr
    obtain ⟨hlistener, hstreams⟩ := reply_consumes hr
    rw [List.filterMap_append, List.filterMap_append, filterMap_effect_map, filterMap_effect_map,
      List.append_assoc, hlistener, ih.2, hstreams]
    exact ⟨ih.1, rfl⟩
  · intro tr s i o inp t evs ih hc
    rw [serve_cancel_quiet s i o inp t evs hc, cancel_keeps hc, List.map_nil, List.append_nil]
    exact ih
  · intro tr s inp ih
    rw [List.filterMap_append, List.filterMap_append, filterMap_effect_restarted,
      filterMap_effect_restarted, List.append_nil, List.append_nil]
    exact ih

/-- What every task has done. -/
lemma run_grammar (h : (service T isGateway serviceName).exec ⟨(cells, server), []⟩ as =
      some (s, tr)) (i : ℕ) :
    history i tr = [] ∨
      ∃ r, .arrived i r ∈ tr ∧ ServeGrammar T isGateway r (history i tr) := by
  have hall := exec_history (serveGrammar_nil T isGateway)
    (serveHandler_safe T isGateway serviceName) h (meets_true _ _)
  cases hi : s.tasks[i]? with
  | none => exact .inl (hall.2 i (List.getElem?_eq_none_iff.mp hi))
  | some t =>
    refine .inr ⟨t.request, (exec_arrived h i t.request).mpr ⟨t, hi, rfl⟩, ?_⟩
    exact (hall.1 i t hi).now (Φ := ServeGrammar T isGateway) (fun _ _ _ ho => ho)

/-- The tasks beside the accept loop neither take from the listener nor hand anything over. -/
lemma others_quiet (h : (service T isGateway serviceName).exec ⟨(cells, server), []⟩ as =
      some (s, tr)) (hone : OnlyServer j tr) (i : ℕ) (e : ServeEvent) (he : .did i e ∈ tr)
    (hi : i ≠ j) : outcome e = none ∧ acceptedStream e = none ∧ handedStream e = none := by
  rw [← mem_history] at he
  rcases run_grammar h i with hnil | ⟨r, harr, hgrammar⟩
  · rw [hnil] at he
    cases he
  · generalize history i tr = own at he hgrammar
    cases r with
    | rotate rounds ttl =>
      obtain ⟨h', rfl, -⟩ := hgrammar
      obtain ⟨e', -, rfl⟩ := List.mem_map.mp he
      exact ⟨rfl, rfl, rfl⟩
    | serve turns => exact absurd ((hone i _ harr).mp rfl) hi
    | connection n flights requests =>
      rcases Connecting.mem hgrammar he with ⟨stream, config, rfl⟩ | ⟨stream, config, rfl⟩ <;>
        exact ⟨rfl, rfl, rfl⟩

/-- What is read off one event of every turn. -/
lemma turnsEvents_filterMap {β : Type} {f : ServeEvent → Option β} {g : ℕ × ServerConfig → β}
    (hf : ∀ turn, (turnEvents turn).filterMap f = [g turn]) (turns : List (ℕ × ServerConfig)) :
    (turnsEvents turns).filterMap f = turns.map g := by
  induction turns with
  | nil => rfl
  | cons turn turns ih =>
    rw [turnsEvents_cons, List.filterMap_append, hf, ih]
    rfl

lemma turnsEvents_outcomes (turns : List (ℕ × ServerConfig)) :
    (turnsEvents turns).filterMap outcome = List.replicate turns.length (.ok ()) :=
  (turnsEvents_filterMap (fun _ => rfl) turns).trans List.map_const'

lemma turnsEvents_accepted (turns : List (ℕ × ServerConfig)) :
    (turnsEvents turns).filterMap acceptedStream = turns.map Prod.fst :=
  turnsEvents_filterMap (fun _ => rfl) turns

lemma turnsEvents_handed (turns : List (ℕ × ServerConfig)) :
    (turnsEvents turns).filterMap handedStream = turns.map Prod.fst :=
  turnsEvents_filterMap (fun _ => rfl) turns

/-- The accept loop waits for the listener, or has ended. -/
inductive Resting (limit : ℕ) : List ServeEvent → Server → Status serveSig ServeResponse → Prop
  | waiting (turns : List (ℕ × ServerConfig)) (server : Server) (k : Except String ℕ → _)
      (h : server.listener = []) :
    Resting limit (turnsEvents turns) server (.running (.call (.inr .accept) k))
  | looping (turns : List (ℕ × ServerConfig)) (server : Server) (h : turns.length = limit) :
    Resting limit (turnsEvents turns) server (.finished .looping)
  | failed (turns : List (ℕ × ServerConfig)) (server : Server) (error : String) :
    Resting limit (turnsEvents turns ++ [.inr (.acceptFailed error)]) server
      (.finished (.failed error))

/-- The condition of a call, which only the accept loop has. -/
def ServeCalls : ServeRequest → List ServeEvent → serveSig.Op → Prop
  | .serve turns => Serving turns
  | _ => fun _ _ => True

def ServeAnswers : ServeRequest → List ServeEvent → ServeResponse → Prop
  | .serve turns => Served turns
  | _ => fun _ _ => True

lemma serveHandler_calls (r : ServeRequest) :
    Calls serveEnv (ServeCalls r) (ServeAnswers r) (serveHandler T isGateway serviceName r) [] := by
  cases r with
  | rotate rounds ttl => exact calls_true
  | serve turns =>
    have hcalls : Calls serveEnv _ _ (serveMtls turns) (turnsEvents []) :=
      serveMtls_calls (Nat.zero_add turns)
    exact hcalls
  | connection n flights requests => exact calls_true

lemma run_resting (h : (service T isGateway serviceName).exec ⟨(cells, server), []⟩ as =
      some (s, tr)) {turns : ℕ} {status : Status serveSig ServeResponse}
    (hj : s.tasks[j]? = some ⟨.serve turns, status⟩) (hlive : status ≠ .dropped)
    {inp : TlsInput × ServerInput}
    (hrest : (service T isGateway serviceName).step s (.poll j inp) = none) :
    Resting turns (history j tr) s.shared.2 status := by
  have hobeys := (exec_calls serveHandler_calls h).1 j _ hj
  generalize history j tr = own at hobeys
  obtain ⟨a, rfl⟩ | rfl | ⟨o, k, rfl, hr⟩ := refused_cases hrest hj
  · have hserved : Served turns own a := hobeys
    cases hserved with
    | looping ts hts => exact .looping ts _ hts
    | failed ts error => exact .failed ts _ error
  · exact absurd rfl hlive
  · have hserving : Serving turns own o := hobeys.1
    cases hserving with
    | accepting ts hts =>
      refine .waiting ts _ k ?_
      cases hlistener : s.shared.2.listener with
      | nil => rfl
      | cons accepted rest =>
        cases accepted <;> simp [Environment.sum, serverEnv, Server.reply, hlistener] at hr
    | _ => cases hr

/-- No `accept` fails before another one returns a stream. -/
def FailsLast (listener : List (Except String Unit)) : Prop :=
  listener.Pairwise (fun x y => y.isOk = true → x.isOk = true)

lemma offered_replicate (n : ℕ) : offered (List.replicate n (.ok ())) = n := by
  simp [offered, Except.isOk, Except.toBool, List.countP_replicate]

lemma failsLast_replicate (n : ℕ) : FailsLast (List.replicate n (.ok ())) :=
  List.pairwise_replicate.mpr (.inr (fun _ => rfl))

section Failed

variable {n : ℕ} {error : String} {rest : List (Except String Unit)}

lemma offered_failed :
    offered (List.replicate n (.ok ()) ++ .error error :: rest) = n + offered rest := by
  rw [offered, List.countP_append, List.countP_cons_of_neg (by simp [Except.isOk, Except.toBool])]
  exact congrArg (· + offered rest) (offered_replicate n)

lemma failsLast_failed :
    FailsLast (List.replicate n (.ok ()) ++ .error error :: rest) ↔ offered rest = 0 := by
  rw [FailsLast, List.pairwise_append, List.pairwise_cons, offered, List.countP_eq_zero]
  constructor
  · rintro ⟨-, ⟨hrest, -⟩, -⟩ x hx hok
    cases hrest x hx hok
  · intro hrest
    refine ⟨failsLast_replicate n, ⟨?_, ?_⟩, ?_⟩
    · intro x hx hok
      exact absurd hok (hrest x hx)
    · exact List.pairwise_of_forall_mem_list (fun x _ y hy hok => absurd hok (hrest y hy))
    · intro x hx y _ _
      rw [List.eq_of_mem_replicate hx]
      rfl

end Failed

section Rested

variable {ts : List (ℕ × ServerConfig)} {left : List (Except String Unit)} {accepted : ℕ}

/-- The streams of the turns are numbered from 0. -/
lemma turns_numbered (hnumbers : (turnsEvents ts).filterMap acceptedStream = List.range accepted) :
    (turnsEvents ts).filterMap handedStream = List.range ts.length := by
  rw [turnsEvents_accepted] at hnumbers
  have hlength := congrArg List.length hnumbers
  rw [List.length_map, List.length_range] at hlength
  rw [turnsEvents_handed, hnumbers, hlength]

/-- A loop that has taken everything from its listener met no failure. -/
lemma handed_whole (hconsumed : (turnsEvents ts).filterMap outcome ++ [] = listener)
    (hnumbers : (turnsEvents ts).filterMap acceptedStream = List.range accepted) :
    (turnsEvents ts).filterMap handedStream = List.range (offered listener) ∧
      FailsLast listener ∧ ∀ accepted ∈ listener, accepted.isOk = true := by
  rw [List.append_nil, turnsEvents_outcomes] at hconsumed
  rw [turns_numbered hnumbers, ← hconsumed, offered_replicate]
  refine ⟨rfl, failsLast_replicate _, ?_⟩
  intro accepted hmem
  rw [List.eq_of_mem_replicate hmem]
  rfl

/-- A loop that a failure has ended leaves the rest of its listener. -/
lemma handed_failed {own : List ServeEvent} {error : String}
    (hown : own = turnsEvents ts ++ [.inr (.acceptFailed error)])
    (hconsumed : own.filterMap outcome ++ left = listener)
    (hnumbers : own.filterMap acceptedStream = List.range accepted) :
    (own.filterMap handedStream = List.range (offered listener) ↔ FailsLast listener) ∧
      .error error ∈ listener := by
  have hquiet : ∀ f : ServeEvent → Option ℕ, f (.inr (.acceptFailed error)) = none →
      own.filterMap f = (turnsEvents ts).filterMap f := by
    intro f hf
    rw [hown, List.filterMap_append, List.filterMap_cons_none hf, List.filterMap_nil,
      List.append_nil]
  rw [hquiet acceptedStream rfl] at hnumbers
  rw [hown, List.filterMap_append, turnsEvents_outcomes, List.append_assoc] at hconsumed
  have hcut : List.replicate ts.length (.ok ()) ++ .error error :: left = listener := hconsumed
  rw [hquiet handedStream rfl, turns_numbered hnumbers, ← hcut, offered_failed, failsLast_failed]
  refine ⟨?_, List.mem_append_right _ List.mem_cons_self⟩
  constructor
  · intro heq
    have hlength := congrArg List.length heq
    rw [List.length_range, List.length_range] at hlength
    omega
  · intro hzero
    rw [hzero, Nat.add_zero]

end Rested

/-- Whatever becomes of the connections, an accept loop that is polled comes to rest. Then it has
handed over every stream of the listener exactly if no `accept` failed before one of them, and it
is still there exactly if no `accept` failed. -/
theorem streams_handed_iff {turns : ℕ} {status : Status serveSig ServeResponse}
    (h : (service T isGateway serviceName).exec ⟨(cells, .listening listener), []⟩ as =
      some (s, tr))
    (hone : OnlyServer j tr) (hj : s.tasks[j]? = some ⟨.serve turns, status⟩)
    (hlive : status ≠ .dropped) (hturns : listener.length ≤ turns) (inp : TlsInput × ServerInput) :
    (∃ n t rest, (service T isGateway serviceName).exec s (List.replicate n (.poll j inp)) =
        some (t, rest) ∧ (service T isGateway serviceName).step t (.poll j inp) = none) ∧
      ((service T isGateway serviceName).step s (.poll j inp) = none →
        (handedStreams tr = List.range (offered listener) ↔ FailsLast listener) ∧
        ((∀ error, status ≠ .finished (.failed error)) ↔
          ∀ accepted ∈ listener, accepted.isOk = true)) := by
  refine ⟨comesToRest s, ?_⟩
  intro hrest
  have hresting := run_resting h hj hlive hrest
  obtain ⟨hconsumed, hnumbers⟩ := listener_consumed h
  have hothers := others_quiet h hone
  rw [handedStreams, filterMap_effect (fun i e he hi => (hothers i e he hi).2.2)]
  rw [filterMap_effect (fun i e he hi => (hothers i e he hi).1)] at hconsumed
  rw [filterMap_effect (fun i e he hi => (hothers i e he hi).2.1)] at hnumbers
  generalize history j tr = own at hresting hconsumed hnumbers
  cases hresting with
  | waiting ts server k hnil =>
    rw [hnil] at hconsumed
    obtain ⟨hhanded, hlast, hok⟩ := handed_whole hconsumed hnumbers
    exact ⟨iff_of_true hhanded hlast, iff_of_true (by simp) hok⟩
  | looping ts server hts =>
    have hnil : s.shared.2.listener = [] := by
      have hlength := congrArg List.length hconsumed
      rw [turnsEvents_outcomes, List.length_append, List.length_replicate] at hlength
      exact List.eq_nil_of_length_eq_zero (by omega)
    rw [hnil] at hconsumed
    obtain ⟨hhanded, hlast, hok⟩ := handed_whole hconsumed hnumbers
    exact ⟨iff_of_true hhanded hlast, iff_of_true (by simp) hok⟩
  | failed ts server error =>
    obtain ⟨hiff, hmem⟩ := handed_failed rfl hconsumed hnumbers
    refine ⟨hiff, iff_of_false (fun hnot => hnot error rfl) ?_⟩
    intro hok
    cases hok (.error error) hmem

end Trace

section Sample

/-- A client whose handshake fails. -/
def refusedHandshake : TlsInput × ServerInput :=
  (⟨.error (.vaultUnreachable "refused"), 0⟩, ⟨.error "bad certificate", .ok (), .ok 200, .ok ()⟩)

/-- Two streams arrive, and the handshake of the first one fails in between. -/
def twoStreams : List ServeAction :=
  .arrive (.serve 2) :: List.replicate 4 (.poll 0 refusedHandshake) ++
    [.arrive (.connection 0 1 1), .poll 1 refusedHandshake, .poll 1 refusedHandshake] ++
    List.replicate 4 (.poll 0 refusedHandshake)

/-- `accept` fails once, with a stream behind it. -/
def acceptFails : List ServeAction := [.arrive (.serve 2), .poll 0 refusedHandshake]

def tooManyFiles : String := "Too many open files (os error 24)"

end Sample

theorem streams_handed_iff_twoStreams :
    ∃ s tr, (service sampleRustls false "order-service").exec
        ⟨(sampleRotating.cells, .listening [.ok (), .ok ()]), []⟩ twoStreams = some (s, tr) ∧
      .responded 1 .closed ∈ tr ∧ handedStreams tr = List.range 2 := by
  have hrun : ∃ s tr, (service sampleRustls false "order-service").exec
      ⟨(sampleRotating.cells, .listening [.ok (), .ok ()]), []⟩ twoStreams = some (s, tr) ∧
      s.tasks[0]? = some ⟨.serve 2, .finished .looping⟩ ∧
      tr = [.arrived 0 (.serve 2), .did 0 (.inr (.accepted 0)),
        .did 0 (.inl (.sawInner sampleRotating.inner)),
        .did 0 (.inr (.handed 0 sampleRotating.inner)), .arrived 1 (.connection 0 1 1),
        .did 1 (.inr (.begun 0 sampleRotating.inner)), .did 1 (.inr (.used 0 sampleRotating.inner)),
        .responded 1 .closed, .did 0 (.inr (.accepted 1)),
        .did 0 (.inl (.sawInner sampleRotating.inner)),
        .did 0 (.inr (.handed 1 sampleRotating.inner)), .responded 0 .looping] :=
    ⟨_, _, rfl, rfl, rfl⟩
  obtain ⟨s, tr, h, hj, htr⟩ := hrun
  have hone : OnlyServer 0 tr := by
    intro i r hr
    simp only [htr, List.mem_cons, Event.arrived.injEq, reduceCtorEq, false_or, or_false,
      List.not_mem_nil] at hr
    rcases hr with ⟨rfl, rfl⟩ | ⟨rfl, rfl⟩
    · exact iff_of_true rfl rfl
    · exact iff_of_false (by decide) (by decide)
  have hrest : (service sampleRustls false "order-service").step s (.poll 0 refusedHandshake) =
      none := by
    simp only [service, machine, hj, Option.bind_some, pollTask]
  refine ⟨s, tr, h, by rw [htr]; simp, ?_⟩
  have hiff := (streams_handed_iff h hone hj (by simp) (by simp) refusedHandshake).2 hrest
  exact hiff.1.mpr (failsLast_replicate 2)

/-- The loop is over although a stream is waiting. -/
theorem failed_accept_ends_loop :
    ∃ s tr, (service sampleRustls false "order-service").exec
        ⟨(sampleRotating.cells, .listening [.error tooManyFiles, .ok ()]), []⟩ acceptFails =
          some (s, tr) ∧
      OnlyServer 0 tr ∧ s.tasks[0]? = some ⟨.serve 2, .finished (.failed tooManyFiles)⟩ ∧
      s.shared.2.listener = [.ok ()] ∧
      (∀ inp, (service sampleRustls false "order-service").step s (.poll 0 inp) = none) ∧
      handedStreams tr ≠ List.range (offered [.error tooManyFiles, .ok ()]) := by
  have hrun : ∃ s tr, (service sampleRustls false "order-service").exec
      ⟨(sampleRotating.cells, .listening [.error tooManyFiles, .ok ()]), []⟩ acceptFails =
        some (s, tr) ∧
      s.tasks[0]? = some ⟨.serve 2, .finished (.failed tooManyFiles)⟩ ∧
      s.shared.2.listener = [.ok ()] ∧
      tr = [.arrived 0 (.serve 2), .did 0 (.inr (.acceptFailed tooManyFiles)),
        .responded 0 (.failed tooManyFiles)] :=
    ⟨_, _, rfl, rfl, rfl, rfl⟩
  obtain ⟨s, tr, h, hj, hlistener, htr⟩ := hrun
  refine ⟨s, tr, h, ?_, hj, hlistener, ?_, ?_⟩
  · intro i r hr
    simp only [htr, List.mem_cons, Event.arrived.injEq, reduceCtorEq, or_false,
      List.not_mem_nil] at hr
    obtain ⟨rfl, rfl⟩ := hr
    exact iff_of_true rfl rfl
  · intro inp
    simp only [service, machine, hj, Option.bind_some, pollTask]
  · rw [htr]
    decide

end SecureNet
