import SecureNet.AcceptLoop

/-!
# Which configuration a handshake uses

The accept loop reads the shared configuration once for each stream, after `accept` has returned it
and before the task of the stream is spawned. The instant of this read orders the streams by the
swaps of the rotation task.
-/

namespace SecureNet

open EventMachine KeyedStore Tasks

/-- Task `k` is the rotation task of a service, and no other task is one. -/
def OnlyRotator (k : ℕ) (tr : ServeTrace) : Prop :=
  ∀ i r, .arrived i r ∈ tr → (r.isRotation = true ↔ i = k)

def innerInstall : ServeEvent → Option (CertBundle × ServerConfig)
  | .inl e => e.innerWrite
  | .inr _ => none

/-- The swaps of a trace, in their order: each bundle with the configuration that was installed. -/
def installs (tr : ServeTrace) : List (CertBundle × ServerConfig) :=
  tr.filterMap (Event.effect innerInstall)

/-- What is installed after a trace. -/
def installedAfter (boot : CertBundle × ServerConfig) (tr : ServeTrace) : CertBundle × ServerConfig :=
  (installs tr).getLast?.getD boot

/-- The accept loop reads `config` for a stream at the end of the prefix `p` of a trace. -/
structure ReadAt (j : ℕ) (tr : ServeTrace) (stream : ℕ) (config : ServerConfig) (p : ServeTrace) :
    Prop where
  next : ∃ q, tr = p ++ .did j (.inl (.sawInner config)) :: q
  accepted : ∃ turns, history j p = turnsEvents turns ++ [.inr (.accepted stream)]

section Prefixes

lemma prefix_cases {ε : Type} {tr p q : List ε} (hp : p <+: tr) (hq : q <+: tr) {x : ε}
    {rest : List ε} (hnext : tr = p ++ x :: rest) : q <+: p ∨ p ++ [x] <+: q := by
  have hx : p ++ [x] <+: tr := ⟨rest, by rw [hnext, List.append_assoc]; rfl⟩
  rcases Nat.lt_or_ge p.length q.length with hlt | hle
  · refine .inr (List.prefix_of_prefix_length_le hx hq ?_)
    rw [List.length_append, List.length_singleton]
    exact hlt
  · exact .inl (List.prefix_of_prefix_length_le hq hp hle)

lemma prefix_of_snoc {ε : Type} {g h : List ε} {x y : ε} (hxy : x ≠ y)
    (hp : g ++ [x] <+: h ++ [y]) : g ++ [x] <+: h := by
  rcases List.prefix_concat_iff.mp hp with heq | hp
  · exact absurd (List.append_inj' heq rfl).2 (by simpa using hxy)
  · exact hp

lemma history_mono {i : ℕ} {p q : ServeTrace} (hp : p <+: q) : history i p <+: history i q :=
  hp.filterMap _

lemma installs_mono {p q : ServeTrace} (hp : p <+: q) : installs p <+: installs q :=
  hp.filterMap _

end Prefixes

section Turns

/-- A stream that was handed over was read for before. -/
lemma Turning.handed {h : List ServeEvent} (ht : Turning h) {stream : ℕ} {config : ServerConfig}
    (hmem : .inr (.handed stream config) ∈ h) :
    ∃ turns rest, h = turnsEvents turns ++ [.inr (.accepted stream)] ++
      .inl (.sawInner config) :: rest := by
  have hturns : ∀ {ts : List (ℕ × ServerConfig)} (rest : List ServeEvent),
      .inr (.handed stream config) ∈ turnsEvents ts →
      ∃ turns rest', turnsEvents ts ++ rest = turnsEvents turns ++ [.inr (.accepted stream)] ++
        .inl (.sawInner config) :: rest' := by
    intro ts rest hin
    obtain ⟨turn, hturn, hevent⟩ := List.mem_flatMap.mp hin
    have heq : turn = (stream, config) := by
      simp only [turnEvents, List.mem_cons, Sum.inr.injEq, reduceCtorEq, ServerEvent.handed.injEq,
        false_or, List.not_mem_nil, or_false] at hevent
      rw [hevent.1, hevent.2]
    subst heq
    obtain ⟨before, after, rfl⟩ := List.append_of_mem hturn
    refine ⟨before, .inr (.handed stream config) :: (turnsEvents after ++ rest), ?_⟩
    rw [turnsEvents_append, turnsEvents_cons]
    simp [turnEvents]
  cases ht with
  | head ts =>
    obtain ⟨turns, rest, heq⟩ := hturns [] hmem
    rw [List.append_nil] at heq
    exact ⟨turns, rest, heq⟩
  | accepted ts s => exact hturns _ (by simpa using hmem)
  | read ts s c => exact hturns _ (by simpa using hmem)
  | failed ts e => exact hturns _ (by simpa using hmem)

end Turns

section Trace

variable {T : Rustls} {isGateway : Bool} {serviceName : String} {as : List ServeAction}
  {s : ServeSystem} {tr : ServeTrace} {cells : TlsCells} {server : Server}
  {listener : List (Except String Unit)} {j k : ℕ}

/-- The loop accepts the streams in their order. -/
lemma ReadAt.streams (h : (service T isGateway serviceName).exec
      ⟨(cells, .listening listener), []⟩ as = some (s, tr)) (hone : OnlyServer j tr)
    {stream : ℕ} {config : ServerConfig} {p : ServeTrace} (hread : ReadAt j tr stream config p) :
    ∃ turns : List (ℕ × ServerConfig),
      history j p = turnsEvents turns ++ [.inr (.accepted stream)] ∧
        turns.map Prod.fst = List.range stream := by
  obtain ⟨⟨q, hsplit⟩, turns, hturns⟩ := hread
  refine ⟨turns, hturns, ?_⟩
  have hnumbers := (listener_consumed h).2
  rw [filterMap_effect (fun i e he hi => (others_quiet h hone i e he hi).2.1), hsplit,
    history_append, List.filterMap_append, hturns, List.filterMap_append, turnsEvents_accepted,
    List.append_assoc] at hnumbers
  have hprefix : turns.map Prod.fst ++ [stream] <+: List.range s.shared.2.accepted :=
    ⟨_, by rw [← hnumbers, List.append_assoc]; rfl⟩
  have htake := List.prefix_iff_eq_take.mp hprefix
  rw [List.take_range, List.length_append, List.length_singleton, List.length_map] at htake
  have hle := hprefix.length_le
  rw [List.length_append, List.length_singleton, List.length_map, List.length_range] at hle
  rw [Nat.min_eq_left hle, List.range_succ] at htake
  obtain ⟨hfirst, hlast⟩ := List.append_inj' htake rfl
  rw [List.singleton_inj.mp hlast]
  exact hfirst

/-- The instants of the reads follow the numbers of the streams. -/
lemma ReadAt.mono (h : (service T isGateway serviceName).exec
      ⟨(cells, .listening listener), []⟩ as = some (s, tr)) (hone : OnlyServer j tr)
    {stream stream' : ℕ} {config config' : ServerConfig} {p p' : ServeTrace}
    (hread : ReadAt j tr stream config p) (hread' : ReadAt j tr stream' config' p')
    (hle : stream ≤ stream') : p <+: p' := by
  obtain ⟨turns, hturns, hstreams⟩ := hread.streams h hone
  obtain ⟨turns', hturns', hstreams'⟩ := hread'.streams h hone
  obtain ⟨q, hq⟩ := hread.next
  obtain ⟨q', hq'⟩ := hread'.next
  rcases prefix_cases ⟨_, hq'.symm⟩ ⟨_, hq.symm⟩ hq' with hbefore | hafter
  · exact hbefore
  · -- the later stream would have been accepted in a turn before the one of the earlier stream
    have hhistory := history_mono (i := j) hafter
    rw [history_append, history_did_cons, if_pos rfl, history_nil, hturns, hturns'] at hhistory
    have hin := prefix_of_snoc (by simp) hhistory
    have hfewer := (hin.filterMap acceptedStream).length_le
    rw [List.filterMap_append, List.filterMap_append, turnsEvents_accepted, turnsEvents_accepted,
      hstreams, hstreams'] at hfewer
    simp [acceptedStream] at hfewer
    omega

/-- What a reply hands to spawned tasks, and what it takes from them. -/
lemma reply_spawned {s t : TlsCells × Server} {i : ℕ} {o : serveSig.Op}
    {inp : TlsInput × ServerInput} {r : serveSig.Reply o} {evs : List ServeEvent}
    (hr : serveEnv.reply s i o inp = some (t, r, evs)) (stream : ℕ) (config : ServerConfig) :
    (some (stream, config) ∈ t.2.spawned →
        some (stream, config) ∈ s.2.spawned ∨ .inr (.handed stream config) ∈ evs) ∧
      (.inr (.begun stream config) ∈ evs → some (stream, config) ∈ s.2.spawned) := by
  cases o with
  | inl o =>
    obtain ⟨evs', -, hsame, rfl⟩ := sum_reply_inl hr
    rw [hsame]
    exact ⟨.inl, by simp⟩
  | inr o =>
    obtain ⟨evs', hr', -, rfl⟩ := sum_reply_inr hr
    generalize t.2 = server at hr' ⊢
    cases o with
    | accept =>
      simp only [serverEnv, Server.reply] at hr'
      split at hr' <;> cases hr' <;> exact ⟨.inl, by simp⟩
    | spawn stream' config' =>
      cases hr'
      refine ⟨?_, by simp⟩
      intro hin
      rcases List.mem_append.mp hin with hin | hin
      · exact .inl hin
      · cases List.mem_singleton.mp hin
        exact .inr (List.mem_singleton_self _)
    | begin n =>
      simp only [serverEnv, Server.reply] at hr'
      split at hr'
      · next hget =>
        cases hr'
        refine ⟨?_, ?_⟩
        · intro hin
          rcases List.mem_or_eq_of_mem_set hin with hin | hin
          · exact .inl hin
          · cases hin
        · intro hbegun
          cases List.mem_singleton.mp hbegun
          exact List.mem_of_getElem? hget
      · cases hr'
    | handshake | readRequest | callApp | writeResponse =>
      cases hr'
      exact ⟨.inl, by simp⟩

/-- What a spawned task will begin with was handed to it. -/
lemma spawned_handed (h : (service T isGateway serviceName).exec
      ⟨(cells, .listening listener), []⟩ as = some (s, tr)) (stream : ℕ) (config : ServerConfig)
    (hmem : some (stream, config) ∈ s.shared.2.spawned) :
    ∃ i, .did i (.inr (.handed stream config)) ∈ tr := by
  have hkeep : ∀ {tr m : ServeTrace}, (∃ i, .did i (.inr (.handed stream config)) ∈ tr) →
      ∃ i, .did i (.inr (.handed stream config)) ∈ tr ++ m :=
    fun ⟨i, hi⟩ => ⟨i, List.mem_append_left _ hi⟩
  refine exec_shared (I := fun tr s => some (stream, config) ∈ s.2.spawned →
    ∃ i, .did i (.inr (.handed stream config)) ∈ tr) ?_ ?_ ?_ ?_ ?_ h hmem
  · intro hnone
    cases hnone
  · intro tr s e _ ih hin
    exact hkeep (ih hin)
  · intro tr s i o inp t r evs ih hr hin
    obtain hold | hhanded := (reply_spawned hr stream config).1 hin
    · exact hkeep (ih hold)
    · exact ⟨i, List.mem_append_right _ (List.mem_map_of_mem hhanded)⟩
  · intro tr s i o inp t evs ih hc hin
    rw [cancel_keeps hc] at hin
    exact hkeep (ih hin)
  · intro tr s inp ih hin
    exact hkeep (ih hin)

/-- A handshake uses what its task began with. -/
lemma used_begun (h : (service T isGateway serviceName).exec ⟨(cells, server), []⟩ as =
      some (s, tr)) {l m : ServeTrace} {i stream : ℕ} {config : ServerConfig}
    (htr : tr = l ++ .did i (.inr (.used stream config)) :: m) :
    .did i (.inr (.begun stream config)) ∈ l := by
  have hsplit : history i tr = history i l ++ .inr (.used stream config) :: history i m := by
    rw [htr, history_append, history_did_cons, if_pos rfl]
  rcases run_grammar h i with hnil | ⟨r, -, hgrammar⟩
  · rw [hnil] at hsplit
    simp at hsplit
  · rw [← mem_history]
    rw [hsplit] at hgrammar
    generalize history i l = before at hgrammar ⊢
    generalize history i m = after at hgrammar
    cases r with
    | rotate rounds ttl =>
      obtain ⟨h', heq, -⟩ := hgrammar
      have hmem : (.inr (.used stream config) : ServeEvent) ∈ h'.map .inl := by
        rw [← heq]
        simp
      simp at hmem
    | serve turns =>
      have hmem : (.inr (.used stream config) : ServeEvent) ∈
          before ++ .inr (.used stream config) :: after := by simp
      have hkinds := Turning.mem hgrammar hmem
      simp at hkinds
    | connection n flights requests =>
      have hconnecting : Connecting (before ++ .inr (.used stream config) :: after) := hgrammar
      generalize heq : before ++ .inr (.used stream config) :: after = own at hconnecting
      cases hconnecting with
      | idle => simp at heq
      | begun stream' config' flights' =>
        cases before with
        | nil => cases heq
        | cons e before =>
          rw [List.cons_append] at heq
          obtain ⟨rfl, hrest⟩ := List.cons.inj heq
          have hused : (.inr (.used stream config) : ServeEvent) ∈
              List.replicate flights' (.inr (.used stream' config')) := by
            rw [← hrest]
            simp
          cases List.eq_of_mem_replicate hused
          exact List.mem_cons_self

/-- A handshake uses what the accept loop handed over before. -/
lemma used_handed (h : (service T isGateway serviceName).exec
      ⟨(cells, .listening listener), []⟩ as = some (s, tr)) (hone : OnlyServer j tr)
    {l m : ServeTrace} {i stream : ℕ} {config : ServerConfig}
    (htr : tr = l ++ .did i (.inr (.used stream config)) :: m) :
    .inr (.handed stream config) ∈ history j l := by
  obtain ⟨before, after, rfl⟩ := List.append_of_mem (used_begun h htr)
  have hbegun : tr = before ++ .did i (.inr (.begun stream config)) ::
      (after ++ .did i (.inr (.used stream config)) :: m) := by
    rw [htr]
    simp
  rw [hbegun] at h
  obtain ⟨as₁, s₁, tr₁, o, inp, t, r, evs₁, evs₂, h₁, hr, hbefore⟩ :=
    exec_replied serve_cancel_quiet h
  have hmem := (reply_spawned hr stream config).2 (List.mem_append_right _ List.mem_cons_self)
  obtain ⟨i', hi'⟩ := spawned_handed h₁ stream config hmem
  have hhanded : .did i' (.inr (.handed stream config)) ∈ before := by
    rw [hbefore]
    exact List.mem_append_left _ hi'
  have hj : i' = j := by
    by_contra hne
    have hquiet := (others_quiet h (hbegun ▸ hone) i' _ (List.mem_append_left _ hhanded) hne).2.2
    cases hquiet
  rw [mem_history]
  subst hj
  exact List.mem_append_left _ hhanded

/-- Every handshake goes back to a read of the shared configuration, after its stream was accepted
and before it started. -/
lemma used_readAt (h : (service T isGateway serviceName).exec
      ⟨(cells, .listening listener), []⟩ as = some (s, tr)) (hone : OnlyServer j tr)
    {l m : ServeTrace} {i stream : ℕ} {config : ServerConfig}
    (htr : tr = l ++ .did i (.inr (.used stream config)) :: m) :
    ∃ p, ReadAt j tr stream config p ∧ p <+: l := by
  have hhanded := used_handed h hone htr
  have hturning : Turning (history j tr) := by
    have hmem : .inr (.handed stream config) ∈ history j tr := by
      rw [htr, history_append]
      exact List.mem_append_left _ hhanded
    rcases run_grammar h j with hnil | ⟨r, harr, hgrammar⟩
    · rw [hnil]
      exact .head []
    · have hserver := (hone j r harr).mpr rfl
      cases r with
      | serve turns => exact hgrammar
      | _ => cases hserver
  obtain ⟨turns, rest, hsplit⟩ := hturning.handed (by
    rw [htr, history_append]
    exact List.mem_append_left _ hhanded)
  obtain ⟨p, q, hread, hp, -⟩ := history_split hsplit
  have hat : ReadAt j tr stream config p := ⟨⟨q, hread⟩, turns, hp⟩
  refine ⟨p, hat, ?_⟩
  rcases prefix_cases ⟨_, htr.symm⟩ ⟨_, hread.symm⟩ htr with hbefore | hafter
  · exact hbefore
  · -- a stream is not handed over in a turn before its own
    obtain ⟨turns', hturns', hstreams⟩ := hat.streams h hone
    have hlp : l <+: p := (List.prefix_append l _).trans hafter
    have hmem : .inr (.handed stream config) ∈ history j p :=
      (history_mono hlp).subset hhanded
    rw [hturns'] at hmem
    rcases List.mem_append.mp hmem with hmem | hmem
    · obtain ⟨turn, hturn, hevent⟩ := List.mem_flatMap.mp hmem
      have hfst : turn.1 = stream := by
        simp only [turnEvents, List.mem_cons, Sum.inr.injEq, reduceCtorEq,
          ServerEvent.handed.injEq, false_or, List.not_mem_nil, or_false] at hevent
        exact hevent.1.symm
      have hearlier := List.mem_map_of_mem (f := Prod.fst) hturn
      rw [hstreams, hfst] at hearlier
      simp at hearlier
    · simp at hmem

/-- The shared cell holds what was installed last. -/
lemma cell_installed (boot : CertBundle) (h : (service T isGateway serviceName).exec
      ⟨(cells, server), []⟩ as = some (s, tr)) :
    s.shared.1.inner = (installedAfter (boot, cells.inner) tr).2 := by
  have hsnd : ∀ last : Option (CertBundle × ServerConfig),
      (last.map Prod.snd).getD cells.inner = (last.getD (boot, cells.inner)).2 := by
    intro last
    cases last <;> rfl
  rw [installedAfter, ← hsnd]
  refine exec_shared (I := fun tr s => s.1.inner =
    ((lastEffect (Event.effect innerInstall) tr).map Prod.snd).getD cells.inner) rfl ?_ ?_ ?_ ?_ h
  · intro tr s e he ih
    rw [lastEffect_append, lastEffect, filterMap_effect_idle he]
    exact ih
  · intro tr s i o inp t r evs ih hr
    rw [lastEffect_append, lastEffect, filterMap_effect_map]
    cases o with
    | inl o =>
      obtain ⟨evs', hr', -, rfl⟩ := sum_reply_inl hr
      rw [(reply_writes hr').1, List.filterMap_map, ih]
      change _ = (((evs'.filterMap TlsEvent.innerWrite).getLast?.or _).map _).getD _
      rw [lastEffect]
      cases (evs'.filterMap TlsEvent.innerWrite).getLast? <;> rfl
    | inr o =>
      obtain ⟨evs', -, hsame, rfl⟩ := sum_reply_inr hr
      have hnil : (evs'.map .inr).filterMap innerInstall = [] := by
        simp [List.filterMap_map, Function.comp_def, innerInstall]
      rw [hnil, hsame]
      exact ih
  · intro tr s i o inp t evs ih hc
    rw [serve_cancel_quiet s i o inp t evs hc, cancel_keeps hc, List.map_nil, List.append_nil]
    exact ih
  · intro tr s inp ih
    rw [lastEffect_append, lastEffect, filterMap_effect_restarted]
    exact ih

/-- Only the rotation task installs anything. -/
lemma others_install_nothing (h : (service T isGateway serviceName).exec ⟨(cells, server), []⟩ as =
      some (s, tr)) (hone : OnlyRotator k tr) (i : ℕ) (e : ServeEvent) (he : .did i e ∈ tr)
    (hi : i ≠ k) : innerInstall e = none := by
  rw [← mem_history] at he
  rcases run_grammar h i with hnil | ⟨r, harr, hgrammar⟩
  · rw [hnil] at he
    cases he
  · cases r with
    | rotate rounds ttl => exact absurd ((hone i _ harr).mp rfl) hi
    | serve turns =>
      rcases Turning.mem hgrammar he with ⟨_, rfl⟩ | ⟨_, rfl⟩ | ⟨_, _, rfl⟩ | ⟨_, rfl⟩ <;> rfl
    | connection n flights requests =>
      rcases Connecting.mem hgrammar he with ⟨_, _, rfl⟩ | ⟨_, _, rfl⟩ <;> rfl

/-- What is installed is the configuration of its bundle. -/
lemma installed_built {rotating : RotatingTlsConfig} {boot : CertBundle}
    (hboot : buildConfig T isGateway boot = .ok rotating.inner)
    (h : (service T isGateway serviceName).exec ⟨(cells, server), []⟩ as = some (s, tr))
    (hone : OnlyRotator k tr) :
    buildConfig T isGateway (installedAfter (boot, rotating.inner) tr).1 =
      .ok (installedAfter (boot, rotating.inner) tr).2 := by
  have hothers := others_install_nothing h hone
  have hswapping : ∃ h', history k tr = h'.map .inl ∧ Swapping T isGateway h' := by
    rcases run_grammar h k with hnil | ⟨r, harr, hgrammar⟩
    · exact ⟨[], hnil, .closed [] .nil⟩
    · have hrotation := (hone k r harr).mpr rfl
      cases r with
      | rotate rounds ttl => exact hgrammar
      | _ => cases hrotation
  obtain ⟨h', hhistory, hs⟩ := hswapping
  have hlast : (installs tr).getLast? = lastEffect TlsEvent.innerWrite h' := by
    rw [installs, filterMap_effect hothers, hhistory, List.filterMap_map]
    rfl
  have hinner := hs.inner hboot
  rw [installedAfter, hlast]
  rw [presented] at hinner
  cases hlast' : lastEffect TlsEvent.innerWrite h' with
  | none =>
    rw [hlast'] at hinner
    exact hinner
  | some swap =>
    rw [hlast'] at hinner
    exact hinner

/-- A read shows what the cell holds, and nothing else. -/
lemma sawInner_reply {s t : TlsCells} {i : ℕ} {o : TlsOp} {inp : TlsInput} {r : tlsSig.Reply o}
    {evs : List TlsEvent} {config : ServerConfig} {before after : List ServeEvent}
    (hr : tlsEnv.reply s i o inp = some (t, r, evs))
    (heq : before ++ .inl (.sawInner config) :: after = evs.map .inl) :
    before = [] ∧ s.inner = config := by
  cases o <;> simp only [tlsEnv, TlsCells.reply] at hr
  case readInner =>
    cases hr
    obtain ⟨rfl, heq, -⟩ := split_singleton heq
    cases heq
    exact ⟨rfl, rfl⟩
  case writeInner bundle config' | writeSerial serial =>
    split at hr
    · cases hr
      obtain ⟨-, heq, -⟩ := split_singleton heq
      cases heq
    · cases hr
  case readSerial =>
    cases hr
    obtain ⟨-, heq, -⟩ := split_singleton heq
    cases heq
  all_goals
    cases hr
    simp at heq

/-- What the loop reads is the configuration of the bundle that is installed. -/
lemma ReadAt.installed {rotating : RotatingTlsConfig} {boot : CertBundle}
    (hboot : buildConfig T isGateway boot = .ok rotating.inner)
    (h : (service T isGateway serviceName).exec ⟨(rotating.cells, server), []⟩ as = some (s, tr))
    (hone : OnlyRotator k tr) {stream : ℕ} {config : ServerConfig} {p : ServeTrace}
    (hread : ReadAt j tr stream config p) :
    (installedAfter (boot, rotating.inner) p).2 = config ∧
      buildConfig T isGateway (installedAfter (boot, rotating.inner) p).1 = .ok config := by
  obtain ⟨q, rfl⟩ := hread.next
  obtain ⟨as₁, s₁, tr₁, o, inp, t, r, evs₁, evs₂, h₁, hr, hp⟩ := exec_replied serve_cancel_quiet h
  obtain ⟨rfl, hconfig⟩ : evs₁ = [] ∧ s₁.shared.1.inner = config := by
    cases o with
    | inr o =>
      obtain ⟨evs', -, -, heq⟩ := sum_reply_inr hr
      have hin : (.inl (.sawInner config) : ServeEvent) ∈ evs'.map .inr := by
        rw [← heq]
        simp
      simp at hin
    | inl o =>
      obtain ⟨evs', hr', -, heq⟩ := sum_reply_inl hr
      exact sawInner_reply hr' heq
  rw [List.map_nil, List.append_nil] at hp
  subst hp
  have hcell := cell_installed boot h₁
  have hbuilt := installed_built hboot h₁ (fun i r hr => hone i r (List.mem_append_left _ hr))
  have hsame : (installedAfter (boot, rotating.inner) p).2 = config := by
    rw [← hconfig, hcell]
    rfl
  rw [hsame] at hbuilt
  exact ⟨hsame, hbuilt⟩

lemma ReadAt.mem {stream : ℕ} {config : ServerConfig} {p : ServeTrace}
    (hread : ReadAt j tr stream config p) : .did j (.inr (.accepted stream)) ∈ p := by
  obtain ⟨turns, hturns⟩ := hread.accepted
  rw [← mem_history, hturns]
  simp

/-- A stream is read for once, so its instant can be chosen. -/
lemma exists_instant (h : (service T isGateway serviceName).exec
      ⟨(cells, .listening listener), []⟩ as = some (s, tr)) (hone : OnlyServer j tr) :
    ∃ instant : ℕ → ServeTrace,
      ∀ stream config p, ReadAt j tr stream config p → instant stream = p := by
  classical
  refine ⟨fun stream =>
    if hread : ∃ p config, ReadAt j tr stream config p then hread.choose else [], ?_⟩
  intro stream config p hread
  have hex : ∃ p config, ReadAt j tr stream config p := ⟨p, config, hread⟩
  obtain ⟨config', hread'⟩ := hex.choose_spec
  apply (dif_pos hex).trans
  exact (hread'.mono h hone hread le_rfl).eq_of_length_le (hread.mono h hone hread' le_rfl).length_le

end Trace

/-- In every interleaving of rotation, accept loop and connections: each stream has an instant
after its `accept` and before its handshake, and the handshake uses what was installed then. The
instants follow the order of the streams, and a swap before an `accept` is before its instant. -/
theorem config_fresh_at_accept {T : Rustls} {boot : CertBundle} {rotating : RotatingTlsConfig}
    {serviceName : String} {as : List ServeAction} {s : ServeSystem} {tr : ServeTrace} {j k : ℕ}
    {listener : List (Except String Unit)}
    (hnew : RotatingTlsConfig.new T boot = .ok rotating ∨
      RotatingTlsConfig.newGateway T boot = .ok rotating)
    (h : (service T rotating.isGateway serviceName).exec
      ⟨(rotating.cells, .listening listener), []⟩ as = some (s, tr))
    (hrotator : OnlyRotator k tr) (hserver : OnlyServer j tr) :
    s.shared.1.inner = (installedAfter (boot, rotating.inner) tr).2 ∧
    ∃ instant : ℕ → ServeTrace,
      (∀ l m i stream config, tr = l ++ .did i (.inr (.used stream config)) :: m →
        instant stream <+: l ∧ .did j (.inr (.accepted stream)) ∈ instant stream ∧
        (installedAfter (boot, rotating.inner) (instant stream)).2 = config ∧
        buildConfig T rotating.isGateway
          (installedAfter (boot, rotating.inner) (instant stream)).1 = .ok config) ∧
      (∀ i stream config i' stream' config', .did i (.inr (.used stream config)) ∈ tr →
        .did i' (.inr (.used stream' config')) ∈ tr → stream ≤ stream' →
        installs (instant stream) <+: installs (instant stream')) ∧
      ∀ p i stream config, .did i (.inr (.used stream config)) ∈ tr → p <+: tr →
        .did j (.inr (.accepted stream)) ∉ p → installs p <+: installs (instant stream) := by
  have hboot := (created_boots hnew 0 0).inner
  obtain ⟨instant, hinstant⟩ := exists_instant h hserver
  have hused : ∀ {i stream config}, .did i (.inr (.used stream config)) ∈ tr →
      ReadAt j tr stream config (instant stream) := by
    intro i stream config hmem
    obtain ⟨l, m, htr⟩ := List.append_of_mem hmem
    obtain ⟨p, hread, -⟩ := used_readAt h hserver htr
    rw [hinstant stream config p hread]
    exact hread
  refine ⟨cell_installed boot h, instant, ?_, ?_, ?_⟩
  · intro l m i stream config htr
    obtain ⟨p, hread, hbefore⟩ := used_readAt h hserver htr
    rw [hinstant stream config p hread]
    exact ⟨hbefore, hread.mem, hread.installed hboot h hrotator⟩
  · intro i stream config i' stream' config' hmem hmem' hle
    exact installs_mono ((hused hmem).mono h hserver (hused hmem') hle)
  · intro p i stream config hmem hp hnot
    have hread := hused hmem
    obtain ⟨q, hsplit⟩ := hread.next
    rcases prefix_cases ⟨_, hsplit.symm⟩ hp hsplit with hbefore | hafter
    · exact installs_mono hbefore
    · exact absurd (hafter.subset (List.mem_append_left _ hread.mem)) hnot

section Sample

def swapAndServe : TlsInput × ServerInput := (swapInput, ⟨.ok true, .ok (), .ok 200, .ok ()⟩)

/-- A stream is served, the rotation swaps in `B`, and another stream is served. -/
def streamsAroundSwap : List ServeAction :=
  [.arrive (.rotate 1 300), .arrive (.serve 2)] ++ List.replicate 4 (.poll 1 swapAndServe) ++
    .arrive (.connection 0 1 0) :: List.replicate 2 (.poll 2 swapAndServe) ++
    List.replicate 6 (.poll 0 swapAndServe) ++ List.replicate 4 (.poll 1 swapAndServe) ++
    .arrive (.connection 1 1 0) :: List.replicate 2 (.poll 3 swapAndServe)

end Sample

theorem config_fresh_at_accept_aroundSwap :
    ∃ s tr, (service sampleRustls false "order-service").exec
        ⟨(sampleRotating.cells, .listening [.ok (), .ok ()]), []⟩ streamsAroundSwap =
          some (s, tr) ∧
      .did 2 (.inr (.used 0 sampleRotating.inner)) ∈ tr ∧
      .did 3 (.inr (.used 1 swappedConfig)) ∈ tr ∧
      ∃ early late : ServeTrace, installs early <+: installs late ∧
        serverConfig sampleRustls
          (installedAfter (sampleBundle "A" 300, sampleRotating.inner) early).1 =
            .ok sampleRotating.inner ∧
        serverConfig sampleRustls
          (installedAfter (sampleBundle "A" 300, sampleRotating.inner) late).1 =
            .ok swappedConfig := by
  have hrun : ∃ s tr, (service sampleRustls false "order-service").exec
      ⟨(sampleRotating.cells, .listening [.ok (), .ok ()]), []⟩ streamsAroundSwap =
        some (s, tr) ∧
      tr = [.arrived 0 (.rotate 1 300), .arrived 1 (.serve 2), .did 1 (.inr (.accepted 0)),
        .did 1 (.inl (.sawInner sampleRotating.inner)),
        .did 1 (.inr (.handed 0 sampleRotating.inner)), .arrived 2 (.connection 0 1 0),
        .did 2 (.inr (.begun 0 sampleRotating.inner)), .did 2 (.inr (.used 0 sampleRotating.inner)),
        .responded 2 .closed, .did 0 (.inl (.innerSet (sampleBundle "B" 570) swappedConfig)),
        .did 0 (.inl (.serialSet "B")), .responded 0 .rotated, .did 1 (.inr (.accepted 1)),
        .did 1 (.inl (.sawInner swappedConfig)), .did 1 (.inr (.handed 1 swappedConfig)),
        .responded 1 .looping, .arrived 3 (.connection 1 1 0),
        .did 3 (.inr (.begun 1 swappedConfig)), .did 3 (.inr (.used 1 swappedConfig)),
        .responded 3 .closed] :=
    ⟨_, _, rfl, rfl⟩
  obtain ⟨s, tr, h, htr⟩ := hrun
  have harrived : ∀ i r, .arrived i r ∈ tr → (i, r) ∈ [(0, .rotate 1 300), (1, .serve 2),
      (2, .connection 0 1 0), (3, ServeRequest.connection 1 1 0)] := by
    intro i r hr
    rw [htr] at hr
    simpa using hr
  have hrotator : OnlyRotator 0 tr := by
    intro i r hr
    have hcases := harrived i r hr
    simp only [List.mem_cons, Prod.mk.injEq, List.not_mem_nil, or_false] at hcases
    rcases hcases with ⟨rfl, rfl⟩ | ⟨rfl, rfl⟩ | ⟨rfl, rfl⟩ | ⟨rfl, rfl⟩ <;> decide
  have hserver : OnlyServer 1 tr := by
    intro i r hr
    have hcases := harrived i r hr
    simp only [List.mem_cons, Prod.mk.injEq, List.not_mem_nil, or_false] at hcases
    rcases hcases with ⟨rfl, rfl⟩ | ⟨rfl, rfl⟩ | ⟨rfl, rfl⟩ | ⟨rfl, rfl⟩ <;> decide
  have hnew : RotatingTlsConfig.new sampleRustls (sampleBundle "A" 300) = .ok sampleRotating := rfl
  have hfirst : .did 2 (.inr (.used 0 sampleRotating.inner)) ∈ tr := by
    rw [htr]
    simp
  have hsecond : .did 3 (.inr (.used 1 swappedConfig)) ∈ tr := by
    rw [htr]
    simp
  obtain ⟨-, instant, hused, hordered, -⟩ :=
    config_fresh_at_accept (.inl hnew) h hrotator hserver
  obtain ⟨l, m, hl⟩ := List.append_of_mem hfirst
  obtain ⟨l', m', hl'⟩ := List.append_of_mem hsecond
  exact ⟨s, tr, h, hfirst, hsecond, instant 0, instant 1,
    hordered 2 0 _ 3 1 _ hfirst hsecond (Nat.zero_le 1), (hused l m 2 0 _ hl).2.2.2,
    (hused l' m' 3 1 _ hl').2.2.2⟩

end SecureNet
