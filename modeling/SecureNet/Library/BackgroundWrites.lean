import Mathlib.Data.Fintype.Basic
import Mathlib.Logic.Function.Basic
import SecureNet.Library.EventMachine
import SecureNet.Library.Lines

/-!
# Appending texts through background writes

Any number of calls append one text each to a file, under a lock. A call hands its text over in
chunks, and a background write appends a chunk to the file at once. Before it hands over the next
chunk, a call waits for the write of the last one. For the write of its final chunk it does not
wait, so the lock can be free again while that chunk is still in flight.

If the texts are lines, the file always consists of whole lines exactly if there are no two calls
or no line is longer than a chunk.
-/

namespace BackgroundWrites

open EventMachine Function Lines

inductive Stage
  | waiting
  | locked
  | writing
  | returned

structure Call (β : Type) where
  stage : Stage
  /-- What has not been handed over yet. -/
  rest : List β
  /-- The chunk that has been handed over and is not written yet. -/
  inFlight : Option (List β)

structure State (ι β : Type) where
  lock : Option ι
  calls : ι → Call β

inductive Action (ι : Type)
  | lock (i : ι)
  | openFile (i : ι)
  | handOver (i : ι)
  | unlock (i : ι)
  | write (i : ι)

variable {ι β : Type} [DecidableEq ι]

def step (chunk : ℕ) (s : State ι β) : Action ι → Option (State ι β × List (ι × List β))
  | .lock i =>
    match s.lock, s.calls i with
    | none, ⟨.waiting, rest, inFlight⟩ =>
      some (⟨some i, update s.calls i ⟨.locked, rest, inFlight⟩⟩, [])
    | _, _ => none
  | .openFile i =>
    match s.calls i with
    | ⟨.locked, rest, inFlight⟩ =>
      some (⟨s.lock, update s.calls i ⟨.writing, rest, inFlight⟩⟩, [])
    | _ => none
  | .handOver i =>
    match s.calls i with
    | ⟨.writing, b :: rest, none⟩ =>
      some (⟨s.lock, update s.calls i
        ⟨.writing, (b :: rest).drop chunk, some ((b :: rest).take chunk)⟩⟩, [])
    | _ => none
  | .unlock i =>
    match s.calls i with
    | ⟨.writing, [], inFlight⟩ => some (⟨none, update s.calls i ⟨.returned, [], inFlight⟩⟩, [])
    | _ => none
  | .write i =>
    match s.calls i with
    | ⟨stage, rest, some text⟩ =>
      some (⟨s.lock, update s.calls i ⟨stage, rest, none⟩⟩, [(i, text)])
    | _ => none

/-- The events are the writes: which call a chunk belongs to, and the chunk. -/
def machine (chunk : ℕ) : Machine (State ι β) (Action ι) (ι × List β) := ⟨step chunk⟩

def start (text : ι → List β) : State ι β := ⟨none, fun i => ⟨.waiting, text i, none⟩⟩

/-- What the writes have appended to the file. -/
def written (tr : List (ι × List β)) : List β := tr.flatMap Prod.snd

/-- All calls have returned and all writes have happened. -/
def Finished (s : State ι β) : Prop :=
  ∀ i, (s.calls i).stage = .returned ∧ (s.calls i).inFlight = none

section Steps

variable {chunk : ℕ} {s t : State ι β} {a : Action ι} {evs : List (ι × List β)}

inductive Step (chunk : ℕ) (s : State ι β) : Action ι → State ι β → List (ι × List β) → Prop
  | lock (i : ι) (rest : List β) (inFlight : Option (List β)) (hlock : s.lock = none)
      (hi : s.calls i = ⟨.waiting, rest, inFlight⟩) :
    Step chunk s (.lock i) ⟨some i, update s.calls i ⟨.locked, rest, inFlight⟩⟩ []
  | openFile (i : ι) (rest : List β) (inFlight : Option (List β))
      (hi : s.calls i = ⟨.locked, rest, inFlight⟩) :
    Step chunk s (.openFile i) ⟨s.lock, update s.calls i ⟨.writing, rest, inFlight⟩⟩ []
  | handOver (i : ι) (rest : List β) (hrest : rest ≠ []) (hi : s.calls i = ⟨.writing, rest, none⟩) :
    Step chunk s (.handOver i)
      ⟨s.lock, update s.calls i ⟨.writing, rest.drop chunk, some (rest.take chunk)⟩⟩ []
  | unlock (i : ι) (inFlight : Option (List β)) (hi : s.calls i = ⟨.writing, [], inFlight⟩) :
    Step chunk s (.unlock i) ⟨none, update s.calls i ⟨.returned, [], inFlight⟩⟩ []
  | write (i : ι) (stage : Stage) (rest text : List β)
      (hi : s.calls i = ⟨stage, rest, some text⟩) :
    Step chunk s (.write i) ⟨s.lock, update s.calls i ⟨stage, rest, none⟩⟩ [(i, text)]

theorem step_iff : (machine chunk).step s a = some (t, evs) ↔ Step chunk s a t evs := by
  constructor
  · intro h
    cases a with
    | lock i =>
      simp only [machine, step] at h
      split at h
      · next rest inFlight hlock hi =>
        cases h
        exact .lock i rest inFlight hlock hi
      · cases h
    | openFile i =>
      simp only [machine, step] at h
      split at h
      · next rest inFlight hi =>
        cases h
        exact .openFile i rest inFlight hi
      · cases h
    | handOver i =>
      simp only [machine, step] at h
      split at h
      · next b rest hi =>
        cases h
        exact .handOver i (b :: rest) (by simp) hi
      · cases h
    | unlock i =>
      simp only [machine, step] at h
      split at h
      · next inFlight hi =>
        cases h
        exact .unlock i inFlight hi
      · cases h
    | write i =>
      simp only [machine, step] at h
      split at h
      · next stage rest text hi =>
        cases h
        exact .write i stage rest text hi
      · cases h
  · intro h
    cases h with
    | lock i rest inFlight hlock hi => simp only [machine, step, hlock, hi]
    | openFile i rest inFlight hi => simp only [machine, step, hi]
    | handOver i rest hrest hi =>
      cases rest with
      | nil => exact absurd rfl hrest
      | cons b rest => simp only [machine, step, hi]
    | unlock i inFlight hi => simp only [machine, step, hi]
    | write i stage rest text hi => simp only [machine, step, hi]

end Steps

section Chunks

variable {chunk : ℕ} {text : ι → List β} {s t : State ι β} {as : List (Action ι)}
  {a : Action ι} {tr evs : List (ι × List β)}

/-- The chunks of a call that have been written. -/
def chunksOf (i : ι) (tr : List (ι × List β)) : List (List β) :=
  (tr.filter (fun e => e.1 = i)).map Prod.snd

/-- The chunks that a call has handed over. -/
def handed (tr : List (ι × List β)) (s : State ι β) (i : ι) : List (List β) :=
  chunksOf i tr ++ (s.calls i).inFlight.toList

/-- What a step means for one call: nothing, or one more chunk of its text is handed over. -/
inductive Moved (chunk : ℕ) (c : List (List β) × List β) : List (List β) × List β → Prop
  | same : Moved chunk c c
  | more (hrest : c.2 ≠ []) : Moved chunk c (c.1 ++ [c.2.take chunk], c.2.drop chunk)

/-- A call that keeps its text and its chunk in flight has handed over nothing. -/
lemma moved_stage {i : ι} {stage stage' : Stage} {rest : List β} {inFlight : Option (List β)}
    (hi : s.calls i = ⟨stage, rest, inFlight⟩) (l : Option ι) (tr : List (ι × List β)) (j : ι) :
    Moved chunk (handed tr s j, (s.calls j).rest)
      (handed (tr ++ []) ⟨l, update s.calls i ⟨stage', rest, inFlight⟩⟩ j,
        ((update s.calls i ⟨stage', rest, inFlight⟩) j).rest) := by
  have hsame : ((update s.calls i ⟨stage', rest, inFlight⟩) j).rest = (s.calls j).rest ∧
      ((update s.calls i ⟨stage', rest, inFlight⟩) j).inFlight = (s.calls j).inFlight := by
    by_cases hj : j = i
    · simp [hj, hi]
    · simp [hj]
  rw [List.append_nil, handed, handed, hsame.1, hsame.2]
  exact .same

lemma step_moved (h : Step chunk s a t evs) (tr : List (ι × List β)) (j : ι) :
    Moved chunk (handed tr s j, (s.calls j).rest)
      (handed (tr ++ evs) t j, (t.calls j).rest) := by
  cases h with
  | lock i rest inFlight hlock hi => exact moved_stage hi (some i) tr j
  | openFile i rest inFlight hi => exact moved_stage hi s.lock tr j
  | handOver i rest hrest hi =>
    by_cases hj : j = i
    · have hmore : Moved chunk (handed tr s j, (s.calls j).rest)
          (handed tr s j ++ [(s.calls j).rest.take chunk], (s.calls j).rest.drop chunk) :=
        .more (by simpa [hj, hi] using hrest)
      simpa [handed, hj, hi] using hmore
    · simpa [handed, hj] using Moved.same
  | unlock i inFlight hi => exact moved_stage hi none tr j
  | write i stage rest text hi =>
    -- the chunk in flight becomes the last one written
    by_cases hj : j = i
    · simpa [handed, chunksOf, hj, hi] using Moved.same
    · simpa [handed, chunksOf, hj, Ne.symm hj] using Moved.same

/-- What holds of a call that has handed over nothing, and of every call after one more chunk, holds
of every call in every run. -/
theorem exec_handed {P : ι → List (List β) → List β → Prop} (h₀ : ∀ i, P i [] (text i))
    (hmore : ∀ i chunks rest, rest ≠ [] → P i chunks rest →
      P i (chunks ++ [rest.take chunk]) (rest.drop chunk))
    (h : (machine chunk).exec (start text) as = some (s, tr)) (i : ι) :
    P i (handed tr s i) (s.calls i).rest := by
  refine Machine.exec_induction (P := fun _ tr s => P i (handed tr s i) (s.calls i).rest) ?_ ?_ h
  · exact h₀ i
  · intro as tr s a t evs _ ih hs
    have hmoved := step_moved (step_iff.mp hs) tr i
    generalize hc : (handed (tr ++ evs) t i, (t.calls i).rest) = c at hmoved
    cases hmoved with
    | same =>
      obtain ⟨hchunks, hrest⟩ := Prod.mk.inj hc
      rw [hchunks, hrest]
      exact ih
    | more hne =>
      obtain ⟨hchunks, hrest⟩ := Prod.mk.inj hc
      rw [hchunks, hrest]
      exact hmore i _ _ hne ih

/-- No byte of a text is lost, and none is written twice. -/
lemma handed_flatten (h : (machine chunk).exec (start text) as = some (s, tr)) (i : ι) :
    (handed tr s i).flatten ++ (s.calls i).rest = text i := by
  refine exec_handed (P := fun i chunks rest => chunks.flatten ++ rest = text i)
    (fun i => rfl) ?_ h i
  intro i chunks rest _ ih
  rw [List.flatten_append, List.append_assoc, List.flatten_singleton, List.take_append_drop, ih]

lemma returned_rest (h : (machine chunk).exec (start text) as = some (s, tr)) (i : ι)
    (hi : (s.calls i).stage = .returned) : (s.calls i).rest = [] := by
  revert hi
  refine Machine.exec_induction
    (P := fun _ _ s => (s.calls i).stage = .returned → (s.calls i).rest = []) ?_ ?_ h
  · intro hi
    cases hi
  · intro as tr s a t evs _ ih hs hi
    cases step_iff.mp hs with
    | lock j rest inFlight hlock hj => grind
    | openFile j rest inFlight hj => grind
    | handOver j rest hrest hj => grind
    | unlock j inFlight hj => grind
    | write j stage rest text hj => grind

lemma finished_chunks (h : (machine chunk).exec (start text) as = some (s, tr))
    (hfin : Finished s) (i : ι) : (chunksOf i tr).flatten = text i := by
  have hsplit := handed_flatten h i
  rwa [returned_rest h i (hfin i).1, handed, (hfin i).2, List.append_nil, Option.toList_none,
    List.append_nil] at hsplit

end Chunks

section Whole

variable {sep : β} {chunk : ℕ} {lines : ι → Line sep} {s t : State ι β} {as : List (Action ι)}
  {tr : List (ι × List β)}

/-- The start of calls that each append their own line. -/
abbrev startLines (lines : ι → Line sep) : State ι β := start (fun i => (lines i).text)

/-- A line that is no longer than a chunk is handed over at once. -/
lemma chunksOf_short (hshort : ∀ i, (lines i).text.length ≤ chunk)
    (h : (machine chunk).exec (startLines lines) as = some (s, tr)) (hfin : Finished s) (i : ι) :
    chunksOf i tr = [(lines i).text] := by
  have hone := exec_handed
    (P := fun i chunks rest => (chunks = [] ∧ rest = (lines i).text) ∨
      (chunks = [(lines i).text] ∧ rest = [])) (fun i => .inl ⟨rfl, rfl⟩) ?_ h i
  · rw [returned_rest h i (hfin i).1, handed, (hfin i).2, Option.toList_none,
      List.append_nil] at hone
    rcases hone with ⟨-, hnil⟩ | ⟨hchunks, -⟩
    · exact absurd hnil.symm (lines i).text_ne_nil
    · exact hchunks
  · intro i chunks rest hrest hbefore
    rcases hbefore with ⟨rfl, rfl⟩ | ⟨-, rfl⟩
    · right
      rw [List.take_of_length_le (hshort i), List.drop_of_length_le (hshort i)]
      exact ⟨rfl, rfl⟩
    · exact absurd rfl hrest

lemma count_chunksOf (i : ι) (tr : List (ι × List β)) :
    (tr.map Prod.fst).count i = (chunksOf i tr).length := by
  rw [chunksOf, List.length_map, List.count, List.countP_map, List.countP_eq_length_filter]
  congr 1

variable [Fintype ι]

/-- A file of whole lines, one for each call. -/
def Whole (lines : ι → Line sep) (file : List β) : Prop :=
  ∃ ls : List (Line sep), (ls : Multiset (Line sep)) = Finset.univ.val.map lines ∧
    file = contents ls

/-- A single call has nobody to interfere with. -/
lemma whole_of_subsingleton [Subsingleton ι]
    (h : (machine chunk).exec (startLines lines) as = some (s, tr)) (hfin : Finished s) :
    Whole lines (written tr) := by
  by_cases hne : Nonempty ι
  · obtain ⟨i⟩ := hne
    have huniv : (Finset.univ : Finset ι) = {i} := by
      ext j
      simp [Subsingleton.elim j i]
    have hall : tr.filter (fun e => e.1 = i) = tr := by
      apply List.filter_eq_self.mpr
      intro e _
      simp [Subsingleton.elim e.1 i]
    have hchunks := finished_chunks h hfin i
    rw [chunksOf, hall] at hchunks
    refine ⟨[lines i], by rw [huniv]; rfl, ?_⟩
    rw [written, List.flatMap_def, hchunks, contents, List.flatMap_singleton]
  · have hempty : IsEmpty ι := not_nonempty_iff.mp hne
    have hnil : tr = [] := by
      apply List.eq_nil_iff_forall_not_mem.mpr
      intro e
      exact hempty.elim e.1
    exact ⟨[], by simp [Finset.univ_eq_empty], by rw [hnil]; rfl⟩

lemma whole_of_short (hshort : ∀ i, (lines i).text.length ≤ chunk)
    (h : (machine chunk).exec (startLines lines) as = some (s, tr)) (hfin : Finished s) :
    Whole lines (written tr) := by
  have hchunks := chunksOf_short hshort h hfin
  have hcount : ∀ i, (tr.map Prod.fst).count i = 1 := by
    intro i
    rw [count_chunksOf, hchunks, List.length_singleton]
  have horder : ((tr.map Prod.fst : List ι) : Multiset ι) = Finset.univ.val := by
    have hnodup : (tr.map Prod.fst).Nodup :=
      List.nodup_iff_count_le_one.mpr (fun i => (hcount i).le)
    apply (Multiset.Nodup.ext (Multiset.coe_nodup.mpr hnodup) Finset.univ.nodup).mpr
    intro i
    have hmem : i ∈ tr.map Prod.fst := List.count_pos_iff.mp (by rw [hcount]; omega)
    simpa using hmem
  refine ⟨(tr.map Prod.fst).map lines, ?_, ?_⟩
  · rw [← horder, Multiset.map_coe]
  · have htext : ∀ e ∈ tr, e.2 = (lines e.1).text := by
      intro e he
      have hmem : e.2 ∈ chunksOf e.1 tr :=
        List.mem_map.mpr ⟨e, List.mem_filter.mpr ⟨he, by simp⟩, rfl⟩
      rw [hchunks] at hmem
      exact List.mem_singleton.mp hmem
    rw [written, contents, List.flatMap_map, List.flatMap_map]
    exact List.flatMap_congr htext

end Whole

section Schedules

variable {chunk : ℕ} {s t u : State ι β} {i j : ι} {l l' : Option ι} {c c' : Call β}
  {rest v w : List β} {text : ι → List β}

/-- Some schedule leads from one state to another and appends a text to the file. -/
def Reaches (chunk : ℕ) (s t : State ι β) (w : List β) : Prop :=
  ∃ as tr, (machine chunk).exec s as = some (t, tr) ∧ written tr = w

lemma Reaches.refl : Reaches chunk s s [] := ⟨[], [], Machine.exec_nil.mpr ⟨rfl, rfl⟩, rfl⟩

lemma Reaches.trans (h : Reaches chunk s t v) (h' : Reaches chunk t u w) :
    Reaches chunk s u (v ++ w) := by
  obtain ⟨as, tr, hexec, rfl⟩ := h
  obtain ⟨as', tr', hexec', rfl⟩ := h'
  exact ⟨as ++ as', tr ++ tr', Machine.exec_append.mpr ⟨t, tr, tr', hexec, hexec', rfl⟩,
    List.flatMap_append⟩

lemma Reaches.step {a : Action ι} {evs : List (ι × List β)} (h : Step chunk s a t evs) :
    Reaches chunk s t (written evs) :=
  ⟨[a], evs, Machine.exec_cons.mpr ⟨t, evs, [], step_iff.mpr h, Machine.exec_nil.mpr ⟨rfl, rfl⟩,
    (List.append_nil evs).symm⟩, rfl⟩

/-- A state that differs from `s` in the lock and one call. -/
structure After (s : State ι β) (i : ι) (l : Option ι) (c : Call β) (t : State ι β) : Prop where
  lock : t.lock = l
  call : t.calls i = c
  others : ∀ j, j ≠ i → t.calls j = s.calls j

omit [DecidableEq ι] in
lemma After.trans (h : After s i l c t) (h' : After t i l' c' u) : After s i l' c' u where
  lock := h'.lock
  call := h'.call
  others j hj := (h'.others j hj).trans (h.others j hj)

variable (chunk) in
/-- One step that changes one call. -/
lemma step_reaches {a : Action ι} {evs : List (ι × List β)}
    (h : Step chunk s a ⟨l, update s.calls i c⟩ evs) :
    ∃ t, Reaches chunk s t (written evs) ∧ After s i l c t :=
  ⟨_, .step h, ⟨rfl, update_self i c s.calls, fun _ hj => update_of_ne hj c s.calls⟩⟩

variable (chunk) in
lemma opened_reaches (hlock : s.lock = none) (hi : s.calls i = ⟨.waiting, rest, none⟩) :
    ∃ t, Reaches chunk s t [] ∧ After s i (some i) ⟨.writing, rest, none⟩ t := by
  obtain ⟨t, hlocked, hafter⟩ := step_reaches chunk (.lock i rest none hlock hi)
  obtain ⟨u, hopened, hafter'⟩ := step_reaches chunk (.openFile i rest none hafter.call)
  rw [hafter.lock] at hafter'
  exact ⟨u, hlocked.trans hopened, hafter.trans hafter'⟩

variable (chunk) in
lemma chunk_reaches (hrest : rest ≠ []) (hi : s.calls i = ⟨.writing, rest, none⟩) :
    ∃ t, Reaches chunk s t (rest.take chunk) ∧
      After s i s.lock ⟨.writing, rest.drop chunk, none⟩ t := by
  obtain ⟨t, hhanded, hafter⟩ := step_reaches chunk (.handOver i rest hrest hi)
  obtain ⟨u, hwritten, hafter'⟩ :=
    step_reaches chunk (.write i _ _ _ hafter.call)
  rw [hafter.lock] at hafter'
  refine ⟨u, ?_, hafter.trans hafter'⟩
  simpa [written] using hhanded.trans hwritten

/-- A call writes what is left of its text, chunk by chunk. -/
lemma rest_reaches (hchunk : 0 < chunk) (hi : s.calls i = ⟨.writing, rest, none⟩) :
    ∃ t, Reaches chunk s t rest ∧ After s i s.lock ⟨.writing, [], none⟩ t := by
  induction hn : rest.length using Nat.strong_induction_on generalizing rest s with
  | _ n ih =>
    by_cases hrest : rest = []
    · subst hrest
      exact ⟨s, .refl, ⟨rfl, hi, fun _ _ => rfl⟩⟩
    · obtain ⟨t, hreach, hafter⟩ := chunk_reaches chunk hrest hi
      have hpos := List.length_pos_iff.mpr hrest
      obtain ⟨u, hreach', hafter'⟩ := ih (rest.drop chunk).length
        (by rw [List.length_drop]; omega) hafter.call rfl
      rw [hafter.lock] at hafter'
      refine ⟨u, ?_, hafter.trans hafter'⟩
      rw [← List.take_append_drop chunk rest]
      exact hreach.trans hreach'

/-- A call writes what is left of its text up to the last chunk, which it only hands over. -/
lemma last_reaches (hchunk : 0 < chunk) (hrest : rest ≠ [])
    (hi : s.calls i = ⟨.writing, rest, none⟩) :
    ∃ t front last, Reaches chunk s t front ∧ After s i s.lock ⟨.writing, [], some last⟩ t ∧
      rest = front ++ last ∧ last ≠ [] ∧ (chunk < rest.length → front ≠ []) := by
  induction hn : rest.length using Nat.strong_induction_on generalizing rest s with
  | _ n ih =>
    have hpos := List.length_pos_iff.mpr hrest
    by_cases hshort : rest.length ≤ chunk
    · obtain ⟨t, hhanded, hafter⟩ := step_reaches chunk (.handOver i rest hrest hi)
      rw [List.take_of_length_le hshort, List.drop_of_length_le hshort] at hafter
      exact ⟨t, [], rest, hhanded, hafter, rfl, hrest, fun hlong => by omega⟩
    · obtain ⟨t, hreach, hafter⟩ := chunk_reaches chunk hrest hi
      have hdrop : rest.drop chunk ≠ [] := by
        apply List.length_pos_iff.mp
        rw [List.length_drop]
        omega
      obtain ⟨u, front, last, hreach', hafter', hsplit, hlast, -⟩ :=
        ih (rest.drop chunk).length (by rw [List.length_drop]; omega) hdrop hafter.call rfl
      rw [hafter.lock] at hafter'
      refine ⟨u, rest.take chunk ++ front, last, hreach.trans hreach', hafter.trans hafter', ?_,
        hlast, ?_⟩
      · rw [List.append_assoc, ← hsplit, List.take_append_drop]
      · intro _ hnil
        have hlength := congrArg List.length hnil
        rw [List.length_append, List.length_take, List.length_nil] at hlength
        omega

/-- A call runs alone, and its writes with it. -/
lemma call_reaches (hchunk : 0 < chunk) (hlock : s.lock = none)
    (hi : s.calls i = ⟨.waiting, rest, none⟩) :
    ∃ t, Reaches chunk s t rest ∧ After s i none ⟨.returned, [], none⟩ t := by
  obtain ⟨t, hopened, hafter⟩ := opened_reaches chunk hlock hi
  obtain ⟨u, hwritten, hafter'⟩ := rest_reaches hchunk hafter.call
  obtain ⟨v, hunlocked, hafter''⟩ := step_reaches chunk (.unlock i none hafter'.call)
  refine ⟨v, ?_, (hafter.trans hafter').trans hafter''⟩
  simpa [written] using (hopened.trans hwritten).trans hunlocked

/-- A call returns while its last chunk is in flight. -/
lemma delayed_reaches (hchunk : 0 < chunk) (hlock : s.lock = none) (hrest : rest ≠ [])
    (hi : s.calls i = ⟨.waiting, rest, none⟩) :
    ∃ t front last, Reaches chunk s t front ∧ After s i none ⟨.returned, [], some last⟩ t ∧
      rest = front ++ last ∧ last ≠ [] ∧ (chunk < rest.length → front ≠ []) := by
  obtain ⟨t, hopened, hafter⟩ := opened_reaches chunk hlock hi
  obtain ⟨u, front, last, hwritten, hafter', hsplit⟩ := last_reaches hchunk hrest hafter.call
  obtain ⟨v, hunlocked, hafter''⟩ :=
    step_reaches chunk (.unlock i (some last) hafter'.call)
  refine ⟨v, front, last, ?_, (hafter.trans hafter').trans hafter'', hsplit⟩
  simpa [written] using (hopened.trans hwritten).trans hunlocked

/-- Calls run one after another. -/
lemma calls_reaches (hchunk : 0 < chunk) {order : List ι} (hnodup : order.Nodup)
    (hlock : s.lock = none) (hwait : ∀ i ∈ order, s.calls i = ⟨.waiting, text i, none⟩) :
    ∃ t, Reaches chunk s t (order.flatMap text) ∧ t.lock = none ∧
      (∀ i ∈ order, t.calls i = ⟨.returned, [], none⟩) ∧
      ∀ i, i ∉ order → t.calls i = s.calls i := by
  induction order generalizing s with
  | nil => exact ⟨s, .refl, hlock, by simp, fun _ _ => rfl⟩
  | cons i order ih =>
    obtain ⟨hi, hrest⟩ := List.nodup_cons.mp hnodup
    obtain ⟨t, hreach, hafter⟩ := call_reaches hchunk hlock (hwait i List.mem_cons_self)
    have hothers : ∀ j ∈ order, t.calls j = s.calls j :=
      fun j hj => hafter.others j (fun heq => hi (heq ▸ hj))
    obtain ⟨u, hreach', hlock', hdone, hsame⟩ := ih hrest hafter.lock
      (fun j hj => (hothers j hj).trans (hwait j (List.mem_cons_of_mem i hj)))
    refine ⟨u, hreach.trans hreach', hlock', ?_, ?_⟩
    · intro j hj
      rcases List.mem_cons.mp hj with rfl | hj
      · rw [hsame j hi, hafter.call]
      · exact hdone j hj
    · intro j hj
      obtain ⟨hne, hmem⟩ := not_or.mp (fun h => hj (List.mem_cons.mpr h))
      rw [hsame j hmem, hafter.others j hne]

end Schedules

section Delayed

variable {sep : β} {chunk : ℕ} {lines : ι → Line sep} {i j : ι}

/-- The calls of `others` run one after another. Then the last chunk of a long line is written behind
the line of another call. -/
lemma delayed_schedule (hchunk : 0 < chunk) (hij : j ≠ i) (hlong : chunk < (lines i).text.length)
    {others : List ι} (hnodup : others.Nodup) (hothers : ∀ k, k ∈ others ↔ k ≠ j ∧ k ≠ i) :
    ∃ s front last, Reaches chunk (startLines lines) s
        (contents (others.map lines) ++ front ++ (lines j).text ++ last) ∧
      Finished s ∧ (lines i).text = front ++ last ∧ front ≠ [] ∧ last ≠ [] := by
  obtain ⟨s₁, hreach₁, hlock₁, hdone, hsame⟩ := calls_reaches (s := startLines lines) hchunk hnodup
    rfl (fun k _ => rfl)
  have hi : i ∉ others := fun h => ((hothers i).mp h).2 rfl
  have hj : j ∉ others := fun h => ((hothers j).mp h).1 rfl
  obtain ⟨s₂, front, last, hreach₂, hafter₂, hsplit, hlast, hfront⟩ :=
    delayed_reaches hchunk hlock₁ (lines i).text_ne_nil (hsame i hi)
  obtain ⟨s₃, hreach₃, hafter₃⟩ := call_reaches hchunk hafter₂.lock
    ((hafter₂.others j hij).trans (hsame j hj))
  obtain ⟨s₄, hreach₄, hafter₄⟩ := step_reaches chunk (.write i .returned [] last
    ((hafter₃.others i hij.symm).trans hafter₂.call))
  refine ⟨s₄, front, last, ?_, ?_, hsplit, hfront hlong, hlast⟩
  · have hreach := ((hreach₁.trans hreach₂).trans hreach₃).trans hreach₄
    simpa [written, contents, List.flatMap_map] using hreach
  · intro k
    by_cases hki : k = i
    · rw [hki, hafter₄.call]
      exact ⟨rfl, rfl⟩
    · rw [hafter₄.others k hki]
      by_cases hkj : k = j
      · rw [hkj, hafter₃.call]
        exact ⟨rfl, rfl⟩
      · rw [hafter₃.others k hkj, hafter₂.others k hki, hdone k ((hothers k).mpr ⟨hkj, hki⟩)]
        exact ⟨rfl, rfl⟩

/-- No line is the end of a longer line. -/
def NoSuffix (lines : ι → Line sep) : Prop := ∀ i j, (lines j).1 <:+ (lines i).1 → lines j = lines i

/-- The pieces of a line that is cut into two. -/
lemma text_cut {line : Line sep} {front last : List β} (hsplit : line.text = front ++ last)
    (hlast : last ≠ []) : ∃ tail, last = tail ++ [sep] ∧ line.1 = front ++ tail := by
  obtain ⟨tail, b, rfl⟩ : ∃ tail b, last = tail ++ [b] := by
    rcases List.eq_nil_or_concat last with hnil | ⟨tail, b, hconcat⟩
    · exact absurd hnil hlast
    · exact ⟨tail, b, by rw [hconcat, List.concat_eq_append]⟩
  rw [Line.text, ← List.append_assoc] at hsplit
  obtain ⟨hbody, hsep⟩ := List.append_inj' hsplit rfl
  exact ⟨tail, by rw [hsep], hbody⟩

omit [DecidableEq ι] in
/-- With another line in front of its last chunk, a line is no longer whole. -/
lemma not_whole_delayed [DecidableEq β] [Fintype ι] (hsuffix : NoSuffix lines) {others : List ι}
    (hall : (Finset.univ.val : Multiset ι) = i ::ₘ j ::ₘ ↑others) {front last : List β}
    (hsplit : (lines i).text = front ++ last) (hfront : front ≠ []) (hlast : last ≠ []) :
    ¬Whole lines (contents (others.map lines) ++ front ++ (lines j).text ++ last) := by
  rintro ⟨ls, hls, hfile⟩
  obtain ⟨tail, rfl, hbody⟩ := text_cut hsplit hlast
  have hsep : sep ∉ front ∧ sep ∉ tail := by
    have hline := (lines i).2
    rw [hbody, List.mem_append, not_or] at hline
    exact hline
  have hmixed : sep ∉ front ++ (lines j).1 := by
    rw [List.mem_append, not_or]
    exact ⟨hsep.1, (lines j).2⟩
  have hlines : contents ls =
      contents (others.map lines ++ [(⟨_, hmixed⟩ : Line sep), ⟨tail, hsep.2⟩]) := by
    rw [← hfile]
    simp [contents, Line.text]
  rw [contents_injective hlines, hall, Multiset.map_cons, Multiset.map_cons, Multiset.map_coe] at hls
  have hback : ([lines i, lines j] ++ others.map lines).Perm
      (others.map lines ++ [lines i, lines j]) := List.perm_append_comm
  have hperm : (others.map lines ++ [(⟨_, hmixed⟩ : Line sep), ⟨tail, hsep.2⟩]).Perm
      (others.map lines ++ [lines i, lines j]) :=
    (Multiset.coe_eq_coe.mp hls).trans hback
  have hmem : (⟨tail, hsep.2⟩ : Line sep) ∈ [lines i, lines j] :=
    ((List.perm_append_left_iff _).mp hperm).mem_iff.mp (by simp)
  have hne : tail ≠ (lines i).1 := by
    intro heq
    have hlength := congrArg List.length (heq.trans hbody)
    rw [List.length_append] at hlength
    exact hfront (List.length_eq_zero_iff.mp (by omega))
  rcases List.mem_pair.mp hmem with htail | htail
  · exact hne (congrArg Subtype.val htail)
  · -- the last chunk would be the line of the other call
    have hother : lines j = lines i := hsuffix i j ⟨front, by rw [← htail, hbody]⟩
    exact hne (congrArg Subtype.val (htail.trans hother))

/-- The file is one of whole lines after every schedule exactly if there are no two calls or no
line is longer than a chunk. -/
theorem whole_iff [DecidableEq β] [Fintype ι] (hchunk : 0 < chunk) (hsuffix : NoSuffix lines) :
    (∀ as s tr, (machine chunk).exec (startLines lines) as = some (s, tr) → Finished s →
      Whole lines (written tr)) ↔
        Subsingleton ι ∨ ∀ i, (lines i).text.length ≤ chunk := by
  constructor
  · intro hwhole
    by_contra hnot
    obtain ⟨hmany, hlong⟩ := not_or.mp hnot
    obtain ⟨i, hi⟩ := not_forall.mp hlong
    have hnontrivial : Nontrivial ι := not_subsingleton_iff_nontrivial.mp hmany
    obtain ⟨j, hij⟩ := exists_ne i
    have hj : j ∈ Finset.univ.erase i := Finset.mem_erase.mpr ⟨hij, Finset.mem_univ j⟩
    have hall : (Finset.univ.val : Multiset ι) =
        i ::ₘ j ::ₘ ↑((Finset.univ.erase i).erase j).toList := by
      rw [Finset.coe_toList, Finset.erase_val, Multiset.cons_erase hj, Finset.erase_val,
        Multiset.cons_erase (Finset.mem_univ i)]
    obtain ⟨s, front, last, ⟨as, tr, hexec, hfile⟩, hfin, hsplit, hfront, hlast⟩ :=
      delayed_schedule hchunk hij (Nat.lt_of_not_le hi)
        ((Finset.univ.erase i).erase j).nodup_toList (by simp)
    apply not_whole_delayed hsuffix hall hsplit hfront hlast
    rw [← hfile]
    exact hwhole as s tr hexec hfin
  · intro hcond as s tr hexec hfin
    rcases hcond with hone | hshort
    · exact whole_of_subsingleton hexec hfin
    · exact whole_of_short hshort hexec hfin

end Delayed

end BackgroundWrites
