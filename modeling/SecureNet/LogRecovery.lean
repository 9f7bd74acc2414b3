import SecureNet.LogText
import SecureNet.VaultReplay

/-!
# Reading the log after torn writes

`IssuanceLog::append` on arbitrary entries, in any order and with any failures of the file system.
The line of an append that completes goes to where the file ends. If an earlier write was cut short
there, the line becomes part of the torn one.
-/

namespace SecureNet

open Hex (Bytes)
open EventMachine Lines Tasks

abbrev LogSystem := System vaultSig Process IssuanceLogEntry Unit

abbrev LogEvent := Event IssuanceLogEntry Unit VaultEvent

abbrev LogTrace := List LogEvent

abbrev LogAction := Action IssuanceLogEntry Input

/-- Any number of calls of `append`, each with its own entry. -/
def appends (D : Deployment) : Machine LogSystem LogAction LogEvent :=
  machine (vaultEnv D) (append D)

/-- What a write adds to the file when it is served. -/
def written (entry : IssuanceLogEntry) (inp : Input) : List LogPiece :=
  if inp.fileOk then [.line entry] else inp.flushed.pieces entry

/-- The entry that a task is about to write. -/
def writing : Option (Task vaultSig IssuanceLogEntry Unit) → Option IssuanceLogEntry
  | some ⟨_, .running (.call (.writeAll entry) _)⟩ => some entry
  | _ => none

/-- The entry whose `write_all` an action completes, so that the whole line is in the file. -/
def completes (s : LogSystem) : LogAction → Option IssuanceLogEntry
  | .poll i inp => (writing s.tasks[i]?).filter (fun _ => inp.fileOk)
  | _ => none

/-- The entries whose append has completed, in order. -/
def completed (D : Deployment) (s : LogSystem) (as : List LogAction) : List IssuanceLogEntry :=
  (appends D).collect completes s as

/-- A write that completes begins where a line of the file begins. -/
def StartsLine (timeText : ℤ → String) (s : LogSystem) (a : LogAction) : Prop :=
  (completes s a).isSome = true → LineStart newline (logText timeText s.shared.file)

instance (timeText : ℤ → String) (s : LogSystem) (a : LogAction) :
    Decidable (StartsLine timeText s a) :=
  inferInstanceAs (Decidable (_ → _))

section Steps

variable {D : Deployment} {s t : LogSystem} {a : LogAction} {evs : LogTrace}

/-- Every operation adds to the file, and a write that succeeds adds its line. -/
lemma reply_file {p q : Process} {i : ℕ} {o : VaultOp} {inp : Input} {rep : vaultSig.Reply o}
    {evs : List VaultEvent} (h : Process.reply D p i o inp = some (q, rep, evs)) :
    ∃ pieces, q.file = p.file ++ pieces ∧
      ∀ entry, o = .writeAll entry → inp.fileOk = true → pieces = [.line entry] := by
  cases o <;> simp only [Process.reply] at h
  case writeAll entry =>
    cases h
    refine ⟨written entry inp, rfl, ?_⟩
    intro entry' heq hok
    cases heq
    exact if_pos hok
  case registerNonce nonce | consumeNonce nonce | lockLog =>
    split at h
    · cases h
      exact ⟨[], (List.append_nil _).symm, fun _ heq => by cases heq⟩
    · cases h
  all_goals
    cases h
    exact ⟨[], (List.append_nil _).symm, fun _ heq => by cases heq⟩

lemma cancel_file {p q : Process} {i : ℕ} {o : VaultOp} {inp : Input} {evs : List VaultEvent}
    (h : Process.cancel p i o inp = some (q, evs)) : ∃ pieces, q.file = p.file ++ pieces := by
  cases o <;> simp only [Process.cancel] at h <;> cases h
  case writeAll entry => exact ⟨inp.flushed.pieces entry, rfl⟩
  all_goals exact ⟨[], (List.append_nil _).symm⟩

lemma writing_call {r : IssuanceLogEntry} {o : VaultOp} {k : vaultSig.Reply o → Prog vaultSig Unit}
    {entry : IssuanceLogEntry} (h : writing (some ⟨r, .running (.call o k)⟩) = some entry) :
    o = .writeAll entry := by
  cases o <;> cases h
  rfl

/-- Every step adds to the file, and a write that completes adds its line. -/
lemma appends_step (h : (appends D).step s a = some (t, evs)) :
    ∃ pieces, t.shared.file = s.shared.file ++ pieces ∧
      ∀ entry, completes s a = some entry → pieces = [.line entry] := by
  cases step_cases h with
  | arrive r => exact ⟨[], (List.append_nil _).symm, fun _ hc => by cases hc⟩
  | respond i inp r b hi =>
    refine ⟨[], (List.append_nil _).symm, ?_⟩
    intro entry hc
    rw [completes, hi] at hc
    cases hc
  | perform i inp r o k sh rep evs hi hr =>
    obtain ⟨pieces, hfile, hline⟩ := reply_file hr
    refine ⟨pieces, hfile, ?_⟩
    intro entry hc
    rw [completes, hi, Option.filter_eq_some_iff] at hc
    exact hline entry (writing_call hc.1) hc.2
  | drop i inp r o k sh evs hi hc =>
    obtain ⟨pieces, hfile⟩ := cancel_file (i := i) hc
    exact ⟨pieces, hfile, fun _ hc => by cases hc⟩
  | restart inp => exact ⟨[], (List.append_nil _).symm, fun _ hc => by cases hc⟩

end Steps

/-- As long as every write that completes begins where a line of the file begins, every entry
whose append has completed is found again, whatever other writes have left in the file. -/
theorem completed_recovered {D : Deployment} {file : List LogPiece} {clock : ℕ}
    {timeText : ℤ → String} {fromSlice : Bytes → Except String IssuanceLogEntry}
    {as : List LogAction} {s : LogSystem} {tr : LogTrace}
    (h : (appends D).exec ⟨Process.new file clock, []⟩ as = some (s, tr))
    (hparse : ∀ entry ∈ completed D ⟨Process.new file clock, []⟩ as,
      fromSlice (entry.toJson timeText) = .ok entry)
    (hstart : (appends D).Meets (StartsLine timeText) ⟨Process.new file clock, []⟩ as) :
    (completed D ⟨Process.new file clock, []⟩ as).Sublist
      (recover fromSlice (logText timeText s.shared.file)) := by
  refine List.Sublist.trans ?_ (closedEntries_sublist _)
  revert hparse hstart
  refine Machine.exec_induction
    (P := fun as tr s => (∀ entry ∈ completed D ⟨Process.new file clock, []⟩ as,
        fromSlice (entry.toJson timeText) = .ok entry) →
      (appends D).Meets (StartsLine timeText) ⟨Process.new file clock, []⟩ as →
      (completed D ⟨Process.new file clock, []⟩ as).Sublist
        (closedEntries fromSlice (logText timeText s.shared.file)))
    (fun _ _ => List.nil_sublist _) ?_ h
  intro as tr s a t evs hrun ih hs hparse hmeets
  obtain ⟨pieces, hfile, hline⟩ := appends_step hs
  have hmore : completed D ⟨Process.new file clock, []⟩ (as ++ [a]) =
      completed D ⟨Process.new file clock, []⟩ as ++ (completes s a).toList :=
    Machine.collect_snoc hrun
  rw [hmore] at hparse ⊢
  have hbefore := ih (fun entry he => hparse entry (List.mem_append_left _ he)) hmeets.append_left
  rw [hfile]
  cases hc : completes s a with
  | none =>
    rw [Option.toList_none, List.append_nil]
    exact hbefore.trans (closedEntries_grow _ _)
  | some entry =>
    have hat : LineStart newline (logText timeText s.shared.file) :=
      hmeets.last hrun (by rw [hc]; rfl)
    rw [hline entry hc, closedEntries_line hat (hparse entry (by rw [hc]; simp)),
      Option.toList_some]
    exact hbefore.append_right [entry]

section Sample

def grantedEntry : IssuanceLogEntry := grantEntry 0 "user-service" "machine-1" "s1" 0

/-- A parser that knows one line. -/
def entryFromSlice (piece : Bytes) : Except String IssuanceLogEntry :=
  if piece = grantedEntry.toJson sampleTime then .ok grantedEntry else .error "syntax error"

def tornInput : Input := { sampleInput 0 with fileOk := false, flushed := .bytes 20 }

/-- A call of `append` as task `i`, whose write has the given result. -/
def appendCall (i : ℕ) (entry : IssuanceLogEntry) (result : Input) : List LogAction :=
  [.arrive entry, .poll i (sampleInput 0), .poll i (sampleInput 0), .poll i (sampleInput 0),
    .poll i result, .poll i (sampleInput 0)]

def tornLast : List LogAction :=
  appendCall 0 grantedEntry (sampleInput 0) ++ appendCall 1 rejectedEntry tornInput

def tornFirst : List LogAction :=
  appendCall 0 rejectedEntry tornInput ++ appendCall 1 grantedEntry (sampleInput 0)

lemma entryFromSlice_granted :
    entryFromSlice (grantedEntry.toJson sampleTime) = .ok grantedEntry := if_pos rfl

end Sample

theorem completed_recovered_torn :
    ∃ s tr, (appends sampleDeployment).exec ⟨Process.new [] 0, []⟩ tornLast = some (s, tr) ∧
      completed sampleDeployment ⟨Process.new [] 0, []⟩ tornLast = [grantedEntry] ∧
      (completed sampleDeployment ⟨Process.new [] 0, []⟩ tornLast).Sublist
        (recover entryFromSlice (logText sampleTime s.shared.file)) := by
  have hrun : ((appends sampleDeployment).exec ⟨Process.new [] 0, []⟩ tornLast).any
      (fun _ => true) = true := by decide
  obtain ⟨s, tr, h, -⟩ := Machine.exec_any hrun
  have hone : completed sampleDeployment ⟨Process.new [] 0, []⟩ tornLast = [grantedEntry] := by
    decide
  refine ⟨s, tr, h, hone, completed_recovered h ?_ (by decide)⟩
  rw [hone]
  simpa using entryFromSlice_granted

/-- Twenty bytes of a rejection are left in the file, and the grant after it is lost. -/
theorem torn_line_hides :
    ∃ s tr, (appends sampleDeployment).exec ⟨Process.new [] 0, []⟩ tornFirst = some (s, tr) ∧
      completed sampleDeployment ⟨Process.new [] 0, []⟩ tornFirst = [grantedEntry] ∧
      entryFromSlice (grantedEntry.toJson sampleTime) = .ok grantedEntry ∧
      grantedEntry ∉ recover entryFromSlice (logText sampleTime s.shared.file) := by
  have hlost : recover entryFromSlice
      (logText sampleTime [.torn rejectedEntry 20, .line grantedEntry]) = [] := by
    decide +kernel
  have hrun : ((appends sampleDeployment).exec ⟨Process.new [] 0, []⟩ tornFirst).any
      (fun p => p.1.shared.file == [.torn rejectedEntry 20, .line grantedEntry]) = true := by
    decide
  obtain ⟨s, tr, h, htest⟩ := Machine.exec_any hrun
  rw [beq_iff_eq] at htest
  refine ⟨s, tr, h, by decide, entryFromSlice_granted, ?_⟩
  rw [htest, hlost]
  simp

end SecureNet
