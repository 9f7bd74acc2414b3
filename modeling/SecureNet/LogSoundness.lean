import SecureNet.GrantAudit
import SecureNet.Library.TornJson
import SecureNet.LogText
import SecureNet.Wire

/-!
# What the issuance log can say

Writes that fail and requests that are dropped may leave any beginning of a line in the log, and the
next line then begins in the middle of another one. Entries get lost that way, but none appears that
was not written, whatever the strings in the requests are. Every append puts what it writes into the
file in one piece, and all of its line if `write_all` returns; what becomes of a line that is handed
over in several chunks is another matter (`LogWrites`).
-/

namespace SecureNet

open Hex (Bytes)
open EventMachine JsonText Tasks
open Percent (ascii)

variable (F : TimeFormat)

/-- The parser of a reader of the log, with some text for its errors. -/
def IssuanceLogEntry.fromSlice (bs : Bytes) : Except String IssuanceLogEntry :=
  context ((format F).fromSlice bs) "invalid entry"

/-- The entry of a piece that holds all of its text, with or without the newline. -/
def LogPiece.whole : LogPiece → Option IssuanceLogEntry
  | .line entry => some entry
  | .torn entry n => if (entry.toJson F.text).length ≤ n then some entry else none

/-- The piece does not close its line. -/
def LogPiece.IsOpen : LogPiece → Prop
  | .line _ => False
  | .torn entry n => n ≤ (entry.toJson F.text).length

variable {F}

section Text

/-- A scalar as a tree. -/
def scalarJson : Scalar → Json
  | .str s => .string s
  | .bool b => .bool b
  | .null => .null

lemma object_text (ms : List (String × Scalar)) :
    object ms = (Json.object (ms.map fun m => (m.1, scalarJson m.2))).text := by
  have hmember : ∀ m : String × Scalar, member m = Json.memberText (m.1, scalarJson m.2) := by
    rintro ⟨key, v⟩
    cases v <;> rfl
  have hmembers : ∀ ms : List (String × Scalar), members ms = Json.sep (ascii '}')
      ((ms.map fun m => (m.1, scalarJson m.2)).map Json.memberText) := by
    intro ms
    induction ms with
    | nil => rfl
    | cons m ms ih =>
      cases ms with
      | nil => simp only [members, List.map_cons, List.map_nil, Json.sep, hmember]
      | cons m' ms =>
        simp only [List.map_cons] at ih ⊢
        rw [members_cons_cons, Json.sep_cons_cons, hmember, ih]
  rw [object, Json.text, Json.memberTexts_eq_map, hmembers]

lemma IssuanceLogEntry.toJson_text (entry : IssuanceLogEntry) :
    entry.toJson F.text = (entry.serialize F).text := by
  rw [toJson, object_text, serialize]
  cases hreason : entry.reason <;> simp only [fields, hreason] <;> rfl

lemma IssuanceLogEntry.record (entry : IssuanceLogEntry) :
    ∃ ms, entry.serialize F = .object ms ∧ Json.Record ms := by
  refine ⟨_, rfl, ⟨?_, ?_⟩⟩
  · intro m hm
    have hscalar : ∀ v ∈ [Json.string (F.text entry.timestamp), .string entry.serviceName,
        .string entry.machineId, .string entry.certSerial, .string (F.text entry.expiresAt),
        .bool entry.granted, (entry.reason.map Json.string).getD .null], v.depth = 0 := by
      intro v hv
      simp only [List.mem_cons, List.not_mem_nil, or_false] at hv
      rcases hv with rfl | rfl | rfl | rfl | rfl | rfl | rfl
      · rfl
      · rfl
      · rfl
      · rfl
      · rfl
      · rfl
      · cases entry.reason <;> rfl
    exact hscalar m.2 (List.of_mem_zip hm).2
  · obtain ⟨l, hl⟩ := entry.toJson_begin F.text
    have htext := entry.toJson_text (F := F)
    rw [hl, serialize] at htext
    exact ⟨ascii 't', l, htext.symm, by decide⟩

lemma IssuanceLogEntry.fromSlice_toJson (entry : IssuanceLogEntry) :
    (format F).fromSlice (entry.toJson F.text) = some entry := by
  rw [toJson_text]
  exact (format F).fromSlice_toVec trivial

end Text

section Pieces

variable {piece : LogPiece} {pieces : List LogPiece}

lemma LogPiece.IsOpen.text (h : piece.IsOpen F) : ∃ entry n, piece = .torn entry n ∧
    piece.text F.text = (entry.toJson F.text).take n := by
  cases piece with
  | line entry => exact h.elim
  | torn entry n =>
    refine ⟨entry, n, rfl, ?_⟩
    have hn : n ≤ (entry.line F.text).1.length := h
    rw [LogPiece.text, Lines.Line.text, List.take_append_of_le_length hn]
    rfl

/-- A piece that closes its line holds all of its text. -/
lemma LogPiece.text_closing (h : ¬piece.IsOpen F) : ∃ entry, piece.whole F = some entry ∧
    piece.text F.text = entry.toJson F.text ++ [newline] := by
  cases piece with
  | line entry => exact ⟨entry, rfl, rfl⟩
  | torn entry n =>
    have hn : (entry.toJson F.text).length < n := Nat.lt_of_not_le h
    refine ⟨entry, if_pos (Nat.le_of_lt hn), ?_⟩
    have hall : (entry.line F.text).text.length ≤ n := by
      rw [Lines.Line.text, List.length_append, List.length_singleton]
      exact hn
    rw [LogPiece.text, List.take_of_length_le hall]
    rfl

lemma logText_cons : logText F.text (piece :: pieces) = piece.text F.text ++ logText F.text pieces :=
  List.flatMap_cons

lemma newline_open (h : ∀ p ∈ pieces, p.IsOpen F) : newline ∉ logText F.text pieces := by
  intro hmem
  obtain ⟨p, hp, hn⟩ := List.mem_flatMap.mp hmem
  obtain ⟨entry, n, rfl, htext⟩ := (h p hp).text
  rw [htext] at hn
  exact newline_object (entry.fields F.text) (List.mem_of_mem_take hn)

lemma shreds_open (h : ∀ p ∈ pieces, p.IsOpen F) : Json.Shreds (logText F.text pieces) := by
  induction pieces with
  | nil => exact .nil
  | cons p pieces ih =>
    obtain ⟨hp, hpieces⟩ := List.forall_mem_cons.mp h
    obtain ⟨entry, n, rfl, htext⟩ := hp.text
    rw [logText_cons, htext]
    by_cases hnil : (entry.toJson F.text).take n = []
    · rw [hnil, List.nil_append]
      exact ih hpieces
    · obtain ⟨ms, hms, hrecord⟩ := entry.record (F := F)
      refine .cons hrecord ?_ hnil (ih hpieces)
      rw [← hms, ← entry.toJson_text]
      exact List.take_prefix n _

/-- The pieces of one line are read as an entry only if one of them is the whole entry. -/
lemma read_open (h : ∀ p ∈ pieces, p.IsOpen F) :
    (IssuanceLogEntry.fromSlice F (logText F.text pieces)).toOption.toList.Sublist
      (pieces.filterMap (LogPiece.whole F)) := by
  induction pieces with
  | nil => exact List.nil_sublist _
  | cons p pieces ih =>
    obtain ⟨hp, hpieces⟩ := List.forall_mem_cons.mp h
    obtain ⟨entry, n, rfl, htext⟩ := hp.text
    rw [logText_cons, htext]
    have hrest := (ih hpieces).trans
      ((List.sublist_cons_self (.torn entry n) pieces).filterMap (LogPiece.whole F))
    by_cases hnil : (entry.toJson F.text).take n = []
    · rw [hnil, List.nil_append]
      exact hrest
    cases hread : (IssuanceLogEntry.format F).fromSlice
        ((entry.toJson F.text).take n ++ logText F.text pieces) with
    | none =>
      rw [IssuanceLogEntry.fromSlice, hread]
      exact List.nil_sublist _
    | some found =>
      obtain ⟨v, hv, -⟩ := Option.bind_eq_some_iff.mp hread
      obtain ⟨ms, hms, hrecord⟩ := entry.record (F := F)
      have hprefix : (entry.toJson F.text).take n <+: (Json.object ms).text := by
        rw [← hms, ← entry.toJson_text]
        exact List.take_prefix n _
      obtain ⟨hall, hnone⟩ := Json.parse_shreds hrecord hprefix hnil (shreds_open hpieces) hv
      rw [← hms, ← entry.toJson_text] at hall
      have hlong : (entry.toJson F.text).length ≤ n := List.take_eq_self_iff _ |>.mp hall
      rw [hall, hnone, List.append_nil, entry.fromSlice_toJson] at hread
      cases hread
      rw [hall, hnone, List.append_nil, IssuanceLogEntry.fromSlice, entry.fromSlice_toJson,
        List.filterMap_cons_some (show LogPiece.whole F (.torn entry n) = some entry from if_pos hlong)]
      exact List.singleton_sublist.mpr List.mem_cons_self

section Lines

variable {fromSlice : Bytes → Except String IssuanceLogEntry} {bs : Bytes}

lemma recover_last (hbs : newline ∉ bs) :
    recover fromSlice bs = (fromSlice bs).toOption.toList := by
  rw [recover, List.splitOn_eq_singleton hbs]
  cases hread : (fromSlice bs).toOption <;> simp [hread]

lemma recover_line (hbs : newline ∉ bs) (rest : Bytes) :
    recover fromSlice (bs ++ newline :: rest) =
      (fromSlice bs).toOption.toList ++ recover fromSlice rest := by
  have hlast : recover fromSlice bs = (fromSlice bs).toOption.toList := recover_last hbs
  rw [recover] at hlast
  rw [recover, List.splitOn_append_cons_self, List.filterMap_append, hlast, recover]

end Lines

/-- A piece with all of the text of its entry and no newline. -/
def LogPiece.unclosed (F : TimeFormat) (entry : IssuanceLogEntry) : LogPiece :=
  .torn entry (entry.toJson F.text).length

lemma unclosed_open (entry : IssuanceLogEntry) : (LogPiece.unclosed F entry).IsOpen F := Nat.le_refl _

lemma unclosed_whole (entry : IssuanceLogEntry) :
    (LogPiece.unclosed F entry).whole F = some entry := if_pos (Nat.le_refl _)

lemma unclosed_text (entry : IssuanceLogEntry) :
    (LogPiece.unclosed F entry).text F.text = entry.toJson F.text := by
  obtain ⟨entry', n, heq, htext⟩ := (unclosed_open (F := F) entry).text
  cases heq
  rw [htext, List.take_length]

lemma forall_mem_concat {p : LogPiece → Prop} (hpieces : ∀ q ∈ pieces, p q) (hpiece : p piece) :
    ∀ q ∈ pieces ++ [piece], p q := by
  intro q hq
  rcases List.mem_append.mp hq with hq | hq
  · exact hpieces q hq
  · rw [List.mem_singleton.mp hq]
    exact hpiece

/-- A piece that closes its line separates what is read before it from what is read after it. -/
lemma recover_closing {before : List LogPiece} (hbefore : ∀ p ∈ before, p.IsOpen F)
    {entry : IssuanceLogEntry} (htext : piece.text F.text = entry.toJson F.text ++ [newline])
    (pieces : List LogPiece) :
    recover (IssuanceLogEntry.fromSlice F) (logText F.text (before ++ piece :: pieces)) =
      (IssuanceLogEntry.fromSlice F
        (logText F.text (before ++ [LogPiece.unclosed F entry]))).toOption.toList ++
        recover (IssuanceLogEntry.fromSlice F) (logText F.text pieces) := by
  have hline := forall_mem_concat hbefore (unclosed_open (F := F) entry)
  have hlast : logText F.text [LogPiece.unclosed F entry] = entry.toJson F.text := by
    rw [logText, List.flatMap_singleton, unclosed_text]
  have hfile : logText F.text (before ++ piece :: pieces) =
      logText F.text (before ++ [LogPiece.unclosed F entry]) ++ newline :: logText F.text pieces := by
    rw [logText_append, logText_append, logText_cons, htext, hlast]
    simp only [List.append_assoc, List.singleton_append]
  rw [hfile, recover_line (newline_open hline)]

/-- A reader finds no other entries than those of the pieces that are whole, in their order. -/
theorem recover_sublist (before pieces : List LogPiece) (hbefore : ∀ p ∈ before, p.IsOpen F) :
    (recover (IssuanceLogEntry.fromSlice F) (logText F.text (before ++ pieces))).Sublist
      ((before ++ pieces).filterMap (LogPiece.whole F)) := by
  -- `before` are the pieces of the line that is still open
  induction pieces generalizing before with
  | nil =>
    rw [List.append_nil, recover_last (newline_open hbefore)]
    exact read_open hbefore
  | cons p pieces ih =>
    by_cases hp : p.IsOpen F
    · have hnext := ih (before ++ [p]) (forall_mem_concat hbefore hp)
      simpa only [List.append_assoc, List.singleton_append] using hnext
    · obtain ⟨entry, hwhole, htext⟩ := LogPiece.text_closing hp
      have hline := forall_mem_concat hbefore (unclosed_open (F := F) entry)
      have hentries : (before ++ p :: pieces).filterMap (LogPiece.whole F) =
          (before ++ [LogPiece.unclosed F entry]).filterMap (LogPiece.whole F) ++
            pieces.filterMap (LogPiece.whole F) := by
        simp only [List.filterMap_append, List.filterMap_cons_some hwhole,
          List.filterMap_cons_some (unclosed_whole (F := F) entry), List.filterMap_nil,
          List.append_assoc, List.singleton_append]
      have hrest := ih [] (by simp)
      rw [List.nil_append] at hrest
      rw [recover_closing hbefore htext, hentries]
      exact (read_open hline).append hrest

/-- Where a line begins with a line of its own, its entry is read. -/
lemma mem_recover_line (entry : IssuanceLogEntry) (pieces : List LogPiece) :
    entry ∈ recover (IssuanceLogEntry.fromSlice F) (logText F.text (.line entry :: pieces)) := by
  have htext : (LogPiece.line entry).text F.text = entry.toJson F.text ++ [newline] := rfl
  have hnone : ∀ p ∈ ([] : List LogPiece), p.IsOpen F := by simp
  have hread := recover_closing hnone htext pieces
  have hlast : logText F.text [LogPiece.unclosed F entry] = entry.toJson F.text := by
    rw [logText, List.flatMap_singleton, unclosed_text]
  rw [List.nil_append, List.nil_append, hlast, IssuanceLogEntry.fromSlice,
    entry.fromSlice_toJson] at hread
  rw [hread]
  exact List.mem_append_left _ (List.mem_singleton_self entry)

end Pieces

section Written

variable {D : Deployment} {file : List LogPiece} {clock : ℕ} {as : List VaultAction}
  {s : VaultSystem} {tr : VaultTrace}

def LogPiece.entry : LogPiece → IssuanceLogEntry
  | .line entry => entry
  | .torn entry _ => entry

lemma LogPiece.whole_entry {piece : LogPiece} {entry : IssuanceLogEntry}
    (h : piece.whole F = some entry) : piece.entry = entry := by
  cases piece with
  | line e => exact Option.some.inj h
  | torn e n =>
    simp only [LogPiece.whole] at h
    split at h
    · exact Option.some.inj h
    · cases h

lemma Logged.entry {works : Prop} {entry : IssuanceLogEntry} {log : List VaultEvent}
    (hl : Logged works entry log) {piece : LogPiece} (hp : .appended piece ∈ log) :
    piece.entry = entry := by
  cases hl with
  | line =>
    cases List.mem_singleton.mp hp
    rfl
  | broken _ f =>
    obtain ⟨q, hq, heq⟩ := List.mem_map.mp hp
    cases heq
    cases f with
    | nothing => cases hq
    | bytes n =>
      cases List.mem_singleton.mp hq
      rfl
    | whole =>
      cases List.mem_singleton.mp hq
      rfl

lemma Verified.unwritten {req : UnsealRequest} {pre : List VaultEvent} {v : Except String Unit}
    (hv : Verified D req pre v) (piece : LogPiece) : .appended piece ∉ pre := by
  cases hv <;> simp

/-- The entry was written for a request, and it tells what became of it. -/
structure WrittenFor (tr : VaultTrace) (v : ℕ) (req : UnsealRequest) (entry : IssuanceLogEntry) :
    Prop where
  arrived : ∃ r, .arrived v r ∈ tr ∧ r.attested = some req
  serviceName : entry.serviceName = req.serviceName
  machineId : entry.machineId = req.machineId
  granted : entry.granted = true → ∃ c, .did v (.issueCalled req.serviceName (.ok c)) ∈ tr ∧
    entry.certSerial = c.bundle.serial ∧ entry.expiresAt = c.bundle.expiresAt

/-- Whatever is in the log was written for a request. An entry that tells of a grant comes after
the certificate was issued. -/
lemma written_for (h : (vault D).exec (start file clock) as = some (s, tr)) {v : ℕ}
    {piece : LogPiece} (hp : .did v (.appended piece) ∈ tr) :
    ∃ req, WrittenFor tr v req piece.entry := by
  obtain ⟨r, harr, rest, a, ho⟩ := run_history h hp
  have hmem := mem_history.mpr hp
  have hall : .appended piece ∈ history v tr ++ rest := List.mem_append_left rest hmem
  have hdid : ∀ {e : VaultEvent}, e ∈ history v tr → .did v e ∈ tr := fun he => mem_history.mp he
  generalize history v tr = H at ho hmem hall hdid
  generalize hevs : H ++ rest = evs at ho hall
  cases ho with
  | nonce nonce t => simp at hall
  | unsealRefused req e pre log entry hv he hl =>
    obtain ⟨timestamp, expiresAt, rfl⟩ := he
    have hlog := (List.mem_append.mp hall).resolve_left (hv.unwritten piece)
    rw [hl.entry hlog]
    exact ⟨req, ⟨_, harr, rfl⟩, rfl, rfl, fun hg => by cases hg⟩
  | renewRefused req e _ hv => exact absurd hall (hv.unwritten piece)
  | issueFailed _ req e pre hr hv =>
    rcases List.mem_append.mp hall with hmem' | hmem'
    · exact absurd hmem' (hv.unwritten piece)
    · cases List.mem_singleton.mp hmem'
  | granted _ req c pre log entry hr hv he hl =>
    obtain ⟨timestamp, rfl⟩ := he
    have hlog : .appended piece ∈ log := by
      rcases List.mem_append.mp hall with hmem' | hmem'
      · exact absurd hmem' (hv.unwritten piece)
      · exact (List.mem_cons.mp hmem').resolve_left (by simp)
    rw [hl.entry hlog]
    refine ⟨req, ⟨r, harr, hr⟩, rfl, rfl, fun _ => ⟨c, hdid ?_, rfl, rfl⟩⟩
    rcases List.append_eq_append_iff.mp hevs with ⟨l, rfl, -⟩ | ⟨l, rfl, hl'⟩
    · exact absurd (List.mem_append_left l hmem) (hv.unwritten piece)
    · cases l with
      | nil =>
        rw [List.append_nil] at hmem
        exact absurd hmem (hv.unwritten piece)
      | cons e l =>
        cases hl'
        simp
  | revokeRefused body hb => simp at hall
  | revoked body serial hb => simp at hall
  | crl serials => simp at hall
  | health issued => simp at hall

/-- In every run in which the appends reach the file in one piece each, whatever was cut short in the
log: an entry that a reader finds was in the file before, or it was written for a request, and if it
tells of a grant, the certificate was issued. -/
theorem log_text_sound (F : TimeFormat)
    (h : (vault D).exec (start file clock) as = some (s, tr)) :
    (recover (IssuanceLogEntry.fromSlice F) (logText F.text s.shared.file)).Sublist
        (file.filterMap (LogPiece.whole F) ++ (appended tr).filterMap (LogPiece.whole F)) ∧
      ∀ entry ∈ recover (IssuanceLogEntry.fromSlice F) (logText F.text s.shared.file),
        entry ∈ file.filterMap (LogPiece.whole F) ∨ ∃ v req, WrittenFor tr v req entry := by
  have hsublist := recover_sublist (F := F) [] s.shared.file (by simp)
  rw [List.nil_append, file_eq_appended h, List.filterMap_append, ← file_eq_appended h] at hsublist
  refine ⟨hsublist, ?_⟩
  intro entry hentry
  rcases List.mem_append.mp (hsublist.subset hentry) with hold | hnew
  · exact .inl hold
  · obtain ⟨piece, hpiece, hwhole⟩ := List.mem_filterMap.mp hnew
    obtain ⟨v, hv⟩ := mem_appended.mp hpiece
    obtain ⟨req, hwritten⟩ := written_for h hv
    rw [LogPiece.whole_entry hwhole] at hwritten
    exact .inr ⟨v, req, hwritten⟩

/-- The write of a grant is cut short, and two lines follow it. -/
def tornRun : List VaultAction :=
  fetchNonce 0 ++ serve 1 6 (.postUnseal sampleRequest) ++
    [.drop 1 { sampleInput 0 with flushed := .bytes 10 }] ++ serve 2 8 (.postUnseal sampleRequest) ++
    serve 3 8 (.postUnseal sampleRequest)

/-- A torn entry of at least ten bytes, cut after the tenth, and two lines. -/
def isTornFile : List LogPiece → Bool
  | [.torn torn 10, .line _, .line _] => decide (10 ≤ (torn.toJson sampleFormat.text).length)
  | _ => false

theorem log_text_sound_torn :
    ∃ s tr torn lost found, (vault sampleDeployment).exec (start [] 0) tornRun = some (s, tr) ∧
      s.shared.file = [.torn torn 10, .line lost, .line found] ∧
      found ∈ recover (IssuanceLogEntry.fromSlice sampleFormat)
        (logText sampleFormat.text s.shared.file) ∧
      ∀ entry ∈ recover (IssuanceLogEntry.fromSlice sampleFormat)
        (logText sampleFormat.text s.shared.file), ∃ v req, WrittenFor tr v req entry := by
  have hrun : ((vault sampleDeployment).exec (start [] 0) tornRun).any
      (fun p => isTornFile p.1.shared.file) = true := by
    decide +kernel
  obtain ⟨s, tr, h, htest⟩ := Machine.exec_any hrun
  unfold isTornFile at htest
  split at htest
  · next torn lost found hfile =>
    refine ⟨s, tr, torn, lost, found, h, hfile, ?_, ?_⟩
    · have hlength : 10 ≤ (torn.toJson sampleFormat.text).length := of_decide_eq_true htest
      have hopen : ∀ p ∈ [LogPiece.torn torn 10], p.IsOpen sampleFormat :=
        List.forall_mem_singleton.mpr hlength
      rw [hfile]
      have htext : (LogPiece.line lost).text sampleFormat.text =
          lost.toJson sampleFormat.text ++ [newline] := rfl
      have hread := recover_closing hopen htext [.line found]
      rw [List.singleton_append] at hread
      rw [hread]
      exact List.mem_append_right _ (mem_recover_line found [])
    · intro entry hentry
      exact ((log_text_sound sampleFormat h).2 entry hentry).resolve_left (by simp)
  · cases htest

end Written

end SecureNet
