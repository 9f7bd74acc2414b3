import SecureNet.Library.JsonText
import SecureNet.Library.Lines
import SecureNet.Routes

/-!
# The text of the issuance log

The bytes that `IssuanceLog::append` writes for an entry, as `serde_json` prints the derived
`Serialize` of `shared/src/models.rs`, and how the log is read back: the file is split at newlines
and every piece is parsed on its own. The text of a time is a parameter.
-/

namespace SecureNet

open Hex (Bytes)
open JsonText Lines
open Percent (ascii)

def newline : UInt8 := 10

variable (timeText : ℤ → String)

namespace IssuanceLogEntry

def fields (self : IssuanceLogEntry) : List (String × Scalar) :=
  [("timestamp", .str (timeText self.timestamp)), ("service_name", .str self.serviceName),
    ("machine_id", .str self.machineId), ("cert_serial", .str self.certSerial),
    ("expires_at", .str (timeText self.expiresAt)), ("granted", .bool self.granted),
    ("reason", match self.reason with
      | some reason => .str reason
      | none => .null)]

/-- `serde_json::to_string` -/
def toJson (self : IssuanceLogEntry) : Bytes := object (self.fields timeText)

/-- The entry as a line of the log. -/
def line (self : IssuanceLogEntry) : Line newline :=
  ⟨self.toJson timeText, newline_object (self.fields timeText)⟩

lemma toJson_begin (self : IssuanceLogEntry) :
    ∃ l, self.toJson timeText = ascii '{' :: ascii '"' :: ascii 't' :: l := by
  have hkey : string "timestamp" =
      ascii '"' :: ascii 't' :: (string "timestamp").drop 2 := by decide
  rw [toJson, fields, object, members_cons_cons, member, hkey]
  exact ⟨_, rfl⟩

/-- No line of the log ends with another one. -/
lemma line_of_suffix {self other : IssuanceLogEntry}
    (h : self.toJson timeText <:+ other.toJson timeText) :
    self.toJson timeText = other.toJson timeText := by
  obtain ⟨l, hl⟩ := self.toJson_begin timeText
  exact object_of_suffix hl (by decide) h

end IssuanceLogEntry

def LogPiece.text : LogPiece → Bytes
  | .line entry => (entry.line timeText).text
  | .torn entry n => (entry.line timeText).text.take n

/-- The bytes of the log file. -/
def logText (file : List LogPiece) : Bytes := file.flatMap (LogPiece.text timeText)

lemma logText_append (file pieces : List LogPiece) :
    logText timeText (file ++ pieces) = logText timeText file ++ logText timeText pieces :=
  List.flatMap_append

/-- The entries that a reader of the log finds. -/
def recover (fromSlice : Bytes → Except String IssuanceLogEntry) (file : Bytes) :
    List IssuanceLogEntry :=
  (file.splitOn newline).filterMap (fun piece => (fromSlice piece).toOption)

/-- The entries of the lines that are closed. -/
def closedEntries (fromSlice : Bytes → Except String IssuanceLogEntry) (file : Bytes) :
    List IssuanceLogEntry :=
  (closed newline file).filterMap (fun piece => (fromSlice piece).toOption)

section Recovery

variable {timeText} {fromSlice : Bytes → Except String IssuanceLogEntry} {file : List LogPiece}

lemma closedEntries_sublist (file : Bytes) : (closedEntries fromSlice file).Sublist (recover fromSlice file) :=
  (List.dropLast_sublist _).filterMap _

/-- Whatever is appended, the entries of closed lines stay. -/
lemma closedEntries_grow (file pieces : List LogPiece) :
    (closedEntries fromSlice (logText timeText file)).Sublist
      (closedEntries fromSlice (logText timeText (file ++ pieces))) := by
  rw [logText_append]
  exact (closed_grow _ _).sublist.filterMap _

lemma closedEntries_line {entry : IssuanceLogEntry}
    (hstart : LineStart newline (logText timeText file))
    (hparse : fromSlice (entry.toJson timeText) = .ok entry) :
    closedEntries fromSlice (logText timeText (file ++ [.line entry])) =
      closedEntries fromSlice (logText timeText file) ++ [entry] := by
  have hline : logText timeText [.line entry] = (entry.line timeText).text :=
    List.flatMap_singleton _ _
  have hpiece : (fromSlice (entry.line timeText).1).toOption = some entry := by
    rw [IssuanceLogEntry.line, hparse]
    rfl
  rw [logText_append, hline, closedEntries, closed_append hstart, closed_text,
    List.filterMap_append]
  simp only [List.filterMap_cons, hpiece, List.filterMap_nil]
  rfl

end Recovery

section Sample

/-- The text of the time 0. -/
def sampleTime (_ : ℤ) : String := "1970-01-01T00:00:00Z"

def rejectedEntry : IssuanceLogEntry :=
  rejectionEntry 0 0 "order-service" "machine-2" "nonce is required"

end Sample

end SecureNet
