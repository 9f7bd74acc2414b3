import SecureNet.Library.BackgroundWrites
import SecureNet.LogText
import SecureNet.Routes

/-!
# Interleaved writes to the log

`IssuanceLog::append` once more, with the write as `tokio`'s `File` carries it out: `write_all`
hands the line over in chunks and returns when the last one is handed over, and then the guard of
the log's mutex is dropped. No file operation fails here, so making the directory and opening the
file is one step.
-/

namespace SecureNet

open BackgroundWrites Hex JsonText Lines

/-- The most that `tokio` hands over to one background write. -/
def maxBufSize : ℕ := 2 * 1024 * 1024

/-- What the calls of `append` write, each for its own entry. -/
def callLines (timeText : ℤ → String) (calls : List IssuanceLogEntry) :
    Fin calls.length → Line newline :=
  fun i => calls[i].line timeText

/-- The lines of the calls, each of them once, in some order. -/
def WholeLines (timeText : ℤ → String) (calls : List IssuanceLogEntry) (file : Bytes) : Prop :=
  ∃ lines : List (Line newline),
    lines.Perm (calls.map (fun entry => entry.line timeText)) ∧ file = contents lines

variable {timeText : ℤ → String} {calls : List IssuanceLogEntry}

lemma whole_callLines (file : Bytes) :
    Whole (callLines timeText calls) file ↔ WholeLines timeText calls file := by
  have hall : Finset.univ.val.map (callLines timeText calls) =
      ↑(calls.map (fun entry => entry.line timeText)) := by
    rw [Fin.univ_val_map]
    congr 1
    exact List.ofFn_getElem_eq_map calls (fun entry => entry.line timeText)
  unfold Whole WholeLines
  simp only [hall, Multiset.coe_eq_coe]

lemma callLines_noSuffix : NoSuffix (callLines timeText calls) := by
  intro i j hsuffix
  exact Subtype.ext (IssuanceLogEntry.line_of_suffix timeText hsuffix)

variable (timeText calls) in
/-- The log consists of whole lines after every schedule exactly if there are no two calls or no
line is longer than what one background write takes. -/
theorem log_whole_iff :
    (∀ as s tr, (machine maxBufSize).exec (startLines (callLines timeText calls)) as =
        some (s, tr) → Finished s → WholeLines timeText calls (written tr)) ↔
      calls.length ≤ 1 ∨
        ∀ entry ∈ calls, (entry.line timeText).text.length ≤ maxBufSize := by
  have hlines : (∀ i, (callLines timeText calls i).text.length ≤ maxBufSize) ↔
      ∀ entry ∈ calls, (entry.line timeText).text.length ≤ maxBufSize := by
    rw [List.forall_mem_iff_getElem]
    exact Fin.forall_iff
  simp only [← whole_callLines]
  rw [whole_iff (by decide) callLines_noSuffix, Fin.subsingleton_iff_le_one, hlines]

section Sample

/-- The JSON body of a request. -/
def UnsealRequest.toJson (self : UnsealRequest) : Bytes :=
  object [("service_name", .str self.serviceName), ("machine_id", .str self.machineId),
    ("tpm_quote", .str self.tpmQuote), ("nonce", .str self.nonce), ("ak_pub", .str self.akPub)]

def repeatedId (n : ℕ) : String := String.ofList (List.replicate n 'a')

def repeatedRequest (n : ℕ) : UnsealRequest := ⟨"user-service", repeatedId n, "", "", ""⟩

def notAllowed (machineId : String) : String := "machine_id '" ++ machineId ++ "' not in allowlist"

/-- The rejections of a request with a long machine id and of an ordinary one. -/
def repeatedCalls (n : ℕ) : List IssuanceLogEntry :=
  [rejectionEntry 0 0 "user-service" (repeatedId n) (notAllowed (repeatedId n)), rejectedEntry]

def strictDeployment : Deployment := { sampleDeployment with allowlist := ⟨["machine-1"]⟩ }

lemma encode_repeatedId (n : ℕ) : Utf8.encode (repeatedId n) = List.replicate n 97 := by
  have hchar : String.utf8EncodeChar 'a' = [97] := by decide
  rw [Utf8.encode, repeatedId, String.toList_ofList, List.flatMap_replicate, hchar,
    List.flatten_replicate_singleton]

lemma escapes_repeatedId (n : ℕ) :
    (Utf8.encode (repeatedId n)).flatMap escapeByte = List.replicate n 97 := by
  have hescape : escapeByte 97 = [97] := by decide
  rw [encode_repeatedId, List.flatMap_replicate, hescape, List.flatten_replicate_singleton]

lemma string_repeatedId (n : ℕ) : (string (repeatedId n)).length = n + 2 := by
  rw [string, escapes_repeatedId, List.length_cons, List.length_append, List.length_replicate]
  rfl

lemma body_length (n : ℕ) : (repeatedRequest n).toJson.length = n + 85 := by
  have hname : (string "service_name").length = 14 := by decide
  have hservice : (string "user-service").length = 14 := by decide
  have hid : (string "machine_id").length = 12 := by decide
  have hquote : (string "tpm_quote").length = 11 := by decide
  have hnonce : (string "nonce").length = 7 := by decide
  have hkey : (string "ak_pub").length = 8 := by decide
  have hempty : (string "").length = 2 := by decide
  simp only [repeatedRequest, UnsealRequest.toJson, object, members, member, Scalar.text,
    List.length_append, List.length_cons, List.length_nil, string_repeatedId, hname, hservice, hid,
    hquote, hnonce, hkey, hempty]
  omega

/-- The machine id is written twice. -/
lemma line_length (n : ℕ) :
    2 * n ≤ ((rejectionEntry 0 0 "user-service" (repeatedId n)
      (notAllowed (repeatedId n))).line sampleTime).text.length := by
  have hreason : n ≤ (string (notAllowed (repeatedId n))).length := by
    rw [string, notAllowed, Utf8.encode_append, Utf8.encode_append, List.flatMap_append,
      List.flatMap_append, escapes_repeatedId]
    simp only [List.length_cons, List.length_append, List.length_replicate]
    omega
  simp only [Line.text, IssuanceLogEntry.line, IssuanceLogEntry.toJson, IssuanceLogEntry.fields,
    rejectionEntry, object, members, member, Scalar.text, List.length_append, List.length_cons,
    List.length_nil, string_repeatedId]
  omega

lemma verify_repeated {n : ℕ} (hn : 9 < n) :
    verifyRequest strictDeployment (repeatedRequest n) = .error (notAllowed (repeatedId n)) := by
  have hne : "machine-1" ≠ repeatedId n := by
    intro heq
    have hlength := congrArg (fun s => s.toList.length) heq
    have hnine : "machine-1".toList.length = 9 := by decide
    simp only [repeatedId, String.toList_ofList, List.length_replicate, hnine] at hlength
    omega
  simp [verifyRequest, strictDeployment, repeatedRequest, Allowlist.contains, notAllowed, hne]

lemma repeatedCalls_cut {n : ℕ} (hn : maxBufSize < 2 * n) :
    ∃ as s tr, (machine maxBufSize).exec (startLines (callLines sampleTime (repeatedCalls n))) as =
      some (s, tr) ∧ Finished s ∧ ¬WholeLines sampleTime (repeatedCalls n) (written tr) := by
  by_contra hnone
  have hwhole : ∀ as s tr, (machine maxBufSize).exec
      (startLines (callLines sampleTime (repeatedCalls n))) as = some (s, tr) → Finished s →
        Whole (callLines sampleTime (repeatedCalls n)) (written tr) := by
    intro as s tr hexec hfin
    by_contra hcut
    exact hnone ⟨as, s, tr, hexec, hfin, fun hwhole => hcut ((whole_callLines _).mpr hwhole)⟩
  rcases (whole_iff (by decide) callLines_noSuffix).mp hwhole with hone | hshort
  · exact absurd (Fin.subsingleton_iff_le_one.mp hone) (by simp [repeatedCalls])
  · have hlong := line_length n
    have hbound := hshort ⟨0, by simp [repeatedCalls]⟩
    change (((rejectionEntry 0 0 "user-service" (repeatedId n)
      (notAllowed (repeatedId n))).line sampleTime).text).length ≤ maxBufSize at hbound
    omega

end Sample

/-- A request with a machine id of 1100000 bytes fits into a body of 2 MiB, and its rejection does
not fit into one background write. -/
theorem long_rejection_cut :
    (repeatedRequest 1100000).toJson.length ≤ 2097152 ∧
      verifyRequest strictDeployment (repeatedRequest 1100000) =
        .error (notAllowed (repeatedId 1100000)) ∧
      ∃ as s tr, (machine maxBufSize).exec
          (startLines (callLines sampleTime (repeatedCalls 1100000))) as = some (s, tr) ∧
        Finished s ∧ ¬WholeLines sampleTime (repeatedCalls 1100000) (written tr) := by
  refine ⟨?_, verify_repeated (by decide), repeatedCalls_cut (by decide)⟩
  rw [body_length]
  decide

end SecureNet
