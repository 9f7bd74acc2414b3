import Mathlib.Data.List.Basic
import Mathlib.Data.List.Infix
import Mathlib.Tactic.Common

/-!
# Lines of a file

A file that only grows is read by splitting it at a separator. A piece that a separator follows is
closed: nothing that is appended later changes it. The last piece is still open, and what is
appended next becomes part of it.
-/

namespace Lines

variable {α : Type} [DecidableEq α] {sep : α}

/-- A text without the separator, which is written with a separator behind it. -/
abbrev Line (sep : α) := { body : List α // sep ∉ body }

def Line.text (line : Line sep) : List α := line.1 ++ [sep]

omit [DecidableEq α] in
lemma Line.text_ne_nil (line : Line sep) : line.text ≠ [] := by simp [Line.text]

variable (sep) in
/-- The pieces of a file that a separator follows. -/
def closed (file : List α) : List (List α) := (file.splitOn sep).dropLast

variable (sep) in
/-- What is appended next begins a new line. -/
def LineStart (file : List α) : Prop := ∀ b ∈ file.getLast?, b = sep

instance (file : List α) : Decidable (LineStart sep file) :=
  inferInstanceAs (Decidable (∀ b ∈ file.getLast?, b = sep))

lemma closed_cons (b : α) (file : List α) :
    closed sep (b :: file) =
      if b = sep then [] :: closed sep file else (closed sep file).modifyHead (List.cons b) := by
  unfold closed
  rw [List.splitOn_cons_eq_if_modifyHead]
  by_cases hb : b = sep
  · simp [hb, List.dropLast_cons_of_ne_nil (List.splitOn_ne_nil sep file)]
  · simp [hb, List.modifyHead_dropLast]

/-- What is appended leaves the closed pieces as they are. -/
lemma closed_grow (file more : List α) : closed sep file <+: closed sep (file ++ more) := by
  induction file with
  | nil => exact List.nil_prefix
  | cons b file ih =>
    obtain ⟨rest, hrest⟩ := ih
    rw [List.cons_append, closed_cons, closed_cons, ← hrest]
    split
    · exact ⟨rest, rfl⟩
    · cases closed sep file with
      | nil => exact List.nil_prefix
      | cons piece pieces => exact ⟨rest, rfl⟩

/-- At the start of a line the new text is split on its own. -/
lemma closed_append {file : List α} (hstart : LineStart sep file) (more : List α) :
    closed sep (file ++ more) = closed sep file ++ closed sep more := by
  rcases List.eq_nil_or_concat file with rfl | ⟨l, b, rfl⟩
  · rfl
  · obtain rfl : b = sep := hstart b (by simp)
    have hsplit : ∀ more, (l.concat b ++ more).splitOn b = l.splitOn b ++ more.splitOn b := by
      intro more
      rw [List.concat_eq_append, List.append_assoc]
      exact List.splitOn_append_cons_self l more
    have hclosed : closed b (l.concat b) = l.splitOn b := by
      have hnil := hsplit []
      rw [List.append_nil, List.splitOn_nil] at hnil
      rw [closed, hnil, List.dropLast_concat]
    rw [hclosed, closed, hsplit, List.dropLast_append_of_ne_nil (List.splitOn_ne_nil b more)]
    rfl

@[simp] lemma closed_text (line : Line sep) : closed sep line.text = [line.1] := by
  unfold closed Line.text
  rw [List.splitOn_append_cons_self, List.splitOn_nil, List.splitOn_eq_singleton line.2]
  rfl

omit [DecidableEq α] in
lemma lineStart_text (file : List α) (line : Line sep) : LineStart sep (file ++ line.text) := by
  intro b hb
  rw [Line.text, ← List.append_assoc, List.getLast?_concat] at hb
  exact (Option.some.inj hb).symm

/-- The file that whole lines make up. -/
def contents (lines : List (Line sep)) : List α := lines.flatMap Line.text

lemma closed_contents (lines : List (Line sep)) :
    closed sep (contents lines) = lines.map Subtype.val := by
  induction lines with
  | nil => rfl
  | cons line lines ih =>
    have hstart : LineStart sep line.text := lineStart_text [] line
    rw [contents, List.flatMap_cons, closed_append hstart, closed_text]
    rw [contents] at ih
    rw [ih]
    rfl

/-- A file of whole lines determines them. -/
theorem contents_injective : Function.Injective (contents : List (Line sep) → List α) := by
  intro lines lines' h
  have hclosed : closed sep (contents lines) = closed sep (contents lines') := by rw [h]
  rw [closed_contents, closed_contents] at hclosed
  exact List.map_injective_iff.mpr Subtype.val_injective hclosed

end Lines
