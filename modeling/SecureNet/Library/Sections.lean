import Mathlib.Data.List.Basic
import Mathlib.Data.List.Infix
import Mathlib.Tactic.Common

/-!
# Texts with sections

A text is read line by line. A section opens at a line that begins with one marker and closes at a
line that begins with another; what lies outside the sections is ignored. When a text is continued
by another one, the last line of the first becomes one line with the first line of the second.
`read_append` says when the sections of the whole are those of the two parts.
-/

namespace Sections

/-- How sections are marked, and what becomes of the lines of a section. -/
structure Format (α ε γ : Type) where
  newline : α → Bool
  start : List α
  finish : List α
  decode : List (List α) → Except ε γ
  unclosed : ε
  start_not_finish : ¬start <+: finish
  finish_not_start : ¬finish <+: start

variable {α ε γ : Type}

namespace Format

variable (F : Format α ε γ)

/-- The lines of a text. The last one is what follows the last line break, and may be empty. -/
def lines (text : List α) : List (List α) := text.splitOnP F.newline

def firstLine (text : List α) : List α := (F.lines text).headD []

def laterLines (text : List α) : List (List α) := (F.lines text).tail

def lastLine (text : List α) : List α := (F.lines text).getLastD []

abbrev Opens (line : List α) : Prop := F.start <+: line

abbrev Closes (line : List α) : Prop := F.finish <+: line

/-- The first section of the text is opened twice, and decodes to the same with the lines up to the
second opening line as without them. -/
def Reopened (lines : List (List α)) : Prop :=
  ∃ early line body last rest, lines = early ++ line :: (body ++ last :: rest) ∧
    (∀ l ∈ early, ¬F.Opens l ∧ ¬F.Closes l) ∧ F.Opens line ∧ (∀ l ∈ body, ¬F.Closes l) ∧
    F.Closes last ∧ F.decode (early ++ line :: body) = F.decode body

variable [DecidableEq α]

/-- The lines of the section that is open behind a line outside the sections, if it opens one. -/
def entry (line : List α) : Option (List (List α)) := if F.Opens line then some [] else none

/-- One line, with the lines so far of the section that is open. -/
def step : Option (List (List α)) → List α → Option (List (List α)) × List (Except ε γ)
  | none, line => (F.entry line, [])
  | some body, line =>
    if F.Closes line then (none, [F.decode body]) else (some (body ++ [line]), [])

def scan (state : Option (List (List α))) : List (List α) →
    Option (List (List α)) × List (Except ε γ)
  | [] => (state, [])
  | line :: lines =>
    let (next, items) := F.step state line
    let (last, rest) := scan next lines
    (last, items ++ rest)

/-- A section that is open at the end of the text is an error. -/
def ending : Option (List (List α)) → List (Except ε γ)
  | none => []
  | some _ => [.error F.unclosed]

def readFrom (state : Option (List (List α))) (lines : List (List α)) : List (Except ε γ) :=
  (F.scan state lines).2 ++ F.ending (F.scan state lines).1

def read (text : List α) : List (Except ε γ) := F.readFrom none (F.lines text)

end Format

variable {F : Format α ε γ}

section Lines

lemma lines_eq_cons (text : List α) : F.lines text = F.firstLine text :: F.laterLines text := by
  unfold Format.firstLine Format.laterLines
  cases h : F.lines text with
  | nil => exact absurd h (List.splitOnP_ne_nil F.newline text)
  | cons first rest => rfl

lemma lines_eq_concat (text : List α) :
    F.lines text = (F.lines text).dropLast ++ [F.lastLine text] := by
  unfold Format.lastLine
  have hne : F.lines text ≠ [] := List.splitOnP_ne_nil F.newline text
  rw [List.getLastD_eq_getLast?, List.getLast?_eq_some_getLast hne, Option.getD_some,
    List.dropLast_append_getLast hne]

/-- The last line of a text and the first line of its continuation are one line. -/
lemma lines_append {s t : List α} (early : List (List α)) {rest : List (List α)}
    {last first : List α} (hs : F.lines s = early ++ [last]) (ht : F.lines t = first :: rest) :
    F.lines (s ++ t) = early ++ (last ++ first) :: rest := by
  unfold Format.lines at *
  induction s generalizing early last with
  | nil =>
    rw [List.splitOnP_nil] at hs
    obtain ⟨rfl, hlast⟩ | ⟨-, hnil⟩ := List.append_eq_singleton_iff.mp hs.symm
    · cases hlast
      exact ht
    · cases hnil
  | cons a s ih =>
    rw [List.cons_append, List.splitOnP_cons_eq_if_modifyHead]
    rw [List.splitOnP_cons_eq_if_modifyHead] at hs
    by_cases ha : F.newline a = true
    · rw [if_pos ha] at hs ⊢
      cases early with
      | nil =>
        have hsplit : s.splitOnP F.newline = [] := (List.cons.inj hs).2
        exact absurd hsplit (List.splitOnP_ne_nil _ _)
      | cons line early =>
        obtain ⟨rfl, hsplit⟩ := List.cons.inj hs
        rw [ih early hsplit]
        rfl
    · rw [if_neg ha] at hs ⊢
      obtain ⟨line, lines, hsplit⟩ := List.exists_cons_of_ne_nil (List.splitOnP_ne_nil F.newline s)
      rw [hsplit, List.modifyHead_cons] at hs
      cases early with
      | nil =>
        obtain ⟨rfl, rfl⟩ := List.cons.inj hs
        rw [ih [] hsplit]
        rfl
      | cons line' early =>
        obtain ⟨rfl, rfl⟩ := List.cons.inj hs
        rw [ih (line :: early) hsplit]
        rfl

lemma lastLine_of_newline (text : List α) {a : α} (ha : F.newline a = true) :
    F.lastLine (text ++ [a]) = [] := by
  unfold Format.lastLine Format.lines
  rw [List.splitOnP_append_cons text [] ha, List.splitOnP_nil, List.getLastD_concat]

end Lines

lemma Format.Closes.not_opens {line : List α} (h : F.Closes line) : ¬F.Opens line := by
  intro hopens
  rcases List.prefix_or_prefix_of_prefix hopens h with hstart | hfinish
  · exact F.start_not_finish hstart
  · exact F.finish_not_start hfinish

variable [DecidableEq α]

section Scan

lemma scan_append (state : Option (List (List α))) (ls ms : List (List α)) :
    F.scan state (ls ++ ms) =
      ((F.scan (F.scan state ls).1 ms).1, (F.scan state ls).2 ++ (F.scan (F.scan state ls).1 ms).2) := by
  induction ls generalizing state with
  | nil => rfl
  | cons line ls ih => simp only [List.cons_append, Format.scan, ih, List.append_assoc]

lemma readFrom_append (state : Option (List (List α))) (ls ms : List (List α)) :
    F.readFrom state (ls ++ ms) = (F.scan state ls).2 ++ F.readFrom (F.scan state ls).1 ms := by
  unfold Format.readFrom
  rw [scan_append, List.append_assoc]

@[simp] lemma readFrom_none_cons (line : List α) (lines : List (List α)) :
    F.readFrom none (line :: lines) = F.readFrom (F.entry line) lines := rfl

lemma readFrom_some_closes {body lines : List (List α)} {line : List α} (h : F.Closes line) :
    F.readFrom (some body) (line :: lines) = F.decode body :: F.readFrom none lines := by
  simp only [Format.readFrom, Format.scan, Format.step, if_pos h, List.cons_append, List.nil_append]

lemma scan_none_plain {lines : List (List α)} (h : ∀ l ∈ lines, ¬F.Opens l) :
    F.scan none lines = (none, []) := by
  induction lines with
  | nil => rfl
  | cons line lines ih =>
    have hline : ¬F.Opens line := h line List.mem_cons_self
    have hrest := ih (fun l hl => h l (List.mem_cons_of_mem line hl))
    simp only [Format.scan, Format.step, Format.entry, if_neg hline, hrest, List.append_nil]

lemma scan_some_plain (body : List (List α)) {lines : List (List α)} (h : ∀ l ∈ lines, ¬F.Closes l) :
    F.scan (some body) lines = (some (body ++ lines), []) := by
  induction lines generalizing body with
  | nil => rw [List.append_nil]; rfl
  | cons line lines ih =>
    have hline : ¬F.Closes line := h line List.mem_cons_self
    have hrest := ih (body ++ [line]) (fun l hl => h l (List.mem_cons_of_mem line hl))
    simp only [Format.scan, Format.step, if_neg hline, hrest, List.append_assoc, List.append_nil,
      List.singleton_append]

/-- A section that is read to its end. -/
lemma readFrom_section {body lines rest : List (List α)} {last : List α}
    (hlines : ∀ l ∈ lines, ¬F.Closes l) (hlast : F.Closes last) :
    F.readFrom (some body) (lines ++ last :: rest) =
      F.decode (body ++ lines) :: F.readFrom none rest := by
  rw [readFrom_append, scan_some_plain _ hlines, readFrom_some_closes hlast, List.nil_append]

lemma readFrom_unclosed {body lines : List (List α)} (hlines : ∀ l ∈ lines, ¬F.Closes l) :
    F.readFrom (some body) lines = [.error F.unclosed] := by
  unfold Format.readFrom
  rw [scan_some_plain _ hlines]
  rfl

end Scan

section Append

/-- A line at which a text could end without an error leaves nothing open, also when it is
continued. -/
lemma readFrom_last {state : Option (List (List α))} {last : List α} {values : List γ}
    (h : F.readFrom state [last] = values.map .ok) (more : List α) (rest : List (List α)) :
    F.readFrom state ((last ++ more) :: rest) =
      values.map .ok ++ F.readFrom (F.entry (last ++ more)) rest := by
  cases state with
  | none =>
    rw [readFrom_none_cons] at h
    by_cases hopens : F.Opens last
    · rw [Format.entry, if_pos hopens, readFrom_unclosed (by simp)] at h
      cases values <;> cases h
    · rw [Format.entry, if_neg hopens] at h
      obtain rfl : values = [] := List.map_eq_nil_iff.mp h.symm
      rfl
  | some body =>
    by_cases hcloses : F.Closes last
    · have hjoined : F.Closes (last ++ more) := hcloses.trans (List.prefix_append last more)
      rw [readFrom_some_closes hcloses] at h
      rw [readFrom_some_closes hjoined, Format.entry, if_neg hjoined.not_opens, ← h]
      rfl
    · rw [readFrom_unclosed (by simpa using hcloses)] at h
      cases values <;> cases h

theorem read_append_of_ok {s : List α} {A : List γ} (hs : F.read s = A.map .ok) (t : List α) :
    F.read (s ++ t) =
      A.map .ok ++ F.readFrom (F.entry (F.lastLine s ++ F.firstLine t)) (F.laterLines t) := by
  unfold Format.read at *
  have hlines := lines_eq_concat (F := F) s
  rw [hlines, readFrom_append] at hs
  rw [lines_append _ hlines (lines_eq_cons t), readFrom_append]
  obtain ⟨A₁, A₂, rfl, hearly, hlast⟩ := List.append_eq_map_iff.mp hs
  rw [readFrom_last hlast.symm, ← hearly, List.map_append, List.append_assoc]

lemma read_eq_entry (t : List α) :
    F.read t = F.readFrom (F.entry (F.firstLine t)) (F.laterLines t) := by
  rw [Format.read, lines_eq_cons, readFrom_none_cons]

/-- The first line that marks something. -/
lemma first_marker (lines : List (List α)) : (∀ l ∈ lines, ¬F.Opens l ∧ ¬F.Closes l) ∨
    ∃ early line rest, lines = early ++ line :: rest ∧ (∀ l ∈ early, ¬F.Opens l ∧ ¬F.Closes l) ∧
      (F.Opens line ∨ F.Closes line) := by
  cases h : lines.find? (fun l => F.Opens l ∨ F.Closes l) with
  | none =>
    rw [List.find?_eq_none] at h
    exact .inl (fun l hl => not_or.mp (by simpa using h l hl))
  | some line =>
    obtain ⟨hline, early, rest, rfl, hearly⟩ := List.find?_eq_some_iff_append.mp h
    exact .inr ⟨early, line, rest, rfl, fun l hl => not_or.mp (by simpa using hearly l hl),
      by simpa using hline⟩

/-- A section with two opening lines, read without the first one and with it. -/
lemma readFrom_twice {early body : List (List α)} {line last : List α} (rest : List (List α))
    (hearly : ∀ l ∈ early, ¬F.Opens l ∧ ¬F.Closes l) (hopens : F.Opens line)
    (hbody : ∀ l ∈ body, ¬F.Closes l) (hlast : F.Closes last) :
    F.readFrom none (early ++ line :: (body ++ last :: rest)) =
        F.decode body :: F.readFrom none rest ∧
      F.readFrom (some []) (early ++ line :: (body ++ last :: rest)) =
        F.decode (early ++ line :: body) :: F.readFrom none rest := by
  constructor
  · rw [readFrom_append, scan_none_plain (fun l hl => (hearly l hl).1), readFrom_none_cons,
      Format.entry, if_pos hopens, readFrom_section hbody hlast]
    rfl
  · have hlines : ∀ l ∈ early ++ line :: body, ¬F.Closes l := by
      intro l hl
      rcases List.mem_append.mp hl with hl | hl
      · exact (hearly l hl).2
      · rcases List.mem_cons.mp hl with rfl | hl
        · exact fun hcloses => hcloses.not_opens hopens
        · exact hbody l hl
    have hassoc : early ++ line :: (body ++ last :: rest) =
        (early ++ line :: body) ++ last :: rest := by simp
    rw [hassoc, readFrom_section hlines hlast, List.nil_append]

/-- Where the lines behind an opening line are read without an error, leaving out the opening line
makes no difference only if another line opens the same section again. -/
lemma readFrom_entry_iff {lines : List (List α)} {B : List γ}
    (h : F.readFrom none lines = B.map .ok ∨ F.readFrom (some []) lines = B.map .ok) :
    F.readFrom none lines = F.readFrom (some []) lines ↔ F.Reopened lines := by
  constructor
  · intro heq
    have hnone : F.readFrom none lines = B.map .ok := h.elim id heq.trans
    rcases first_marker (F := F) lines with hplain | ⟨early, line, rest, rfl, hearly, hmark⟩
    · -- nothing closes the section
      rw [heq, readFrom_unclosed (fun l hl => (hplain l hl).2)] at hnone
      cases B <;> cases hnone
    have hskip : F.readFrom none (early ++ line :: rest) = F.readFrom (F.entry line) rest := by
      rw [readFrom_append, scan_none_plain (fun l hl => (hearly l hl).1)]
      rfl
    by_cases hcloses : F.Closes line
    · -- the section is one item more
      rw [hskip, readFrom_section (fun l hl => (hearly l hl).2) hcloses, Format.entry,
        if_neg hcloses.not_opens] at heq
      have hlength := congrArg List.length heq
      rw [List.length_cons] at hlength
      omega
    have hopens : F.Opens line := hmark.resolve_right hcloses
    cases hfind : rest.find? (fun l => F.Closes l) with
    | none =>
      rw [List.find?_eq_none] at hfind
      rw [hskip, Format.entry, if_pos hopens, readFrom_unclosed (by simpa using hfind)] at hnone
      cases B <;> cases hnone
    | some last =>
      obtain ⟨hlast, body, rest, rfl, hbody⟩ := List.find?_eq_some_iff_append.mp hfind
      have hlast : F.Closes last := by simpa using hlast
      have hbody : ∀ l ∈ body, ¬F.Closes l := by simpa using hbody
      obtain ⟨hwithout, hwith⟩ := readFrom_twice rest hearly hopens hbody hlast
      rw [hwithout, hwith] at heq
      exact ⟨early, line, body, last, rest, rfl, hearly, hopens, hbody, hlast,
        (List.cons.inj heq).1.symm⟩
  · rintro ⟨early, line, body, last, rest, rfl, hearly, hopens, hbody, hlast, hdecode⟩
    obtain ⟨hwithout, hwith⟩ := readFrom_twice rest hearly hopens hbody hlast
    rw [hwithout, hwith, hdecode]

/-- Reading is a homomorphism on two texts that can be read exactly where the joined line opens a
section as the first line of the second text does. -/
theorem read_append_iff {s t : List α} {A B : List γ} (hs : F.read s = A.map .ok)
    (ht : F.read t = B.map .ok) : F.read (s ++ t) = (A ++ B).map .ok ↔
      (F.Opens (F.lastLine s ++ F.firstLine t) ↔ F.Opens (F.firstLine t)) ∨
        F.Reopened (F.laterLines t) := by
  rw [read_append_of_ok hs, List.map_append, List.append_cancel_left_eq, ← ht, read_eq_entry]
  rw [read_eq_entry] at ht
  unfold Format.entry at *
  by_cases hjoined : F.Opens (F.lastLine s ++ F.firstLine t) <;>
    by_cases hfirst : F.Opens (F.firstLine t)
  · simp [hjoined, hfirst]
  · rw [if_neg hfirst] at ht
    rw [if_pos hjoined, if_neg hfirst, eq_comm, readFrom_entry_iff (.inl ht)]
    simp [hjoined, hfirst]
  · rw [if_pos hfirst] at ht
    rw [if_neg hjoined, if_pos hfirst, readFrom_entry_iff (.inr ht)]
    simp [hjoined, hfirst]
  · simp [hjoined, hfirst]

end Append

end Sections
