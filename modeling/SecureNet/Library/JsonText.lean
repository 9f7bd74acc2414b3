import SecureNet.Library.Percent

/-!
# Flat JSON objects as text

The compact text of an object whose members are strings, booleans and nulls: nothing but what the
grammar needs stands between the tokens, and control characters in strings are escaped. Such a
text is read from left to right by a small automaton. It shows that an object ends with no other
object, however the strings in it are chosen.
-/

namespace JsonText

open Hex (Bytes)
open Percent (ascii)

def lowerDigit (n : ℕ) : UInt8 := ascii (Nat.digitChar n)

/-- A byte of a string between its quotes. -/
def escapeByte (b : UInt8) : Bytes :=
  if b = ascii '"' ∨ b = ascii '\\' then [ascii '\\', b]
  else if b = 8 then [ascii '\\', ascii 'b']
  else if b = 9 then [ascii '\\', ascii 't']
  else if b = 10 then [ascii '\\', ascii 'n']
  else if b = 12 then [ascii '\\', ascii 'f']
  else if b = 13 then [ascii '\\', ascii 'r']
  else if b < 32 then
    [ascii '\\', ascii 'u', ascii '0', ascii '0', lowerDigit (b.toNat / 16),
      lowerDigit (b.toNat % 16)]
  else [b]

def string (s : String) : Bytes :=
  ascii '"' :: ((Utf8.encode s).flatMap escapeByte ++ [ascii '"'])

inductive Scalar
  | str (s : String)
  | bool (b : Bool)
  | null

def Scalar.text : Scalar → Bytes
  | .str s => string s
  | .bool b => Utf8.encode (if b then "true" else "false")
  | .null => Utf8.encode "null"

def member (m : String × Scalar) : Bytes := string m.1 ++ ascii ':' :: m.2.text

/-- The members of an object with its closing brace. -/
def members : List (String × Scalar) → Bytes
  | [] => [ascii '}']
  | [m] => member m ++ [ascii '}']
  | m :: ms => member m ++ ascii ',' :: members ms

lemma members_cons_cons (m m' : String × Scalar) (ms : List (String × Scalar)) :
    members (m :: m' :: ms) = member m ++ ascii ',' :: members (m' :: ms) := rfl

def object (ms : List (String × Scalar)) : Bytes := ascii '{' :: members ms

section Escapes

/-- A byte that neither ends a string nor begins an escape nor ends a line. -/
def Plain (b : UInt8) : Prop := b ≠ ascii '"' ∧ b ≠ ascii '\\' ∧ b ≠ 10

instance (b : UInt8) : Decidable (Plain b) :=
  inferInstanceAs (Decidable (b ≠ ascii '"' ∧ b ≠ ascii '\\' ∧ b ≠ 10))

lemma lowerDigit_plain : ∀ n < 16, Plain (lowerDigit n) := by decide

/-- A byte stands for itself, or a backslash and a letter stand in front of plain bytes. -/
lemma escapeByte_cases (b : UInt8) :
    (Plain b ∧ escapeByte b = [b]) ∨
      ∃ c rest, escapeByte b = ascii '\\' :: c :: rest ∧ c ≠ ascii '{' ∧ c ≠ 10 ∧
        ∀ d ∈ rest, Plain d := by
  have hletter : ∀ c : UInt8, c ≠ ascii '{' ∧ c ≠ 10 → escapeByte b = [ascii '\\', c] →
      ∃ c rest, escapeByte b = ascii '\\' :: c :: rest ∧ c ≠ ascii '{' ∧ c ≠ 10 ∧
        ∀ d ∈ rest, Plain d :=
    fun c hc heq => ⟨c, [], heq, hc.1, hc.2, by simp⟩
  by_cases hself : b = ascii '"' ∨ b = ascii '\\'
  · right
    rcases hself with rfl | rfl
    · exact hletter (ascii '"') (by decide) rfl
    · exact hletter (ascii '\\') (by decide) rfl
  by_cases hb : b = 8
  · exact .inr (hletter (ascii 'b') (by decide) (by rw [hb]; rfl))
  by_cases ht : b = 9
  · exact .inr (hletter (ascii 't') (by decide) (by rw [ht]; rfl))
  by_cases hn : b = 10
  · exact .inr (hletter (ascii 'n') (by decide) (by rw [hn]; rfl))
  by_cases hf : b = 12
  · exact .inr (hletter (ascii 'f') (by decide) (by rw [hf]; rfl))
  by_cases hr : b = 13
  · exact .inr (hletter (ascii 'r') (by decide) (by rw [hr]; rfl))
  by_cases hcontrol : b < 32
  · right
    have hlt : b.toNat < 32 := hcontrol
    refine ⟨ascii 'u', [ascii '0', ascii '0', lowerDigit (b.toNat / 16),
      lowerDigit (b.toNat % 16)], ?_, by decide, by decide, ?_⟩
    · simp only [escapeByte, hself, hb, ht, hn, hf, hr, hcontrol, if_false, if_true]
    · simp only [List.forall_mem_cons, List.not_mem_nil, false_implies, implies_true, and_true]
      exact ⟨by decide, by decide, lowerDigit_plain _ (by omega), lowerDigit_plain _ (by omega)⟩
  · left
    obtain ⟨hquote, hslash⟩ := not_or.mp hself
    refine ⟨⟨hquote, hslash, hn⟩, ?_⟩
    simp only [escapeByte, hself, hb, ht, hn, hf, hr, hcontrol, if_false]

end Escapes

section Reading

/-- Where a reader stands: before the object, between two tokens, in a string, behind a backslash
in a string, or behind the end of a string. -/
inductive Position
  | start
  | outside
  | inside
  | escaped
  | ended
  deriving DecidableEq

def Position.next : Position → UInt8 → Option Position
  | .start, b => if b = ascii '{' then some .outside else none
  | .outside, b =>
    if b = ascii '{' then none else if b = ascii '"' then some .inside else some .outside
  | .inside, b =>
    if b = ascii '\\' then some .escaped else if b = ascii '"' then some .ended else some .inside
  | .escaped, b => if b = ascii '{' then none else some .inside
  | .ended, b => if b = ascii ',' ∨ b = ascii ':' ∨ b = ascii '}' then some .outside else none

def read : Position → Bytes → Option Position
  | p, [] => some p
  | p, b :: bs => (p.next b).bind (fun q => read q bs)

variable {p q r : Position} {l m : Bytes} {b c : UInt8}

lemma read_append (p : Position) (l m : Bytes) :
    read p (l ++ m) = (read p l).bind (fun q => read q m) := by
  induction l generalizing p with
  | nil => rfl
  | cons b l ih =>
    rw [List.cons_append, read, read]
    cases p.next b with
    | none => rfl
    | some q => exact ih q

/-- The beginning of an object can only be read at the start. -/
lemma read_begin (hp : p ≠ .start) (hc : c ≠ ascii ',' ∧ c ≠ ascii ':' ∧ c ≠ ascii '}')
    (l : Bytes) : read p (ascii '{' :: ascii '"' :: c :: l) = none := by
  obtain ⟨h₁, h₂, h₃⟩ := hc
  cases p with
  | start => exact absurd rfl hp
  | outside => rfl
  | inside =>
    have hended : Position.next .ended c = none := by simp [Position.next, h₁, h₂, h₃]
    have hbrace : Position.next .inside (ascii '{') = some .inside := by decide
    have hquote : Position.next .inside (ascii '"') = some .ended := by decide
    simp [read, hbrace, hquote, hended]
  | escaped => rfl
  | ended => rfl

lemma next_ne_start (h : p.next b = some q) : q ≠ .start := by
  rintro rfl
  cases p <;> simp only [Position.next] at h <;> grind

lemma read_ne_start (hl : l ≠ []) (h : read p l = some q) : q ≠ .start := by
  induction l generalizing p with
  | nil => exact absurd rfl hl
  | cons b l ih =>
    obtain ⟨r, hr, hrest⟩ := Option.bind_eq_some_iff.mp h
    cases l with
    | nil =>
      cases hrest
      exact next_ne_start hr
    | cons c l => exact ih (by simp) hrest

lemma read_plain {bs : Bytes} (hbs : ∀ b ∈ bs, Plain b) (l : Bytes) :
    read .inside (bs ++ l) = read .inside l := by
  induction bs with
  | nil => rfl
  | cons b bs ih =>
    obtain ⟨⟨hquote, hslash, -⟩, hrest⟩ := List.forall_mem_cons.mp hbs
    rw [List.cons_append, read]
    simp only [Position.next, hquote, hslash, if_false, Option.bind_some]
    exact ih hrest

/-- An escape begins and ends inside the string. -/
lemma read_escapeByte (b : UInt8) (l : Bytes) :
    read .inside (escapeByte b ++ l) = read .inside l := by
  rcases escapeByte_cases b with ⟨hb, heq⟩ | ⟨c, rest, heq, hbrace, -, hrest⟩
  · rw [heq]
    exact read_plain (by simpa using hb) l
  · have hslash : Position.next .inside (ascii '\\') = some .escaped := rfl
    have hescaped : Position.next .escaped c = some .inside := by simp [Position.next, hbrace]
    rw [heq]
    simp only [List.cons_append, read, hslash, hescaped, Option.bind_some]
    exact read_plain hrest l

lemma read_escapes (bs l : Bytes) :
    read .inside (bs.flatMap escapeByte ++ l) = read .inside l := by
  induction bs with
  | nil => rfl
  | cons b bs ih => rw [List.flatMap_cons, List.append_assoc, read_escapeByte, ih]

lemma read_string (s : String) (l : Bytes) :
    read .outside (string s ++ l) = read .ended l := by
  change read .inside (((Utf8.encode s).flatMap escapeByte ++ [ascii '"']) ++ l) = _
  rw [List.append_assoc, read_escapes]
  rfl

/-- Behind a value the reader stands outside again once it has seen a comma or a brace. -/
lemma read_scalar (v : Scalar) (hc : c = ascii ',' ∨ c = ascii '}') (l : Bytes) :
    read .outside (v.text ++ c :: l) = read .outside l := by
  cases v with
  | str s =>
    rw [Scalar.text, read_string]
    rcases hc with rfl | rfl <;> rfl
  | bool b => cases b <;> rcases hc with rfl | rfl <;> rfl
  | null => rcases hc with rfl | rfl <;> rfl

lemma read_member (m : String × Scalar) (hc : c = ascii ',' ∨ c = ascii '}') (l : Bytes) :
    read .outside (member m ++ c :: l) = read .outside l := by
  rw [member, List.append_assoc, read_string, List.cons_append]
  exact read_scalar m.2 hc l

lemma read_members (ms : List (String × Scalar)) : read .outside (members ms) = some .outside := by
  match ms with
  | [] => rfl
  | [m] => exact read_member m (.inr rfl) []
  | m :: m' :: ms =>
    rw [members_cons_cons, read_member m (.inl rfl)]
    exact read_members (m' :: ms)

/-- An object is not the end of another text that reads as an object. -/
theorem object_of_suffix {ms ms' : List (String × Scalar)}
    (hbegin : object ms = ascii '{' :: ascii '"' :: c :: l)
    (hc : c ≠ ascii ',' ∧ c ≠ ascii ':' ∧ c ≠ ascii '}') (h : object ms <:+ object ms') :
    object ms = object ms' := by
  obtain ⟨front, hfront⟩ := h
  have hread : read .start (object ms') = some .outside := read_members ms'
  rw [← hfront, read_append] at hread
  obtain ⟨p, hp, hrest⟩ := Option.bind_eq_some_iff.mp hread
  by_cases hnil : front = []
  · rw [← hfront, hnil, List.nil_append]
  · rw [hbegin, read_begin (read_ne_start hnil hp) hc] at hrest
    cases hrest

end Reading

section Newline

lemma newline_escapeByte (b : UInt8) : 10 ∉ escapeByte b := by
  rcases escapeByte_cases b with ⟨hb, heq⟩ | ⟨c, rest, heq, -, hc, hrest⟩
  · rw [heq, List.mem_singleton]
    exact hb.2.2.symm
  · rw [heq]
    simp only [List.mem_cons, not_or]
    exact ⟨by decide, hc.symm, fun h => (hrest 10 h).2.2 rfl⟩

lemma newline_string (s : String) : 10 ∉ string s := by
  intro h
  simp only [string, List.mem_cons, List.mem_append, List.not_mem_nil, or_false] at h
  rcases h with h | h | h
  · revert h
    decide
  · obtain ⟨b, -, hb⟩ := List.mem_flatMap.mp h
    exact newline_escapeByte b hb
  · revert h
    decide

lemma newline_scalar (v : Scalar) : 10 ∉ v.text := by
  cases v with
  | str s => exact newline_string s
  | bool b => cases b <;> decide
  | null => decide

lemma newline_members (ms : List (String × Scalar)) : 10 ∉ members ms := by
  have hmember : ∀ (m : String × Scalar) (c : UInt8) (l : Bytes), c ≠ 10 → 10 ∉ l →
      10 ∉ member m ++ c :: l := by
    intro m c l hc hl h
    simp only [member, List.append_assoc, List.cons_append, List.mem_append, List.mem_cons] at h
    rcases h with h | h | h | h | h
    · exact newline_string m.1 h
    · revert h
      decide
    · exact newline_scalar m.2 h
    · exact hc h.symm
    · exact hl h
  match ms with
  | [] => decide
  | [m] => exact hmember m _ _ (by decide) (by simp)
  | m :: m' :: ms =>
    rw [members_cons_cons]
    exact hmember m _ _ (by decide) (newline_members (m' :: ms))

/-- The text of an object is one line. -/
theorem newline_object (ms : List (String × Scalar)) : 10 ∉ object ms := by
  intro h
  rcases List.mem_cons.mp h with h | h
  · revert h
    decide
  · exact newline_members ms h

end Newline

end JsonText
