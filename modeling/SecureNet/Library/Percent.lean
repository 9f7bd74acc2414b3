import SecureNet.Library.Utf8

/-!
# Percent-coding

Percent-decoding of bytes, and percent-encoding of the bytes of a set. Encoding does not change what
a text decodes to, and decoding changes a text exactly if an escape occurs in it.
-/

namespace Percent

open Hex (Bytes)

/-- The byte of an ASCII character. -/
abbrev ascii (c : Char) : UInt8 := c.toUInt8

def hexValue (b : UInt8) : Option ℕ := Hex.digitValue (Char.ofNat b.toNat)

def decode : Bytes → Bytes
  | b :: h :: l :: rest =>
    if b = ascii '%' then
      match hexValue h, hexValue l with
      | some x, some y => UInt8.ofNat (16 * x + y) :: decode rest
      | _, _ => b :: decode (h :: l :: rest)
    else b :: decode (h :: l :: rest)
  | b :: rest => b :: decode rest
  | [] => []

def upperDigit (n : ℕ) : UInt8 := ascii (Nat.digitChar n).toUpper

def encodeByte (b : UInt8) : Bytes :=
  [ascii '%', upperDigit (b.toNat / 16), upperDigit (b.toNat % 16)]

def encode (set : UInt8 → Bool) (bs : Bytes) : Bytes :=
  bs.flatMap (fun b => if set b then encodeByte b else [b])

def startsHex : Bytes → Bool
  | h :: l :: _ => (hexValue h).isSome && (hexValue l).isSome
  | _ => false

/-- A percent sign with two hex digits occurs in the text. -/
def hasEscape : Bytes → Bool
  | [] => false
  | b :: rest => (b == ascii '%' && startsHex rest) || hasEscape rest

variable {b h l : UInt8} {rest bs : Bytes} {set : UInt8 → Bool}

@[simp] lemma encode_nil : encode set [] = [] := rfl

lemma encode_cons : encode set (b :: rest) =
    (if set b then encodeByte b else [b]) ++ encode set rest := List.flatMap_cons

lemma decode_escape {x y : ℕ} (hh : hexValue h = some x) (hl : hexValue l = some y) :
    decode (ascii '%' :: h :: l :: rest) = UInt8.ofNat (16 * x + y) :: decode rest := by
  rw [decode, if_pos rfl, hh, hl]

/-- A byte that starts no escape stands for itself. -/
lemma decode_cons (hb : b = ascii '%' → startsHex rest = false) :
    decode (b :: rest) = b :: decode rest := by
  match rest, hb with
  | [], _ => rfl
  | [_], _ => rfl
  | h :: l :: rest, hb =>
    rw [decode]
    split
    · next hpercent =>
      have hnot := hb hpercent
      rw [startsHex, Bool.and_eq_false_iff, Option.isSome_eq_false_iff,
        Option.isSome_eq_false_iff, Option.isNone_iff_eq_none, Option.isNone_iff_eq_none] at hnot
      rcases hnot with hh | hl
      · rw [hh]
      · rw [hl]
        cases hexValue h <;> rfl
    · rfl

lemma startsHex_split (hrest : startsHex rest = true) :
    ∃ h l tail x y, rest = h :: l :: tail ∧ hexValue h = some x ∧ hexValue l = some y := by
  match rest, hrest with
  | h :: l :: tail, hrest =>
    rw [startsHex, Bool.and_eq_true, Option.isSome_iff_exists, Option.isSome_iff_exists] at hrest
    obtain ⟨⟨x, hx⟩, y, hy⟩ := hrest
    exact ⟨h, l, tail, x, y, rfl, hx, hy⟩

/-- Induction on a text as it is decoded: by escapes and by bytes that stand for themselves. -/
theorem decode_induction {P : Bytes → Prop} (nil : P [])
    (escape : ∀ h l rest x y, hexValue h = some x → hexValue l = some y → P rest →
      P (ascii '%' :: h :: l :: rest))
    (cons : ∀ b rest, (b = ascii '%' → startsHex rest = false) → P rest → P (b :: rest))
    (bs : Bytes) : P bs := by
  induction hn : bs.length using Nat.strong_induction_on generalizing bs with
  | _ n ih =>
    subst hn
    match bs, ih with
    | [], _ => exact nil
    | b :: rest, ih =>
      by_cases hb : b = ascii '%' → startsHex rest = false
      · exact cons b rest hb (ih rest.length (by simp) rest rfl)
      · rw [Classical.not_imp, Bool.not_eq_false] at hb
        obtain ⟨rfl, hstarts⟩ := hb
        obtain ⟨h, l, tail, x, y, rfl, hx, hy⟩ := startsHex_split hstarts
        refine escape h l tail x y hx hy (ih tail.length ?_ tail rfl)
        simp only [List.length_cons]
        omega

lemma hexValue_upperDigit : ∀ n < 16, hexValue (upperDigit n) = some n := by decide

lemma decode_encodeByte : decode (encodeByte b ++ rest) = b :: decode rest := by
  have hb := b.toNat_lt
  have hhi := hexValue_upperDigit (b.toNat / 16) (by omega)
  have hlo := hexValue_upperDigit (b.toNat % 16) (by omega)
  have hval : UInt8.ofNat (16 * (b.toNat / 16) + b.toNat % 16) = b := by
    rw [Nat.div_add_mod, UInt8.ofNat_toNat]
  have hsplit : encodeByte b ++ rest =
      ascii '%' :: upperDigit (b.toNat / 16) :: upperDigit (b.toNat % 16) :: rest := rfl
  rw [hsplit, decode_escape hhi hlo, hval]

lemma decode_length_le (bs : Bytes) : (decode bs).length ≤ bs.length := by
  induction bs using decode_induction with
  | nil => exact Nat.le_refl _
  | escape h l rest x y hx hy ih =>
    rw [decode_escape hx hy]
    simp only [List.length_cons]
    omega
  | cons b rest hb ih =>
    rw [decode_cons hb]
    simp only [List.length_cons]
    omega

/-- A text without escapes is its own decoding, and any other gets shorter. -/
theorem decode_length_eq_iff (bs : Bytes) :
    (decode bs).length = bs.length ↔ hasEscape bs = false := by
  induction bs using decode_induction with
  | nil => exact iff_of_true rfl rfl
  | escape h l rest x y hx hy ih =>
    have hlen := decode_length_le rest
    have hescape : hasEscape (ascii '%' :: h :: l :: rest) = true := by
      simp [hasEscape, startsHex, hx, hy]
    rw [decode_escape hx hy, hescape]
    simp only [List.length_cons, reduceCtorEq, iff_false]
    omega
  | cons b rest hb ih =>
    have hnot : (b == ascii '%' && startsHex rest) = false := by
      rw [Bool.and_eq_false_iff, beq_eq_false_iff_ne]
      by_cases hpercent : b = ascii '%'
      · exact .inr (hb hpercent)
      · exact .inl hpercent
    rw [decode_cons hb, hasEscape, hnot, Bool.false_or, ← ih]
    simp only [List.length_cons, Nat.add_right_cancel_iff]

theorem decode_of_not_escape (hbs : hasEscape bs = false) : decode bs = bs := by
  induction bs using decode_induction with
  | nil => rfl
  | escape h l rest x y hx hy ih => simp [hasEscape, startsHex, hx, hy] at hbs
  | cons b rest hb ih =>
    rw [hasEscape, Bool.or_eq_false_iff] at hbs
    rw [decode_cons hb, ih hbs.2]

section Encode

/-- A set of bytes that takes no escape apart: it holds neither the percent sign nor a hex digit. -/
def Admissible (set : UInt8 → Bool) : Prop :=
  ∀ b, set b = true → b ≠ ascii '%' ∧ hexValue b = none

lemma startsHex_encode (h : startsHex bs = false) :
    startsHex (encode set bs) = false := by
  have hfirst : ∀ {b : UInt8} {rest : Bytes}, set b = true →
      encode set (b :: rest) = encodeByte b ++ encode set rest := by
    intro b rest hb
    rw [encode_cons, if_pos hb]
  have hkeep : ∀ {b : UInt8} {rest : Bytes}, ¬set b = true →
      encode set (b :: rest) = b :: encode set rest := by
    intro b rest hb
    rw [encode_cons, if_neg hb, List.singleton_append]
  match bs, h with
  | [], _ => rfl
  | [b], _ =>
    by_cases hb : set b = true
    · rw [hfirst hb]
      rfl
    · rw [hkeep hb]
      rfl
  | b :: c :: rest, h =>
    by_cases hb : set b = true
    · rw [hfirst hb]
      rfl
    · rw [hkeep hb]
      by_cases hc : set c = true
      · rw [hfirst hc]
        have hpercent : (hexValue (ascii '%')).isSome = false := by decide
        rw [encodeByte, List.cons_append, startsHex, hpercent, Bool.and_false]
      · rw [hkeep hc]
        exact h

lemma encode_of_not_mem (h : ∀ b ∈ bs, set b = false) : encode set bs = bs := by
  induction bs with
  | nil => rfl
  | cons b bs ih =>
    have hb : ¬set b = true := by
      rw [h b List.mem_cons_self]
      decide
    rw [encode_cons, if_neg hb, ih (fun x hx => h x (List.mem_cons_of_mem b hx)),
      List.singleton_append]

/-- Encoding does not change what a text decodes to. -/
theorem decode_encode (hset : Admissible set) (bs : Bytes) :
    decode (encode set bs) = decode bs := by
  induction bs using decode_induction with
  | nil => rfl
  | escape h l rest x y hx hy ih =>
    have hkeep : ∀ {b : UInt8} {rest : Bytes}, (b = ascii '%' ∨ ∃ x, hexValue b = some x) →
        encode set (b :: rest) = b :: encode set rest := by
      intro b rest hb
      have hnot : ¬set b = true := by
        intro hin
        obtain ⟨hpercent, hnone⟩ := hset b hin
        rcases hb with hb | ⟨x, hx⟩
        · exact hpercent hb
        · rw [hnone] at hx
          cases hx
      rw [encode_cons, if_neg hnot, List.singleton_append]
    rw [hkeep (.inl rfl), hkeep (.inr ⟨x, hx⟩), hkeep (.inr ⟨y, hy⟩), decode_escape hx hy,
      decode_escape hx hy, ih]
  | cons b rest hb ih =>
    rw [encode_cons]
    by_cases hin : set b = true
    · rw [if_pos hin, decode_encodeByte, decode_cons hb, ih]
    · rw [if_neg hin, List.singleton_append, decode_cons hb, decode_cons, ih]
      intro hpercent
      exact startsHex_encode (hb hpercent)

end Encode

end Percent
