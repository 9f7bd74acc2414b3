import Mathlib.Algebra.Group.Nat.Defs
import Mathlib.Data.List.Induction
import Mathlib.Data.Nat.Basic
import Mathlib.Tactic.Common

/-!
# Hexadecimal text

Byte strings as pairs of hex digits, read in either letter case and written in lower case, and
natural numbers as lower-case hex numerals of a fixed width.
-/

namespace Hex

abbrev Bytes := List UInt8

/-- The value of a hex digit of either letter case. -/
def digitValue (c : Char) : Option ℕ :=
  if '0' ≤ c ∧ c ≤ '9' then some (c.toNat - '0'.toNat)
  else if 'a' ≤ c ∧ c ≤ 'f' then some (c.toNat - 'a'.toNat + 10)
  else if 'A' ≤ c ∧ c ≤ 'F' then some (c.toNat - 'A'.toNat + 10)
  else none

def decodeChars : List Char → Option Bytes
  | [] => some []
  | [_] => none
  | c :: d :: cs =>
    match digitValue c, digitValue d, decodeChars cs with
    | some hi, some lo, some bs => some (UInt8.ofNat (16 * hi + lo) :: bs)
    | _, _, _ => none

def decode (s : String) : Option Bytes := decodeChars s.toList

def encodeChars (bs : Bytes) : List Char :=
  bs.flatMap (fun b => [Nat.digitChar (b.toNat / 16), Nat.digitChar (b.toNat % 16)])

def encode (bs : Bytes) : String := String.ofList (encodeChars bs)

lemma digitValue_digitChar : ∀ n < 16, digitValue (Nat.digitChar n) = some n := by decide

theorem decode_encode (bs : Bytes) : decode (encode bs) = some bs := by
  rw [decode, encode, String.toList_ofList]
  induction bs with
  | nil => rfl
  | cons b bs ih =>
    have hb : b.toNat < 256 := b.toNat_lt
    have hhi := digitValue_digitChar (b.toNat / 16) (by omega)
    have hlo := digitValue_digitChar (b.toNat % 16) (Nat.mod_lt _ (by omega))
    have hval : UInt8.ofNat (16 * (b.toNat / 16) + b.toNat % 16) = b := by
      rw [Nat.div_add_mod, UInt8.ofNat_toNat]
    rw [encodeChars] at ih ⊢
    simp only [List.flatMap_cons, List.cons_append, List.nil_append, decodeChars, hhi, hlo, ih,
      hval]

lemma digitValue_lt {c : Char} {v : ℕ} (h : digitValue c = some v) : v < 16 ∧ c.toNat < 128 := by
  have hle : ∀ c d : Char, c ≤ d ↔ c.toNat ≤ d.toNat := fun _ _ => Iff.rfl
  simp only [digitValue, hle] at h
  split at h
  · next hd =>
    cases h
    simp at hd ⊢
    omega
  · split at h
    · next hd =>
      cases h
      simp at hd ⊢
      omega
    · split at h
      · next hd =>
        cases h
        simp at hd ⊢
        omega
      · cases h

lemma toLower_lt {c : Char} (h : c.toLower.toNat < 128) : c.toNat < 128 := by
  unfold Char.toLower at h
  split at h
  · next hc =>
    have hle : c.toNat ≤ 90 := hc.2
    omega
  · exact h

lemma digitValue_ascii : ∀ n < 128, ∀ v < 16,
    digitValue (Char.ofNat n) = some v ↔ (Char.ofNat n).toLower = Nat.digitChar v := by
  decide +kernel

lemma digitChar_lt : ∀ v < 16, (Nat.digitChar v).toNat < 128 := by decide

/-- A hex digit is a lower-case digit in one of the two letter cases. -/
lemma digitValue_eq_some {c : Char} {v : ℕ} :
    digitValue c = some v ↔ v < 16 ∧ c.toLower = Nat.digitChar v := by
  constructor
  · intro h
    obtain ⟨hv, hc⟩ := digitValue_lt h
    refine ⟨hv, ?_⟩
    have hascii := digitValue_ascii c.toNat hc v hv
    rw [Char.ofNat_toNat] at hascii
    exact hascii.mp h
  · rintro ⟨hv, hlower⟩
    have hc : c.toNat < 128 := toLower_lt (by rw [hlower]; exact digitChar_lt v hv)
    have hascii := digitValue_ascii c.toNat hc v hv
    rw [Char.ofNat_toNat] at hascii
    exact hascii.mpr hlower

lemma encodeChars_cons (b : UInt8) (bs : Bytes) :
    encodeChars (b :: bs) = Nat.digitChar (b.toNat / 16) :: Nat.digitChar (b.toNat % 16) ::
      encodeChars bs := rfl

lemma decodeChars_eq_some {cs : List Char} {bs : Bytes} :
    decodeChars cs = some bs ↔ cs.map Char.toLower = encodeChars bs := by
  induction cs using List.twoStepInduction generalizing bs with
  | nil =>
    cases bs with
    | nil => exact iff_of_true rfl rfl
    | cons b bs => simp [decodeChars, encodeChars_cons]
  | singleton c =>
    cases bs with
    | nil => simp [decodeChars, encodeChars]
    | cons b bs => simp [decodeChars, encodeChars_cons]
  | cons_cons c d cs ih _ =>
    constructor
    · intro h
      simp only [decodeChars] at h
      split at h
      · next hi lo rest hhi hlo hrest =>
        cases h
        obtain ⟨hhi', hc⟩ := digitValue_eq_some.mp hhi
        obtain ⟨hlo', hd⟩ := digitValue_eq_some.mp hlo
        have hval : (UInt8.ofNat (16 * hi + lo)).toNat = 16 * hi + lo := by
          rw [UInt8.toNat_ofNat']
          omega
        have hdiv : (16 * hi + lo) / 16 = hi := by omega
        have hmod : (16 * hi + lo) % 16 = lo := by omega
        rw [encodeChars_cons, hval, hdiv, hmod, List.map_cons, List.map_cons, hc, hd,
          ih.mp hrest]
      · cases h
    · intro h
      cases bs with
      | nil => cases h
      | cons b bs =>
        rw [encodeChars_cons, List.map_cons, List.map_cons] at h
        obtain ⟨hc, h⟩ := List.cons.inj h
        obtain ⟨hd, hrest⟩ := List.cons.inj h
        have hb : b.toNat < 256 := b.toNat_lt
        have hhi := digitValue_eq_some.mpr ⟨by omega, hc⟩
        have hlo := digitValue_eq_some.mpr ⟨by omega, hd⟩
        simp only [decodeChars, hhi, hlo, ih.mpr hrest]
        rw [Nat.div_add_mod, UInt8.ofNat_toNat]

/-- The texts that are read as some bytes: their lower-case text, in either letter case. -/
theorem decode_eq_some {s : String} {bs : Bytes} :
    decode s = some bs ↔ s.toLower = encode bs := by
  have hlower : s.toLower.toList = s.toList.map Char.toLower := String.toList_map
  rw [decode, decodeChars_eq_some, ← String.toList_inj, encode, String.toList_ofList, hlower]

def numeralChars : ℕ → ℕ → List Char
  | 0, _ => []
  | width + 1, n => numeralChars width (n / 16) ++ [Nat.digitChar (n % 16)]

/-- A hex numeral of a fixed width, padded with zeros. -/
def numeral (width n : ℕ) : String := String.ofList (numeralChars width n)

lemma digitChar_inj : ∀ m < 16, ∀ n < 16, Nat.digitChar m = Nat.digitChar n → m = n := by decide

lemma numeralChars_inj {width m n : ℕ} (hm : m < 16 ^ width) (hn : n < 16 ^ width)
    (h : numeralChars width m = numeralChars width n) : m = n := by
  induction width generalizing m n with
  | zero =>
    simp only [Nat.pow_zero] at hm hn
    omega
  | succ width ih =>
    simp only [numeralChars] at h
    obtain ⟨hhi, hlo⟩ := List.append_inj' h rfl
    rw [Nat.pow_succ] at hm hn
    have hdiv : m / 16 = n / 16 := ih (by omega) (by omega) hhi
    have hmod : m % 16 = n % 16 :=
      digitChar_inj _ (Nat.mod_lt _ (by omega)) _ (Nat.mod_lt _ (by omega))
        (List.cons.inj hlo).1
    omega

theorem numeral_inj {width m n : ℕ} (hm : m < 16 ^ width) (hn : n < 16 ^ width)
    (h : numeral width m = numeral width n) : m = n :=
  numeralChars_inj hm hn (String.ofList_injective h)

end Hex
