import Mathlib.Data.Nat.Digits.Lemmas
import SecureNet.Library.JsonText

/-!
# JSON texts

Values as trees, the compact text of a tree, and the reader. An object keeps its members as they
stand in the text, in their order and with repeated keys. A number is an integer: the reader refuses
fractions and exponents. Containers may be nested 127 deep.
-/

inductive Json
  | null
  | bool (b : Bool)
  | number (n : ℤ)
  | string (s : String)
  | array (vs : List Json)
  | object (ms : List (String × Json))

namespace Json

open Hex (Bytes)
open Percent (ascii)

section Text

/-- Items with commas between them and a closing byte behind. -/
def sep (close : UInt8) : List Bytes → Bytes
  | [] => [close]
  | [t] => t ++ [close]
  | t :: ts => t ++ ascii ',' :: sep close ts

lemma sep_cons_cons (close : UInt8) (t t' : Bytes) (ts : List Bytes) :
    sep close (t :: t' :: ts) = t ++ ascii ',' :: sep close (t' :: ts) := rfl

def naturalText (n : ℕ) : Bytes :=
  if n = 0 then [ascii '0'] else (Nat.digits 10 n).reverse.map (fun d => ascii (Nat.digitChar d))

def integerText : ℤ → Bytes
  | .ofNat n => naturalText n
  | .negSucc n => ascii '-' :: naturalText (n + 1)

mutual

/-- `serde_json::to_vec` -/
def text : Json → Bytes
  | .null => Utf8.encode "null"
  | .bool b => Utf8.encode (if b then "true" else "false")
  | .number n => integerText n
  | .string s => JsonText.string s
  | .array vs => ascii '[' :: sep (ascii ']') (texts vs)
  | .object ms => ascii '{' :: sep (ascii '}') (memberTexts ms)

def texts : List Json → List Bytes
  | [] => []
  | v :: vs => v.text :: texts vs

def memberTexts : List (String × Json) → List Bytes
  | [] => []
  | (key, v) :: ms => (JsonText.string key ++ ascii ':' :: v.text) :: memberTexts ms

end

mutual

/-- How deep arrays and objects are nested. -/
def depth : Json → ℕ
  | .array vs => depths vs + 1
  | .object ms => memberDepths ms + 1
  | _ => 0

def depths : List Json → ℕ
  | [] => 0
  | v :: vs => max v.depth (depths vs)

def memberDepths : List (String × Json) → ℕ
  | [] => 0
  | (_, v) :: ms => max v.depth (memberDepths ms)

end

end Text

section Reader

def isSpace (b : UInt8) : Bool := b == 32 || b == 9 || b == 10 || b == 13

def skip (bs : Bytes) : Bytes := bs.dropWhile isSpace

def isDigit (b : UInt8) : Bool := decide (48 ≤ b.toNat) && decide (b.toNat ≤ 57)

def naturalValue (ds : Bytes) : ℕ := Nat.ofDigits 10 (ds.reverse.map (fun b => b.toNat - 48))

def continuesNumber (b : UInt8) : Bool := b == ascii '.' || b == ascii 'e' || b == ascii 'E'

/-- The digits of an integer, which has no leading zeros. -/
def natural (bs : Bytes) : Option (ℕ × Bytes) :=
  let ds := bs.takeWhile isDigit
  let rest := bs.dropWhile isDigit
  if ds = [] ∨ (ds.head? = some (ascii '0') ∧ ds ≠ [ascii '0']) ∨ rest.head?.any continuesNumber
  then none
  else some (naturalValue ds, rest)

def isHighSurrogate (n : ℕ) : Bool := decide (0xD800 ≤ n) && decide (n < 0xDC00)

def isLowSurrogate (n : ℕ) : Bool := decide (0xDC00 ≤ n) && decide (n < 0xE000)

/-- The code unit behind a `\u`. -/
def codeUnit (a b c d : UInt8) : Option ℕ := do
  let a ← Percent.hexValue a
  let b ← Percent.hexValue b
  let c ← Percent.hexValue c
  let d ← Percent.hexValue d
  return ((a * 16 + b) * 16 + c) * 16 + d

def utf8 (n : ℕ) : Bytes := String.utf8EncodeChar (Char.ofNat n)

/-- What a backslash and one byte stand for. -/
def escape (c : UInt8) : Option UInt8 :=
  if c = ascii '"' ∨ c = ascii '\\' ∨ c = ascii '/' then some c
  else if c = ascii 'b' then some 8
  else if c = ascii 't' then some 9
  else if c = ascii 'n' then some 10
  else if c = ascii 'f' then some 12
  else if c = ascii 'r' then some 13
  else none

def prepend (bs : Bytes) (read : Option (Bytes × Bytes)) : Option (Bytes × Bytes) :=
  read.map fun (s, rest) => (bs ++ s, rest)

/-- The bytes of a string up to its closing quote, and what follows. A character outside the basic
plane is escaped as two code units. -/
def stringBody : Bytes → Option (Bytes × Bytes)
  | [] => none
  | b :: rest =>
    if b = ascii '"' then some ([], rest)
    else if b = ascii '\\' then
      match rest with
      | [] => none
      | c :: rest =>
        if c = ascii 'u' then
          match rest with
          | d₁ :: d₂ :: d₃ :: d₄ :: rest =>
            match codeUnit d₁ d₂ d₃ d₄ with
            | none => none
            | some high =>
              if isLowSurrogate high then none
              else if isHighSurrogate high then
                match rest with
                | c₁ :: c₂ :: e₁ :: e₂ :: e₃ :: e₄ :: rest =>
                  if c₁ = ascii '\\' ∧ c₂ = ascii 'u' then
                    match codeUnit e₁ e₂ e₃ e₄ with
                    | none => none
                    | some low =>
                      if isLowSurrogate low then
                        prepend (utf8 (0x10000 + (high - 0xD800) * 0x400 + (low - 0xDC00)))
                          (stringBody rest)
                      else none
                  else none
                | _ => none
              else prepend (utf8 high) (stringBody rest)
          | _ => none
        else
          match escape c with
          | none => none
          | some b => prepend [b] (stringBody rest)
    else if b < 32 then none
    else prepend [b] (stringBody rest)

def readString (bs : Bytes) : Option (String × Bytes) :=
  match stringBody bs with
  | none => none
  | some (s, rest) => (Utf8.decode s).map fun s => (s, rest)

variable {β : Type} (item : Bytes → Option (β × Bytes)) (close : UInt8)

/-- At most `n` items, the first of which is there. -/
def items : ℕ → Bytes → Option (List β × Bytes)
  | 0, _ => none
  | n + 1, bs =>
    match item bs with
    | none => none
    | some (v, rest) =>
      match skip rest with
      | [] => none
      | c :: rest =>
        if c = close then some ([v], rest)
        else if c = ascii ',' then (items n rest).map fun (vs, rest) => (v :: vs, rest)
        else none

/-- The items of a container up to its closing byte. -/
def container (bs : Bytes) : Option (List β × Bytes) :=
  match skip bs with
  | [] => none
  | c :: rest => if c = close then some ([], rest) else items item close bs.length bs

def member (item : Bytes → Option (Json × Bytes)) (bs : Bytes) :
    Option ((String × Json) × Bytes) :=
  match skip bs with
  | [] => none
  | q :: rest =>
    if q = ascii '"' then
      match readString rest with
      | none => none
      | some (key, rest) =>
        match skip rest with
        | [] => none
        | c :: rest =>
          if c = ascii ':' then (item rest).map fun (v, rest) => ((key, v), rest) else none
    else none

def word (w : String) (v : Json) (bs : Bytes) : Option (Json × Bytes) :=
  if Utf8.encode w <+: bs then some (v, bs.drop (Utf8.encode w).length) else none

/-- A value whose containers are nested at most `n` deep, and what follows it. -/
def value (n : ℕ) (bs : Bytes) : Option (Json × Bytes) :=
  match skip bs with
  | [] => none
  | b :: rest =>
    if b = ascii '"' then (readString rest).map fun (s, rest) => (.string s, rest)
    else if b = ascii '[' then
      match n with
      | 0 => none
      | n + 1 => (container (value n) (ascii ']') rest).map fun (vs, rest) => (.array vs, rest)
    else if b = ascii '{' then
      match n with
      | 0 => none
      | n + 1 =>
        (container (member (value n)) (ascii '}') rest).map fun (ms, rest) => (.object ms, rest)
    else if b = ascii 'n' then word "null" .null (b :: rest)
    else if b = ascii 't' then word "true" (.bool true) (b :: rest)
    else if b = ascii 'f' then word "false" (.bool false) (b :: rest)
    else if b = ascii '-' then (natural rest).map fun (n, rest) => (.number (-n), rest)
    else (natural (b :: rest)).map fun (n, rest) => (.number n, rest)

/-- `serde_json::from_slice` -/
def parse (bs : Bytes) : Option Json :=
  match value 127 bs with
  | none => none
  | some (v, rest) => if skip rest = [] then some v else none

end Reader

section Strings

lemma prepend_some (bs s rest : Bytes) : prepend bs (some (s, rest)) = some (bs ++ s, rest) := rfl

lemma codeUnit_control : ∀ n < 32, codeUnit (ascii '0') (ascii '0') (JsonText.lowerDigit (n / 16))
    (JsonText.lowerDigit (n % 16)) = some n ∧ utf8 n = [UInt8.ofNat n] := by decide

/-- A byte is read back from its escape. -/
lemma stringBody_escapeByte (b : UInt8) (l : Bytes) :
    stringBody (JsonText.escapeByte b ++ l) = prepend [b] (stringBody l) := by
  have hletter : ∀ c : UInt8, c ≠ ascii 'u' → escape c = some b →
      stringBody (ascii '\\' :: c :: l) = prepend [b] (stringBody l) := by
    intro c hu hc
    have hslash : ascii '\\' ≠ ascii '"' := by decide
    rw [stringBody.eq_def]
    simp only [if_neg hslash, if_pos, if_neg hu, hc]
  unfold JsonText.escapeByte
  split
  · next hself =>
    rcases hself with rfl | rfl
    · exact hletter _ (by decide) (by decide)
    · exact hletter _ (by decide) (by decide)
  · next hself =>
    obtain ⟨hquote, hslash⟩ := not_or.mp hself
    split
    · next hb => exact hletter _ (by decide) (by rw [hb]; decide)
    split
    · next hb => exact hletter _ (by decide) (by rw [hb]; decide)
    split
    · next hb => exact hletter _ (by decide) (by rw [hb]; decide)
    split
    · next hb => exact hletter _ (by decide) (by rw [hb]; decide)
    split
    · next hb => exact hletter _ (by decide) (by rw [hb]; decide)
    split
    · next hcontrol =>
      have hlt : b.toNat < 32 := hcontrol
      obtain ⟨hunit, hutf8⟩ := codeUnit_control b.toNat hlt
      have hq : ascii '\\' ≠ ascii '"' := by decide
      have hlow : isLowSurrogate b.toNat = false := by
        simp [isLowSurrogate]
        omega
      have hhigh : isHighSurrogate b.toNat = false := by
        simp [isHighSurrogate]
        omega
      simp only [List.cons_append, List.nil_append]
      rw [stringBody.eq_def]
      simp only [if_neg hq, if_true, hunit, hlow, hhigh, Bool.false_eq_true, if_false, hutf8]
      rw [UInt8.ofNat_toNat]
    · next hcontrol =>
      rw [List.singleton_append, stringBody.eq_def]
      simp only [if_neg hquote, if_neg hslash, if_neg hcontrol]

lemma stringBody_escapes (s rest : Bytes) :
    stringBody (s.flatMap JsonText.escapeByte ++ ascii '"' :: rest) = some (s, rest) := by
  induction s with
  | nil =>
    rw [List.flatMap_nil, List.nil_append, stringBody.eq_def]
    exact if_pos rfl
  | cons b s ih =>
    rw [List.flatMap_cons, List.append_assoc, stringBody_escapeByte, ih, prepend_some,
      List.singleton_append]

lemma readString_text (s : String) (rest : Bytes) :
    ∃ bs, JsonText.string s ++ rest = ascii '"' :: bs ∧ readString bs = some (s, rest) := by
  refine ⟨(Utf8.encode s).flatMap JsonText.escapeByte ++ ascii '"' :: rest, ?_, ?_⟩
  · simp [JsonText.string]
  · rw [readString, stringBody_escapes]
    simp only [Utf8.decode_encode, Option.map_some]

end Strings

section Numbers

/-- A value ends where a container goes on or the text is over. -/
def Ends (rest : Bytes) : Prop :=
  ∀ c ∈ rest.head?, c = ascii ',' ∨ c = ascii ']' ∨ c = ascii '}'

lemma digitChar_digit : ∀ d < 10, isDigit (ascii (Nat.digitChar d)) = true ∧
    (ascii (Nat.digitChar d)).toNat - 48 = d ∧ (d ≠ 0 → ascii (Nat.digitChar d) ≠ ascii '0') := by
  decide

lemma digit_ne {b c : UInt8} (hb : isDigit b = true) (hc : isDigit c = false) : b ≠ c := by
  rintro rfl
  rw [hb] at hc
  cases hc

lemma digit_space {b : UInt8} (hb : isDigit b = true) : isSpace b = false := by
  simp only [isSpace, Bool.or_eq_false_iff, beq_eq_false_iff_ne]
  exact ⟨⟨⟨digit_ne hb rfl, digit_ne hb rfl⟩, digit_ne hb rfl⟩, digit_ne hb rfl⟩

lemma natural_append {ds rest : Bytes} (hne : ds ≠ []) (hds : ∀ b ∈ ds, isDigit b = true)
    (hzero : ds.head? = some (ascii '0') → ds = [ascii '0']) (hrest : Ends rest) :
    natural (ds ++ rest) = some (naturalValue ds, rest) := by
  have hstop : rest.takeWhile isDigit = [] ∧ rest.dropWhile isDigit = rest ∧
      rest.head?.any continuesNumber = false := by
    cases rest with
    | nil => exact ⟨rfl, rfl, rfl⟩
    | cons c rest =>
      rcases hrest c rfl with rfl | rfl | rfl <;> exact ⟨rfl, rfl, rfl⟩
  obtain ⟨htake, hdrop, hnext⟩ := hstop
  unfold natural
  simp only [List.takeWhile_append_of_pos hds, List.dropWhile_append_of_pos hds, htake, hdrop, hnext,
    List.append_nil]
  rw [if_neg]
  rintro (h | ⟨hhead, hnot⟩ | h)
  · exact hne h
  · exact hnot (hzero hhead)
  · cases h

lemma natural_text (n : ℕ) {rest : Bytes} (hrest : Ends rest) :
    natural (naturalText n ++ rest) = some (n, rest) := by
  unfold naturalText
  by_cases hn : n = 0
  · have hdigit : ∀ b ∈ [ascii '0'], isDigit b = true := by
      intro b hb
      rw [List.mem_singleton.mp hb]
      rfl
    rw [if_pos hn, natural_append (by simp) hdigit (fun _ => rfl) hrest, hn]
    rfl
  · rw [if_neg hn]
    have hlt : ∀ d ∈ Nat.digits 10 n, d < 10 := fun d hd => Nat.digits_lt_base (by decide) hd
    have hne : Nat.digits 10 n ≠ [] := Nat.digits_ne_nil_iff_ne_zero.mpr hn
    have hvalue : naturalValue ((Nat.digits 10 n).reverse.map (fun d => ascii (Nat.digitChar d))) =
        n := by
      have hback : (Nat.digits 10 n).map ((fun b : UInt8 => b.toNat - 48) ∘
          fun d => ascii (Nat.digitChar d)) = Nat.digits 10 n := by
        conv_rhs => rw [← List.map_id (Nat.digits 10 n)]
        apply List.map_congr_left
        intro d hd
        exact (digitChar_digit d (hlt d hd)).2.1
      rw [naturalValue, ← List.map_reverse, List.reverse_reverse, List.map_map, hback,
        Nat.ofDigits_digits]
    rw [natural_append (by simpa using hne) ?_ ?_ hrest, hvalue]
    · intro b hb
      obtain ⟨d, hd, rfl⟩ := List.mem_map.mp hb
      exact (digitChar_digit d (hlt d (List.mem_reverse.mp hd))).1
    · -- the first digit is the last one of `Nat.digits`, which is no zero
      intro hhead
      rw [List.head?_map, List.head?_reverse, List.getLast?_eq_some_getLast hne, Option.map_some,
        Option.some.injEq] at hhead
      exact absurd hhead ((digitChar_digit _ (hlt _ (List.getLast_mem hne))).2.2
        (Nat.getLast_digit_ne_zero 10 hn))

lemma naturalText_head (n : ℕ) : ∃ b l, naturalText n = b :: l ∧ isDigit b = true := by
  unfold naturalText
  by_cases hn : n = 0
  · rw [if_pos hn]
    exact ⟨_, _, rfl, by decide⟩
  · rw [if_neg hn]
    have hne : Nat.digits 10 n ≠ [] := Nat.digits_ne_nil_iff_ne_zero.mpr hn
    obtain ⟨d, ds, hd⟩ := List.exists_cons_of_ne_nil (List.reverse_ne_nil_iff.mpr hne)
    refine ⟨_, _, by rw [hd, List.map_cons], (digitChar_digit d ?_).1⟩
    have hmem : d ∈ (Nat.digits 10 n).reverse := by
      rw [hd]
      exact List.mem_cons_self
    exact Nat.digits_lt_base (by decide) (List.mem_reverse.mp hmem)

end Numbers

section Containers

variable {β : Type} {item : Bytes → Option (β × Bytes)} {close : UInt8} {f : β → Bytes}

/-- `item` reads back what `f` writes of `b`. -/
def Reads (item : Bytes → Option (β × Bytes)) (f : β → Bytes) (b : β) : Prop :=
  ∀ rest, Ends rest → item (f b ++ rest) = some (b, rest)

lemma ends_comma (l : Bytes) : Ends (ascii ',' :: l) := by
  intro c hc
  cases hc
  exact .inl rfl

lemma ends_close (hclose : close = ascii ']' ∨ close = ascii '}') (l : Bytes) : Ends (close :: l) := by
  intro c hc
  cases hc
  exact .inr hclose

lemma skip_comma (l : Bytes) : skip (ascii ',' :: l) = ascii ',' :: l := rfl

lemma skip_close (hclose : close = ascii ']' ∨ close = ascii '}') (l : Bytes) :
    skip (close :: l) = close :: l := by
  rcases hclose with rfl | rfl <;> rfl

lemma items_sep (hclose : close = ascii ']' ∨ close = ascii '}') {bs : List β} (hne : bs ≠ [])
    (hbs : ∀ b ∈ bs, Reads item f b) {n : ℕ} (hn : bs.length ≤ n) (rest : Bytes) :
    items item close n (sep close (bs.map f) ++ rest) = some (bs, rest) := by
  induction bs generalizing n with
  | nil => exact absurd rfl hne
  | cons b bs ih =>
    obtain ⟨n, rfl⟩ : ∃ m, n = m + 1 := ⟨n - 1, by simp at hn; omega⟩
    obtain ⟨hb, hrest⟩ := List.forall_mem_cons.mp hbs
    cases bs with
    | nil =>
      have hitem := hb (close :: rest) (ends_close hclose rest)
      simp only [List.map_cons, List.map_nil, sep, List.append_assoc, List.singleton_append, items,
        hitem, skip_close hclose, if_true]
    | cons b' bs =>
      have hitem := hb (ascii ',' :: (sep close ((b' :: bs).map f) ++ rest)) (ends_comma _)
      have hcomma : ascii ',' ≠ close := by rcases hclose with rfl | rfl <;> decide
      have htail := ih (by simp) hrest (n := n) (by simp at hn ⊢; omega)
      simp only [List.map_cons, sep_cons_cons, List.append_assoc, List.cons_append] at hitem htail ⊢
      simp only [items, hitem, skip_comma, if_neg hcomma, if_true, htail, Option.map_some]

lemma sep_length (close : UInt8) (ts : List Bytes) : ts.length ≤ (sep close ts).length := by
  match ts with
  | [] => simp [sep]
  | [t] => simp [sep]
  | t :: t' :: ts =>
    have hrest := sep_length close (t' :: ts)
    rw [sep_cons_cons]
    simp only [List.length_cons, List.length_append] at hrest ⊢
    omega

lemma container_sep (hclose : close = ascii ']' ∨ close = ascii '}') {bs : List β}
    (hbs : ∀ b ∈ bs, Reads item f b) (hhead : ∀ b ∈ bs, ∃ c l, f b = c :: l ∧
      isSpace c = false ∧ c ≠ ascii ']' ∧ c ≠ ascii '}') (rest : Bytes) :
    container item close (sep close (bs.map f) ++ rest) = some (bs, rest) := by
  by_cases hne : bs = []
  · subst hne
    simp only [List.map_nil, sep, List.singleton_append, container, skip_close hclose, if_true]
  · have hbegin : ∃ c l, sep close (bs.map f) ++ rest = c :: l ∧ isSpace c = false ∧
        c ≠ ascii ']' ∧ c ≠ ascii '}' := by
      obtain ⟨b, bs, rfl⟩ := List.exists_cons_of_ne_nil hne
      obtain ⟨c, l, hf, hc⟩ := hhead b List.mem_cons_self
      cases bs with
      | nil => exact ⟨c, l ++ close :: rest, by simp [sep, hf], hc⟩
      | cons b' bs =>
        exact ⟨c, l ++ (ascii ',' :: sep close ((b' :: bs).map f)) ++ rest, by
          simp [sep_cons_cons, hf], hc⟩
    obtain ⟨c, l, heq, hspace, hbracket, hbrace⟩ := hbegin
    have hskip : skip (sep close (bs.map f) ++ rest) = c :: l := by
      rw [heq, skip, List.dropWhile_cons_of_neg (by simp [hspace])]
    have hother : c ≠ close := by
      rcases hclose with rfl | rfl
      · exact hbracket
      · exact hbrace
    have hlength : bs.length ≤ (sep close (bs.map f) ++ rest).length := by
      have hsep := sep_length close (bs.map f)
      rw [List.length_map] at hsep
      rw [List.length_append]
      omega
    rw [container, hskip]
    simp only [if_neg hother]
    exact items_sep hclose hne hbs hlength rest

end Containers

section RoundTrip

lemma texts_eq_map (vs : List Json) : texts vs = vs.map text := by
  induction vs with
  | nil => rfl
  | cons v vs ih => rw [texts, ih, List.map_cons]

def memberText (m : String × Json) : Bytes := JsonText.string m.1 ++ ascii ':' :: m.2.text

lemma memberTexts_eq_map (ms : List (String × Json)) : memberTexts ms = ms.map memberText := by
  induction ms with
  | nil => rfl
  | cons m ms ih => rw [memberTexts, ih, List.map_cons, memberText]

/-- How a value begins. -/
lemma text_head (v : Json) : ∃ c l, v.text = c :: l ∧ isSpace c = false ∧ c ≠ ascii ']' ∧
    c ≠ ascii '}' := by
  cases v with
  | null => exact ⟨_, _, rfl, by decide⟩
  | bool b => cases b <;> exact ⟨_, _, rfl, by decide⟩
  | number n =>
    cases n with
    | ofNat n =>
      obtain ⟨b, l, hl, hb⟩ := naturalText_head n
      exact ⟨b, l, hl, digit_space hb, digit_ne hb rfl, digit_ne hb rfl⟩
    | negSucc n => exact ⟨_, _, rfl, by decide⟩
  | string s => exact ⟨_, _, rfl, by decide⟩
  | array vs => exact ⟨_, _, rfl, by decide⟩
  | object ms => exact ⟨_, _, rfl, by decide⟩

lemma value_number (d n : ℕ) {b : UInt8} {l rest : Bytes} (hb : isDigit b = true)
    (hl : natural (b :: l) = some (n, rest)) : value d (b :: l) = some (.number n, rest) := by
  have hskip : skip (b :: l) = b :: l := List.dropWhile_cons_of_neg (by simp [digit_space hb])
  rw [value.eq_def, hskip]
  simp only [if_neg (digit_ne hb (c := ascii '"') rfl), if_neg (digit_ne hb (c := ascii '[') rfl),
    if_neg (digit_ne hb (c := ascii '{') rfl), if_neg (digit_ne hb (c := ascii 'n') rfl),
    if_neg (digit_ne hb (c := ascii 't') rfl), if_neg (digit_ne hb (c := ascii 'f') rfl),
    if_neg (digit_ne hb (c := ascii '-') rfl), hl, Option.map_some]

lemma word_append (w : String) (v : Json) (rest : Bytes) :
    word w v (Utf8.encode w ++ rest) = some (v, rest) := by
  rw [word, if_pos (List.prefix_append _ _), List.drop_left]

lemma member_text {d : ℕ} {m : String × Json} (hv : Reads (value d) text m.2) :
    Reads (member (value d)) memberText m := by
  intro rest hrest
  obtain ⟨bs, hbs, hread⟩ := readString_text m.1 (ascii ':' :: (m.2.text ++ rest))
  have htext : memberText m ++ rest = ascii '"' :: bs := by
    rw [memberText, List.append_assoc, List.cons_append, hbs]
  have hquote : skip (ascii '"' :: bs) = ascii '"' :: bs := rfl
  have hcolon : skip (ascii ':' :: (m.2.text ++ rest)) = ascii ':' :: (m.2.text ++ rest) := rfl
  rw [htext, member, hquote]
  simp only [if_true, hread, hcolon, hv rest hrest, Option.map_some]

mutual

theorem value_text : ∀ (v : Json) {d : ℕ}, v.depth ≤ d → Reads (value d) text v
  | .null, d, _ => by
    intro rest _
    have hread := word_append "null" .null rest
    rw [text, value.eq_def]
    exact hread
  | .bool true, d, _ => by
    intro rest _
    have hread := word_append "true" (.bool true) rest
    rw [text, value.eq_def]
    exact hread
  | .bool false, d, _ => by
    intro rest _
    have hread := word_append "false" (.bool false) rest
    rw [text, value.eq_def]
    exact hread
  | .number (.ofNat n), d, _ => by
    intro rest hrest
    obtain ⟨b, l, hl, hb⟩ := naturalText_head n
    have hread := natural_text n hrest
    rw [hl] at hread
    rw [text, integerText, hl]
    exact value_number d n hb hread
  | .number (.negSucc n), d, _ => by
    intro rest hrest
    have hread := natural_text (n + 1) hrest
    have hskip : skip (ascii '-' :: (naturalText (n + 1) ++ rest)) =
        ascii '-' :: (naturalText (n + 1) ++ rest) := rfl
    rw [text, integerText, List.cons_append, value, hskip]
    simp only [hread, Option.map_some]
    rfl
  | .string s, d, _ => by
    intro rest _
    obtain ⟨bs, hbs, hread⟩ := readString_text s rest
    have hskip : skip (ascii '"' :: bs) = ascii '"' :: bs := rfl
    rw [text, hbs, value, hskip]
    simp only [if_true, hread, Option.map_some]
  | .array vs, d, hd => by
    intro rest _
    rw [depth] at hd
    obtain ⟨d, rfl⟩ : ∃ n, d = n + 1 := ⟨d - 1, by omega⟩
    have hread := container_sep (.inl rfl) (values_texts vs (d := d) (by omega))
      (fun v _ => text_head v) rest
    have hskip : skip (ascii '[' :: (sep (ascii ']') (vs.map text) ++ rest)) =
        ascii '[' :: (sep (ascii ']') (vs.map text) ++ rest) := rfl
    have hquote : ascii '[' ≠ ascii '"' := by decide
    rw [text, texts_eq_map, List.cons_append, value, hskip]
    simp only [if_neg hquote, if_true, hread, Option.map_some]
  | .object ms, d, hd => by
    intro rest _
    rw [depth] at hd
    obtain ⟨d, rfl⟩ : ∃ n, d = n + 1 := ⟨d - 1, by omega⟩
    have hread := container_sep (.inr rfl)
      (fun m hm => member_text (members_texts ms (d := d) (by omega) m hm))
      (fun m _ => ⟨_, _, rfl, by decide⟩) rest
    have hskip : skip (ascii '{' :: (sep (ascii '}') (ms.map memberText) ++ rest)) =
        ascii '{' :: (sep (ascii '}') (ms.map memberText) ++ rest) := rfl
    have hquote : ascii '{' ≠ ascii '"' := by decide
    have hbracket : ascii '{' ≠ ascii '[' := by decide
    rw [text, memberTexts_eq_map, List.cons_append, value, hskip]
    simp only [if_neg hquote, if_neg hbracket, if_true, hread, Option.map_some]

theorem values_texts : ∀ (vs : List Json) {d : ℕ}, depths vs ≤ d →
    ∀ v ∈ vs, Reads (value d) text v
  | [], _, _ => fun v hv => by cases hv
  | v :: vs, d, hd => by
    rw [depths] at hd
    intro w hw
    rcases List.mem_cons.mp hw with heq | hw
    · rw [heq]
      exact value_text v (by omega)
    · exact values_texts vs (by omega) w hw

theorem members_texts : ∀ (ms : List (String × Json)) {d : ℕ}, memberDepths ms ≤ d →
    ∀ m ∈ ms, Reads (value d) text m.2
  | [], _, _ => fun m hm => by cases hm
  | (key, v) :: ms, d, hd => by
    rw [memberDepths] at hd
    intro m hm
    rcases List.mem_cons.mp hm with heq | hm
    · rw [heq]
      exact value_text v (by omega)
    · exact members_texts ms (by omega) m hm

end

/-- A tree that is not nested too deep is read back from its text. -/
theorem parse_text {v : Json} (hv : v.depth ≤ 127) : parse v.text = some v := by
  have hread := value_text v hv [] (by intro c hc; cases hc)
  rw [List.append_nil] at hread
  rw [parse, hread]
  rfl

end RoundTrip

end Json
