import Mathlib.Data.List.DropRight
import SecureNet.Library.Percent

/-!
# Parsing URLs

The basic URL parser of the WHATWG standard, on the UTF-8 bytes of its input, for the special
schemes other than `file` and without a base URL. The parser of the authority (credentials, host and
port) is a parameter.
-/

open Hex (Bytes)
open Percent (ascii)

structure Url (A : Type) where
  scheme : Bytes
  authority : A
  path : List Bytes
  query : Option Bytes
  fragment : Option Bytes
  deriving DecidableEq

namespace Url

section Bytes

def isC0OrSpace (b : UInt8) : Bool := decide (b.toNat ≤ 0x20)

def isTabOrNewline (b : UInt8) : Bool := b == ascii '\t' || b == ascii '\n' || b == ascii '\r'

/-- In a special URL a backslash separates path segments as well. -/
def isSlash (b : UInt8) : Bool := b == ascii '/' || b == ascii '\\'

def endsPath (b : UInt8) : Bool := b == ascii '?' || b == ascii '#'

def endsAuthority (b : UInt8) : Bool := isSlash b || endsPath b

def inC0Set (b : UInt8) : Bool := decide (b.toNat < 0x20) || decide (0x7E < b.toNat)

def inFragmentSet (b : UInt8) : Bool := inC0Set b || [' ', '"', '<', '>', '`'].any (ascii · == b)

def inSpecialQuerySet (b : UInt8) : Bool :=
  inC0Set b || [' ', '"', '#', '<', '>', '\''].any (ascii · == b)

def inPathSet (b : UInt8) : Bool :=
  inC0Set b || [' ', '"', '#', '<', '>', '?', '^', '`', '{', '}'].any (ascii · == b)

def toLower (b : UInt8) : UInt8 :=
  if ascii 'A' ≤ b ∧ b ≤ ascii 'Z' then b + 32 else b

def isAlpha (b : UInt8) : Bool :=
  (decide (ascii 'a' ≤ b) && decide (b ≤ ascii 'z')) ||
    (decide (ascii 'A' ≤ b) && decide (b ≤ ascii 'Z'))

def isSchemeByte (b : UInt8) : Bool :=
  isAlpha b || (decide (ascii '0' ≤ b) && decide (b ≤ ascii '9')) ||
    ['+', '-', '.'].any (ascii · == b)

end Bytes

section Parser

/-- What is left of the input before it is read. -/
def clean (input : Bytes) : Bytes :=
  ((input.dropWhile isC0OrSpace).rdropWhile isC0OrSpace).filter (fun b => !isTabOrNewline b)

def splitScheme (input : Bytes) : Option (Bytes × Bytes) :=
  let scheme := input.takeWhile isSchemeByte
  match input.dropWhile isSchemeByte with
  | b :: rest =>
    if b = ascii ':' ∧ scheme.head?.any isAlpha = true then some (scheme.map toLower, rest) else none
  | [] => none

def isSpecial (scheme : Bytes) : Bool :=
  ["http", "https", "ws", "wss", "ftp"].any (Utf8.encode · == scheme)

def isSingleDot (segment : Bytes) : Bool :=
  [".", "%2e", "%2E"].any (Utf8.encode · == segment)

def isDoubleDot (segment : Bytes) : Bool :=
  ["..", ".%2e", ".%2E", "%2e.", "%2E.", "%2e%2e", "%2e%2E", "%2E%2e", "%2E%2E"].any
    (Utf8.encode · == segment)

/-- The path after a segment that another one follows. -/
def addInner (path : List Bytes) (segment : Bytes) : List Bytes :=
  if isDoubleDot segment then path.dropLast
  else if isSingleDot segment then path
  else path ++ [segment]

/-- The path after the last segment, which leaves an empty one if it is a dot segment. -/
def addLast (path : List Bytes) (segment : Bytes) : List Bytes :=
  if isDoubleDot segment then path.dropLast ++ [[]]
  else if isSingleDot segment then path ++ [[]]
  else path ++ [segment]

def addSegments (path : List Bytes) : List Bytes → List Bytes
  | [] => path
  | [s] => addLast path (Percent.encode inPathSet s)
  | s :: t :: rest => addSegments (addInner path (Percent.encode inPathSet s)) (t :: rest)

def parsePath (bytes : Bytes) : List Bytes :=
  match bytes with
  | [] => addSegments [] [[]]
  | b :: rest =>
    if isSlash b then addSegments [] (rest.splitOnP isSlash)
    else addSegments [] ((b :: rest).splitOnP isSlash)

/-- The query of what follows the path. -/
def parseQuery (rest : Bytes) : Option Bytes :=
  match rest with
  | [] => none
  | b :: tail =>
    if b = ascii '?' then
      some (Percent.encode inSpecialQuerySet (tail.takeWhile (· != ascii '#')))
    else none

def parseFragment (rest : Bytes) : Option Bytes :=
  match rest.dropWhile (· != ascii '#') with
  | [] => none
  | _ :: tail => some (Percent.encode inFragmentSet tail)

variable {A : Type} (parseAuthority : Bytes → Bytes → Option A)

/-- `parseAuthority` is given the scheme, which decides the default port, and the bytes between the
slashes after it and the path. -/
def parse (input : Bytes) : Option (Url A) :=
  match splitScheme (clean input) with
  | none => none
  | some (scheme, rest) =>
    if isSpecial scheme then
      let rest := rest.dropWhile isSlash
      match parseAuthority scheme (rest.takeWhile (fun b => !endsAuthority b)) with
      | none => none
      | some authority =>
        let rest := rest.dropWhile (fun b => !endsAuthority b)
        let after := rest.dropWhile (fun b => !endsPath b)
        some ⟨scheme, authority, parsePath (rest.takeWhile (fun b => !endsPath b)),
          parseQuery after, parseFragment after⟩
    else none

end Parser

section Origin

variable {A : Type} {parseAuthority : Bytes → Bytes → Option A}

/-- A text that is a scheme and an authority and nothing else. -/
structure PlainOrigin (parseAuthority : Bytes → Bytes → Option A) (base scheme : Bytes)
    (authority : A) : Prop where
  special : scheme = Utf8.encode "http" ∨ scheme = Utf8.encode "https"
  text : ∃ host, base = scheme ++ Utf8.encode "://" ++ host ∧ host ≠ [] ∧
    (∀ b ∈ host, isC0OrSpace b = false ∧ endsAuthority b = false) ∧
    parseAuthority scheme host = some authority

lemma isTabOrNewline_le {b : UInt8} (h : isC0OrSpace b = false) : isTabOrNewline b = false := by
  unfold isC0OrSpace at h
  unfold isTabOrNewline
  by_contra hnot
  simp only [Bool.not_eq_false, Bool.or_eq_true, beq_iff_eq] at hnot
  rcases hnot with (rfl | rfl) | rfl <;> exact absurd h (by decide)

lemma rdropWhile_append {p : UInt8 → Bool} {x : UInt8} (hx : p x = false) (l m : Bytes) :
    (l ++ x :: m).rdropWhile p = l ++ x :: m.rdropWhile p := by
  induction m using List.reverseRecOn with
  | nil => rw [List.rdropWhile_concat_neg p l x (by rw [hx]; decide), List.rdropWhile_nil]
  | append_singleton m y ih =>
    have hsplit : l ++ x :: (m ++ [y]) = (l ++ x :: m) ++ [y] := by simp
    rw [hsplit, List.rdropWhile_concat, List.rdropWhile_concat, ih]
    by_cases hy : p y = true
    · rw [if_pos hy, if_pos hy]
    · rw [if_neg hy, if_neg hy]
      simp

/-- What the parser reads of the part of its input that follows a plain text. -/
def cleanEnd (input : Bytes) : Bytes :=
  (input.rdropWhile isC0OrSpace).filter (fun b => !isTabOrNewline b)

/-- A text that neither is trimmed nor loses a byte keeps its bytes, and so does a slash. -/
lemma clean_append {l : Bytes} (hl : l ≠ []) (hplain : ∀ b ∈ l, isC0OrSpace b = false)
    (t : Bytes) : clean (l ++ ascii '/' :: t) = l ++ ascii '/' :: cleanEnd t := by
  have hfilter : l.filter (fun b => !isTabOrNewline b) = l := by
    rw [List.filter_eq_self]
    intro b hb
    rw [isTabOrNewline_le (hplain b hb), Bool.not_false]
  have hstart : (l ++ ascii '/' :: t).dropWhile isC0OrSpace = l ++ ascii '/' :: t := by
    cases l with
    | nil => exact absurd rfl hl
    | cons b l =>
      have hb := hplain b List.mem_cons_self
      rw [List.cons_append, List.dropWhile_cons_of_neg (by rw [hb]; decide)]
  have hslash : isC0OrSpace (ascii '/') = false := by decide
  rw [clean, hstart, rdropWhile_append hslash, List.filter_append, hfilter]
  rfl

lemma PlainOrigin.bytes {base scheme : Bytes} {authority : A}
    (h : PlainOrigin parseAuthority base scheme authority) :
    base ≠ [] ∧ ∀ b ∈ base, isC0OrSpace b = false := by
  obtain ⟨hspecial, host, rfl, hne, hhost, -⟩ := h
  have hscheme : ∀ b ∈ scheme, isC0OrSpace b = false := by
    rcases hspecial with rfl | rfl <;> decide +kernel
  have hslashes : ∀ b ∈ Utf8.encode "://", isC0OrSpace b = false := by decide +kernel
  refine ⟨by simp [hne], ?_⟩
  intro b hb
  rcases List.mem_append.mp hb with hb | hb
  · rcases List.mem_append.mp hb with hb | hb
    · exact hscheme b hb
    · exact hslashes b hb
  · exact (hhost b hb).1

/-- What a text that follows a plain origin and a slash is parsed to. -/
theorem parse_plain {base scheme : Bytes} {authority : A}
    (h : PlainOrigin parseAuthority base scheme authority) (t : Bytes) :
    parse parseAuthority (base ++ ascii '/' :: t) =
      some ⟨scheme, authority,
        addSegments [] (((cleanEnd t).takeWhile (fun b => !endsPath b)).splitOnP isSlash),
        parseQuery ((cleanEnd t).dropWhile (fun b => !endsPath b)),
        parseFragment ((cleanEnd t).dropWhile (fun b => !endsPath b))⟩ := by
  obtain ⟨hne, hplain⟩ := h.bytes
  obtain ⟨hspecial, host, rfl, hhost, hbytes, hauthority⟩ := h
  have hclean := clean_append hne hplain t
  generalize cleanEnd t = J at hclean ⊢
  have hsplit : splitScheme (scheme ++ Utf8.encode "://" ++ host ++ ascii '/' :: J) =
      some (scheme, ascii '/' :: ascii '/' :: (host ++ ascii '/' :: J)) := by
    rcases hspecial with rfl | rfl <;> rfl
  have hknown : isSpecial scheme = true := by
    rcases hspecial with rfl | rfl <;> decide
  have hslashes : (ascii '/' :: ascii '/' :: (host ++ ascii '/' :: J)).dropWhile isSlash =
      host ++ ascii '/' :: J := by
    cases host with
    | nil => exact absurd rfl hhost
    | cons b host =>
      have hb := (hbytes b List.mem_cons_self).2
      rw [endsAuthority, Bool.or_eq_false_iff] at hb
      rw [List.dropWhile_cons_of_pos (by decide), List.dropWhile_cons_of_pos (by decide),
        List.cons_append, List.dropWhile_cons_of_neg (by rw [hb.1]; decide)]
  have hkeep : ∀ b ∈ host, (!endsAuthority b) = true := by
    intro b hb
    rw [(hbytes b hb).2, Bool.not_false]
  have htake : (host ++ ascii '/' :: J).takeWhile (fun b => !endsAuthority b) = host := by
    rw [List.takeWhile_append_of_pos hkeep]
    exact List.append_nil host
  have hdrop : (host ++ ascii '/' :: J).dropWhile (fun b => !endsAuthority b) =
      ascii '/' :: J := by
    rw [List.dropWhile_append_of_pos hkeep]
    rfl
  rw [parse, hclean, hsplit]
  simp only [hknown, ↓reduceIte, hslashes, htake, hauthority, hdrop]
  rfl

end Origin

section Segment

/-- A nonempty text of lower-case letters. -/
def PlainName (name : Bytes) : Prop :=
  name ≠ [] ∧ ∀ b ∈ name, ascii 'a' ≤ b ∧ b ≤ ascii 'z'

/-- A text that is a path segment just as it is: it holds no byte that ends or splits a path, none
that the parser drops, and no escape, and it is no dot segment. -/
structure PlainSegment (id : Bytes) : Prop where
  delimiters : ∀ b ∈ id, endsAuthority b = false ∧ isTabOrNewline b = false
  last : ∀ b, id.getLast? = some b → isC0OrSpace b = false
  escapes : Percent.hasEscape id = false
  dots : id ≠ Utf8.encode "." ∧ id ≠ Utf8.encode ".."

lemma admissible_inPathSet : Percent.Admissible inPathSet := by
  have hall : ∀ n < 256, inPathSet (UInt8.ofNat n) = true →
      UInt8.ofNat n ≠ ascii '%' ∧ Percent.hexValue (UInt8.ofNat n) = none := by decide +kernel
  intro b hb
  have hbyte := hall b.toNat b.toNat_lt
  rw [UInt8.ofNat_toNat] at hbyte
  exact hbyte hb

lemma dot_decode {s : Bytes} :
    (isSingleDot s = true → Percent.decode s = Utf8.encode ".") ∧
      (isDoubleDot s = true → Percent.decode s = Utf8.encode "..") := by
  constructor
  · intro h
    have hall : ∀ t ∈ [".", "%2e", "%2E"],
        Percent.decode (Utf8.encode t) = Utf8.encode "." := by decide
    rw [isSingleDot, List.any_eq_true] at h
    obtain ⟨t, ht, heq⟩ := h
    rw [← beq_iff_eq.mp heq]
    exact hall t ht
  · intro h
    have hall : ∀ t ∈ ["..", ".%2e", ".%2E", "%2e.", "%2E.", "%2e%2e", "%2e%2E", "%2E%2e", "%2E%2E"],
        Percent.decode (Utf8.encode t) = Utf8.encode ".." := by decide
    rw [isDoubleDot, List.any_eq_true] at h
    obtain ⟨t, ht, heq⟩ := h
    rw [← beq_iff_eq.mp heq]
    exact hall t ht

lemma mem_addLast {path : List Bytes} {s seg : Bytes} (h : seg ∈ addLast path s) :
    seg ∈ path ∨ seg = [] ∨ seg = s := by
  unfold addLast at h
  split at h
  · rcases List.mem_append.mp h with h | h
    · exact .inl (List.dropLast_subset path h)
    · exact .inr (.inl (List.mem_singleton.mp h))
  · split at h
    · rcases List.mem_append.mp h with h | h
      · exact .inl h
      · exact .inr (.inl (List.mem_singleton.mp h))
    · rcases List.mem_append.mp h with h | h
      · exact .inl h
      · exact .inr (.inr (List.mem_singleton.mp h))

lemma mem_addInner {path : List Bytes} {s seg : Bytes} (h : seg ∈ addInner path s) :
    seg ∈ path ∨ seg = s := by
  unfold addInner at h
  split at h
  · exact .inl (List.dropLast_subset path h)
  · split at h
    · exact .inl h
    · rcases List.mem_append.mp h with h | h
      · exact .inl h
      · exact .inr (List.mem_singleton.mp h)

/-- Dot segments only remove: every segment of a path is empty, was there before, or encodes a
segment of the input. -/
lemma mem_addSegments {path segments : List Bytes} {seg : Bytes}
    (h : seg ∈ addSegments path segments) :
    seg ∈ path ∨ seg = [] ∨ ∃ s ∈ segments, seg = Percent.encode inPathSet s := by
  induction segments generalizing path with
  | nil => exact .inl h
  | cons s rest ih =>
    cases rest with
    | nil =>
      rcases mem_addLast h with h | h | h
      · exact .inl h
      · exact .inr (.inl h)
      · exact .inr (.inr ⟨s, List.mem_singleton_self s, h⟩)
    | cons t rest =>
      rcases ih h with h | h | ⟨u, hu, h⟩
      · rcases mem_addInner h with h | h
        · exact .inl h
        · exact .inr (.inr ⟨s, List.mem_cons_self, h⟩)
      · exact .inr (.inl h)
      · exact .inr (.inr ⟨u, List.mem_cons_of_mem s hu, h⟩)

/-- The pieces of a split and its separators fit into the whole. -/
lemma splitOnP_length {p : UInt8 → Bool} {l s : Bytes} (h : s ∈ l.splitOnP p) :
    s.length + l.countP p ≤ l.length := by
  induction l generalizing s with
  | nil =>
    rw [List.splitOnP_nil, List.mem_singleton] at h
    rw [h]
    exact Nat.le_refl _
  | cons b l ih =>
    rw [List.splitOnP_cons_eq_if_modifyHead] at h
    by_cases hb : p b = true
    · rw [if_pos hb] at h
      rw [List.countP_cons_of_pos hb, List.length_cons]
      rcases List.mem_cons.mp h with rfl | h
      · have hle := List.countP_le_length (p := p) (l := l)
        simp only [List.length_nil]
        omega
      · have hle := ih h
        omega
    · rw [if_neg hb] at h
      rw [List.countP_cons_of_neg hb, List.length_cons]
      cases hsplit : l.splitOnP p with
      | nil => exact absurd hsplit (List.splitOnP_ne_nil p l)
      | cons t rest =>
        rw [hsplit, List.modifyHead_cons] at h
        rw [hsplit] at ih
        rcases List.mem_cons.mp h with rfl | h
        · have hle := ih List.mem_cons_self
          rw [List.length_cons]
          omega
        · have hle := ih (List.mem_cons_of_mem t h)
          omega

lemma PlainSegment.not_dot {id : Bytes} (h : PlainSegment id) :
    isSingleDot (Percent.encode inPathSet id) = false ∧
      isDoubleDot (Percent.encode inPathSet id) = false := by
  have hdecode : Percent.decode (Percent.encode inPathSet id) = id := by
    rw [Percent.decode_encode admissible_inPathSet, Percent.decode_of_not_escape h.escapes]
  constructor
  · by_contra hdot
    have heq := dot_decode.1 (Bool.of_not_eq_false hdot)
    exact h.dots.1 (by rw [← hdecode, heq])
  · by_contra hdot
    have heq := dot_decode.2 (Bool.of_not_eq_false hdot)
    exact h.dots.2 (by rw [← hdecode, heq])

lemma PlainName.encode {name : Bytes} (h : PlainName name) :
    Percent.encode inPathSet name = name := by
  have hall : ∀ n < 256, ascii 'a' ≤ UInt8.ofNat n → UInt8.ofNat n ≤ ascii 'z' →
      inPathSet (UInt8.ofNat n) = false := by decide +kernel
  refine Percent.encode_of_not_mem ?_
  intro b hb
  obtain ⟨hfrom, hto⟩ := h.2 b hb
  have hrange := hall b.toNat b.toNat_lt
  rw [UInt8.ofNat_toNat] at hrange
  exact hrange hfrom hto

lemma PlainName.segment {name : Bytes} (h : PlainName name) : PlainSegment name := by
  have hall : ∀ n < 256, ascii 'a' ≤ UInt8.ofNat n → UInt8.ofNat n ≤ ascii 'z' →
      endsAuthority (UInt8.ofNat n) = false ∧ isTabOrNewline (UInt8.ofNat n) = false ∧
        isC0OrSpace (UInt8.ofNat n) = false ∧ UInt8.ofNat n ≠ ascii '%' ∧
        UInt8.ofNat n ≠ ascii '.' := by decide +kernel
  have hbyte : ∀ b ∈ name, endsAuthority b = false ∧ isTabOrNewline b = false ∧
      isC0OrSpace b = false ∧ b ≠ ascii '%' ∧ b ≠ ascii '.' := by
    intro b hb
    obtain ⟨hfrom, hto⟩ := h.2 b hb
    have hrange := hall b.toNat b.toNat_lt
    rw [UInt8.ofNat_toNat] at hrange
    exact hrange hfrom hto
  have hdots : ∀ {rest : Bytes}, name ≠ ascii '.' :: rest := by
    rintro rest rfl
    exact (hbyte _ List.mem_cons_self).2.2.2.2 rfl
  refine ⟨fun b hb => ⟨(hbyte b hb).1, (hbyte b hb).2.1⟩,
    fun b hb => (hbyte b (List.mem_of_getLast? hb)).2.2.1, ?_, hdots, hdots⟩
  have hescape : ∀ l : Bytes, (∀ b ∈ l, b ≠ ascii '%') → Percent.hasEscape l = false := by
    intro l hl
    induction l with
    | nil => rfl
    | cons b l ih =>
      have hb := hl b List.mem_cons_self
      rw [Percent.hasEscape, ih (fun x hx => hl x (List.mem_cons_of_mem b hx)), Bool.or_false,
        beq_false_of_ne hb, Bool.false_and]
  exact hescape name (fun b hb => (hbyte b hb).2.2.2.1)

lemma cleanEnd_sublist (id : Bytes) : (cleanEnd id).Sublist id :=
  List.filter_sublist.trans (List.rdropWhile_prefix isC0OrSpace id).sublist

/-- The parser reads a text unchanged exactly if it neither trims it nor drops a byte. -/
lemma cleanEnd_eq_iff {id : Bytes} :
    cleanEnd id = id ↔ (∀ b, id.getLast? = some b → isC0OrSpace b = false) ∧
      ∀ b ∈ id, isTabOrNewline b = false := by
  have hlast : id.rdropWhile isC0OrSpace = id ↔
      ∀ b, id.getLast? = some b → isC0OrSpace b = false := by
    rw [List.rdropWhile_eq_self_iff]
    constructor
    · intro h b hb
      have hne : id ≠ [] := by
        rintro rfl
        cases hb
      rw [List.getLast?_eq_some_getLast hne, Option.some.injEq] at hb
      rw [← hb]
      simpa using h hne
    · intro h hne
      simpa using h _ (List.getLast?_eq_some_getLast hne)
  have hfilter : id.filter (fun b => !isTabOrNewline b) = id ↔
      ∀ b ∈ id, isTabOrNewline b = false := by
    rw [List.filter_eq_self]
    simp
  rw [← hlast, ← hfilter]
  constructor
  · intro h
    have htrim : id.rdropWhile isC0OrSpace = id := by
      have hprefix := List.rdropWhile_prefix isC0OrSpace id
      refine hprefix.eq_of_length_le ?_
      have hle := (List.filter_sublist (p := fun b => !isTabOrNewline b)
        (l := id.rdropWhile isC0OrSpace)).length_le
      rw [← cleanEnd, h] at hle
      exact hle
    rw [cleanEnd, htrim] at h
    exact ⟨htrim, h⟩
  · rintro ⟨htrim, h⟩
    rw [cleanEnd, htrim, h]

variable {A : Type} {parseAuthority : Bytes → Bytes → Option A} {base scheme name id : Bytes}
  {authority : A}

/-- What a name and a text after a plain origin are parsed to: the text decides the end of the path,
the query and the fragment, and nothing else. -/
lemma parse_named (h : PlainOrigin parseAuthority base scheme authority) (hname : PlainName name)
    (id : Bytes) :
    parse parseAuthority (base ++ ascii '/' :: (name ++ ascii '/' :: id)) =
      some ⟨scheme, authority,
        addSegments [name] (((cleanEnd id).takeWhile (fun b => !endsPath b)).splitOnP isSlash),
        parseQuery ((cleanEnd id).dropWhile (fun b => !endsPath b)),
        parseFragment ((cleanEnd id).dropWhile (fun b => !endsPath b))⟩ := by
  have hsegment := hname.segment
  have hslash : isC0OrSpace (ascii '/') = false := by decide
  have hclean : cleanEnd (name ++ ascii '/' :: id) = name ++ ascii '/' :: cleanEnd id := by
    have hfilter : name.filter (fun b => !isTabOrNewline b) = name := by
      rw [List.filter_eq_self]
      intro b hb
      rw [(hsegment.delimiters b hb).2, Bool.not_false]
    rw [cleanEnd, rdropWhile_append hslash, List.filter_append, hfilter]
    rfl
  have hkeep : ∀ b ∈ name, (!endsPath b) = true := by
    intro b hb
    have hends := (hsegment.delimiters b hb).1
    rw [endsAuthority, Bool.or_eq_false_iff] at hends
    rw [hends.2, Bool.not_false]
  have hnoSlash : ∀ b ∈ name, isSlash b = false := by
    intro b hb
    have hends := (hsegment.delimiters b hb).1
    rw [endsAuthority, Bool.or_eq_false_iff] at hends
    exact hends.1
  rw [parse_plain h, hclean, List.takeWhile_append_of_pos hkeep, List.dropWhile_append_of_pos hkeep,
    List.takeWhile_cons_of_pos (by decide), List.dropWhile_cons_of_pos (by decide),
    List.splitOnP_append_cons_of_forall_mem hnoSlash _ (by decide)]
  generalize (cleanEnd id).takeWhile (fun b => !endsPath b) = J
  have hfirst : ∀ segments, segments ≠ [] →
      addSegments [] (name :: segments) = addSegments [name] segments := by
    intro segments hne
    cases segments with
    | nil => exact absurd rfl hne
    | cons s rest =>
      obtain ⟨hsingle, hdouble⟩ := hsegment.not_dot
      have hinner : addInner [] (Percent.encode inPathSet name) = [name] := by
        rw [addInner, if_neg (by rw [hdouble]; decide), if_neg (by rw [hsingle]; decide),
          hname.encode]
        rfl
      rw [addSegments, hinner]
  rw [hfirst _ (List.splitOnP_ne_nil _ _)]

lemma addSegments_single {path : List Bytes} (h : PlainSegment id) :
    addSegments path [id] = path ++ [Percent.encode inPathSet id] := by
  obtain ⟨hsingle, hdouble⟩ := h.not_dot
  rw [addSegments, addLast, if_neg (by rw [hdouble]; decide), if_neg (by rw [hsingle]; decide)]

lemma PlainSegment.clean (h : PlainSegment id) : cleanEnd id = id :=
  cleanEnd_eq_iff.mpr ⟨h.last, fun b hb => (h.delimiters b hb).2⟩

/-- What follows the segment that a plain text makes. -/
lemma PlainSegment.takeWhile (h : PlainSegment id) :
    id.takeWhile (fun b => !endsPath b) = id ∧ id.dropWhile (fun b => !endsPath b) = [] ∧
      id.splitOnP isSlash = [id] := by
  have hends : ∀ b ∈ id, isSlash b = false ∧ (!endsPath b) = true := by
    intro b hb
    have hdelimiter := (h.delimiters b hb).1
    rw [endsAuthority, Bool.or_eq_false_iff] at hdelimiter
    rw [hdelimiter.1, hdelimiter.2]
    exact ⟨rfl, rfl⟩
  exact ⟨List.takeWhile_eq_self_iff.mpr (fun b hb => (hends b hb).2),
    List.dropWhile_eq_nil_iff.mpr (fun b hb => (hends b hb).2),
    List.splitOnP_eq_singleton (fun b hb => (hends b hb).1)⟩

/-- A name after a plain origin. -/
theorem parse_name (h : PlainOrigin parseAuthority base scheme authority) (hname : PlainName name) :
    parse parseAuthority (base ++ ascii '/' :: name) =
      some ⟨scheme, authority, [name], none, none⟩ := by
  obtain ⟨htake, hdrop, hsplit⟩ := hname.segment.takeWhile
  rw [parse_plain h, hname.segment.clean, htake, hdrop, hsplit, addSegments_single hname.segment,
    hname.encode]
  rfl

/-- An encoded segment stays one segment. -/
lemma PlainSegment.slash (h : PlainSegment id) : ascii '/' ∉ Percent.encode inPathSet id := by
  intro hmem
  obtain ⟨b, hb, hslash⟩ := List.mem_flatMap.mp hmem
  have hdigit : ∀ n < 16, ascii '/' ≠ Percent.upperDigit n := by decide
  split at hslash
  · have hlt := b.toNat_lt
    rw [Percent.encodeByte, List.mem_cons, List.mem_cons, List.mem_singleton] at hslash
    rcases hslash with hslash | hslash | hslash
    · exact absurd hslash (by decide)
    · exact hdigit _ (by omega) hslash
    · exact hdigit _ (by omega) hslash
  · rw [List.mem_singleton] at hslash
    have hends := (h.delimiters b hb).1
    rw [← hslash] at hends
    exact absurd hends (by decide)

/-- A plain text makes one more segment, which decodes to it. -/
theorem parse_segment (h : PlainOrigin parseAuthority base scheme authority)
    (hname : PlainName name) (hid : PlainSegment id) :
    parse parseAuthority (base ++ ascii '/' :: (name ++ ascii '/' :: id)) =
        some ⟨scheme, authority, [name, Percent.encode inPathSet id], none, none⟩ ∧
      Percent.decode (Percent.encode inPathSet id) = id := by
  obtain ⟨htake, hdrop, hsplit⟩ := hid.takeWhile
  constructor
  · rw [parse_named h hname, hid.clean, htake, hdrop, hsplit, addSegments_single hid]
    rfl
  · rw [Percent.decode_encode admissible_inPathSet, Percent.decode_of_not_escape hid.escapes]

/-- Where the path ends the input ends, unless there is a query or a fragment. -/
lemma rest_eq_nil {J : Bytes} (hquery : parseQuery (J.dropWhile (fun b => !endsPath b)) = none)
    (hfragment : parseFragment (J.dropWhile (fun b => !endsPath b)) = none) :
    ∀ b ∈ J, endsPath b = false := by
  have hhead := List.head?_dropWhile_not (fun b => !endsPath b) J
  cases hrest : J.dropWhile (fun b => !endsPath b) with
  | nil =>
    intro b hb
    simpa using List.dropWhile_eq_nil_iff.mp hrest b hb
  | cons b tail =>
    rw [hrest] at hquery hfragment hhead
    have hb : endsPath b = true := by simpa using hhead
    rw [endsPath, Bool.or_eq_true, beq_iff_eq, beq_iff_eq] at hb
    rcases hb with rfl | rfl
    · cases hquery
    · cases hfragment

/-- Only a plain text makes one more segment that decodes to it. -/
theorem segment_plain (hname : PlainName name) {seg : Bytes}
    (hpath : addSegments [name] (((cleanEnd id).takeWhile (fun b => !endsPath b)).splitOnP isSlash) =
      [name, seg])
    (hquery : parseQuery ((cleanEnd id).dropWhile (fun b => !endsPath b)) = none)
    (hfragment : parseFragment ((cleanEnd id).dropWhile (fun b => !endsPath b)) = none)
    (hdecode : Percent.decode seg = id) : PlainSegment id := by
  have hends := rest_eq_nil hquery hfragment
  have htake : (cleanEnd id).takeWhile (fun b => !endsPath b) = cleanEnd id := by
    rw [List.takeWhile_eq_self_iff]
    intro b hb
    rw [hends b hb, Bool.not_false]
  rw [htake] at hpath
  have hmem : seg ∈ addSegments [name] ((cleanEnd id).splitOnP isSlash) := by
    rw [hpath]
    simp
  rcases mem_addSegments hmem with hseg | hseg | ⟨s, hs, hseg⟩
  · -- the name itself, which the text must then be
    rw [List.mem_singleton.mp hseg, Percent.decode_of_not_escape hname.segment.escapes] at hdecode
    rw [← hdecode]
    exact hname.segment
  · rw [hseg] at hdecode
    rw [← hdecode]
    exact ⟨by simp [Percent.decode], by simp [Percent.decode], rfl, by decide⟩
  · -- a piece of the text, which must be the whole, since no byte can be missing
    rw [hseg, Percent.decode_encode admissible_inPathSet] at hdecode
    have hdecoded := Percent.decode_length_le s
    have hpiece := splitOnP_length hs
    have hclean := (cleanEnd_sublist id).length_le
    rw [hdecode] at hdecoded
    have hsame : cleanEnd id = id := (cleanEnd_sublist id).eq_of_length (by omega)
    have hslash : (cleanEnd id).countP isSlash = 0 := by omega
    have hescape : Percent.hasEscape s = false :=
      (Percent.decode_length_eq_iff s).mp (by rw [hdecode]; omega)
    have hwhole : s = id := by rw [← hdecode, Percent.decode_of_not_escape hescape]
    rw [hsame] at hslash hends hpath
    rw [List.countP_eq_zero] at hslash
    have hnoSlash : ∀ b ∈ id, isSlash b = false := by
      intro b hb
      simpa using hslash b hb
    rw [List.splitOnP_eq_singleton hnoSlash] at hpath
    obtain ⟨hlast, htab⟩ := cleanEnd_eq_iff.mp hsame
    refine ⟨?_, hlast, by rw [← hwhole]; exact hescape, ?_, ?_⟩
    · intro b hb
      rw [endsAuthority, hnoSlash b hb, hends b hb]
      exact ⟨rfl, htab b hb⟩
    · rintro rfl
      have hdot : addSegments [name] [Utf8.encode "."] = [name, []] := rfl
      rw [hdot] at hpath
      rw [hwhole] at hseg
      cases hpath
      exact absurd hseg (by decide)
    · rintro rfl
      have hdot : addSegments [name] [Utf8.encode ".."] = [[]] := rfl
      rw [hdot] at hpath
      cases hpath

/-- A plain text makes one more segment, which decodes to it, and no other text does. -/
theorem parse_segment_iff (h : PlainOrigin parseAuthority base scheme authority)
    (hname : PlainName name) :
    (∃ seg, parse parseAuthority (base ++ ascii '/' :: (name ++ ascii '/' :: id)) =
        some ⟨scheme, authority, [name, seg], none, none⟩ ∧ Percent.decode seg = id) ↔
      PlainSegment id := by
  constructor
  · rintro ⟨seg, hparse, hdecode⟩
    rw [parse_named h hname, Option.some.injEq, Url.mk.injEq] at hparse
    obtain ⟨-, -, hpath, hquery, hfragment⟩ := hparse
    exact segment_plain hname hpath hquery hfragment hdecode
  · intro hid
    exact ⟨_, parse_segment h hname hid⟩

end Segment

end Url
