import SecureNet.Library.Json

/-!
# Torn JSON texts

Records are written one behind the other, and any of the writes may be cut short. Whatever is left of
them in a line, it is read as a value only if it is one whole record: what follows a torn record
neither closes nor goes on with what was open in it.
-/

namespace Json

open Hex (Bytes)
open Percent (ascii)

/-- Nothing follows that would go on with an array or an object. -/
def Stray (rest : Bytes) : Prop :=
  ∀ c ∈ (skip rest).head?, c ≠ ascii ':' ∧ c ≠ ascii ',' ∧ c ≠ ascii ']' ∧ c ≠ ascii '}'

/-- The members of a flat object whose first key does not begin with a byte that may follow a
string. -/
structure Record (ms : List (String × Json)) : Prop where
  flat : ∀ m ∈ ms, m.2.depth = 0
  opening : ∃ c l, (object ms).text = ascii '{' :: ascii '"' :: c :: l ∧ isSpace c = false ∧
    c ≠ ascii ':' ∧ c ≠ ascii ',' ∧ c ≠ ascii ']' ∧ c ≠ ascii '}'

/-- What is left of records that were written one behind the other. -/
inductive Shreds : Bytes → Prop
  | nil : Shreds []
  | cons {ms : List (String × Json)} {p rest : Bytes} (hms : Record ms)
      (hp : p <+: (object ms).text) (hne : p ≠ []) (hrest : Shreds rest) : Shreds (p ++ rest)

section Shreds

variable {rest : Bytes}

lemma stray_nil : Stray [] := by
  intro c hc
  cases hc

lemma stray_cons {c : UInt8} (hspace : isSpace c = false)
    (hc : c ≠ ascii ':' ∧ c ≠ ascii ',' ∧ c ≠ ascii ']' ∧ c ≠ ascii '}') (l : Bytes) :
    Stray (c :: l) := by
  intro b hb
  rw [skip, List.dropWhile_cons_of_neg (by simp [hspace])] at hb
  cases hb
  exact hc

lemma Shreds.head (h : Shreds rest) : rest = [] ∨ ∃ r, rest = ascii '{' :: r := by
  cases h with
  | nil => exact .inl rfl
  | cons hms hp hne hrest =>
    obtain ⟨c, l, htext, -⟩ := hms.opening
    rw [htext] at hp
    rcases List.prefix_cons_iff.mp hp with rfl | ⟨t, rfl, -⟩
    · exact absurd rfl hne
    · exact .inr ⟨_, rfl⟩

lemma Shreds.stray (h : Shreds rest) : Stray rest := by
  rcases h.head with rfl | ⟨r, rfl⟩
  · exact stray_nil
  · exact stray_cons rfl (by decide) r

/-- Behind the brace of a shred there are shreds, or a quote and something that does not go on with
a string. -/
lemma Shreds.tail {r : Bytes} (h : Shreds (ascii '{' :: r)) :
    Shreds r ∨ ∃ l, r = ascii '"' :: l ∧ Stray l := by
  generalize heq : ascii '{' :: r = bs at h
  cases h with
  | nil => cases heq
  | @cons ms p rest hms hp hne hrest =>
    obtain ⟨c, l, htext, hspace, hc⟩ := hms.opening
    rw [htext] at hp
    rcases List.prefix_cons_iff.mp hp with rfl | ⟨q, rfl, hq⟩
    · exact absurd rfl hne
    obtain rfl : r = q ++ rest := (List.cons.inj heq).2
    rcases List.prefix_cons_iff.mp hq with rfl | ⟨q', rfl, hq'⟩
    · exact .inl hrest
    rcases List.prefix_cons_iff.mp hq' with rfl | ⟨q'', rfl, -⟩
    · exact .inr ⟨rest, rfl, hrest.stray⟩
    · exact .inr ⟨_, rfl, stray_cons hspace hc _⟩

end Shreds

lemma torn_append {α : Type} {p l m : List α} (h : p <+: l ++ m) :
    p <+: l ∨ ∃ q, p = l ++ q ∧ q <+: m := by
  obtain ⟨t, ht⟩ := h
  rcases List.append_eq_append_iff.mp ht with ⟨q, hl, -⟩ | ⟨q, hp, hm⟩
  · exact .inl ⟨q, hl.symm⟩
  · exact .inr ⟨q, hp, t, hm.symm⟩

section Strings

variable {rest s left : Bytes}

lemma stringBody_shreds (hrest : Shreds rest) (h : stringBody rest = some (s, left)) : Stray left := by
  induction hlen : rest.length using Nat.strong_induction_on generalizing rest s with
  | _ n ih =>
    rcases hrest.head with rfl | ⟨r, rfl⟩
    · cases h
    have hbrace : stringBody (ascii '{' :: r) = prepend [ascii '{'] (stringBody r) := by
      rw [stringBody.eq_def]
      rfl
    rw [hbrace] at h
    obtain ⟨⟨s', left'⟩, hr, heq⟩ := Option.map_eq_some_iff.mp h
    cases heq
    rcases hrest.tail with hr' | ⟨l, rfl, hl⟩
    · exact ih r.length (by simp [← hlen]) hr' hr rfl
    · rw [stringBody.eq_def] at hr
      cases hr
      exact hl

lemma codeUnit_brace {a b c d : UInt8}
    (h : a = ascii '{' ∨ b = ascii '{' ∨ c = ascii '{' ∨ d = ascii '{') : codeUnit a b c d = none := by
  have hbrace : Percent.hexValue (ascii '{') = none := by decide
  unfold codeUnit
  rcases h with rfl | rfl | rfl | rfl
  · rw [hbrace]
    rfl
  · rw [hbrace]
    cases Percent.hexValue a <;> rfl
  · rw [hbrace]
    cases Percent.hexValue a <;> cases Percent.hexValue b <;> rfl
  · rw [hbrace]
    cases Percent.hexValue a <;> cases Percent.hexValue b <;> cases Percent.hexValue c <;> rfl

/-- A `\u` that is not followed by four hex digits. -/
lemma stringBody_badUnit {bs : Bytes}
    (h : ∀ a b c d l, bs = a :: b :: c :: d :: l → codeUnit a b c d = none) :
    stringBody (ascii '\\' :: ascii 'u' :: bs) = none := by
  have hslash : ascii '\\' ≠ ascii '"' := by decide
  rw [stringBody.eq_def]
  simp only [if_neg hslash, if_true]
  split
  · next a b c d l => rw [h a b c d l rfl]
  · rfl

/-- An escape that is cut in the middle. -/
lemma stringBody_tornEscape {b : UInt8} {p : Bytes} (hp : p <+: JsonText.escapeByte b) (hne : p ≠ [])
    (hall : p ≠ JsonText.escapeByte b) (hrest : Shreds rest) : stringBody (p ++ rest) = none := by
  have hslash : stringBody (ascii '\\' :: rest) = none := by
    rcases hrest.head with rfl | ⟨r, rfl⟩
    · rfl
    · rw [stringBody.eq_def]
      rfl
  have hunit : ∀ q : Bytes, q.length < 4 →
      stringBody (ascii '\\' :: ascii 'u' :: (q ++ rest)) = none := by
    intro q hq
    apply stringBody_badUnit
    intro a b c d l hl
    rcases hrest.head with rfl | ⟨r, rfl⟩
    · have hlen := congrArg List.length hl
      simp only [List.append_nil, List.length_cons] at hlen
      omega
    · apply codeUnit_brace
      -- The first byte of the shred stands behind the digits that are there.
      rcases q with _ | ⟨_, _ | ⟨_, _ | ⟨_, _ | ⟨_, q⟩⟩⟩⟩
      · exact .inl (List.cons.inj hl).1.symm
      · cases hl
        exact .inr (.inl rfl)
      · cases hl
        exact .inr (.inr (.inl rfl))
      · cases hl
        exact .inr (.inr (.inr rfl))
      · simp only [List.length_cons] at hq
        omega
  have hletter : ∀ c, p <+: [ascii '\\', c] → p ≠ [ascii '\\', c] →
      stringBody (p ++ rest) = none := by
    intro c hp hall
    rcases List.prefix_cons_iff.mp hp with rfl | ⟨q, rfl, hq⟩
    · exact absurd rfl hne
    rcases List.prefix_cons_iff.mp hq with rfl | ⟨q', rfl, hq'⟩
    · exact hslash
    · rw [List.prefix_nil.mp hq'] at hall
      exact absurd rfl hall
  unfold JsonText.escapeByte at hp hall
  split_ifs at hp hall
  · exact hletter _ hp hall
  · exact hletter _ hp hall
  · exact hletter _ hp hall
  · exact hletter _ hp hall
  · exact hletter _ hp hall
  · exact hletter _ hp hall
  · rcases List.prefix_cons_iff.mp hp with rfl | ⟨q, rfl, hq⟩
    · exact absurd rfl hne
    rcases List.prefix_cons_iff.mp hq with rfl | ⟨q', rfl, hq'⟩
    · exact hslash
    · refine hunit q' ?_
      by_contra hlen
      have heq := hq'.eq_of_length_le (by simpa using Nat.le_of_not_lt hlen)
      exact hall (by rw [heq])
  · rcases List.prefix_cons_iff.mp hp with rfl | ⟨q, rfl, hq⟩
    · exact absurd rfl hne
    · rw [List.prefix_nil.mp hq] at hall
      exact absurd rfl hall

/-- A string of which only the beginning is there ends in a shred, if it ends at all. -/
lemma stringBody_torn (bs : Bytes) {p : Bytes}
    (hp : p <+: bs.flatMap JsonText.escapeByte ++ [ascii '"']) (hrest : Shreds rest)
    (h : stringBody (p ++ rest) = some (s, left)) : Stray left := by
  induction bs generalizing p s with
  | nil =>
    rcases List.prefix_cons_iff.mp hp with rfl | ⟨q, rfl, hq⟩
    · exact stringBody_shreds hrest h
    · rw [List.prefix_nil.mp hq, stringBody.eq_def] at h
      cases h
      exact hrest.stray
  | cons b bs ih =>
    rw [List.flatMap_cons, List.append_assoc] at hp
    rcases torn_append hp with hp | ⟨q, rfl, hq⟩
    · by_cases hne : p = []
      · subst hne
        exact stringBody_shreds hrest h
      by_cases hall : p = JsonText.escapeByte b
      · subst hall
        rw [stringBody_escapeByte] at h
        obtain ⟨⟨s', left'⟩, hr, heq⟩ := Option.map_eq_some_iff.mp h
        cases heq
        exact stringBody_shreds hrest hr
      · rw [stringBody_tornEscape hp hne hall hrest] at h
        cases h
    · rw [List.append_assoc, stringBody_escapeByte] at h
      obtain ⟨⟨s', left'⟩, hr, heq⟩ := Option.map_eq_some_iff.mp h
      cases heq
      exact ih hq hr

lemma readString_torn (key : String) {p : Bytes} {k : String}
    (hp : p <+: (Utf8.encode key).flatMap JsonText.escapeByte ++ [ascii '"']) (hrest : Shreds rest)
    (h : readString (p ++ rest) = some (k, left)) : Stray left := by
  unfold readString at h
  split at h
  · cases h
  · next s left' hs =>
    obtain ⟨k', -, heq⟩ := Option.map_eq_some_iff.mp h
    cases heq
    exact stringBody_torn _ hp hrest hs

end Strings

section Containers

variable {β : Type} {item : Bytes → Option (β × Bytes)} {close : UInt8} {f : β → Bytes}
  {rest left : Bytes}

/-- Of `b`, however much of it is there, `item` leaves something stray. -/
def Torn (item : Bytes → Option (β × Bytes)) (f : β → Bytes) (b : β) : Prop :=
  ∀ p rest, p <+: f b → Shreds rest → ∀ x left, item (p ++ rest) = some (x, left) → Stray left

lemma items_stray (hclose : close = ascii ']' ∨ close = ascii '}') {bs : Bytes}
    (h : ∀ x left, item bs = some (x, left) → Stray left) (n : ℕ) : items item close n bs = none := by
  cases n with
  | zero => rfl
  | succ n =>
    rw [items]
    split
    · rfl
    · next x left hx =>
      have hstray := h x left hx
      split
      · rfl
      · next c l hc =>
        obtain ⟨-, hcomma, hbracket, hbrace⟩ := hstray c (by rw [hc]; rfl)
        have hother : c ≠ close := by rcases hclose with rfl | rfl <;> assumption
        rw [if_neg hother, if_neg hcomma]

/-- Torn items are no items: only if all of them are there, with the closing byte, are they read. -/
lemma items_torn (hclose : close = ascii ']' ∨ close = ascii '}') {bs : List β} (hne : bs ≠ [])
    (hreads : ∀ b ∈ bs, Reads item f b) (htorn : ∀ b ∈ bs, Torn item f b) (hrest : Shreds rest)
    {n : ℕ} {p : Bytes} (hp : p <+: sep close (bs.map f)) {xs : List β}
    (h : items item close n (p ++ rest) = some (xs, left)) :
    p = sep close (bs.map f) ∧ left = rest := by
  induction bs generalizing n p xs with
  | nil => exact absurd rfl hne
  | cons b bs ih =>
    obtain ⟨hb, hreads⟩ := List.forall_mem_cons.mp hreads
    obtain ⟨htornb, htorn⟩ := List.forall_mem_cons.mp htorn
    have hfirst : ¬p <+: f b := by
      intro hpb
      rw [items_stray hclose (fun x left hx => htornb p rest hpb hrest x left hx)] at h
      cases h
    obtain ⟨n, rfl⟩ : ∃ m, n = m + 1 := by
      cases n with
      | zero => cases h
      | succ n => exact ⟨n, rfl⟩
    cases bs with
    | nil =>
      rcases torn_append (l := f b) (m := [close]) hp with hpb | ⟨q, rfl, hq⟩
      · exact absurd hpb hfirst
      rcases List.prefix_cons_iff.mp hq with rfl | ⟨q', rfl, hq'⟩
      · exact absurd (by rw [List.append_nil]) hfirst
      · obtain rfl := List.prefix_nil.mp hq'
        have hitem := hb (close :: rest) (ends_close hclose rest)
        rw [List.append_assoc, List.singleton_append, items, hitem] at h
        simp only [skip_close hclose, if_true, Option.some.injEq, Prod.mk.injEq] at h
        exact ⟨rfl, h.2.symm⟩
    | cons b' bs =>
      rw [List.map_cons, List.map_cons, sep_cons_cons] at hp ⊢
      rcases torn_append hp with hpb | ⟨q, rfl, hq⟩
      · exact absurd hpb hfirst
      rcases List.prefix_cons_iff.mp hq with rfl | ⟨q', rfl, hq'⟩
      · exact absurd (by rw [List.append_nil]) hfirst
      · have hitem := hb (ascii ',' :: (q' ++ rest)) (ends_comma _)
        have hcomma : ascii ',' ≠ close := by rcases hclose with rfl | rfl <;> decide
        rw [List.append_assoc, List.cons_append, items, hitem] at h
        simp only [skip_comma, if_neg hcomma, if_true] at h
        obtain ⟨⟨ys, left'⟩, hys, heq⟩ := Option.map_eq_some_iff.mp h
        cases heq
        obtain ⟨rfl, rfl⟩ := ih (by simp) hreads htorn hq' hys
        exact ⟨rfl, rfl⟩

/-- A torn container that has begun is no container. -/
lemma container_torn (hclose : close = ascii ']' ∨ close = ascii '}') {bs : List β} (hne : bs ≠ [])
    (hreads : ∀ b ∈ bs, Reads item f b) (htorn : ∀ b ∈ bs, Torn item f b)
    (hhead : ∀ b ∈ bs, ∃ c l, f b = c :: l ∧ isSpace c = false ∧ c ≠ close) (hrest : Shreds rest)
    {p : Bytes} (hp : p <+: sep close (bs.map f)) {xs : List β}
    (h : container item close (p ++ rest) = some (xs, left)) :
    p = sep close (bs.map f) ∧ left = rest := by
  have hbegin : ∀ c l, p ++ rest = c :: l → isSpace c = false ∧ c ≠ close := by
    intro c l hcons
    cases p with
    | nil =>
      rcases hrest.head with rfl | ⟨r, rfl⟩
      · cases hcons
      · cases hcons
        exact ⟨rfl, by rcases hclose with rfl | rfl <;> decide⟩
    | cons b p =>
      cases hcons
      obtain ⟨x, xs, rfl⟩ := List.exists_cons_of_ne_nil hne
      obtain ⟨c', l', hf, hc'⟩ := hhead x List.mem_cons_self
      have hsep : ∃ l, sep close ((x :: xs).map f) = c' :: l := by
        cases xs with
        | nil => exact ⟨_, by rw [List.map_cons, List.map_nil, sep, hf, List.cons_append]⟩
        | cons y ys => exact ⟨_, by rw [List.map_cons, List.map_cons, sep_cons_cons, hf,
            List.cons_append]⟩
      obtain ⟨l, hl⟩ := hsep
      rw [hl] at hp
      obtain rfl := (List.cons_prefix_cons.mp hp).1
      exact hc'
  unfold container at h
  split at h
  · cases h
  · next c l hskip =>
    have hcons : p ++ rest = c :: l := by
      cases hpr : p ++ rest with
      | nil =>
        rw [hpr] at hskip
        cases hskip
      | cons b bs =>
        rw [hpr, skip, List.dropWhile_cons_of_neg (by simp [(hbegin b bs hpr).1])] at hskip
        exact hskip
    rw [if_neg (hbegin c l hcons).2] at h
    exact items_torn hclose hne hreads htorn hrest hp h

end Containers

section Values

variable {rest left : Bytes} {d : ℕ} {v w : Json} {p : Bytes}

lemma word_torn {s : String} (hbrace : ascii '{' ∉ Utf8.encode s) (hp : p <+: Utf8.encode s)
    (hrest : Shreds rest) (h : word s v (p ++ rest) = some (w, left)) : Stray left := by
  unfold word at h
  split at h
  · next hword =>
    cases h
    obtain ⟨q, hq⟩ := hp
    rw [← hq] at hword hbrace ⊢
    cases q with
    | nil =>
      rw [List.append_nil, List.drop_left]
      exact hrest.stray
    | cons c q =>
      obtain ⟨t, ht⟩ := (List.prefix_append_right_inj p).mp hword
      rcases hrest.head with rfl | ⟨r, rfl⟩
      · cases ht
      · obtain rfl := (List.cons.inj ht).1
        exact absurd (List.mem_append_right p List.mem_cons_self) hbrace
  · cases h

lemma value_digit {b : UInt8} (hb : isDigit b = true) (l : Bytes) :
    value d (b :: l) = (natural (b :: l)).map fun (n, rest) => (.number n, rest) := by
  have hskip : skip (b :: l) = b :: l := List.dropWhile_cons_of_neg (by simp [digit_space hb])
  rw [value.eq_def, hskip]
  simp only [if_neg (digit_ne hb (c := ascii '"') rfl), if_neg (digit_ne hb (c := ascii '[') rfl),
    if_neg (digit_ne hb (c := ascii '{') rfl), if_neg (digit_ne hb (c := ascii 'n') rfl),
    if_neg (digit_ne hb (c := ascii 't') rfl), if_neg (digit_ne hb (c := ascii 'f') rfl),
    if_neg (digit_ne hb (c := ascii '-') rfl)]

lemma naturalText_digits (n : ℕ) : ∀ b ∈ naturalText n, isDigit b = true := by
  intro b hb
  unfold naturalText at hb
  split at hb
  · rw [List.mem_singleton.mp hb]
    rfl
  · obtain ⟨d, hd, rfl⟩ := List.mem_map.mp hb
    exact (digitChar_digit d (Nat.digits_lt_base (by decide) (List.mem_reverse.mp hd))).1

lemma natural_torn {n m : ℕ} (hp : p <+: naturalText n) (hrest : Shreds rest)
    (h : natural (p ++ rest) = some (m, left)) : Stray left := by
  have hdigits : ∀ b ∈ p, isDigit b = true := fun b hb => naturalText_digits n b (hp.subset hb)
  have hdrop : rest.dropWhile isDigit = rest := by
    rcases hrest.head with rfl | ⟨r, rfl⟩ <;> rfl
  unfold natural at h
  simp only [List.dropWhile_append_of_pos hdigits, hdrop] at h
  split at h
  · cases h
  · cases h
    exact hrest.stray

/-- A scalar of which only the beginning is there. -/
lemma scalar_torn (hd : ∀ rest, Shreds rest → ∀ x left, value d rest = some (x, left) → Stray left)
    (hv : v.depth = 0) : Torn (value d) text v := by
  intro p rest hp hrest x left h
  rcases List.eq_nil_or_concat p with rfl | hsome
  · exact hd rest hrest x left h
  replace hsome : p ≠ [] := by
    obtain ⟨l, b, rfl⟩ := hsome
    simp
  obtain ⟨b, q, rfl⟩ := List.exists_cons_of_ne_nil hsome
  have hcases : ∀ {c : UInt8} {l : Bytes}, v.text = c :: l → b = c ∧ q <+: l := by
    intro c l hl
    rw [hl] at hp
    exact List.cons_prefix_cons.mp hp
  cases v with
  | null =>
    obtain rfl : b = ascii 'n' := (hcases rfl).1
    have hread : value d ((ascii 'n' :: q) ++ rest) = word "null" .null ((ascii 'n' :: q) ++ rest) := by
      rw [value.eq_def]
      rfl
    rw [hread] at h
    exact word_torn (by decide) hp hrest h
  | bool v =>
    cases v with
    | true =>
      obtain rfl : b = ascii 't' := (hcases rfl).1
      have hread : value d ((ascii 't' :: q) ++ rest) =
          word "true" (.bool true) ((ascii 't' :: q) ++ rest) := by
        rw [value.eq_def]
        rfl
      rw [hread] at h
      exact word_torn (by decide) hp hrest h
    | false =>
      obtain rfl : b = ascii 'f' := (hcases rfl).1
      have hread : value d ((ascii 'f' :: q) ++ rest) =
          word "false" (.bool false) ((ascii 'f' :: q) ++ rest) := by
        rw [value.eq_def]
        rfl
      rw [hread] at h
      exact word_torn (by decide) hp hrest h
  | number n =>
    cases n with
    | ofNat n =>
      have hb : isDigit b = true := naturalText_digits n b (hp.subset List.mem_cons_self)
      rw [List.cons_append, value_digit hb] at h
      obtain ⟨⟨m, left'⟩, hm, heq⟩ := Option.map_eq_some_iff.mp h
      cases heq
      exact natural_torn hp hrest hm
    | negSucc n =>
      obtain ⟨rfl, hq⟩ := hcases rfl
      have hread : value d ((ascii '-' :: q) ++ rest) =
          (natural (q ++ rest)).map fun x => (.number (-x.1), x.2) := by
        rw [value.eq_def]
        rfl
      rw [hread] at h
      obtain ⟨⟨m, left'⟩, hm, heq⟩ := Option.map_eq_some_iff.mp h
      cases heq
      exact natural_torn hq hrest hm
  | string s =>
    obtain ⟨rfl, hq⟩ := hcases rfl
    have hread : value d ((ascii '"' :: q) ++ rest) =
        (readString (q ++ rest)).map fun x => (.string x.1, x.2) := by
      rw [value.eq_def]
      rfl
    rw [hread] at h
    obtain ⟨⟨k, left'⟩, hk, heq⟩ := Option.map_eq_some_iff.mp h
    cases heq
    exact readString_torn s hq hrest hk
  | array vs => exact absurd hv (Nat.succ_ne_zero _)
  | object ms => exact absurd hv (Nat.succ_ne_zero _)

lemma member_torn {m : String × Json} (hm : Torn (value d) text m.2) :
    Torn (member (value d)) memberText m := by
  intro p rest hp hrest x left h
  have hnone : ∀ {bs : Bytes}, (∀ k l, readString bs = some (k, l) → Stray l) →
      member (value d) (ascii '"' :: bs) = none := by
    intro bs hbs
    have hskip : skip (ascii '"' :: bs) = ascii '"' :: bs := rfl
    rw [member, hskip]
    simp only [if_true]
    split
    · rfl
    · next k l hk =>
      split
      · rfl
      · next c l' hc =>
        rw [if_neg (hbs k l hk c (by rw [hc]; rfl)).1]
  rcases torn_append (l := JsonText.string m.1) (m := ascii ':' :: m.2.text) hp with hp | ⟨q, rfl, hq⟩
  · rcases List.prefix_cons_iff.mp hp with rfl | ⟨q, rfl, hq⟩
    · rcases hrest.head with rfl | ⟨r, rfl⟩ <;> cases h
    · rw [List.cons_append, hnone fun k l hk => readString_torn m.1 hq hrest hk] at h
      cases h
  · rcases List.prefix_cons_iff.mp hq with rfl | ⟨q', rfl, hq'⟩
    · rw [List.append_nil, JsonText.string, List.cons_append,
        hnone fun k l hk => readString_torn m.1 (List.prefix_refl _) hrest hk] at h
      cases h
    · obtain ⟨bs, hbs, hread⟩ := readString_text m.1 (ascii ':' :: (q' ++ rest))
      have hquote : skip (ascii '"' :: bs) = ascii '"' :: bs := rfl
      have hcolon : skip (ascii ':' :: (q' ++ rest)) = ascii ':' :: (q' ++ rest) := rfl
      rw [List.append_assoc, List.cons_append, hbs, member, hquote] at h
      simp only [if_true, hread, hcolon] at h
      obtain ⟨⟨y, left'⟩, hy, heq⟩ := Option.map_eq_some_iff.mp h
      cases heq
      exact hm q' rest hq' hrest y left' hy

lemma record_ne_nil {ms : List (String × Json)} (hms : Record ms) : ms ≠ [] := by
  rintro rfl
  obtain ⟨c, l, htext, -⟩ := hms.opening
  cases htext

/-- A record that has begun is read only if all of it is there. -/
lemma record_torn {ms : List (String × Json)} (hms : Record ms)
    (hd : ∀ rest, Shreds rest → ∀ x left, value d rest = some (x, left) → Stray left)
    (hp : p <+: (object ms).text) (hne : p ≠ []) (hrest : Shreds rest)
    (h : value (d + 1) (p ++ rest) = some (v, left)) : p = (object ms).text ∧ left = rest := by
  rw [text, memberTexts_eq_map] at hp ⊢
  rcases List.prefix_cons_iff.mp hp with rfl | ⟨q, rfl, hq⟩
  · exact absurd rfl hne
  have hread : value (d + 1) ((ascii '{' :: q) ++ rest) =
      (container (member (value d)) (ascii '}') (q ++ rest)).map fun x => (.object x.1, x.2) := by
    rw [value.eq_def]
    rfl
  rw [hread] at h
  obtain ⟨⟨xs, left'⟩, hxs, heq⟩ := Option.map_eq_some_iff.mp h
  cases heq
  obtain ⟨rfl, rfl⟩ := container_torn (.inr rfl) (record_ne_nil hms)
    (fun m hm => member_text (value_text m.2 (by rw [hms.flat m hm]; exact Nat.zero_le d)))
    (fun m hm => member_torn (scalar_torn hd (hms.flat m hm)))
    (fun m _ => ⟨_, _, rfl, by decide⟩) hrest hq hxs
  exact ⟨rfl, rfl⟩

/-- What is read of shreds ends where a shred begins. -/
lemma value_shreds (d : ℕ) : ∀ rest, Shreds rest → ∀ x left, value d rest = some (x, left) →
    Stray left := by
  induction d with
  | zero =>
    intro rest hrest x left h
    rcases hrest.head with rfl | ⟨r, rfl⟩
    · cases h
    · rw [value.eq_def] at h
      cases h
  | succ d ih =>
    intro rest hrest x left h
    cases hrest with
    | nil =>
      rw [value.eq_def] at h
      cases h
    | cons hms hp hne hrest =>
      obtain ⟨-, rfl⟩ := record_torn hms ih hp hne hrest h
      exact hrest.stray

/-- Shreds are read as a value only if they are one whole record. -/
theorem parse_shreds {ms : List (String × Json)} (hms : Record ms) (hp : p <+: (object ms).text)
    (hne : p ≠ []) (hrest : Shreds rest) (h : parse (p ++ rest) = some v) :
    p = (object ms).text ∧ rest = [] := by
  unfold parse at h
  split at h
  · cases h
  · next w left hw =>
    obtain ⟨hall, rfl⟩ := record_torn hms (value_shreds 126) hp hne hrest hw
    refine ⟨hall, ?_⟩
    split at h
    · next hskip =>
      rcases hrest.head with rfl | ⟨r, rfl⟩
      · rfl
      · cases hskip
    · cases h

end Values

end Json
