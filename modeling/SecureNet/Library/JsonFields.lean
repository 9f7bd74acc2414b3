import Mathlib.Data.String.Basic
import SecureNet.Library.Json

/-!
# Reading structs from JSON

What a derived `Deserialize` takes from a value, and what an untyped value keeps of one: it holds
the members of its objects in a sorted map, the last of a repeated key. A struct is read from the
untyped value as from the one that it came from.
-/

namespace Json

open Hex (Bytes)

section Map

variable {β γ : Type}

/-- `BTreeMap::insert` on the sorted list of the entries. -/
def insertKey (key : String) (v : β) : List (String × β) → List (String × β)
  | [] => [(key, v)]
  | (k, w) :: ms =>
    if key < k then (key, v) :: (k, w) :: ms
    else if key = k then (key, v) :: ms
    else (k, w) :: insertKey key v ms

/-- The map that takes the entries one after the other. -/
def sortedMap (ms : List (String × β)) : List (String × β) :=
  ms.foldl (fun map m => insertKey m.1 m.2 map) []

lemma sortedMap_concat (ms : List (String × β)) (m : String × β) :
    sortedMap (ms ++ [m]) = insertKey m.1 m.2 (sortedMap ms) := by
  rw [sortedMap, List.foldl_append]
  rfl

lemma lookup_cons_ite (key name : String) (v : β) (ms : List (String × β)) :
    ((key, v) :: ms).lookup name = if name = key then some v else ms.lookup name := by
  rw [List.lookup_cons]
  by_cases h : name = key
  · rw [if_pos h, h, beq_self_eq_true]
  · rw [if_neg h, beq_eq_false_iff_ne.mpr h]

lemma lookup_insertKey (key name : String) (v : β) (ms : List (String × β)) :
    (insertKey key v ms).lookup name = if name = key then some v else ms.lookup name := by
  induction ms with
  | nil => exact lookup_cons_ite key name v []
  | cons m ms ih =>
    obtain ⟨k, w⟩ := m
    rw [insertKey]
    split
    · exact lookup_cons_ite key name v _
    split
    · next heq =>
      rw [heq, lookup_cons_ite, lookup_cons_ite]
      by_cases h : name = k
      · rw [if_pos h, if_pos h]
      · rw [if_neg h, if_neg h, if_neg h]
    · next hne =>
      rw [lookup_cons_ite, lookup_cons_ite, ih]
      by_cases h : name = k
      · rw [if_pos h, if_pos h, if_neg (fun hk => hne (hk.symm.trans h))]
      · rw [if_neg h, if_neg h]

lemma mem_insertKey {key k : String} {v : β} {ms : List (String × β)}
    (h : k ∈ (insertKey key v ms).map Prod.fst) : k = key ∨ k ∈ ms.map Prod.fst := by
  induction ms with
  | nil => simpa [insertKey] using h
  | cons m ms ih =>
    obtain ⟨k', w⟩ := m
    rw [insertKey] at h
    split at h
    · simpa using h
    split at h
    · next heq =>
      subst heq
      simp only [List.map_cons, List.mem_cons] at h ⊢
      tauto
    · simp only [List.map_cons, List.mem_cons] at h ⊢
      rcases h with h | h
      · exact .inr (.inl h)
      · rcases ih h with h | h
        · exact .inl h
        · exact .inr (.inr h)

lemma sorted_insertKey {key : String} {v : β} {ms : List (String × β)}
    (h : (ms.map Prod.fst).Pairwise (· < ·)) : ((insertKey key v ms).map Prod.fst).Pairwise (· < ·) := by
  induction ms with
  | nil => simp [insertKey]
  | cons m ms ih =>
    obtain ⟨k, w⟩ := m
    rw [List.map_cons, List.pairwise_cons] at h
    obtain ⟨hk, hms⟩ := h
    rw [insertKey]
    split
    · next hlt =>
      rw [List.map_cons, List.pairwise_cons]
      refine ⟨?_, by rw [List.map_cons, List.pairwise_cons]; exact ⟨hk, hms⟩⟩
      intro k' hk'
      rcases List.mem_cons.mp hk' with rfl | hk'
      · exact hlt
      · exact lt_trans hlt (hk k' hk')
    split
    · next heq =>
      subst heq
      rw [List.map_cons, List.pairwise_cons]
      exact ⟨hk, hms⟩
    · next hnlt hne =>
      rw [List.map_cons, List.pairwise_cons]
      refine ⟨?_, ih hms⟩
      intro k' hk'
      rcases mem_insertKey hk' with rfl | hk'
      · exact lt_of_le_of_ne (not_lt.mp hnlt) (Ne.symm hne)
      · exact hk k' hk'

lemma sorted_sortedMap (ms : List (String × β)) :
    ((sortedMap ms).map Prod.fst).Pairwise (· < ·) := by
  induction ms using List.reverseRecOn with
  | nil => exact .nil
  | append_singleton ms m ih =>
    rw [sortedMap_concat]
    exact sorted_insertKey ih

/-- The last entry of a repeated key is the one that stays. -/
lemma lookup_sortedMap (ms : List (String × β)) (name : String) :
    (sortedMap ms).lookup name = ms.reverse.lookup name := by
  induction ms using List.reverseRecOn with
  | nil => rfl
  | append_singleton ms m ih =>
    rw [sortedMap_concat, lookup_insertKey, List.reverse_append, List.reverse_singleton,
      List.singleton_append, lookup_cons_ite, ih]

lemma lookup_eq_some_iff {ms : List (String × β)} (hnodup : (ms.map Prod.fst).Nodup) {name : String}
    {v : β} : ms.lookup name = some v ↔ (name, v) ∈ ms := by
  induction ms with
  | nil => simp
  | cons m ms ih =>
    obtain ⟨key, w⟩ := m
    rw [List.map_cons, List.nodup_cons] at hnodup
    obtain ⟨hhead, htail⟩ := hnodup
    rw [lookup_cons_ite, List.mem_cons, Prod.mk.injEq]
    by_cases h : name = key
    · rw [if_pos h, Option.some.injEq]
      constructor
      · intro heq
        exact .inl ⟨h, heq.symm⟩
      · rintro (⟨-, heq⟩ | hmem)
        · exact heq.symm
        · rw [h] at hmem
          exact absurd (List.mem_map_of_mem (f := Prod.fst) hmem) hhead
    · rw [if_neg h, ih htail]
      constructor
      · exact .inr
      · rintro (⟨heq, -⟩ | hmem)
        · exact absurd heq h
        · exact hmem

lemma lookup_reverse {ms : List (String × β)} (hnodup : (ms.map Prod.fst).Nodup) (name : String) :
    ms.reverse.lookup name = ms.lookup name := by
  have hreverse : (ms.reverse.map Prod.fst).Nodup := by
    rw [List.map_reverse, List.nodup_reverse]
    exact hnodup
  apply Option.ext
  intro v
  rw [lookup_eq_some_iff hreverse, lookup_eq_some_iff hnodup, List.mem_reverse]

lemma lookup_map (g : β → γ) (ms : List (String × β)) (name : String) :
    (ms.map (fun m => (m.1, g m.2))).lookup name = (ms.lookup name).map g := by
  induction ms with
  | nil => rfl
  | cons m ms ih =>
    rw [List.map_cons, List.lookup_cons, List.lookup_cons, ih]
    cases name == m.1 <;> rfl

lemma insertKey_map (g : β → γ) (key : String) (v : β) (ms : List (String × β)) :
    insertKey key (g v) (ms.map (fun m => (m.1, g m.2))) =
      (insertKey key v ms).map (fun m => (m.1, g m.2)) := by
  induction ms with
  | nil => rfl
  | cons m ms ih =>
    simp only [insertKey, List.map_cons, ih]
    split
    · rfl
    split <;> rfl

lemma sortedMap_map (g : β → γ) (ms : List (String × β)) :
    sortedMap (ms.map (fun m => (m.1, g m.2))) = (sortedMap ms).map (fun m => (m.1, g m.2)) := by
  induction ms using List.reverseRecOn with
  | nil => rfl
  | append_singleton ms m ih =>
    rw [List.map_append, List.map_singleton, sortedMap_concat, sortedMap_concat, ih]
    exact insertKey_map g m.1 m.2 _

lemma insertKey_last {key : String} {v : β} {ms : List (String × β)}
    (h : ∀ k ∈ ms.map Prod.fst, k < key) : insertKey key v ms = ms ++ [(key, v)] := by
  induction ms with
  | nil => rfl
  | cons m ms ih =>
    obtain ⟨k, w⟩ := m
    rw [List.map_cons, List.forall_mem_cons] at h
    obtain ⟨hk, hms⟩ := h
    rw [insertKey, if_neg (lt_asymm hk), if_neg (ne_of_gt hk), ih hms, List.cons_append]

lemma sortedMap_of_sorted {ms : List (String × β)} (h : (ms.map Prod.fst).Pairwise (· < ·)) :
    sortedMap ms = ms := by
  induction ms using List.reverseRecOn with
  | nil => rfl
  | append_singleton ms m ih =>
    rw [List.map_append, List.map_singleton, List.pairwise_append] at h
    obtain ⟨hms, -, hlast⟩ := h
    rw [sortedMap_concat, ih hms,
      insertKey_last (fun k hk => hlast k hk m.1 (List.mem_singleton_self _))]

lemma lookup_zip {names : List String} (hnodup : names.Nodup) {vs : List β}
    (hlen : vs.length = names.length) :
    names.map (fun name => (names.zip vs).lookup name) = vs.map some := by
  have hkeys : ((names.zip vs).map Prod.fst).Nodup := by
    rw [List.map_fst_zip (by omega)]
    exact hnodup
  apply List.ext_getElem
  · simp [hlen]
  · intro i hi hi'
    rw [List.getElem_map, List.getElem_map, lookup_eq_some_iff hkeys]
    exact List.mem_iff_getElem.mpr ⟨i, by simp at hi hi' ⊢; omega, List.getElem_zip⟩

end Map

/-- The values of the fields of a struct. An object may have other members, and may lack a field,
but it has none of them twice; an array has exactly their number. -/
def fields (names : List String) : Json → Option (List (Option Json))
  | .object ms =>
    if names.all (fun name => decide ((ms.map Prod.fst).count name ≤ 1)) then
      some (names.map (fun name => ms.lookup name))
    else none
  | .array vs => if vs.length = names.length then some (vs.map some) else none
  | _ => none

def asString : Json → Option String
  | .string s => some s
  | _ => none

def asBool : Json → Option Bool
  | .bool b => some b
  | _ => none

def asInteger : Json → Option ℤ
  | .number n => some n
  | _ => none

/-- A field that may be absent or null. -/
def optional {α : Type} (read : Json → Option α) : Option Json → Option (Option α)
  | none => some none
  | some .null => some none
  | some v => (read v).map some

lemma fields_object {names : List String} {ms : List (String × Json)}
    (hnodup : (ms.map Prod.fst).Nodup) :
    fields names (.object ms) = some (names.map (fun name => ms.lookup name)) := by
  rw [fields, if_pos]
  rw [List.all_eq_true]
  intro name _
  exact decide_eq_true (List.nodup_iff_count_le_one.mp hnodup name)

/-- A struct is read from what its derived `Serialize` writes. -/
lemma fields_zip {names : List String} (hnodup : names.Nodup) {vs : List Json}
    (hlen : vs.length = names.length) :
    fields names (.object (names.zip vs)) = some (vs.map some) := by
  rw [fields_object (by rwa [List.map_fst_zip (by omega)]), lookup_zip hnodup hlen]

section Untyped

mutual

/-- What is printed of the untyped value that is read from a text. -/
def untyped : Json → Json
  | .array vs => .array (untypedAll vs)
  | .object ms => .object (sortedMap (untypedMembers ms))
  | v => v

def untypedAll : List Json → List Json
  | [] => []
  | v :: vs => v.untyped :: untypedAll vs

def untypedMembers : List (String × Json) → List (String × Json)
  | [] => []
  | (key, v) :: ms => (key, v.untyped) :: untypedMembers ms

end

lemma untypedAll_eq_map (vs : List Json) : untypedAll vs = vs.map untyped := by
  induction vs with
  | nil => rfl
  | cons v vs ih => rw [untypedAll, ih, List.map_cons]

lemma untypedMembers_eq_map (ms : List (String × Json)) :
    untypedMembers ms = ms.map (fun m => (m.1, m.2.untyped)) := by
  induction ms with
  | nil => rfl
  | cons m ms ih => rw [untypedMembers, ih, List.map_cons]

/-- The order of the members does not matter to a struct. -/
theorem fields_untyped {names : List String} {ms : List (String × Json)}
    (hnodup : (ms.map Prod.fst).Nodup) : fields names (Json.object ms).untyped =
      (fields names (.object ms)).map (List.map (Option.map untyped)) := by
  have hkeys : ((untypedMembers ms).map Prod.fst).Nodup := by
    rw [untypedMembers_eq_map, List.map_map]
    exact hnodup
  have hsorted : ((sortedMap (untypedMembers ms)).map Prod.fst).Nodup :=
    (sorted_sortedMap _).imp (fun h => ne_of_lt h)
  rw [untyped, fields_object hsorted, fields_object hnodup, Option.map_some, List.map_map]
  congr 1
  apply List.map_congr_left
  intro name _
  rw [lookup_sortedMap, lookup_reverse hkeys, untypedMembers_eq_map, lookup_map]
  rfl

lemma fields_zip_untyped {names : List String} (hnodup : names.Nodup) {vs : List Json}
    (hlen : vs.length = names.length) :
    fields names (Json.object (names.zip vs)).untyped = some (vs.map (fun v => some v.untyped)) := by
  rw [fields_untyped (by rwa [List.map_fst_zip (by omega)]), fields_zip hnodup hlen, Option.map_some,
    List.map_map]
  rfl

end Untyped

/-- How a type is written and read. What is written of a valid value is read back, also when it has
passed through an untyped value. -/
structure Format (α : Type) where
  serialize : α → Json
  deserialize : Json → Option α
  Valid : α → Prop
  shallow : ∀ a, (serialize a).depth ≤ 127
  deserialize_serialize : ∀ {a}, Valid a → deserialize (serialize a) = some a
  deserialize_untyped : ∀ {a}, Valid a → deserialize (serialize a).untyped = some a

namespace Format

variable {α : Type} (format : Format α)

def toVec (a : α) : Bytes := (format.serialize a).text

def fromSlice (bs : Bytes) : Option α := (parse bs).bind format.deserialize

variable {format}

theorem fromSlice_toVec {a : α} (ha : format.Valid a) : format.fromSlice (format.toVec a) = some a := by
  rw [fromSlice, toVec, parse_text (format.shallow a), Option.bind_some,
    format.deserialize_serialize ha]

end Format

section Depth

lemma depths_le {vs : List Json} {d : ℕ} : depths vs ≤ d ↔ ∀ v ∈ vs, v.depth ≤ d := by
  induction vs with
  | nil => simp [depths]
  | cons v vs ih => rw [depths, Nat.max_le, ih, List.forall_mem_cons]

lemma memberDepths_le {ms : List (String × Json)} {d : ℕ} :
    memberDepths ms ≤ d ↔ ∀ m ∈ ms, m.2.depth ≤ d := by
  induction ms with
  | nil => simp [memberDepths]
  | cons m ms ih => rw [memberDepths, Nat.max_le, ih, List.forall_mem_cons]

lemma mem_insertKey_value {β : Type} {key : String} {v : β} {ms : List (String × β)} {m : String × β}
    (h : m ∈ insertKey key v ms) : m = (key, v) ∨ m ∈ ms := by
  induction ms with
  | nil => exact .inl (List.mem_singleton.mp h)
  | cons m' ms ih =>
    obtain ⟨k, w⟩ := m'
    rw [insertKey] at h
    split at h
    · exact List.mem_cons.mp h
    split at h
    · rcases List.mem_cons.mp h with h | h
      · exact .inl h
      · exact .inr (List.mem_cons_of_mem _ h)
    · rcases List.mem_cons.mp h with h | h
      · exact .inr (h ▸ List.mem_cons_self)
      · rcases ih h with h | h
        · exact .inl h
        · exact .inr (List.mem_cons_of_mem _ h)

lemma mem_sortedMap {β : Type} {ms : List (String × β)} {m : String × β} (h : m ∈ sortedMap ms) :
    m ∈ ms := by
  induction ms using List.reverseRecOn with
  | nil => exact h
  | append_singleton ms m' ih =>
    rw [sortedMap_concat] at h
    rcases mem_insertKey_value h with h | h
    · rw [h]
      exact List.mem_append_right _ (List.mem_singleton_self _)
    · exact List.mem_append_left _ (ih h)

mutual

/-- An untyped value is nested no deeper than what it was read from. -/
theorem depth_untyped : ∀ v : Json, v.untyped.depth ≤ v.depth
  | .null => Nat.le_refl _
  | .bool _ => Nat.le_refl _
  | .number _ => Nat.le_refl _
  | .string _ => Nat.le_refl _
  | .array vs => by
    rw [untyped, depth, depth, untypedAll_eq_map]
    apply Nat.succ_le_succ
    rw [depths_le]
    intro w hw
    obtain ⟨v, hv, rfl⟩ := List.mem_map.mp hw
    exact Nat.le_trans (depths_untyped vs v hv) (depths_le.mp (Nat.le_refl _) v hv)
  | .object ms => by
    rw [untyped, depth, depth]
    apply Nat.succ_le_succ
    rw [memberDepths_le]
    intro w hw
    have hmem := mem_sortedMap hw
    rw [untypedMembers_eq_map] at hmem
    obtain ⟨m, hm, rfl⟩ := List.mem_map.mp hmem
    exact Nat.le_trans (memberDepths_untyped ms m hm) (memberDepths_le.mp (Nat.le_refl _) m hm)

theorem depths_untyped : ∀ vs : List Json, ∀ v ∈ vs, v.untyped.depth ≤ v.depth
  | [] => fun v hv => by cases hv
  | v :: vs => by
    intro w hw
    rcases List.mem_cons.mp hw with heq | hw
    · rw [heq]
      exact depth_untyped v
    · exact depths_untyped vs w hw

theorem memberDepths_untyped : ∀ ms : List (String × Json), ∀ m ∈ ms, m.2.untyped.depth ≤ m.2.depth
  | [] => fun m hm => by cases hm
  | (key, v) :: ms => by
    intro m hm
    rcases List.mem_cons.mp hm with heq | hm
    · rw [heq]
      exact depth_untyped v
    · exact memberDepths_untyped ms m hm

end

/-- A valid value is read back from what a party in between, which reads and prints an untyped
value, makes of its text. -/
theorem Format.fromSlice_relayed {α : Type} {format : Format α} {a : α} (ha : format.Valid a) :
    ∃ v, parse (format.toVec a) = some v ∧ format.fromSlice v.untyped.text = some a := by
  refine ⟨format.serialize a, parse_text (format.shallow a), ?_⟩
  have hdepth := Nat.le_trans (depth_untyped (format.serialize a)) (format.shallow a)
  rw [fromSlice, parse_text hdepth, Option.bind_some, format.deserialize_untyped ha]

end Depth

section Lists

variable {α : Type}

/-- `Deserialize` of a sequence. -/
def readAll (read : Json → Option α) : Json → Option (List α)
  | .array vs => vs.mapM read
  | _ => none

lemma readAll_map {read : Json → Option α} {write : α → Json} {as : List α}
    (h : ∀ a ∈ as, read (write a) = some a) : readAll read (.array (as.map write)) = some as := by
  rw [readAll]
  induction as with
  | nil => rfl
  | cons a as ih =>
    obtain ⟨ha, has⟩ := List.forall_mem_cons.mp h
    rw [List.map_cons, List.mapM_cons, ha, ih has]
    rfl

/-- A list as an array. -/
def Format.list (format : Format α) (hdepth : ∀ a, (format.serialize a).depth ≤ 126) :
    Format (List α) where
  serialize as := .array (as.map format.serialize)
  deserialize := readAll format.deserialize
  Valid as := ∀ a ∈ as, format.Valid a
  shallow as := by
    rw [depth]
    apply Nat.succ_le_succ
    rw [depths_le, List.forall_mem_map]
    exact fun a _ => hdepth a
  deserialize_serialize has := readAll_map (fun a ha => format.deserialize_serialize (has a ha))
  deserialize_untyped has := by
    rw [untyped, untypedAll_eq_map, List.map_map]
    exact readAll_map (fun a ha => format.deserialize_untyped (has a ha))

end Lists

end Json
