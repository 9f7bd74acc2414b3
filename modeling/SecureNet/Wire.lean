import SecureNet.Library.JsonFields
import SecureNet.LogText
import SecureNet.Proxy

/-!
# Messages as JSON

The derived `Serialize` and `Deserialize` of `shared/src/models.rs`, the error answers of
`shared/src/errors.rs` and untyped bodies. How chrono writes a time is a parameter, and an id is
written in its hyphenated form.
-/

namespace SecureNet

open Hex (Bytes)

/-- How chrono writes and reads a `DateTime<Utc>`. -/
structure TimeFormat where
  text : ℤ → String
  parse : String → Option ℤ
  parse_text : ∀ t, parse (text t) = some t

namespace Uuid

def isHex (c : Char) : Bool := (Hex.digitValue c).isSome

/-- The digits of a hyphenated id. -/
def unhyphenate (cs : List Char) : Option (List Char) :=
  let parts := cs.splitOnP (· == '-')
  if parts.map List.length = [8, 4, 4, 4, 12] then some parts.flatten else none

def hyphenate (cs : List Char) : List Char :=
  cs.take 8 ++ '-' :: (cs.drop 8).take 4 ++ '-' :: (cs.drop 12).take 4 ++
    '-' :: (cs.drop 16).take 4 ++ '-' :: cs.drop 20

/-- `Uuid::parse_str` takes the digits alone or hyphenated, the latter also as a URN or in braces. -/
def parseStr (s : String) : Option String :=
  let cs := s.toList
  let digits :=
    if cs.length = 32 then some cs
    else if cs.take 9 = "urn:uuid:".toList then unhyphenate (cs.drop 9)
    else if cs.head? = some (Char.ofNat 0x7B) ∧ cs.getLast? = some (Char.ofNat 0x7D) then
      unhyphenate (cs.drop 1).dropLast
    else unhyphenate cs
  (digits.filter (fun ds => ds.all isHex)).map
    (fun ds => String.ofList (hyphenate (ds.map Char.toLower)))

/-- The text is the hyphenated form of an id. -/
def Hyphenated (s : String) : Prop := parseStr s = some s

instance (s : String) : Decidable (Hyphenated s) := inferInstanceAs (Decidable (_ = _))

/-- `Deserialize` of a `Uuid` -/
def ofJson (j : Json) : Option String := j.asString.bind parseStr

end Uuid

namespace UnsealRequest

def fieldNames : List String := ["service_name", "machine_id", "tpm_quote", "nonce", "ak_pub"]

def serialize (self : UnsealRequest) : Json :=
  .object (fieldNames.zip [.string self.serviceName, .string self.machineId, .string self.tpmQuote,
    .string self.nonce, .string self.akPub])

def deserialize (j : Json) : Option UnsealRequest :=
  match j.fields fieldNames with
  | some [some serviceName, some machineId, some tpmQuote, some nonce, some akPub] => do
    return ⟨← serviceName.asString, ← machineId.asString, ← tpmQuote.asString, ← nonce.asString,
      ← akPub.asString⟩
  | _ => none

def format : Json.Format UnsealRequest where
  serialize := serialize
  deserialize := deserialize
  Valid _ := True
  shallow _ := (by decide : 1 ≤ 127)
  deserialize_serialize _ := by
    rw [deserialize, serialize, Json.fields_zip (by decide) rfl]
    rfl
  deserialize_untyped _ := by
    rw [deserialize, serialize, Json.fields_zip_untyped (by decide) rfl]
    rfl

end UnsealRequest

section Times

variable (F : TimeFormat)

def TimeFormat.ofJson (j : Json) : Option ℤ := j.asString.bind F.parse

namespace CertBundle

def fieldNames : List String := ["cert_pem", "key_pem", "ca_pem", "expires_at", "serial"]

def serialize (self : CertBundle) : Json :=
  .object (fieldNames.zip [.string self.certPem, .string self.keyPem, .string self.caPem,
    .string (F.text self.expiresAt), .string self.serial])

def deserialize (j : Json) : Option CertBundle :=
  match j.fields fieldNames with
  | some [some certPem, some keyPem, some caPem, some expiresAt, some serial] => do
    return ⟨← certPem.asString, ← keyPem.asString, ← caPem.asString, ← F.ofJson expiresAt,
      ← serial.asString⟩
  | _ => none

lemma deserialize_serialize (self : CertBundle) :
    deserialize F (self.serialize F) = some self ∧
      deserialize F (self.serialize F).untyped = some self := by
  have htime : F.ofJson (.string (F.text self.expiresAt)) = some self.expiresAt := F.parse_text _
  constructor
  · rw [deserialize, serialize, Json.fields_zip (by decide) rfl]
    simp only [List.map_cons, List.map_nil, Json.asString, htime]
    rfl
  · rw [deserialize, serialize, Json.fields_zip_untyped (by decide) rfl]
    simp only [List.map_cons, List.map_nil, Json.untyped, Json.asString, htime]
    rfl

end CertBundle

namespace UnsealResponse

def fieldNames : List String := ["bundle"]

def serialize (self : UnsealResponse) : Json := .object (fieldNames.zip [self.bundle.serialize F])

def deserialize (j : Json) : Option UnsealResponse :=
  match j.fields fieldNames with
  | some [some bundle] => do return ⟨← CertBundle.deserialize F bundle⟩
  | _ => none

def format : Json.Format UnsealResponse where
  serialize := serialize F
  deserialize := deserialize F
  Valid _ := True
  shallow _ := (by decide : 2 ≤ 127)
  deserialize_serialize {self} _ := by
    rw [deserialize, serialize, Json.fields_zip (by decide) rfl]
    simp only [List.map_cons, List.map_nil, (self.bundle.deserialize_serialize F).1]
    rfl
  deserialize_untyped {self} _ := by
    rw [deserialize, serialize, Json.fields_zip_untyped (by decide) rfl]
    simp only [List.map_cons, List.map_nil, (self.bundle.deserialize_serialize F).2]
    rfl

end UnsealResponse

namespace IssuanceLogEntry

def fieldNames : List String :=
  ["timestamp", "service_name", "machine_id", "cert_serial", "expires_at", "granted", "reason"]

def serialize (self : IssuanceLogEntry) : Json :=
  .object (fieldNames.zip [.string (F.text self.timestamp), .string self.serviceName,
    .string self.machineId, .string self.certSerial, .string (F.text self.expiresAt),
    .bool self.granted, (self.reason.map Json.string).getD .null])

def deserialize (j : Json) : Option IssuanceLogEntry :=
  match j.fields fieldNames with
  | some [some timestamp, some serviceName, some machineId, some certSerial, some expiresAt,
      some granted, reason] => do
    return ⟨← F.ofJson timestamp, ← serviceName.asString, ← machineId.asString,
      ← certSerial.asString, ← F.ofJson expiresAt, ← granted.asBool,
      ← Json.optional Json.asString reason⟩
  | _ => none

lemma deserialize_serialize (self : IssuanceLogEntry) :
    deserialize F (self.serialize F) = some self ∧
      deserialize F (self.serialize F).untyped = some self := by
  obtain ⟨timestamp, serviceName, machineId, certSerial, expiresAt, granted, reason⟩ := self
  have htime : ∀ t, F.ofJson (.string (F.text t)) = some t := F.parse_text
  constructor
  · rw [deserialize, serialize, Json.fields_zip (by decide) rfl]
    simp only [List.map_cons, List.map_nil, Json.asString, htime]
    cases reason <;> rfl
  · rw [deserialize, serialize, Json.fields_zip_untyped (by decide) rfl]
    simp only [List.map_cons, List.map_nil, Json.untyped, Json.asString, htime]
    cases reason <;> rfl

def format : Json.Format IssuanceLogEntry where
  serialize := serialize F
  deserialize := deserialize F
  Valid _ := True
  shallow self := by
    obtain ⟨_, _, _, _, _, _, reason⟩ := self
    cases reason <;> exact (by decide : 1 ≤ 127)
  deserialize_serialize {self} _ := (self.deserialize_serialize F).1
  deserialize_untyped {self} _ := (self.deserialize_serialize F).2

end IssuanceLogEntry

end Times

namespace UserService.User

def fieldNames : List String := ["id", "name", "email"]

def serialize (self : User) : Json :=
  .object (fieldNames.zip [.string self.id, .string self.name, .string self.email])

def deserialize (j : Json) : Option User :=
  match j.fields fieldNames with
  | some [some id, some name, some email] => do
    return ⟨← Uuid.ofJson id, ← name.asString, ← email.asString⟩
  | _ => none

lemma deserialize_serialize {self : User} (hid : Uuid.Hyphenated self.id) :
    deserialize self.serialize = some self ∧ deserialize self.serialize.untyped = some self := by
  have hread : Uuid.ofJson (.string self.id) = some self.id := hid
  constructor
  · rw [deserialize, serialize, Json.fields_zip (by decide) rfl]
    simp only [List.map_cons, List.map_nil, Json.asString, hread]
    rfl
  · rw [deserialize, serialize, Json.fields_zip_untyped (by decide) rfl]
    simp only [List.map_cons, List.map_nil, Json.untyped, Json.asString, hread]
    rfl

def format : Json.Format User where
  serialize := serialize
  deserialize := deserialize
  Valid self := Uuid.Hyphenated self.id
  shallow _ := (by decide : 1 ≤ 127)
  deserialize_serialize hself := (deserialize_serialize hself).1
  deserialize_untyped hself := (deserialize_serialize hself).2

end UserService.User

namespace OrderService.Order

def fieldNames : List String := ["id", "user_id", "item", "qty"]

/-- `Deserialize` of a `u32` -/
def readU32 (j : Json) : Option UInt32 :=
  (j.asInteger.filter (fun n => decide (0 ≤ n ∧ n < 2 ^ 32))).map (fun n => .ofNat n.toNat)

def serialize (self : Order) : Json :=
  .object (fieldNames.zip [.string self.id, .string self.userId, .string self.item,
    .number self.qty.toNat])

def deserialize (j : Json) : Option Order :=
  match j.fields fieldNames with
  | some [some id, some userId, some item, some qty] => do
    return ⟨← Uuid.ofJson id, ← Uuid.ofJson userId, ← item.asString, ← readU32 qty⟩
  | _ => none

lemma readU32_number (n : UInt32) : readU32 (.number n.toNat) = some n := by
  have hlt : n.toNat < 2 ^ 32 := n.toNat_lt
  have hrange : (0 : ℤ) ≤ n.toNat ∧ (n.toNat : ℤ) < 2 ^ 32 := by omega
  rw [readU32, Json.asInteger, Option.filter_some, if_pos (decide_eq_true hrange), Option.map_some,
    Int.toNat_natCast, UInt32.ofNat_toNat]

/-- Both ids of an order are in their hyphenated form. -/
def Valid (self : Order) : Prop := Uuid.Hyphenated self.id ∧ Uuid.Hyphenated self.userId

lemma deserialize_serialize {self : Order} (hself : self.Valid) :
    deserialize self.serialize = some self ∧ deserialize self.serialize.untyped = some self := by
  have hid : Uuid.ofJson (.string self.id) = some self.id := hself.1
  have huser : Uuid.ofJson (.string self.userId) = some self.userId := hself.2
  constructor
  · rw [deserialize, serialize, Json.fields_zip (by decide) rfl]
    simp only [List.map_cons, List.map_nil, Json.asString, hid, huser, readU32_number]
    rfl
  · rw [deserialize, serialize, Json.fields_zip_untyped (by decide) rfl]
    simp only [List.map_cons, List.map_nil, Json.untyped, Json.asString, hid, huser, readU32_number]
    rfl

def format : Json.Format Order where
  serialize := serialize
  deserialize := deserialize
  Valid := Valid
  shallow _ := (by decide : 1 ≤ 127)
  deserialize_serialize hself := (deserialize_serialize hself).1
  deserialize_untyped hself := (deserialize_serialize hself).2

end OrderService.Order

namespace OrderWithUser

def fieldNames : List String := ["order", "user"]

def serialize (self : OrderWithUser) : Json :=
  .object (fieldNames.zip [self.order.serialize, self.user.serialize])

def deserialize (j : Json) : Option OrderWithUser :=
  match j.fields fieldNames with
  | some [some order, some user] => do
    return ⟨← OrderService.Order.deserialize order, ← UserService.User.deserialize user⟩
  | _ => none

def format : Json.Format OrderWithUser where
  serialize := serialize
  deserialize := deserialize
  Valid self := self.order.Valid ∧ Uuid.Hyphenated self.user.id
  shallow _ := (by decide : 2 ≤ 127)
  deserialize_serialize {self} hself := by
    rw [deserialize, serialize, Json.fields_zip (by decide) rfl]
    simp only [List.map_cons, List.map_nil,
      (OrderService.Order.deserialize_serialize hself.1).1,
      (UserService.User.deserialize_serialize hself.2).1]
    rfl
  deserialize_untyped {self} hself := by
    rw [deserialize, serialize, Json.fields_zip_untyped (by decide) rfl]
    simp only [List.map_cons, List.map_nil,
      (OrderService.Order.deserialize_serialize hself.1).2,
      (UserService.User.deserialize_serialize hself.2).2]
    rfl

end OrderWithUser

namespace Value

mutual

/-- What is printed of an untyped value. The numbers of the program are integers. -/
def toJson : Value → Json
  | .null => .null
  | .bool b => .bool b
  | .number q => .number q.num
  | .string s => .string s
  | .array vs => .array (toJsons vs)
  | .object fields => .object (Json.sortedMap (fieldsToJson fields))

def toJsons : List Value → List Json
  | [] => []
  | v :: vs => v.toJson :: toJsons vs

def fieldsToJson : List (String × Value) → List (String × Json)
  | [] => []
  | (key, v) :: fields => (key, v.toJson) :: fieldsToJson fields

end

mutual

def ofJson : Json → Value
  | .null => .null
  | .bool b => .bool b
  | .number n => .number n
  | .string s => .string s
  | .array vs => .array (ofJsons vs)
  | .object ms => .object (Json.sortedMap (membersOfJson ms))

def ofJsons : List Json → List Value
  | [] => []
  | v :: vs => ofJson v :: ofJsons vs

def membersOfJson : List (String × Json) → List (String × Value)
  | [] => []
  | (key, v) :: ms => (key, ofJson v) :: membersOfJson ms

end

def toVec (self : Value) : Bytes := self.toJson.text

/-- `serde_json::from_slice` where all numbers are integers of 64 bits. Other numbers become floats
there. -/
def fromSlice (bs : Bytes) : Option Value := (Json.parse bs).map ofJson

lemma toJsons_eq_map (vs : List Value) : toJsons vs = vs.map toJson := by
  induction vs with
  | nil => rfl
  | cons v vs ih => rw [toJsons, ih, List.map_cons]

lemma fieldsToJson_eq_map (fields : List (String × Value)) :
    fieldsToJson fields = fields.map (fun m => (m.1, m.2.toJson)) := by
  induction fields with
  | nil => rfl
  | cons m fields ih => rw [fieldsToJson, ih, List.map_cons]

lemma ofJsons_eq_map (vs : List Json) : ofJsons vs = vs.map ofJson := by
  induction vs with
  | nil => rfl
  | cons v vs ih => rw [ofJsons, ih, List.map_cons]

lemma membersOfJson_eq_map (ms : List (String × Json)) :
    membersOfJson ms = ms.map (fun m => (m.1, ofJson m.2)) := by
  induction ms with
  | nil => rfl
  | cons m ms ih => rw [membersOfJson, ih, List.map_cons]

mutual

/-- What is printed of the untyped value of a text. -/
theorem toJson_ofJson : ∀ v : Json, (ofJson v).toJson = v.untyped
  | .null => rfl
  | .bool _ => rfl
  | .number _ => rfl
  | .string _ => rfl
  | .array vs => by
    rw [ofJson, toJson, Json.untyped, toJsons_eq_map, ofJsons_eq_map, List.map_map,
      Json.untypedAll_eq_map]
    exact congrArg Json.array (List.map_congr_left (toJson_ofJsons vs))
  | .object ms => by
    have hmembers : ms.map (fun m => (m.1, (ofJson m.2).toJson)) =
        ms.map (fun m => (m.1, m.2.untyped)) := by
      apply List.map_congr_left
      intro m hm
      rw [toJson_membersOfJson ms m hm]
    rw [ofJson, toJson, Json.untyped, fieldsToJson_eq_map, ← Json.sortedMap_map,
      Json.sortedMap_of_sorted (Json.sorted_sortedMap _), membersOfJson_eq_map, List.map_map,
      Json.untypedMembers_eq_map, ← hmembers]
    rfl

theorem toJson_ofJsons : ∀ vs : List Json, ∀ v ∈ vs, (ofJson v).toJson = v.untyped
  | [] => fun v hv => by cases hv
  | v :: vs => by
    intro w hw
    rcases List.mem_cons.mp hw with heq | hw
    · rw [heq]
      exact toJson_ofJson v
    · exact toJson_ofJsons vs w hw

theorem toJson_membersOfJson : ∀ ms : List (String × Json), ∀ m ∈ ms,
    (ofJson m.2).toJson = m.2.untyped
  | [] => fun m hm => by cases hm
  | (key, v) :: ms => by
    intro m hm
    rcases List.mem_cons.mp hm with heq | hm
    · rw [heq]
      exact toJson_ofJson v
    · exact toJson_membersOfJson ms m hm

end

/-- A party in between reads what was written and passes on something that is read the same. -/
theorem fromSlice_relayed {α : Type} {format : Json.Format α} {a : α} (ha : format.Valid a) :
    ∃ body, fromSlice (format.toVec a) = some body ∧ format.fromSlice body.toVec = some a := by
  obtain ⟨v, hparse, hread⟩ := Json.Format.fromSlice_relayed ha
  refine ⟨ofJson v, by rw [fromSlice, hparse, Option.map_some], ?_⟩
  rw [toVec, toJson_ofJson]
  exact hread

end Value

namespace AppError

lemma valid_401 : 100 ≤ 401 ∧ 401 < 1000 := by decide

lemma valid_403 : 100 ≤ 403 ∧ 403 < 1000 := by decide

lemma valid_500 : 100 ≤ 500 ∧ 500 < 1000 := by decide

lemma valid_503 : 100 ≤ 503 ∧ 503 < 1000 := by decide

def statusCode : AppError → StatusCode
  | .authMissingToken => ⟨401, valid_401⟩
  | .authInvalidToken _ => ⟨401, valid_401⟩
  | .authBadCredentials => ⟨401, valid_401⟩
  | .notFound _ => .notFound
  | .serviceSealed => ⟨503, valid_503⟩
  | .vaultUnreachable _ => ⟨503, valid_503⟩
  | .vaultRejected _ => ⟨403, valid_403⟩
  | _ => ⟨500, valid_500⟩

def code : AppError → String
  | .authMissingToken => "AUTH_MISSING_TOKEN"
  | .authInvalidToken _ => "AUTH_INVALID_TOKEN"
  | .authBadCredentials => "AUTH_BAD_CREDENTIALS"
  | .tlsConfig _ => "TLS_CONFIG_ERROR"
  | .certParse _ => "CERT_PARSE_ERROR"
  | .vaultUnreachable _ => "VAULT_UNREACHABLE"
  | .vaultRejected _ => "VAULT_REJECTED"
  | .serviceSealed => "SERVICE_SEALED"
  | .tpmError _ => "TPM_ERROR"
  | .notFound _ => "NOT_FOUND"
  | .upstream _ => "UPSTREAM_ERROR"
  | .internal _ => "INTERNAL_ERROR"

/-- The `Display` that `thiserror` derives. -/
def message : AppError → String
  | .authMissingToken => "missing or malformed Authorization header"
  | .authInvalidToken reason => "JWT validation failed: " ++ reason
  | .authBadCredentials => "invalid credentials"
  | .tlsConfig reason => "TLS configuration error: " ++ reason
  | .certParse reason => "certificate parse error: " ++ reason
  | .vaultUnreachable reason => "vault unreachable: " ++ reason
  | .vaultRejected reason => "vault rejected unseal request: " ++ reason
  | .serviceSealed => "service is still sealed — vault unseal has not completed"
  | .tpmError reason => "TPM operation failed: " ++ reason
  | .notFound what => what ++ " not found"
  | .upstream reason => "upstream service error: " ++ reason
  | .internal reason => "internal error: " ++ reason

def body (self : AppError) : Value :=
  .object [("error", .string self.code), ("message", .string self.message)]

def intoResponse (self : AppError) : HttpAnswer := ⟨self.statusCode, .ok self.body.toVec⟩

end AppError

section Sample

/-- Epoch and the end of a certificate issued then as in RFC 3339, any other time in strokes. -/
def sampleText (t : ℤ) : String :=
  if t = 0 then "1970-01-01T00:00:00Z"
  else if t = seconds 300 then "1970-01-01T00:05:00Z"
  else String.ofList (List.replicate t.natAbs (if 0 < t then '+' else '-'))

def sampleParse (s : String) : Option ℤ :=
  if s = "1970-01-01T00:00:00Z" then some 0
  else if s = "1970-01-01T00:05:00Z" then some (seconds 300)
  else if s.toList.all (· == '+') then some s.toList.length
  else if s.toList.all (· == '-') then some (-s.toList.length)
  else none

lemma sampleParse_text (t : ℤ) : sampleParse (sampleText t) = some t := by
  unfold sampleText
  split
  · next h => rw [h, sampleParse, if_pos rfl]
  split
  · next h => rw [h, sampleParse, if_neg (by decide), if_pos rfl]
  have hstrokes : ∀ (c : Char) (s : String), c ≠ '1' → s.toList.head? = some '1' →
      String.ofList (List.replicate t.natAbs c) ≠ s := by
    rintro c s hc hs rfl
    rw [String.toList_ofList, List.head?_replicate] at hs
    split at hs
    · cases hs
    · exact hc (Option.some.inj hs)
  next hzero hend =>
    by_cases hpos : 0 < t
    · rw [if_pos hpos, sampleParse, if_neg (hstrokes '+' _ (by decide) rfl),
        if_neg (hstrokes '+' _ (by decide) rfl), String.toList_ofList, if_pos (by simp),
        List.length_replicate]
      exact congrArg some (by omega)
    · have hsome : t.natAbs ≠ 0 := by omega
      rw [if_neg hpos, sampleParse, if_neg (hstrokes '-' _ (by decide) rfl),
        if_neg (hstrokes '-' _ (by decide) rfl), String.toList_ofList, if_neg (by simp [hzero]),
        if_pos (by simp), List.length_replicate]
      exact congrArg some (by omega)

def sampleFormat : TimeFormat := ⟨sampleText, sampleParse, sampleParse_text⟩

end Sample

end SecureNet
