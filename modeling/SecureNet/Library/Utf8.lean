import SecureNet.Library.Hex

/-!
# UTF-8 text

A string as the list of the bytes of its UTF-8 encoding, and back.
-/

namespace Utf8

open Hex (Bytes)

def encode (s : String) : Bytes := s.toList.flatMap String.utf8EncodeChar

def decode (bs : Bytes) : Option String :=
  bs.toByteArray.utf8Decode?.map (fun cs => String.ofList cs.toList)

theorem decode_encode (s : String) : decode (encode s) = some s := by
  have hbytes : (encode s).toByteArray = s.toList.utf8Encode := rfl
  rw [decode, hbytes, List.utf8Decode?_utf8Encode, Option.map_some, List.toList_toArray,
    String.ofList_toList]

lemma encode_append (s t : String) : encode (s ++ t) = encode s ++ encode t := by
  rw [encode, String.toList_append, List.flatMap_append]
  rfl

lemma encode_inj {s t : String} : encode s = encode t ↔ s = t := by
  constructor
  · intro h
    have hdecode := congrArg decode h
    rw [decode_encode, decode_encode] at hdecode
    exact Option.some.inj hdecode
  · rintro rfl
    rfl

end Utf8
