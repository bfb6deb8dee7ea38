import Chronos.Wire.Varint

/-! Messages of the protobuf wire format: a sequence of numbered fields, each a tag and a value
whose wire type is in the tag. -/

namespace Wire

open List Option

inductive Value where
  | varint (n : Nat)
  | fixed64 (bytes : List UInt8)
  | len (bytes : List UInt8)
  | fixed32 (bytes : List UInt8)
  deriving DecidableEq

namespace Value

def wireType : Value → Nat
  | varint _ => 0
  | fixed64 _ => 1
  | len _ => 2
  | fixed32 _ => 5

def encode : Value → List UInt8
  | varint n => encodeVarint n
  | fixed64 bytes => bytes
  | len bytes => encodeVarint bytes.length ++ bytes
  | fixed32 bytes => bytes

def Valid : Value → Prop
  | varint n => n < 2 ^ 64
  | fixed64 bytes => bytes.length = 8
  | len bytes => bytes.length < 2 ^ 64
  | fixed32 bytes => bytes.length = 4

end Value

structure Field where
  number : Nat
  value : Value
  deriving DecidableEq

namespace Field

def tag (field : Field) : Nat := field.number * 8 + field.value.wireType

def encode (field : Field) : List UInt8 := encodeVarint field.tag ++ field.value.encode

structure Valid (field : Field) : Prop where
  number_pos : 0 < field.number
  number_lt : field.number < 2 ^ 29
  value : field.value.Valid

end Field

def encodeFields (fields : List Field) : List UInt8 := fields.flatMap Field.encode

def takeBytes (n : Nat) (input : List UInt8) : Option (List UInt8 × List UInt8) :=
  if n ≤ input.length then some (input.take n, input.drop n) else none

def decodeValue (wireType : Nat) (input : List UInt8) : Option (Value × List UInt8) :=
  match wireType with
  | 0 => (decodeVarint input).map fun read => (.varint read.1, read.2)
  | 1 => (takeBytes 8 input).map fun read => (.fixed64 read.1, read.2)
  | 2 => (decodeVarint input).bind fun size =>
    (takeBytes size.1 size.2).map fun read => (.len read.1, read.2)
  | 5 => (takeBytes 4 input).map fun read => (.fixed32 read.1, read.2)
  | _ => none

def decodeField (input : List UInt8) : Option (Field × List UInt8) :=
  (decodeVarint input).bind fun tag =>
    if 0 < tag.1 / 8 ∧ tag.1 / 8 < 2 ^ 29 then
      (decodeValue (tag.1 % 8) tag.2).map fun read => (⟨tag.1 / 8, read.1⟩, read.2)
    else none

def decodeFieldsIn : Nat → List UInt8 → Option (List Field)
  | 0, input => if input = [] then some [] else none
  | n + 1, input =>
    if input = [] then some []
    else (decodeField input).bind fun read => (decodeFieldsIn n read.2).map (read.1 :: ·)

/-- Every field takes a byte at least, so the input has at most as many fields as bytes. -/
def decodeFields (input : List UInt8) : Option (List Field) := decodeFieldsIn input.length input

section

variable {bytes rest : List UInt8} {value : Value} {field : Field} {fields : List Field}

lemma takeBytes_append : takeBytes bytes.length (bytes ++ rest) = some (bytes, rest) := by
  simp [takeBytes]

lemma decodeValue_encode (h : value.Valid) :
    decodeValue value.wireType (value.encode ++ rest) = some (value, rest) := by
  cases value with
  | varint n =>
    have hread : decodeVarint (encodeVarint n ++ rest) = some (n, rest) :=
      decodeVarint_encodeVarint h
    simp [Value.wireType, Value.encode, decodeValue, hread]
  | fixed64 bytes =>
    have hsize : bytes.length = 8 := h
    have htake : takeBytes 8 (bytes ++ rest) = some (bytes, rest) := hsize ▸ takeBytes_append
    simp [Value.wireType, Value.encode, decodeValue, htake]
  | len bytes =>
    have hread : decodeVarint (encodeVarint bytes.length ++ (bytes ++ rest)) =
        some (bytes.length, bytes ++ rest) := decodeVarint_encodeVarint h
    simp [Value.wireType, Value.encode, decodeValue, hread, takeBytes_append]
  | fixed32 bytes =>
    have hsize : bytes.length = 4 := h
    have htake : takeBytes 4 (bytes ++ rest) = some (bytes, rest) := hsize ▸ takeBytes_append
    simp [Value.wireType, Value.encode, decodeValue, htake]

lemma wireType_lt : value.wireType < 8 := by cases value <;> simp [Value.wireType]

lemma tag_div : field.tag / 8 = field.number := by
  have hlt : field.value.wireType < 8 := wireType_lt
  unfold Field.tag
  omega

lemma tag_mod : field.tag % 8 = field.value.wireType := by
  have hlt : field.value.wireType < 8 := wireType_lt
  unfold Field.tag
  omega

lemma tag_lt (h : field.Valid) : field.tag < 2 ^ 32 := by
  have hlt : field.value.wireType < 8 := wireType_lt
  have hnum := h.number_lt
  unfold Field.tag
  omega

lemma decodeField_encode (h : field.Valid) :
    decodeField (field.encode ++ rest) = some (field, rest) := by
  have htag : decodeVarint (encodeVarint field.tag ++ (field.value.encode ++ rest)) =
      some (field.tag, field.value.encode ++ rest) :=
    decodeVarint_encodeVarint (Nat.lt_trans (tag_lt h) (by decide))
  have hval : decodeValue field.value.wireType (field.value.encode ++ rest) =
      some (field.value, rest) := decodeValue_encode h.value
  rw [decodeField, Field.encode, append_assoc, htag, bind_some, tag_div, tag_mod,
    if_pos ⟨h.number_pos, h.number_lt⟩, hval, map_some]

lemma encode_ne_nil : field.encode ≠ [] := append_ne_nil_of_left_ne_nil encodeVarint_ne_nil _

lemma decodeFieldsIn_encodeFields {n : Nat} (h : ∀ field ∈ fields, field.Valid)
    (hn : fields.length ≤ n) : decodeFieldsIn n (encodeFields fields) = some fields := by
  induction fields generalizing n with
  | nil => cases n <;> rfl
  | cons field fields ih =>
    obtain ⟨n, rfl⟩ : ∃ m, n = m + 1 := Nat.exists_eq_add_one.mpr (Nat.lt_of_lt_of_le (by simp) hn)
    have hfield : decodeField (field.encode ++ encodeFields fields) =
        some (field, encodeFields fields) := decodeField_encode (h field mem_cons_self)
    have hne : encodeFields (field :: fields) ≠ [] :=
      append_ne_nil_of_left_ne_nil encode_ne_nil _
    have hrest :=
      ih (fun other hother => h other (mem_cons_of_mem _ hother)) (Nat.le_of_succ_le_succ hn)
    rw [decodeFieldsIn, if_neg hne]
    show (decodeField (field.encode ++ encodeFields fields)).bind _ = _
    rw [hfield, bind_some, hrest, map_some]

lemma length_le_encodeFields : fields.length ≤ (encodeFields fields).length := by
  induction fields with
  | nil => exact Nat.le_refl 0
  | cons field fields ih =>
    have hpos : 0 < field.encode.length := length_pos_of_ne_nil encode_ne_nil
    show fields.length + 1 ≤ (field.encode ++ encodeFields fields).length
    rw [length_append]
    omega

lemma length_encode_le (h : field ∈ fields) :
    field.encode.length ≤ (encodeFields fields).length := by
  obtain ⟨before, after, rfl⟩ := append_of_mem h
  simp only [encodeFields, flatMap_append, flatMap_cons, length_append]
  omega

lemma length_len_le {num : Nat} (h : ⟨num, .len bytes⟩ ∈ fields) :
    bytes.length ≤ (encodeFields fields).length := by
  have hle := length_encode_le h
  simp only [Field.encode, Value.encode, length_append] at hle
  omega

lemma decodeFields_encodeFields (h : ∀ field ∈ fields, field.Valid) :
    decodeFields (encodeFields fields) = some fields :=
  decodeFieldsIn_encodeFields h length_le_encodeFields

end

end Wire
