import Chronos.ErrorDetails.Status
import Chronos.Iteration.Loop
import Mathlib.Data.Nat.Bitwise

/-! The parser by which the C++ client finds the error detail in the bytes of a status. -/

namespace Chronos

open Wire Iteration Option

namespace CppClient

section

variable (input : List UInt8)

def readVarintLoop : List Nat → Nat → Nat → Option Nat × Nat
  | [], offset, _ => (none, offset)
  | shift :: shifts, offset, result =>
    match input[offset]? with
    | none => (none, offset)
    | some byte =>
      let result := result ||| (((byte &&& 0x7f).toNat <<< shift) % 2 ^ 64)
      if byte &&& 0x80 = 0 then (some result, offset + 1)
      else readVarintLoop shifts (offset + 1) result

def readVarint (offset : Nat) : Option Nat × Nat :=
  readVarintLoop input [0, 7, 14, 21, 28, 35, 42, 49, 56, 63] offset 0

def readLengthDelimited (offset : Nat) : Option (List UInt8) × Nat :=
  match readVarint input offset with
  | (none, offset) => (none, offset)
  | (some length, offset) =>
    if length > input.length - offset then (none, offset)
    else (some ((input.drop offset).take length), offset + length)

def skipField (offset wireType : Nat) : Bool × Nat :=
  match wireType with
  | 0 => ((readVarint input offset).1.isSome, (readVarint input offset).2)
  | 1 => if input.length - offset < 8 then (false, offset) else (true, offset + 8)
  | 2 => ((readLengthDelimited input offset).1.isSome, (readLengthDelimited input offset).2)
  | 5 => if input.length - offset < 4 then (false, offset) else (true, offset + 4)
  | _ => (false, offset)

end

def isErrorDetailTypeUrl (typeUrl : List UInt8) : Bool :=
  typeUrl = utf8Bytes errorDetailTypeUrl || (utf8Bytes errorDetailSuffix).isSuffixOf typeUrl

def fieldNumber (tag : Nat) : Nat := (tag >>> 3) % 2 ^ 32

def wireType (tag : Nat) : Nat := tag &&& 0x07

structure AnyCursor where
  offset : Nat
  typeUrl : List UInt8
  value : List UInt8

section

variable (parseFromString : List UInt8 → Option ErrorDetail) (input : List UInt8)

def anyRound (cursor : AnyCursor) : Option (AnyCursor ⊕ Option ErrorDetail) :=
  if cursor.offset < input.length then
    match readVarint input cursor.offset with
    | (none, _) => some (.inr none)
    | (some tag, offset) =>
      if fieldNumber tag = 1 ∧ wireType tag = 2 then
        match readLengthDelimited input offset with
        | (none, _) => some (.inr none)
        | (some typeUrl, offset) => some (.inl { cursor with offset, typeUrl })
      else if fieldNumber tag = 2 ∧ wireType tag = 2 then
        match readLengthDelimited input offset with
        | (none, _) => some (.inr none)
        | (some value, offset) => some (.inl { cursor with offset, value })
      else
        match skipField input offset (wireType tag) with
        | (false, _) => some (.inr none)
        | (true, offset) => some (.inl { cursor with offset })
  else if isErrorDetailTypeUrl cursor.typeUrl then some (.inr (parseFromString cursor.value))
  else some (.inr none)

def parseErrorDetailAny : Option (Option ErrorDetail) :=
  rounds (anyRound parseFromString input) (input.length + 1) ⟨0, [], []⟩

/-- One round of the loop of `ParseRichErrorDetail`; the loop leaves its offset behind. -/
def richRound (offset : Nat) : Option (Nat ⊕ Option ErrorDetail × Nat) :=
  if offset < input.length then
    match readVarint input offset with
    | (none, offset) => some (.inr (none, offset))
    | (some tag, offset) =>
      if fieldNumber tag = 3 ∧ wireType tag = 2 then
        match readLengthDelimited input offset with
        | (none, offset) => some (.inr (none, offset))
        | (some any, offset) =>
          match parseErrorDetailAny parseFromString any with
          | none => none
          | some (some detail) => some (.inr (some detail, offset))
          | some none => some (.inl offset)
      else
        match skipField input offset (wireType tag) with
        | (false, offset) => some (.inr (none, offset))
        | (true, offset) => some (.inl offset)
  else some (.inr (none, offset))

/-- Neither loop takes more rounds than the input has bytes, and one to leave it. -/
def parseRichErrorDetail : Option (Option ErrorDetail × Nat) :=
  rounds (richRound parseFromString input) (input.length + 1) 0

def parseStatusErrorDetail : Option (Option ErrorDetail) :=
  (parseRichErrorDetail parseFromString input).map fun rich =>
    rich.1.or (parseFromString input)

end

section

variable {input : List UInt8} {offset : Nat}

def Within (input : List UInt8) (offset next : Nat) : Prop := offset ≤ next ∧ next ≤ input.length

lemma Within.moves {start next : Nat} (hlt : start < offset) (h : Within input offset next) :
    next ≤ input.length ∧ input.length - next < input.length - start := by
  obtain ⟨hle, hin⟩ := h
  exact ⟨hin, by omega⟩

lemma readVarintLoop_within (shifts : List Nat) (res : Nat) (h : offset ≤ input.length) :
    Within input offset (readVarintLoop input shifts offset res).2 := by
  induction shifts generalizing offset res with
  | nil => exact ⟨Nat.le_refl _, h⟩
  | cons shift shifts ih =>
    rw [readVarintLoop]
    split
    · exact ⟨Nat.le_refl _, h⟩
    · next byte hbyte =>
      have hlt : offset < input.length := (List.getElem?_eq_some_iff.mp hbyte).1
      split_ifs
      · exact ⟨Nat.le_succ _, hlt⟩
      · have hrest := ih (res ||| (((byte &&& 0x7f).toNat <<< shift) % 2 ^ 64)) hlt
        exact ⟨Nat.le_of_succ_le hrest.1, hrest.2⟩

lemma readVarint_within (h : offset ≤ input.length) :
    Within input offset (readVarint input offset).2 := readVarintLoop_within _ _ h

lemma readVarint_lt (h : offset < input.length) : offset < (readVarint input offset).2 := by
  unfold readVarint
  rw [readVarintLoop, List.getElem?_eq_getElem h]
  dsimp only
  split_ifs
  · exact Nat.lt_succ_self offset
  · exact (readVarintLoop_within _ _ h).1

lemma readLengthDelimited_within (h : offset ≤ input.length) :
    Within input offset (readLengthDelimited input offset).2 := by
  have hread := readVarint_within h
  unfold readLengthDelimited
  split
  · next heq => rwa [heq] at hread
  · next len next heq =>
    rw [heq] at hread
    split_ifs with hlong
    · exact hread
    obtain ⟨hle, hin⟩ := hread
    show offset ≤ next + len ∧ next + len ≤ input.length
    omega

lemma skipField_within (h : offset ≤ input.length) (wireType : Nat) :
    Within input offset (skipField input offset wireType).2 := by
  have hfixed : ∀ size, Within input offset
      (if input.length - offset < size then (false, offset) else (true, offset + size)).2 := by
    intro size
    split_ifs with hshort
    · exact ⟨Nat.le_refl _, h⟩
    · show offset ≤ offset + size ∧ offset + size ≤ input.length
      omega
  unfold skipField
  split
  · exact readVarint_within h
  · exact hfixed 8
  · exact readLengthDelimited_within h
  · exact hfixed 4
  · exact ⟨Nat.le_refl _, h⟩

variable (parseFromString : List UInt8 → Option ErrorDetail) (input)

lemma anyRound_cases (cursor : AnyCursor) (h : cursor.offset ≤ input.length) :
    (∃ next, anyRound parseFromString input cursor = some (.inl next) ∧
      next.offset ≤ input.length ∧ input.length - next.offset < input.length - cursor.offset) ∨
    ∃ detail, anyRound parseFromString input cursor = some (.inr detail) ∧ True := by
  unfold anyRound
  split_ifs with hmore htype
  · have htag := readVarint_within h
    have hmoves := readVarint_lt hmore
    split
    · exact .inr ⟨_, rfl, trivial⟩
    · next tag offset heq =>
      rw [heq] at htag hmoves
      have hpayload := readLengthDelimited_within htag.2
      have hskip := skipField_within htag.2 (wireType tag)
      split_ifs
      · split
        · exact .inr ⟨_, rfl, trivial⟩
        · next hread => exact .inl ⟨_, rfl, Within.moves hmoves (by rwa [hread] at hpayload)⟩
      · split
        · exact .inr ⟨_, rfl, trivial⟩
        · next hread => exact .inl ⟨_, rfl, Within.moves hmoves (by rwa [hread] at hpayload)⟩
      split
      · exact .inr ⟨_, rfl, trivial⟩
      · next hread => exact .inl ⟨_, rfl, Within.moves hmoves (by rwa [hread] at hskip)⟩
  · exact .inr ⟨_, rfl, trivial⟩
  · exact .inr ⟨_, rfl, trivial⟩

lemma exists_parseErrorDetailAny :
    ∃ detail, parseErrorDetailAny parseFromString input = some detail := by
  have hstart : AnyCursor.offset ⟨0, [], []⟩ ≤ input.length := Nat.zero_le _
  obtain ⟨detail, hdetail, -⟩ := exists_rounds (fun cursor : AnyCursor =>
    cursor.offset ≤ input.length) (fun cursor => input.length - cursor.offset) (fun _ => True)
    (anyRound_cases input parseFromString) hstart (Nat.lt_succ_of_le (Nat.sub_le _ _))
  exact ⟨detail, hdetail⟩

lemma richRound_cases (start : Nat) (h : start ≤ input.length) :
    (∃ next, richRound parseFromString input start = some (.inl next) ∧
      next ≤ input.length ∧ input.length - next < input.length - start) ∨
    ∃ rich, richRound parseFromString input start = some (.inr rich) ∧ rich.2 ≤ input.length := by
  unfold richRound
  split_ifs with hmore
  · have htag := readVarint_within h
    have hmoves := readVarint_lt hmore
    split
    · next heq => exact .inr ⟨_, rfl, by rw [heq] at htag; exact htag.2⟩
    · next tag offset heq =>
      rw [heq] at htag hmoves
      have hpayload := readLengthDelimited_within htag.2
      have hskip := skipField_within htag.2 (wireType tag)
      split_ifs
      · split
        · next hread => exact .inr ⟨_, rfl, by rw [hread] at hpayload; exact hpayload.2⟩
        · next any offset hread =>
          rw [hread] at hpayload
          obtain ⟨detail, hdetail⟩ := exists_parseErrorDetailAny any parseFromString
          rw [hdetail]
          cases detail with
          | some detail => exact .inr ⟨_, rfl, hpayload.2⟩
          | none => exact .inl ⟨_, rfl, hpayload.moves hmoves⟩
      · split
        · next hread => exact .inr ⟨_, rfl, by rw [hread] at hskip; exact hskip.2⟩
        · next hread => exact .inl ⟨_, rfl, Within.moves hmoves (by rwa [hread] at hskip)⟩
  · exact .inr ⟨_, rfl, h⟩

lemma exists_parseRichErrorDetail :
    ∃ rich, parseRichErrorDetail parseFromString input = some rich ∧ rich.2 ≤ input.length :=
  exists_rounds (fun offset => offset ≤ input.length) (fun offset => input.length - offset)
    (fun rich : Option ErrorDetail × Nat => rich.2 ≤ input.length)
      (richRound_cases input parseFromString) (Nat.zero_le _)
    (Nat.lt_succ_of_le (Nat.sub_le _ _))

end

section

variable {input rest : List UInt8} {offset : Nat}

lemma and_low_toNat (byte : UInt8) : (byte &&& 0x7f).toNat = byte.toNat % 128 := by
  exact Nat.and_two_pow_sub_one_eq_mod byte.toNat 7

lemma and_high_eq_zero (byte : UInt8) : byte &&& 0x80 = 0 ↔ byte.toNat < 128 := by
  have hlt : byte.toNat < 256 := byte.toNat_lt
  have hbit : byte.toNat.testBit 7 = decide (byte.toNat / 128 % 2 = 1) :=
    Nat.testBit_eq_decide_div_mod_eq
  have hand : byte.toNat &&& 128 = (byte.toNat.testBit 7).toNat * 128 :=
    Nat.and_two_pow byte.toNat 7
  rw [← UInt8.toNat_inj, UInt8.toNat_and]
  show byte.toNat &&& 128 = 0 ↔ _
  rw [hand, hbit]
  by_cases hbig : byte.toNat / 128 % 2 = 1
  · rw [decide_eq_true hbig]
    show 1 * 128 = 0 ↔ _
    omega
  rw [decide_eq_false hbig]
  show 0 * 128 = 0 ↔ _
  omega

lemma or_shiftLeft {res digit shift : Nat} (hres : res < 2 ^ shift)
    (hdigit : digit * 2 ^ shift < 2 ^ 64) :
    res ||| ((digit <<< shift) % 2 ^ 64) = res + digit * 2 ^ shift := by
  rw [Nat.shiftLeft_eq, Nat.mod_eq_of_lt hdigit, Nat.or_comm, Nat.mul_comm digit,
    ← Nat.two_pow_add_eq_or_of_lt hres, Nat.add_comm]

variable {byte : UInt8} {bytes : List UInt8} {field : Field}

lemma getElem?_of_drop (h : input.drop offset = byte :: rest) : input[offset]? = some byte := by
  rw [← List.head?_drop, h]
  rfl

lemma drop_succ_of_drop (h : input.drop offset = byte :: rest) :
    input.drop (offset + 1) = rest := by
  rw [← List.drop_drop, h]
  rfl

section

variable {shift res n : Nat} {shifts : List Nat}

lemma readVarintLoop_last (hn : n < 128) (hfit : n * 2 ^ shift < 2 ^ 64)
    (hres : res < 2 ^ shift) (hdrop : input.drop offset = UInt8.ofNat n :: rest) :
    readVarintLoop input (shift :: shifts) offset res =
      (some (res + n * 2 ^ shift), offset + 1) := by
  have hbyte : (UInt8.ofNat n).toNat = n := toNat_ofNat_of_lt (by omega)
  have hlow : (UInt8.ofNat n &&& 0x7f).toNat = n := by
    rw [and_low_toNat, hbyte, Nat.mod_eq_of_lt hn]
  have hhigh : UInt8.ofNat n &&& 0x80 = 0 := (and_high_eq_zero _).mpr (by rwa [hbyte])
  rw [readVarintLoop, getElem?_of_drop hdrop]
  dsimp only
  rw [if_pos hhigh, hlow, or_shiftLeft hres hfit]

lemma readVarintLoop_more (hfit : n * 2 ^ shift < 2 ^ 64) (hres : res < 2 ^ shift)
    (hdrop : input.drop offset = UInt8.ofNat (n % 128 + 128) :: rest) :
    readVarintLoop input (shift :: shifts) offset res =
      readVarintLoop input shifts (offset + 1) (res + n % 128 * 2 ^ shift) := by
  have hbyte : (UInt8.ofNat (n % 128 + 128)).toNat = n % 128 + 128 := toNat_ofNat_of_lt (by omega)
  have hlow : (UInt8.ofNat (n % 128 + 128) &&& 0x7f).toNat = n % 128 := by
    rw [and_low_toNat, hbyte]
    omega
  have hhigh : ¬ UInt8.ofNat (n % 128 + 128) &&& 0x80 = 0 := by
    rw [and_high_eq_zero, hbyte]
    omega
  have hdigit : n % 128 * 2 ^ shift < 2 ^ 64 :=
    Nat.lt_of_le_of_lt (Nat.mul_le_mul_right _ (Nat.mod_le n 128)) hfit
  rw [readVarintLoop, getElem?_of_drop hdrop]
  dsimp only
  rw [if_neg hhigh, hlow, or_shiftLeft hres hdigit]

end

lemma readVarintLoop_encodeVarintIn (bytes k : Nat) {n res : Nat} (hn : n < 128 ^ (bytes + 1))
    (hfit : n * 2 ^ (7 * k) < 2 ^ 64) (hres : res < 2 ^ (7 * k))
    (hdrop : input.drop offset = encodeVarintIn (bytes + 1) n ++ rest) :
    readVarintLoop input ((List.range' k (bytes + 1)).map (7 * ·)) offset res =
      (some (res + n * 2 ^ (7 * k)), offset + (encodeVarintIn (bytes + 1) n).length) := by
  rw [List.range'_succ, List.map_cons]
  induction bytes generalizing k n res offset with
  | zero =>
    have hsmall : n < 128 := by simpa using hn
    rw [encodeVarintIn, if_pos hsmall] at hdrop ⊢
    exact readVarintLoop_last hsmall hfit hres hdrop
  | succ bytes ih =>
    rw [encodeVarintIn] at hdrop ⊢
    split_ifs at hdrop ⊢ with hsmall
    · exact readVarintLoop_last hsmall hfit hres hdrop
    have hpow : 2 ^ (7 * (k + 1)) = 2 ^ (7 * k) * 128 := by rw [Nat.mul_succ, Nat.pow_add]
    have hsplit : n * 2 ^ (7 * k) = n % 128 * 2 ^ (7 * k) + n / 128 * 2 ^ (7 * (k + 1)) := by
      rw [hpow, Nat.mul_comm (2 ^ (7 * k)) 128, ← Nat.mul_assoc, ← Nat.add_mul]
      congr 1
      omega
    have hres' : res + n % 128 * 2 ^ (7 * k) < 2 ^ (7 * (k + 1)) := by
      have hdigit : n % 128 * 2 ^ (7 * k) ≤ 127 * 2 ^ (7 * k) := Nat.mul_le_mul_right _ (by omega)
      omega
    have hnext := ih (k + 1) (div_lt_pow_of_lt hn) (by omega) hres' (drop_succ_of_drop hdrop)
    rw [readVarintLoop_more hfit hres hdrop, List.range'_succ, List.map_cons, hnext, hsplit,
      List.length_cons, Nat.add_assoc res, Nat.add_assoc offset, Nat.add_comm 1]

lemma readVarint_encodeVarint {n : Nat} (hn : n < 2 ^ 64)
    (hdrop : input.drop offset = encodeVarint n ++ rest) :
    readVarint input offset = (some n, offset + (encodeVarint n).length) := by
  have hread : readVarint input offset =
      (some (0 + n * 2 ^ (7 * 0)), offset + (encodeVarint n).length) :=
    readVarintLoop_encodeVarintIn 9 0 (by omega) (by omega) (by decide) hdrop
  rw [hread, Nat.zero_add, Nat.mul_zero, Nat.pow_zero, Nat.mul_one]

lemma drop_add_of_drop (h : input.drop offset = bytes ++ rest) :
    input.drop (offset + bytes.length) = rest := by
  rw [← List.drop_drop, h, List.drop_left]

lemma length_le_of_drop (h : input.drop offset = bytes ++ rest) :
    bytes.length ≤ input.length - offset := by
  rw [← List.length_drop, h, List.length_append]
  exact Nat.le_add_right _ _

lemma readLengthDelimited_encode (hsize : bytes.length < 2 ^ 64)
    (hdrop : input.drop offset = (Value.len bytes).encode ++ rest) :
    readLengthDelimited input offset = (some bytes, offset + (Value.len bytes).encode.length) := by
  rw [Value.encode, List.append_assoc] at hdrop
  have hpayload := drop_add_of_drop hdrop
  have hlong := length_le_of_drop hpayload
  rw [readLengthDelimited, readVarint_encodeVarint hsize hdrop]
  dsimp only
  rw [if_neg (by omega), hpayload, List.take_left, Value.encode, List.length_append, Nat.add_assoc]

lemma skipField_encode {value : Value} (hval : value.Valid)
    (hdrop : input.drop offset = value.encode ++ rest) :
    skipField input offset value.wireType = (true, offset + value.encode.length) := by
  have hlong := length_le_of_drop hdrop
  cases value with
  | varint n =>
    rw [Value.wireType, skipField, readVarint_encodeVarint hval hdrop]
    rfl
  | fixed64 bytes =>
    have hsize : bytes.length = 8 := hval
    rw [Value.encode] at hlong ⊢
    rw [Value.wireType, skipField, if_neg (by omega), hsize]
  | len bytes =>
    rw [Value.wireType, skipField, readLengthDelimited_encode hval hdrop]
    rfl
  | fixed32 bytes =>
    have hsize : bytes.length = 4 := hval
    rw [Value.encode] at hlong ⊢
    rw [Value.wireType, skipField, if_neg (by omega), hsize]

lemma fieldNumber_tag (h : field.Valid) : fieldNumber field.tag = field.number := by
  have hnum := h.number_lt
  rw [fieldNumber, Nat.shiftRight_eq_div_pow]
  rw [tag_div]
  omega

lemma wireType_tag : wireType field.tag = field.value.wireType :=
  (Nat.and_two_pow_sub_one_eq_mod field.tag 3).trans tag_mod

end

section

variable {input rest : List UInt8} {fields : List Field} {field : Field}
  {parseFromString : List UInt8 → Option ErrorDetail}

def AnyCursor.note (cursor : AnyCursor) (field : Field) : AnyCursor :=
  let cursor := { cursor with offset := cursor.offset + field.encode.length }
  match field.value with
  | .len bytes =>
    if field.number = 1 then { cursor with typeUrl := bytes }
    else if field.number = 2 then { cursor with value := bytes }
    else cursor
  | _ => cursor

variable {n offset : Nat} {cursor : AnyCursor}

lemma readTag_encode (h : field.Valid) (hdrop : input.drop offset = field.encode ++ rest) :
    readVarint input offset = (some field.tag, offset + (encodeVarint field.tag).length) ∧
      input.drop (offset + (encodeVarint field.tag).length) = field.value.encode ++ rest := by
  rw [Field.encode, List.append_assoc] at hdrop
  exact ⟨readVarint_encodeVarint (Nat.lt_trans (tag_lt h) (by decide)) hdrop,
    drop_add_of_drop hdrop⟩

lemma lt_length_of_drop (hdrop : input.drop offset = field.encode ++ rest) :
    offset < input.length := by
  have hpos : 0 < field.encode.length := List.length_pos_of_ne_nil encode_ne_nil
  have hle := length_le_of_drop hdrop
  omega

lemma length_encode : field.encode.length =
    (encodeVarint field.tag).length + field.value.encode.length := List.length_append

lemma anyRound_encode (h : field.Valid) (hdrop : input.drop cursor.offset = field.encode ++ rest) :
    anyRound parseFromString input cursor = some (.inl (cursor.note field)) := by
  obtain ⟨htag, hval⟩ := readTag_encode h hdrop
  have hskip := skipField_encode h.value hval
  rw [anyRound, if_pos (lt_length_of_drop hdrop), htag]
  dsimp only
  rw [fieldNumber_tag h, wireType_tag, AnyCursor.note, length_encode, ← Nat.add_assoc]
  have hsize := h.value
  cases hkind : field.value with
  | len bytes =>
    rw [hkind] at hval hsize hskip
    have hread := readLengthDelimited_encode hsize hval
    by_cases hfirst : field.number = 1
    · simp [hfirst, Value.wireType, hread]
    by_cases hsecond : field.number = 2
    · simp [hsecond, Value.wireType, hread]
    · rw [Value.wireType] at hskip
      simp [hfirst, hsecond, Value.wireType, hskip]
  | varint n | fixed64 bytes | fixed32 bytes =>
    rw [hkind, Value.wireType] at hskip
    simp [Value.wireType, hskip]

lemma note_offset (cursor : AnyCursor) :
    (cursor.note field).offset = cursor.offset + field.encode.length := by
  unfold AnyCursor.note
  split
  · split_ifs <;> rfl
  · rfl

def AnyCursor.judge (parseFromString : List UInt8 → Option ErrorDetail) (cursor : AnyCursor) :
    Option ErrorDetail :=
  if isErrorDetailTypeUrl cursor.typeUrl then parseFromString cursor.value else none

lemma rounds_anyRound_encodeFields (h : ∀ field ∈ fields, field.Valid)
    (hn : fields.length < n) (hdrop : input.drop cursor.offset = encodeFields fields) :
    rounds (anyRound parseFromString input) n cursor =
      some ((fields.foldl AnyCursor.note cursor).judge parseFromString) := by
  induction fields generalizing cursor n with
  | nil =>
    obtain ⟨n, rfl⟩ := Nat.exists_eq_add_one.mpr hn
    apply rounds_of_inr
    have hend : input.length ≤ cursor.offset := List.drop_eq_nil_iff.mp hdrop
    rw [anyRound, if_neg (by omega), List.foldl_nil, AnyCursor.judge]
    split_ifs <;> rfl
  | cons field fields ih =>
    obtain ⟨n, rfl⟩ := Nat.exists_eq_add_one.mpr (Nat.lt_of_le_of_lt (Nat.zero_le _) hn)
    have hround : anyRound parseFromString input cursor = some (.inl (cursor.note field)) :=
      anyRound_encode (h field List.mem_cons_self) hdrop
    have hnext : input.drop (cursor.note field).offset = encodeFields fields := by
      rw [note_offset]
      exact drop_add_of_drop hdrop
    rw [rounds_of_inl hround, List.foldl_cons]
    exact ih (fun other hother => h other (List.mem_cons_of_mem _ hother))
      (Nat.lt_of_succ_lt_succ hn) hnext

lemma parseErrorDetailAny_encodeFields (h : ∀ field ∈ fields, field.Valid) :
    parseErrorDetailAny parseFromString (encodeFields fields) =
      some ((fields.foldl AnyCursor.note ⟨0, [], []⟩).judge parseFromString) :=
  rounds_anyRound_encodeFields h (Nat.lt_succ_of_le length_le_encodeFields) rfl

def detailOf (parseFromString : List UInt8 → Option ErrorDetail) (field : Field) :
    Option ErrorDetail :=
  match field.value with
  | .len any =>
    if field.number = 3 then (parseErrorDetailAny parseFromString any).join else none
  | _ => none

lemma richRound_encode (h : field.Valid) (hdrop : input.drop offset = field.encode ++ rest) :
    richRound parseFromString input offset = some ((detailOf parseFromString field).elim
      (.inl (offset + field.encode.length))
      fun detail => .inr (some detail, offset + field.encode.length)) := by
  obtain ⟨htag, hval⟩ := readTag_encode h hdrop
  have hskip := skipField_encode h.value hval
  rw [richRound, if_pos (lt_length_of_drop hdrop), htag]
  dsimp only
  rw [fieldNumber_tag h, wireType_tag, detailOf, length_encode, ← Nat.add_assoc]
  have hsize := h.value
  cases hkind : field.value with
  | len any =>
    rw [hkind] at hval hsize hskip
    have hread := readLengthDelimited_encode hsize hval
    by_cases hthird : field.number = 3
    · obtain ⟨detail, hdetail⟩ := exists_parseErrorDetailAny any parseFromString
      cases detail <;> simp [hthird, Value.wireType, hread, hdetail]
    · rw [Value.wireType] at hskip
      simp [hthird, Value.wireType, hskip]
  | varint n | fixed64 bytes | fixed32 bytes =>
    rw [hkind, Value.wireType] at hskip
    simp [Value.wireType, hskip]

lemma rounds_richRound_encodeFields (h : ∀ field ∈ fields, field.Valid)
    (hn : fields.length < n) (hdrop : input.drop offset = encodeFields fields) :
    ∃ last, rounds (richRound parseFromString input) n offset =
      some (fields.findSome? (detailOf parseFromString), last) := by
  induction fields generalizing offset n with
  | nil =>
    obtain ⟨n, rfl⟩ := Nat.exists_eq_add_one.mpr hn
    have hend : input.length ≤ offset := List.drop_eq_nil_iff.mp hdrop
    refine ⟨offset, rounds_of_inr ?_⟩
    rw [richRound, if_neg (by omega)]
    rfl
  | cons field fields ih =>
    obtain ⟨n, rfl⟩ := Nat.exists_eq_add_one.mpr (Nat.lt_of_le_of_lt (Nat.zero_le _) hn)
    have hround : richRound parseFromString input offset = _ :=
      richRound_encode (h field List.mem_cons_self) hdrop
    cases hfound : detailOf parseFromString field with
    | some detail =>
      rw [hfound, elim_some] at hround
      rw [rounds_of_inr hround, List.findSome?_cons, hfound]
      exact ⟨_, rfl⟩
    | none =>
      rw [hfound, elim_none] at hround
      rw [rounds_of_inl hround, List.findSome?_cons, hfound]
      exact ih (fun other hother => h other (List.mem_cons_of_mem _ hother))
        (Nat.lt_of_succ_lt_succ hn) (drop_add_of_drop hdrop)

variable (parseFromString) in
lemma parseRichErrorDetail_encodeFields (h : ∀ field ∈ fields, field.Valid) :
    ∃ last, parseRichErrorDetail parseFromString (encodeFields fields) =
      some (fields.findSome? (detailOf parseFromString), last) :=
  rounds_richRound_encodeFields h (Nat.lt_succ_of_le length_le_encodeFields) rfl

end

section

variable {parseFromString : List UInt8 → Option ErrorDetail} {value : List UInt8}

lemma detailOf_of_number_ne {field : Field} (h : field.number ≠ 3) :
    detailOf parseFromString field = none := by
  unfold detailOf
  split
  · rw [if_neg h]
  · rfl

lemma parseErrorDetailAny_fields
    (hlen : (encodeFields (AnyMessage.fields ⟨errorDetailTypeUrl, value⟩)).length ≤ isizeMax) :
    parseErrorDetailAny parseFromString
      (encodeFields (AnyMessage.fields ⟨errorDetailTypeUrl, value⟩)) =
        some (parseFromString value) := by
  rw [parseErrorDetailAny_encodeFields (AnyMessage.fields_valid hlen)]
  have hurl : isErrorDetailTypeUrl (utf8Bytes errorDetailTypeUrl) = true := by
    rw [isErrorDetailTypeUrl, decide_eq_true rfl, Bool.true_or]
  have hnonempty : errorDetailTypeUrl ≠ "" := by decide
  unfold AnyMessage.fields stringField bytesField
  dsimp only
  rw [if_neg hnonempty]
  split_ifs with hempty
  · simp [AnyCursor.note, AnyCursor.judge, hurl, hempty]
  · simp [AnyCursor.note, AnyCursor.judge, hurl]

lemma findSome?_fields {code : Int32} {msg : String}
    (hlen : (encodeFields (AnyMessage.fields ⟨errorDetailTypeUrl, value⟩)).length ≤ isizeMax) :
    (GoogleRpcStatus.fields ⟨code, msg, [⟨errorDetailTypeUrl, value⟩]⟩).findSome?
      (detailOf parseFromString) = parseFromString value := by
  have hcode : (int32Field 1 code).findSome? (detailOf parseFromString) = none := by
    unfold int32Field
    split_ifs
    · rfl
    · rw [List.findSome?_singleton, detailOf_of_number_ne (show 1 ≠ 3 by decide)]
  have hmsg : (stringField 2 msg).findSome? (detailOf parseFromString) = none := by
    unfold stringField
    split_ifs
    · rfl
    · rw [List.findSome?_singleton, detailOf_of_number_ne (show 2 ≠ 3 by decide)]
  rw [GoogleRpcStatus.fields, List.findSome?_append, List.findSome?_append, hcode, hmsg,
    List.map_singleton, List.findSome?_singleton, detailOf]
  dsimp only
  rw [if_pos rfl, parseErrorDetailAny_fields hlen]
  rfl

end

end CppClient

/-- What `encode_error_detail_status` produces both clients decode to the detail that was encoded,
whatever the code and the message, and it produces bytes whenever a `Vec` can hold them; and on
every input the parser of the C++ client ends, with its offset within the input in every round. -/
theorem error_details_survive (encodeDetail : ErrorDetail → List UInt8)
    (decodeDetail parseFromString : List UInt8 → Option ErrorDetail) :
    (∀ (code : RpcCode) (message : String) (detail : ErrorDetail) (bytes : List UInt8),
      decodeDetail (encodeDetail detail) = some detail →
      parseFromString (encodeDetail detail) = some detail →
      encodeErrorDetailStatus encodeDetail code message detail = some bytes →
      CppClient.parseStatusErrorDetail parseFromString bytes = some (some detail) ∧
        decodeErrorDetailFromStatusDetails decodeDetail bytes = some detail) ∧
    (∀ (code : RpcCode) (message : String) (detail : ErrorDetail),
      (encodeFields (GoogleRpcStatus.fields ⟨code.toInt32, message,
        [⟨errorDetailTypeUrl, encodeDetail detail⟩]⟩)).length ≤ isizeMax →
      (encodeErrorDetailStatus encodeDetail code message detail).isSome) ∧
    ∀ input : List UInt8, (∃ detail offset,
      CppClient.parseRichErrorDetail parseFromString input = some (detail, offset) ∧
        offset ≤ input.length) ∧
      ∀ offset, Visits (CppClient.richRound parseFromString input) 0 offset →
        offset ≤ input.length := by
  refine ⟨fun code message detail bytes hdecoded hparse hbytes => ⟨?_, ?_⟩,
    fun code message detail hlen => ?_, fun input => ⟨?_, fun offset hvisits => ?_⟩⟩
  · obtain ⟨hlen, hencoded⟩ := ite_none_right_eq_some.mp hbytes
    cases hencoded
    have hany := Nat.le_trans (length_len_le (GoogleRpcStatus.mem_details List.mem_cons_self)) hlen
    obtain ⟨last, hrich⟩ := CppClient.parseRichErrorDetail_encodeFields parseFromString
      (GoogleRpcStatus.fields_valid hlen)
    rw [CppClient.parseStatusErrorDetail, hrich, CppClient.findSome?_fields hany, hparse]
    rfl
  · have hstatus := GoogleRpcStatus.decode_encodeToVec hbytes
    have hurl : isErrorDetailTypeUrl errorDetailTypeUrl = true := by
      rw [isErrorDetailTypeUrl, decide_eq_true rfl, Bool.true_or]
    rw [decodeErrorDetailFromStatusDetails, hstatus]
    simp [firstErrorDetail, hurl, hdecoded]
  · rw [encodeErrorDetailStatus, GoogleRpcStatus.encodeToVec, if_pos hlen]
    rfl
  · obtain ⟨rich, hrich, hle⟩ := CppClient.exists_parseRichErrorDetail input parseFromString
    exact ⟨rich.1, rich.2, hrich, hle⟩
  · refine hvisits.invariant (· ≤ input.length) (Nat.zero_le _) fun start next hstart hround => ?_
    rcases CppClient.richRound_cases input parseFromString start hstart with
      ⟨next', hnext, hle, -⟩ | ⟨rich, hrich, -⟩
    · cases hnext.symm.trans hround
      exact hle
    · cases hrich.symm.trans hround

def staleRouteDetail : ErrorDetail where
  code := 2
  message := "stale route"
  currentEpoch := 0
  currentRouteVersion := 42
  redirectEndpoint := "worker-b:50051"
  actionBlocker := 0
  nextStep := 0

def decodeEndpoint (bytes : List UInt8) : Option ErrorDetail :=
  (utf8String bytes).map fun redirectEndpoint => { staleRouteDetail with redirectEndpoint }

theorem error_details_survive_sample :
    ∃ bytes, encodeErrorDetailStatus (fun detail => utf8Bytes detail.redirectEndpoint)
        .failedPrecondition "stale route" staleRouteDetail = some bytes ∧
      CppClient.parseStatusErrorDetail decodeEndpoint bytes = some (some staleRouteDetail) ∧
      decodeErrorDetailFromStatusDetails decodeEndpoint bytes = some staleRouteDetail := by
  have hdecoded : decodeEndpoint (utf8Bytes staleRouteDetail.redirectEndpoint) =
      some staleRouteDetail := by
    rfl
  have hsome : (encodeErrorDetailStatus (fun detail => utf8Bytes detail.redirectEndpoint)
      .failedPrecondition "stale route" staleRouteDetail).isSome = true := by decide +kernel
  obtain ⟨bytes, hbytes⟩ := isSome_iff_exists.mp hsome
  exact ⟨bytes, hbytes, (error_details_survive _ decodeEndpoint decodeEndpoint).1 _ _ _ _
    hdecoded hdecoded hbytes⟩

end Chronos
