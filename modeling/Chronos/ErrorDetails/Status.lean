import Chronos.Wire.Fields

/-! The status message that carries an error detail to the clients: how the server encodes it and
how the Rust client decodes it. -/

namespace Chronos

open Wire List Option

inductive RpcCode where
  | ok | cancelled | unknown | invalidArgument | deadlineExceeded | notFound | alreadyExists
  | permissionDenied | resourceExhausted | failedPrecondition | aborted | outOfRange
  | unimplemented | internal | unavailable | dataLoss | unauthenticated
  deriving DecidableEq

def RpcCode.toInt32 : RpcCode → Int32
  | ok => 0
  | cancelled => 1
  | unknown => 2
  | invalidArgument => 3
  | deadlineExceeded => 4
  | notFound => 5
  | alreadyExists => 6
  | permissionDenied => 7
  | resourceExhausted => 8
  | failedPrecondition => 9
  | aborted => 10
  | outOfRange => 11
  | unimplemented => 12
  | internal => 13
  | unavailable => 14
  | dataLoss => 15
  | unauthenticated => 16

structure ErrorDetail where
  code : Int32
  message : String
  currentEpoch : UInt64
  currentRouteVersion : UInt64
  redirectEndpoint : String
  actionBlocker : Int32
  nextStep : Int32
  deriving DecidableEq

structure AnyMessage where
  typeUrl : String
  value : List UInt8
  deriving DecidableEq

structure GoogleRpcStatus where
  code : Int32
  message : String
  details : List AnyMessage
  deriving DecidableEq

def utf8Bytes (text : String) : List UInt8 := text.toByteArray.data.toList

def utf8String (bytes : List UInt8) : Option String := String.fromUTF8? bytes.toByteArray

/-- A vector never holds more than `isize::MAX` bytes. -/
def isizeMax : Nat := 2 ^ 63 - 1

/-- The encoder leaves out fields that have their default value. -/
def stringField (number : Nat) (text : String) : List Field :=
  if text = "" then [] else [⟨number, .len (utf8Bytes text)⟩]

def bytesField (number : Nat) (bytes : List UInt8) : List Field :=
  if bytes = [] then [] else [⟨number, .len bytes⟩]

def int32Field (number : Nat) (n : Int32) : List Field :=
  if n = 0 then [] else [⟨number, .varint n.toInt64.toUInt64.toNat⟩]

namespace AnyMessage

def fields (any : AnyMessage) : List Field :=
  stringField 1 any.typeUrl ++ bytesField 2 any.value

def mergeField (any : AnyMessage) (field : Field) : Option AnyMessage :=
  match field.number, field.value with
  | 1, .len bytes => (utf8String bytes).map fun typeUrl => { any with typeUrl }
  | 2, .len bytes => some { any with value := bytes }
  | 1, _ | 2, _ => none
  | _, _ => some any

def decode (bytes : List UInt8) : Option AnyMessage :=
  (decodeFields bytes).bind fun fields => fields.foldlM mergeField ⟨"", []⟩

end AnyMessage

namespace GoogleRpcStatus

def fields (status : GoogleRpcStatus) : List Field :=
  int32Field 1 status.code ++ stringField 2 status.message ++
    status.details.map fun any => ⟨3, .len (encodeFields any.fields)⟩

def encodeToVec (status : GoogleRpcStatus) : Option (List UInt8) :=
  let bytes := encodeFields status.fields
  if bytes.length ≤ isizeMax then some bytes else none

def mergeField (status : GoogleRpcStatus) (field : Field) : Option GoogleRpcStatus :=
  match field.number, field.value with
  | 1, .varint n => some { status with code := (UInt64.ofNat n).toInt64.toInt32 }
  | 2, .len bytes => (utf8String bytes).map fun message => { status with message }
  | 3, .len bytes =>
    (AnyMessage.decode bytes).map fun any => { status with details := status.details ++ [any] }
  | 1, _ | 2, _ | 3, _ => none
  | _, _ => some status

def decode (bytes : List UInt8) : Option GoogleRpcStatus :=
  (decodeFields bytes).bind fun fields => fields.foldlM mergeField ⟨0, "", []⟩

end GoogleRpcStatus

def errorDetailTypeUrl : String := "type.googleapis.com/chronos.tso.v1.ErrorDetail"

def errorDetailSuffix : String := "/chronos.tso.v1.ErrorDetail"

def isErrorDetailTypeUrl (typeUrl : String) : Bool :=
  typeUrl = errorDetailTypeUrl || errorDetailSuffix.toList.isSuffixOf typeUrl.toList

def encodeErrorDetailStatus (encodeDetail : ErrorDetail → List UInt8) (code : RpcCode)
    (message : String) (detail : ErrorDetail) : Option (List UInt8) :=
  GoogleRpcStatus.encodeToVec
    { code := code.toInt32
      message := message
      details := [⟨errorDetailTypeUrl, encodeDetail detail⟩] }

def firstErrorDetail (decodeDetail : List UInt8 → Option ErrorDetail) :
    List AnyMessage → Option ErrorDetail
  | [] => none
  | any :: rest =>
    if isErrorDetailTypeUrl any.typeUrl then
      match decodeDetail any.value with
      | some detail => some detail
      | none => firstErrorDetail decodeDetail rest
    else firstErrorDetail decodeDetail rest

def decodeErrorDetailFromStatusDetails (decodeDetail : List UInt8 → Option ErrorDetail)
    (details : List UInt8) : Option ErrorDetail :=
  match GoogleRpcStatus.decode details with
  | some status =>
    match firstErrorDetail decodeDetail status.details with
    | some detail => some detail
    | none => decodeDetail details
  | none => decodeDetail details

section

lemma utf8String_utf8Bytes (text : String) : utf8String (utf8Bytes text) = some text := by
  have hbytes : (utf8Bytes text).toByteArray = text.toByteArray :=
    ByteArray.ext (by rw [data_toByteArray]; rfl)
  unfold utf8String String.fromUTF8?
  rw [hbytes, dif_pos text.isValidUTF8]
  rfl

variable {fields : List Field} {field : Field} {num : Nat}

lemma exists_of_mem_stringField {text : String} (h : field ∈ stringField num text) :
    ∃ bytes, field = ⟨num, .len bytes⟩ := by
  unfold stringField at h
  split_ifs at h
  · exact absurd h not_mem_nil
  · exact ⟨_, mem_singleton.mp h⟩

lemma exists_of_mem_bytesField {bytes : List UInt8} (h : field ∈ bytesField num bytes) :
    ∃ bytes, field = ⟨num, .len bytes⟩ := by
  unfold bytesField at h
  split_ifs at h
  · exact absurd h not_mem_nil
  · exact ⟨_, mem_singleton.mp h⟩

lemma valid_of_mem_int32Field (hnum : 0 < num ∧ num < 2 ^ 29) {n : Int32}
    (h : field ∈ int32Field num n) : field.Valid := by
  unfold int32Field at h
  split_ifs at h
  · exact absurd h not_mem_nil
  · rw [mem_singleton.mp h]
    exact ⟨hnum.1, hnum.2, UInt64.toNat_lt _⟩

lemma valid_of_length_le (hlen : (encodeFields fields).length ≤ isizeMax)
    (hnum : 0 < num ∧ num < 2 ^ 29) (hmem : field ∈ fields)
    (hfield : ∃ bytes, field = ⟨num, .len bytes⟩) : field.Valid := by
  obtain ⟨bytes, rfl⟩ := hfield
  have hle := length_len_le hmem
  refine ⟨hnum.1, hnum.2, ?_⟩
  show bytes.length < 2 ^ 64
  unfold isizeMax at hlen
  omega

end

namespace AnyMessage

variable {any : AnyMessage}

lemma fields_valid (hlen : (encodeFields any.fields).length ≤ isizeMax) :
    ∀ field ∈ any.fields, field.Valid := by
  intro field hfield
  rcases mem_append.mp hfield with htype | hval
  · exact valid_of_length_le hlen (by decide) hfield (exists_of_mem_stringField htype)
  · exact valid_of_length_le hlen (by decide) hfield (exists_of_mem_bytesField hval)

lemma decode_fields (hlen : (encodeFields any.fields).length ≤ isizeMax) :
    decode (encodeFields any.fields) = some any := by
  obtain ⟨typeUrl, value⟩ := any
  rw [decode, decodeFields_encodeFields (fields_valid hlen), bind_some]
  unfold fields stringField bytesField
  split_ifs with hurl hval hval <;> simp_all [mergeField, utf8String_utf8Bytes]

end AnyMessage

namespace GoogleRpcStatus

variable {status : GoogleRpcStatus} {bytes : List UInt8}

lemma mem_details {any : AnyMessage} (h : any ∈ status.details) :
    ⟨3, .len (encodeFields any.fields)⟩ ∈ status.fields :=
  mem_append_right _ (mem_map_of_mem h)

lemma fields_valid (hlen : (encodeFields status.fields).length ≤ isizeMax) :
    ∀ field ∈ status.fields, field.Valid := by
  intro field hfield
  rcases mem_append.mp hfield with hscalar | hdetail
  · rcases mem_append.mp hscalar with hcode | hmsg
    · exact valid_of_mem_int32Field (by decide) hcode
    · exact valid_of_length_le hlen (by decide) hfield (exists_of_mem_stringField hmsg)
  · obtain ⟨any, -, rfl⟩ := mem_map.mp hdetail
    exact valid_of_length_le hlen (by decide) hfield ⟨_, rfl⟩

lemma foldlM_int32Field (msg : String) (details : List AnyMessage) (code : Int32) :
    (int32Field 1 code).foldlM mergeField ⟨0, msg, details⟩ = some ⟨code, msg, details⟩ := by
  unfold int32Field
  split_ifs with hzero
  · rw [hzero]
    rfl
  · simp [mergeField]

lemma foldlM_stringField (code : Int32) (details : List AnyMessage) (msg : String) :
    (stringField 2 msg).foldlM mergeField ⟨code, "", details⟩ = some ⟨code, msg, details⟩ := by
  unfold stringField
  split_ifs with hempty
  · rw [hempty]
    rfl
  · simp [mergeField, utf8String_utf8Bytes]

lemma foldlM_details (code : Int32) (msg : String) (before : List AnyMessage)
    {details : List AnyMessage}
    (hlen : ∀ any ∈ details, (encodeFields any.fields).length ≤ isizeMax) :
    (details.map fun any => (⟨3, .len (encodeFields any.fields)⟩ : Field)).foldlM mergeField
      ⟨code, msg, before⟩ = some ⟨code, msg, before ++ details⟩ := by
  induction details generalizing before with
  | nil =>
    rw [append_nil]
    rfl
  | cons any details ih =>
    have hany := AnyMessage.decode_fields (hlen any mem_cons_self)
    have hrest := ih (before ++ [any]) fun other hother => hlen other (mem_cons_of_mem _ hother)
    rw [append_assoc] at hrest
    simp only [map_cons, foldlM_cons, mergeField, hany, map_some]
    exact hrest

lemma decode_encodeToVec (h : status.encodeToVec = some bytes) : decode bytes = some status := by
  obtain ⟨hlen, hbytes⟩ := ite_none_right_eq_some.mp h
  cases hbytes
  have hdetails : ∀ any ∈ status.details, (encodeFields any.fields).length ≤ isizeMax :=
    fun any hany => Nat.le_trans (length_len_le (mem_details hany)) hlen
  rw [decode, decodeFields_encodeFields (fields_valid hlen), bind_some, fields,
    foldlM_append, foldlM_append, foldlM_int32Field]
  show (foldlM mergeField _ _ >>= _) = _
  rw [foldlM_stringField]
  exact foldlM_details _ _ _ hdetails

end GoogleRpcStatus

end Chronos
