import Chronos.Types

/-! The checks on the identifiers that a client sends. -/

namespace Chronos

def isWhitespace (c : Char) : Bool :=
  let n := c.toNat
  (0x9 ≤ n && n ≤ 0xD) || n = 0x20 || n = 0x85 || n = 0xA0 || n = 0x1680 ||
    (0x2000 ≤ n && n ≤ 0x200A) || n = 0x2028 || n = 0x2029 || n = 0x202F || n = 0x205F ||
    n = 0x3000

def trim (s : String) : List Char :=
  ((s.toList.dropWhile isWhitespace).reverse.dropWhile isWhitespace).reverse

def maxTimelineKeyBytes : Nat := 256
def maxClientRequestIdBytes : Nat := 128

def isControl (c : Char) : Bool :=
  c.toNat ≤ 0x1F || (0x7F ≤ c.toNat && c.toNat ≤ 0x9F)

def validateTimelineKey (timelineKey : String) : Except TsoError Unit :=
  if (trim timelineKey).isEmpty then .error (.invalidTimelineKey "must not be blank")
  else if timelineKey.utf8ByteSize > maxTimelineKeyBytes then
    .error (.invalidTimelineKey "must not exceed 256 UTF-8 bytes")
  else if timelineKey.toList.any isControl then
    .error (.invalidTimelineKey "must not contain control characters")
  else .ok ()

def validateClientRequestId (clientRequestId : String) : Except TsoError Unit :=
  if clientRequestId = "" then .ok ()
  else if (trim clientRequestId).isEmpty then
    .error (.invalidClientRequestId "must be empty or contain a non-whitespace character")
  else if clientRequestId.utf8ByteSize > maxClientRequestIdBytes then
    .error (.invalidClientRequestId "must not exceed 128 UTF-8 bytes")
  else if clientRequestId.toList.any isControl then
    .error (.invalidClientRequestId "must not contain control characters")
  else .ok ()

end Chronos
