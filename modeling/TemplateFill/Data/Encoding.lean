import TemplateFill.Text.Quoted

/-!
# Character encodings

Octets are turned into text by UTF-8, UTF-16 or UTF-32. A data text may come in any of
them: a byte order mark decides, and without one the places of the zero octets among
the first four, because a data text starts with two ASCII characters. A half of a
surrogate pair is let through as the replacement character when decoding is lenient.
-/

namespace TemplateFill.Data

inductive ByteOrder where
  | little
  | big
  deriving Repr, DecidableEq

inductive Encoding where
  | utf8
  | utf16 (order : ByteOrder)
  | utf32 (order : ByteOrder)
  deriving Repr, DecidableEq

def Encoding.name : Encoding → String
  | .utf8 => "utf-8"
  | .utf16 .little => "utf-16-le"
  | .utf16 .big => "utf-16-be"
  | .utf32 .little => "utf-32-le"
  | .utf32 .big => "utf-32-be"

/-- What is wrong with a sequence of octets. -/
inductive DecodeReason where
  | invalidStart
  | invalidContinuation
  | unexpectedEnd
  | truncated
  | loneSurrogate
  | brokenPair
  | outOfRange
  deriving Repr, DecidableEq

def DecodeReason.words : DecodeReason → String
  | .invalidStart => "invalid start byte"
  | .invalidContinuation => "invalid continuation byte"
  | .unexpectedEnd => "unexpected end of data"
  | .truncated => "truncated data"
  | .loneSurrogate => "illegal encoding"
  | .brokenPair => "illegal UTF-16 surrogate"
  | .outOfRange => "code point not in range(0x110000)"

/-- A fault covers `count` octets from `start` on. -/
structure DecodeFault where
  encoding : Encoding
  start : Nat
  count : Nat
  first : Nat
  reason : DecodeReason
  deriving Repr, DecidableEq

/-- The message of a fault, which names the octet if it is a single one. -/
def DecodeFault.message (fault : DecodeFault) : String :=
  let place :=
    if fault.count = 1 then
      s!"byte 0x{String.ofList (Text.hexDigits 2 fault.first)} in position {fault.start}"
    else s!"bytes in position {fault.start}-{fault.start + fault.count - 1}"
  s!"'{fault.encoding.name}' codec can't decode {place}: {fault.reason.words}"

/-- What the first octet of a character promises: how many octets follow, the bits that it
contributes, and the range of the second octet. -/
structure Lead where
  tails : Nat
  bits : Nat
  low : Nat
  high : Nat

def leadOf? (b : Nat) : Option Lead :=
  if b < 0x80 then some ⟨0, b, 0x80, 0xBF⟩
  else if b < 0xC2 then none
  else if b < 0xE0 then some ⟨1, b % 0x20, 0x80, 0xBF⟩
  else if b = 0xE0 then some ⟨2, 0, 0xA0, 0xBF⟩
  else if b = 0xED then some ⟨2, 0xD, 0x80, 0x9F⟩
  else if b < 0xF0 then some ⟨2, b % 0x10, 0x80, 0xBF⟩
  else if b = 0xF0 then some ⟨3, 0, 0x90, 0xBF⟩
  else if b < 0xF4 then some ⟨3, b % 8, 0x80, 0xBF⟩
  else if b = 0xF4 then some ⟨3, 4, 0x80, 0x8F⟩
  else none

/-- The character of a code point, where half of a surrogate pair has the replacement
character. -/
def charOfPoint (n : Nat) : Char :=
  if 0xD800 ≤ n && n < 0xE000 then Char.ofNat 0xFFFD else Char.ofNat n

/-- The octets that are owed after a first one: the code point and the octets left, or how
many octets were good before the reason to stop. -/
def takeTails (low high : Nat) :
    Nat → Nat → List UInt8 → Except (Nat × DecodeReason) (Nat × List UInt8)
  | 0, point, rest => .ok (point, rest)
  | _ + 1, _, [] => .error (0, .unexpectedEnd)
  | owed + 1, point, b :: rest =>
    if low ≤ b.toNat && b.toNat ≤ high then
      (takeTails 0x80 0xBF owed (point * 0x40 + b.toNat % 0x40) rest).mapError
        fun (good, reason) => (good + 1, reason)
    else .error (0, .invalidContinuation)

/-- What is left behind the half of a surrogate pair that begins with an octet. -/
def skipHalf? (b : UInt8) (rest : List UInt8) : Option (List UInt8) :=
  if b = 0xED then
    match takeTails 0xA0 0xBF 2 0 rest with
    | .ok (_, rest) => some rest
    | .error _ => none
  else none

/-- Decode UTF-8 from the given offset on. With `lenient` the halves of surrogate pairs are
let through. The bound is on the number of characters. -/
def decodeUtf8From (lenient : Bool) : Nat → Nat → List UInt8 → Except DecodeFault (List Char)
  | 0, _, _ => .ok []
  | _ + 1, _, [] => .ok []
  | bound + 1, offset, b :: rest =>
    let fault (count : Nat) (reason : DecodeReason) : DecodeFault :=
      ⟨.utf8, offset, count, b.toNat, reason⟩
    match leadOf? b.toNat with
    | none => .error (fault 1 .invalidStart)
    | some lead =>
      match takeTails lead.low lead.high lead.tails lead.bits rest with
      | .ok (point, rest') => do
        let cs ← decodeUtf8From lenient bound (offset + 1 + lead.tails) rest'
        return charOfPoint point :: cs
      | .error (good, reason) =>
        match if lenient then skipHalf? b rest else none with
        | none => .error (fault (good + 1) reason)
        | some rest' => do
          let cs ← decodeUtf8From lenient bound (offset + 3) rest'
          return charOfPoint 0xD800 :: cs

def decodeUtf8 (lenient : Bool) (octets : List UInt8) : Except DecodeFault (List Char) :=
  decodeUtf8From lenient (octets.length + 1) 0 octets

def ByteOrder.join (order : ByteOrder) (octets : List UInt8) : Nat :=
  let ordered := match order with
    | .little => octets.reverse
    | .big => octets
  ordered.foldl (fun total b => total * 0x100 + b.toNat) 0

/-- Decode UTF-16 from the given offset on. A trailing half without its leading half, or
the other way round, is let through. -/
def decodeUtf16From (order : ByteOrder) (offset : Nat) :
    List UInt8 → Except DecodeFault (List Char)
  | [] => .ok []
  | [b] => .error ⟨.utf16 order, offset, 1, b.toNat, .truncated⟩
  | [a, b] => .ok [charOfPoint (order.join [a, b])]
  | [a, b, c] => do
    let cs ← decodeUtf16From order (offset + 2) [c]
    return charOfPoint (order.join [a, b]) :: cs
  | a :: b :: c :: d :: rest =>
    let high := order.join [a, b]
    let low := order.join [c, d]
    if 0xD800 ≤ high && high < 0xDC00 && 0xDC00 ≤ low && low < 0xE000 then do
      let cs ← decodeUtf16From order (offset + 4) rest
      return Char.ofNat (0x10000 + (high - 0xD800) * 0x400 + (low - 0xDC00)) :: cs
    else do
      let cs ← decodeUtf16From order (offset + 2) (c :: d :: rest)
      return charOfPoint high :: cs

def decodeUtf32From (order : ByteOrder) (offset : Nat) :
    List UInt8 → Except DecodeFault (List Char)
  | [] => .ok []
  | a :: b :: c :: d :: rest =>
    let point := order.join [a, b, c, d]
    if 0x110000 ≤ point then .error ⟨.utf32 order, offset, 4, a.toNat, .outOfRange⟩
    else do
      let cs ← decodeUtf32From order (offset + 4) rest
      return charOfPoint point :: cs
  | b :: rest => .error ⟨.utf32 order, offset, rest.length + 1, b.toNat, .truncated⟩

/-- The encoding of a data text and the number of octets of its byte order mark. -/
def detectEncoding (octets : List UInt8) : Encoding × Nat :=
  match octets.map (·.toNat) with
  | 0x00 :: 0x00 :: 0xFE :: 0xFF :: _ => (.utf32 .big, 4)
  | 0xFF :: 0xFE :: 0x00 :: 0x00 :: _ => (.utf32 .little, 4)
  | 0xFE :: 0xFF :: _ => (.utf16 .big, 2)
  | 0xFF :: 0xFE :: _ => (.utf16 .little, 2)
  | 0xEF :: 0xBB :: 0xBF :: _ => (.utf8, 3)
  | a :: b :: c :: d :: _ =>
    if a = 0 then (if b = 0 then .utf32 .big else .utf16 .big, 0)
    else if b = 0 then (if c = 0 && d = 0 then .utf32 .little else .utf16 .little, 0)
    else (.utf8, 0)
  | [a, b] =>
    if a = 0 then (.utf16 .big, 0) else if b = 0 then (.utf16 .little, 0) else (.utf8, 0)
  | _ => (.utf8, 0)

/-- Decode the octets of a data text in the encoding that they show. Halves of surrogate
pairs are let through. -/
def decodeDataText (octets : List UInt8) : Except DecodeFault (List Char) :=
  let (encoding, mark) := detectEncoding octets
  let body := octets.drop mark
  match encoding with
  | .utf8 => decodeUtf8 true body
  | .utf16 order => decodeUtf16From order mark body
  | .utf32 order => decodeUtf32From order mark body

end TemplateFill.Data
