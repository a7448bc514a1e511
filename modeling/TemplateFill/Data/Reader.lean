import TemplateFill.Data.Json
import TemplateFill.Number.Notation
import TemplateFill.Number.Binary
import TemplateFill.Number.Numeral
import TemplateFill.Room

/-!
# Reading data texts

A reader takes what it needs from the front of the text and hands on the rest. A fault
keeps the text that was left where it arose, which fixes its position. Besides the
standard grammar the reader knows the names of infinity and of the value that is no
number. A repeated key keeps its first place and its last value. A list or an object needs room,
which is asked for at its opening bracket.
-/

namespace TemplateFill.Data

/-- Why a data text is refused. -/
inductive ReadFault where
  | expectedValue
  | expectedKey
  | expectedColon
  | expectedComma
  | extraData
  | invalidEscape
  | invalidCodePoint
  | controlCharacter
  | unterminated
  | byteOrderMark
  | numeral (fault : Number.NumeralFault)
  /-- There is no room for another list or object. -/
  | tooDeep (kind : String)
  deriving Repr, DecidableEq

/-- A fault and the text that was left when it arose. -/
structure ReadFailure where
  fault : ReadFault
  rest : List Char
  deriving Repr, DecidableEq

/-- What becomes of reading. A reader of a part yields what it read and the rest. -/
abbrev Reading := Except ReadFailure

def isSpace (c : Char) : Bool := c = ' ' || c = '\t' || c = '\n' || c = '\r'

def skipSpace (s : List Char) : List Char := s.dropWhile isSpace

def hexValue? (c : Char) : Option Nat :=
  if '0' ≤ c && c ≤ '9' then some (c.toNat - '0'.toNat)
  else if 'a' ≤ c && c ≤ 'f' then some (c.toNat - 'a'.toNat + 10)
  else if 'A' ≤ c && c ≤ 'F' then some (c.toNat - 'A'.toNat + 10)
  else none

/-- The unit that four hexadecimal digits stand for. -/
def unitOfHex? (a b c d : Char) : Option Nat := do
  return ((← hexValue? a) * 16 + (← hexValue? b)) * 256 + (← hexValue? c) * 16 + (← hexValue? d)

/-- The character of a unit. A unit that is only half of a pair has none and becomes the
replacement character. -/
def charOfUnit (n : Nat) : Char :=
  if 0xD800 ≤ n && n < 0xE000 then Char.ofNat 0xFFFD else Char.ofNat n

/-- The character of a pair of units, if the first is a leading and the second a trailing
half. -/
def charOfPair? (high low : Nat) : Option Char :=
  if 0xD800 ≤ high && high < 0xDC00 && 0xDC00 ≤ low && low < 0xE000 then
    some (Char.ofNat (0x10000 + (high - 0xD800) * 0x400 + (low - 0xDC00)))
  else none

/-- The character that a letter after a backslash stands for. -/
def simpleEscape? (c : Char) : Option Char :=
  match c with
  | '"' => some '"'
  | '\\' => some '\\'
  | '/' => some '/'
  | 'b' => some (Char.ofNat 0x8)
  | 'f' => some (Char.ofNat 0xC)
  | 'n' => some '\n'
  | 'r' => some '\r'
  | 't' => some '\t'
  | _ => none

/-- Turn units and code points into characters, joining the halves of pairs. -/
def joinPairs : List Nat → List Char
  | [] => []
  | [n] => [charOfUnit n]
  | high :: low :: rest =>
    match charOfPair? high low with
    | some c => c :: joinPairs rest
    | none => charOfUnit high :: joinPairs (low :: rest)

/-- The inside of a quoted text up to its closing quote, as code points and units.
`opening` is the text from the opening quote on, where an unterminated text is blamed. An
escape by units must be followed by something. -/
def readUnits (opening : List Char) : List Char → Reading (List Nat × List Char)
  | [] => .error ⟨.unterminated, opening⟩
  | '"' :: rest => .ok ([], rest)
  | ['\\'] => .error ⟨.unterminated, opening⟩
  | '\\' :: 'u' :: a :: b :: c :: d :: next :: rest =>
    match unitOfHex? a b c d with
    | none => .error ⟨.invalidCodePoint, 'u' :: a :: b :: c :: d :: next :: rest⟩
    | some n => (readUnits opening (next :: rest)).map fun (units, rest) => (n :: units, rest)
  | '\\' :: 'u' :: rest => .error ⟨.invalidCodePoint, 'u' :: rest⟩
  | '\\' :: c :: rest =>
    match simpleEscape? c with
    | none => .error ⟨.invalidEscape, '\\' :: c :: rest⟩
    | some e => (readUnits opening rest).map fun (units, rest) => (e.toNat :: units, rest)
  | c :: rest =>
    if c.toNat < 0x20 then .error ⟨.controlCharacter, c :: rest⟩
    else (readUnits opening rest).map fun (units, rest) => (c.toNat :: units, rest)

/-- A quoted text whose opening quote is followed by `rest`. -/
def readQuoted (opening rest : List Char) : Reading (String × List Char) :=
  (readUnits opening rest).map fun (units, rest) => (String.ofList (joinPairs units), rest)

def isAsciiDigit (c : Char) : Bool := '0' ≤ c && c ≤ '9'

def valueOfDigits (digits : List Char) : Nat :=
  digits.foldl (fun total c => total * 10 + (c.toNat - '0'.toNat)) 0

/-- The digits of a whole number: a zero alone, or a run that starts with another digit. -/
def takeWholePart (s : List Char) : List Char × List Char :=
  match s with
  | '0' :: rest => (['0'], rest)
  | _ => (s.takeWhile isAsciiDigit, s.dropWhile isAsciiDigit)

/-- A point and the digits behind it, if there is at least one. -/
def takeFraction (s : List Char) : Option (List Char) × List Char :=
  match s with
  | '.' :: rest =>
    let digits := rest.takeWhile isAsciiDigit
    if digits.isEmpty then (none, s) else (some digits, rest.dropWhile isAsciiDigit)
  | _ => (none, s)

/-- An exponent, if there is at least one digit in it. -/
def takeExponent (s : List Char) : Option Int × List Char :=
  match s with
  | e :: rest =>
    if e = 'e' || e = 'E' then
      let (negative, body) := Number.splitSign rest
      let digits := body.takeWhile isAsciiDigit
      if digits.isEmpty then (none, s)
      else
        let value : Int := valueOfDigits digits
        (some (if negative then -value else value), body.dropWhile isAsciiDigit)
    else (none, s)
  | [] => (none, s)

/-- Split off a minus sign. -/
def splitMinus : List Char → Bool × List Char
  | '-' :: rest => (true, rest)
  | s => (false, s)

/-- The number of some parts. Digits alone make a whole number; a point or an exponent makes a
double. A number with too many digits is blamed on the text `s` that begins with it. -/
def numberOf (s : List Char) (negative : Bool) (whole : List Char)
    (fraction : Option (List Char)) (exponent : Option Int) : Reading Json :=
  if fraction.isNone && exponent.isNone then
    if Number.digitLimit < whole.length then .error ⟨.numeral (.tooLong whole.length), s⟩
    else
      let value : Int := valueOfDigits whole
      .ok (.int (if negative then -value else value))
  else
    let part := fraction.getD []
    .ok (.float (Number.floatOfDecimal negative (valueOfDigits (whole ++ part))
      (exponent.getD 0 - part.length)))

def readNumber (s : List Char) : Reading (Json × List Char) :=
  let (negative, body) := splitMinus s
  let (whole, rest) := takeWholePart body
  if whole.isEmpty then .error ⟨.expectedValue, s⟩
  else
    let (fraction, rest) := takeFraction rest
    let (exponent, rest) := takeExponent rest
    (numberOf s negative whole fraction exponent).map (·, rest)

/-- The rest of the text after a word at its front. -/
def afterWord? (word : String) (s : List Char) : Option (List Char) :=
  if word.toList.isPrefixOf s then some (s.drop word.length) else none

def valueWords : List (String × Json) :=
  [("null", .null), ("true", .bool true), ("false", .bool false),
   ("NaN", .float Number.notANumber), ("Infinity", .float (Number.infinity false)),
   ("-Infinity", .float (Number.infinity true))]

/-- A value at the front of the text that is written as a word. -/
def readWord? (s : List Char) : Option (Json × List Char) :=
  valueWords.findSome? fun (word, value) => (afterWord? word s).map fun rest => (value, rest)

mutual

/-- A value at the front of the text, with some room for lists and objects inside each other. The
first argument bounds the number of steps; more than twice the length of the text is always
enough. -/
def readValue : Nat → Nat → List Char → Reading (Json × List Char)
  | 0, _, s => .error ⟨.expectedValue, s⟩
  | bound + 1, room, s =>
    match s with
    | '"' :: rest => (readQuoted s rest).map fun (text, rest) => (.text text, rest)
    | '[' :: rest =>
      match room with
      | 0 => .error ⟨.tooDeep "array", s⟩
      | room + 1 =>
        match skipSpace rest with
        | ']' :: rest => .ok (.list [], rest)
        | rest => (readItems bound room rest).map fun (items, rest) => (.list items, rest)
    | '{' :: rest =>
      match room with
      | 0 => .error ⟨.tooDeep "object", s⟩
      | room + 1 =>
        match skipSpace rest with
        | '}' :: rest => .ok (.object [], rest)
        | rest =>
          (readMembers bound room rest).map fun (members, rest) => (.ofMembers members, rest)
    | _ =>
      match readWord? s with
      | some reading => .ok reading
      | none => readNumber s

def readItems : Nat → Nat → List Char → Reading (List Json × List Char)
  | 0, _, s => .error ⟨.expectedValue, s⟩
  | bound + 1, room, s => do
    let (item, rest) ← readValue bound room s
    match skipSpace rest with
    | ']' :: rest => .ok ([item], rest)
    | ',' :: rest =>
      let (items, rest) ← readItems bound room (skipSpace rest)
      .ok (item :: items, rest)
    | rest => .error ⟨.expectedComma, rest⟩

def readMembers : Nat → Nat → List Char → Reading (List (String × Json) × List Char)
  | 0, _, s => .error ⟨.expectedKey, s⟩
  | bound + 1, room, s =>
    match s with
    | '"' :: rest => do
      let (key, rest) ← readQuoted s rest
      match skipSpace rest with
      | ':' :: rest =>
        let (value, rest) ← readValue bound room (skipSpace rest)
        match skipSpace rest with
        | '}' :: rest => .ok ([(key, value)], rest)
        | ',' :: rest =>
          let (members, rest) ← readMembers bound room (skipSpace rest)
          .ok ((key, value) :: members, rest)
        | rest => .error ⟨.expectedComma, rest⟩
      | rest => .error ⟨.expectedColon, rest⟩
    | _ => .error ⟨.expectedKey, s⟩

end

def readRoot [Room] (s : List Char) : Reading Json :=
  match readValue (2 * s.length + 1) Room.reading (skipSpace s) with
  | .error failure => .error failure
  | .ok (value, rest) =>
    match skipSpace rest with
    | [] => .ok value
    | rest => .error ⟨.extraData, rest⟩

/-- Read a whole text as one value, unless it begins with a byte order mark. -/
def readChars [Room] (s : List Char) : Reading Json :=
  if s.head? = some (Char.ofNat 0xFEFF) then .error ⟨.byteOrderMark, s⟩ else readRoot s

def ReadFault.words : ReadFault → String
  | .expectedValue => "Expecting value"
  | .expectedKey => "Expecting property name enclosed in double quotes"
  | .expectedColon => "Expecting ':' delimiter"
  | .expectedComma => "Expecting ',' delimiter"
  | .extraData => "Extra data"
  | .invalidEscape => "Invalid \\escape"
  | .invalidCodePoint => "Invalid \\uXXXX escape"
  | .controlCharacter => "Invalid control character at"
  | .unterminated => "Unterminated string starting at"
  | .byteOrderMark => "Unexpected UTF-8 BOM (decode using utf-8-sig)"
  | .numeral fault => fault.message
  | .tooDeep kind =>
    s!"maximum recursion depth exceeded while decoding a JSON {kind} from a unicode string"

/-- The message of a failure in a text: its words and, unless a numeral or the nesting is to blame,
the line, the column and the offset at which it arose. -/
def ReadFailure.message (text : List Char) (failure : ReadFailure) : String :=
  match failure.fault with
  | .numeral fault => fault.message
  | .tooDeep kind => (ReadFault.tooDeep kind).words
  | fault =>
    let offset := text.length - failure.rest.length
    let before := text.take offset
    let line := before.count '\n' + 1
    let column := (before.reverse.takeWhile (· ≠ '\n')).length + 1
    s!"{fault.words}: line {line} column {column} (char {offset})"

def readText [Room] (text : String) : Except String Json :=
  (readChars text.toList).mapError (·.message text.toList)

end TemplateFill.Data
