import TemplateFill.Html.Reference
import TemplateFill.Html.StartTag
import TemplateFill.Number.Numeral
import TemplateFill.Text.Quoted

/-!
# Events of a page

A page text is a sequence of tags, text and other markup. Scanning is lenient: whatever is no
markup is text. It happens in two passes, because a scan stops at what might be completed by
more text; the second pass knows that there is no more.
-/

namespace TemplateFill.Html

inductive Event where
  | startTag (name : String)
  /-- A tag that starts and ends an element. -/
  | emptyTag (name : String)
  | endTag (name : String)
  | text (content : List Char)
  /-- A comment, a declaration or an instruction. -/
  | aside
  deriving Repr, DecidableEq

/-- Why a page text is rejected: a marked section without a name, or with an unknown one. -/
inductive Rejection where
  | missingName (near : String)
  | unknownName (name : String)
  deriving Repr, DecidableEq

def Rejection.words : Rejection → String
  | .missingName near => "AssertionError: expected name token at " ++ Text.quoted near
  | .unknownName name =>
    s!"AssertionError: unknown status keyword {Text.quoted name} in marked section"

/-- Why a page text is not read. -/
inductive ScanFault where
  | rejection (cause : Rejection)
  /-- The number of a reference is too long. -/
  | numeral (cause : Number.NumeralFault)
  deriving Repr, DecidableEq

/-- The elements whose content is text up to their end tag. -/
def isRawElement (name : String) : Bool := name == "script" || name == "style"

/-! ### References -/

/-- The characters of the code page for western languages from 128 to 159. A place that the
code page leaves free keeps its code point. -/
def westernCodes : Array Nat := #[
  0x20AC, 0x81, 0x201A, 0x192, 0x201E, 0x2026, 0x2020, 0x2021, 0x2C6, 0x2030, 0x160, 0x2039,
  0x152, 0x8D, 0x17D, 0x8F, 0x90, 0x2018, 0x2019, 0x201C, 0x201D, 0x2022, 0x2013, 0x2014,
  0x2DC, 0x2122, 0x161, 0x203A, 0x153, 0x9D, 0x17E, 0x178]

def numberedCharacter (n : Nat) : Char :=
  if n = 0 || 0x110000 ≤ n || (0xD800 ≤ n && n < 0xE000) then Char.ofNat 0xFFFD
  else if 128 ≤ n && n < 160 then Char.ofNat (westernCodes.getD (n - 128) n)
  else Char.ofNat n

def isDecimal (c : Char) : Bool := '0' ≤ c && c ≤ '9'

def isHexadecimal (c : Char) : Bool :=
  isDecimal c || ('a' ≤ c && c ≤ 'f') || ('A' ≤ c && c ≤ 'F')

def skipSemicolon : List Char → List Char
  | ';' :: rest => rest
  | rest => rest

/-- The number of a digit run and what follows it. The run must not be empty and something
else than a hexadecimal digit must follow. -/
def takeNumber? (base : Nat) (isDigit : Char → Bool) (s : List Char) :
    Option (Except Number.NumeralFault Int × List Char) :=
  let digits := s.takeWhile isDigit
  match s.drop digits.length with
  | [] => none
  | c :: rest =>
    if digits.isEmpty || isHexadecimal c then none
    else some (Number.readNumeral base (String.ofList digits), c :: rest)

/-- A numeric reference, read behind its number sign, and what follows it. -/
def takeNumeric? (s : List Char) : Option (Except Number.NumeralFault Char × List Char) :=
  let found :=
    match s with
    | 'x' :: rest => takeNumber? 16 isHexadecimal rest
    | 'X' :: rest => takeNumber? 16 isHexadecimal rest
    | s => takeNumber? 10 isDecimal s
  found.map fun (number, rest) =>
    (number.map fun n => numberedCharacter n.toNat, skipSemicolon rest)

/-- The fault of the first decimal reference in a value whose number is too long. There the
reference need not be followed by anything. -/
def longReference? : List Char → Option Number.NumeralFault
  | '&' :: '#' :: rest =>
    let digits := (rest.takeWhile isDecimal).length
    if Number.digitLimit < digits then some (.tooLong digits) else longReference? rest
  | _ :: rest => longReference? rest
  | [] => none

/-- Whether a reference name can go on with this character. -/
def isReferenceChar (c : Char) : Bool := c.isAlphanum || c = '-' || c = '.'

/-- The length of the longest part of a name after which neither a letter nor a digit
follows. -/
def referenceLength (run : List Char) (next : Option Char) : Nat :=
  match next with
  | some _ => run.length
  | none => run.length - (run.reverse.takeWhile Char.isAlphanum).length - 1

/-- A named reference, read behind its ampersand, and what follows it. An unknown name
stands for itself. -/
def takeNamed? (s : List Char) : Option (List Char × List Char) :=
  match s with
  | first :: _ =>
    let run := s.takeWhile isReferenceChar
    let length := referenceLength run (s.drop run.length).head?
    if first.isAlpha && 0 < length then
      let name := s.take length
      let content :=
        match reference? (String.ofList name) with
        | some characters => characters.toList
        | none => '&' :: name
      some (content, skipSemicolon (s.drop length))
    else none
  | [] => none

/-! ### Markup other than start tags -/

/-- What becomes of a piece of markup: events and the text after it, or nothing yet because
the text ends first. -/
abbrev Scanned := Option (List Event × List Char)

/-- The text behind the next greater-than sign. -/
def afterGreater? (s : List Char) : Option (List Char) :=
  match s.dropWhile (· != '>') with
  | [] => none
  | _ :: rest => some rest

/-- The text behind the first run of the closers, with blanks allowed between them. -/
def afterClosers? (closers : List Char) : List Char → Option (List Char)
  | [] => none
  | c :: rest =>
    match closeAt closers (c :: rest) with
    | some after => some after
    | none => afterClosers? closers rest
where
  /-- The text behind the closers if they stand here. -/
  closeAt : List Char → List Char → Option (List Char)
    | [], s => some s
    | _ :: _, [] => none
    | [closer], c :: rest => if c = closer then some rest else none
    | closer :: closers, c :: rest =>
      if c = closer then closeAt closers (rest.dropWhile Text.isBlank) else none

/-- The text behind a comment, read behind its opening: two hyphens, blanks and a
greater-than sign end it. -/
def afterComment? : List Char → Option (List Char)
  | [] => none
  | c :: rest =>
    match c, rest with
    | '-', '-' :: after =>
      match after.dropWhile Text.isBlank with
      | '>' :: after => some after
      | _ => afterComment? rest
    | _, _ => afterComment? rest

def aside (after : Option (List Char)) : Scanned := after.map fun rest => ([.aside], rest)

/-- The name of a marked section and what follows it, blanks included. -/
def sectionName (s : List Char) : List Char × List Char :=
  let run := s.takeWhile fun c => c.isAlphanum || c = '-' || c = '_' || c = '.'
  (run, (s.drop run.length).dropWhile Text.isBlank)

/-- A marked section, read behind its opening bracket. -/
def scanSection (s : List Char) : Except Rejection Scanned :=
  let (name, rest) := sectionName s
  match s with
  | [] => .ok none
  | first :: _ =>
    if !first.isAlpha then
      .error (.missingName (String.ofList (['<', '!', '['] ++ s.take 17)))
    else if rest.isEmpty then .ok none
    else
      let word := String.ofList (name.map Char.toLower)
      if ["temp", "cdata", "ignore", "include", "rcdata"].contains word then
        .ok (aside (afterClosers? [']', ']', '>'] s))
      else if ["if", "else", "endif"].contains word then
        .ok (aside (afterClosers? [']', '>'] s))
      else .error (.unknownName (String.ofList (s.take (s.length - rest.length))))

/-- An end tag that is well formed, read behind its slash: its name and what follows it. -/
def takeEndTag? (s : List Char) : Option (String × List Char) :=
  let start := s.dropWhile Text.isBlank
  match start with
  | first :: _ =>
    let name := start.takeWhile fun c =>
      c.isAlphanum || c = '-' || c = '.' || c = ':' || c = '_'
    match (start.drop name.length).dropWhile Text.isBlank with
    | '>' :: rest => if first.isAlpha then some (lowered name, rest) else none
    | _ => none
  | [] => none
where
  /-- An ASCII name in small letters. -/
  lowered (name : List Char) : String := String.ofList (name.map Char.toLower)

/-- An end tag, read behind its slash. What stands between a name and the greater-than sign
is ignored, and what has no name is a comment. -/
def scanEndTag (s : List Char) : Scanned := do
  let afterAny ← afterGreater? s
  match takeEndTag? s with
  | some (name, rest) => some ([.endTag name], rest)
  | none =>
    match tagName? s with
    | some (name, after) =>
      let rest ← afterGreater? after.rest
      some ([.endTag (Text.lower (String.ofList name))], rest)
    | none =>
      match s with
      | '>' :: rest => some ([], rest)
      | _ => some ([.aside], afterAny)

/-! ### Scanning -/

/-- What is known between two pieces: the raw element that is open, if any. -/
structure Scan where
  events : List Event
  rest : List Char
  raw : Option String

def Scan.after (events : List Event) (scan : Scan) : Scan :=
  { scan with events := events ++ scan.events }

/-- One step of a scan: it goes on with a shorter text or stops. -/
inductive Step where
  | goOn (events : List Event) (rest : List Char) (raw : Option String)
  | stop (events : List Event) (rest : List Char)

/-- Whether the end tag of a raw element stands here. -/
def endsRaw (name : String) (s : List Char) : Bool :=
  match s with
  | '<' :: '/' :: rest =>
    match takeEndTag? rest with
    | some (found, _) => found == name
    | none => false
  | _ => false

/-- Cut a text where the content of a raw element ends. -/
def splitRaw? (name : String) : List Char → Option (List Char × List Char)
  | [] => none
  | c :: rest =>
    if endsRaw name (c :: rest) then some ([], c :: rest)
    else (splitRaw? name rest).map fun (before, after) => (c :: before, after)

def textEvent (content : List Char) : List Event := if content.isEmpty then [] else [.text content]

/-- Where markup that never ends is cut off as text: behind the next greater-than sign, or
before the next less-than sign, or behind the first character. -/
def cutOpenMarkup (s : List Char) : List Char × List Char :=
  match s with
  | [] => ([], [])
  | c :: rest =>
    match afterGreater? rest with
    | some after => (s.take (s.length - after.length), after)
    | none =>
      match rest.dropWhile (· != '<') with
      | [] => ([c], rest)
      | after => (s.take (s.length - after.length), after)

/-- The events of a start tag, which stands at the front of a text, and the raw element that it
opens. -/
def StartTag.scan (s : List Char) (tag : StartTag) :
    Except ScanFault (List Event × List Char × Option String) :=
  match tag.values.findSome? longReference? with
  | some fault => .error (.numeral fault)
  | none =>
    let rest := tag.after.rest
    match tag.form with
    | .improper => .ok ([.text (s.take (s.length - rest.length))], rest, none)
    | .closed name => .ok ([.emptyTag name], rest, none)
    | .opening name => .ok ([.startTag name], rest, if isRawElement name then some name else none)

/-- Markup that begins with a less-than sign, with the raw element that it opens. `none` if
the text ends first. -/
def scanMarkup (s : List Char) :
    Except ScanFault (Option (List Event × List Char × Option String)) :=
  let plain (scanned : Scanned) := scanned.map fun (events, rest) => (events, rest, none)
  match s with
  | '<' :: '/' :: rest => .ok (plain (scanEndTag rest))
  | '<' :: '!' :: '-' :: '-' :: rest => .ok (plain (aside (afterComment? rest)))
  | '<' :: '?' :: rest => .ok (plain (aside (afterGreater? rest)))
  | '<' :: '!' :: '[' :: rest => ((scanSection rest).map plain).mapError .rejection
  | '<' :: '!' :: rest =>
    if Text.startsWithWord "doctype" (String.ofList (rest.take 7)) then
      .ok (plain (aside (afterGreater? (rest.drop 7))))
    else .ok (plain (aside (afterGreater? rest)))
  | '<' :: first :: rest =>
    if first.isAlpha then (StartTag.read? (first :: rest)).mapM (StartTag.scan s)
    else .ok (some ([.text ['<']], first :: rest, none))
  | _ => .ok none

def scanReference (atEnd : Bool) (s : List Char) : Except ScanFault Step :=
  match s with
  | '&' :: '#' :: rest =>
    match takeNumeric? rest with
    | some (.ok c, rest) => .ok (.goOn [.text [c]] rest none)
    | some (.error fault, _) => .error (.numeral fault)
    | none => .ok (if rest.contains ';' then .stop [.text ['&', '#']] rest else .stop [] s)
  | '&' :: rest =>
    match takeNamed? rest with
    | some (content, rest) => .ok (.goOn [.text content] rest none)
    | none =>
      match rest with
      | [] => .ok (.stop [] s)
      | c :: more =>
        if !c.isAlpha then .ok (.goOn [.text ['&']] rest none)
        else if atEnd && more.isEmpty then .ok (.stop [] rest)
        else .ok (.stop [] s)
  | s => .ok (.stop [] s)

/-- One step of a scan outside raw elements. -/
def scanPiece (atEnd : Bool) (s : List Char) : Except ScanFault Step :=
  match s with
  | '<' :: rest => do
    match ← scanMarkup s with
    | some (events, rest, raw) => return .goOn events rest raw
    | none =>
      if rest.isEmpty || !atEnd then return .stop [] s
      let (content, rest) := cutOpenMarkup s
      return .goOn [.text content] rest none
  | s => scanReference atEnd s

def scanPass (atEnd : Bool) : Nat → Option String → List Char → Except ScanFault Scan
  | 0, raw, s => .ok ⟨[], s, raw⟩
  | _ + 1, raw, [] => .ok ⟨[], [], raw⟩
  | bound + 1, some name, s =>
    match splitRaw? name s with
    | none => .ok ⟨[], s, some name⟩
    | some (content, rest) =>
      match takeEndTag? (rest.drop 2) with
      | some (_, rest) => do
        let scan ← scanPass atEnd bound none rest
        return scan.after (textEvent content ++ [.endTag name])
      | none => .ok ⟨textEvent content, rest, some name⟩
  | bound + 1, none, s =>
    let content := s.takeWhile fun c => c != '<' && c != '&'
    let markup := s.drop content.length
    match markup with
    | [] => .ok ⟨textEvent content, [], none⟩
    | _ => do
      match ← scanPiece atEnd markup with
      | .stop events rest => return ⟨textEvent content ++ events, rest, none⟩
      | .goOn events rest raw =>
        let scan ← scanPass atEnd bound raw rest
        return scan.after (textEvent content ++ events)

/-- The events of a page text. What the second pass leaves is text, unless a raw element is
open. -/
def Event.scan (html : String) : Except ScanFault (List Event) := do
  let s := html.toList
  let first ← scanPass false (s.length + 1) none s
  let second ← scanPass true (first.rest.length + 1) first.raw first.rest
  let remainder := if second.raw.isSome then [] else textEvent second.rest
  return first.events ++ second.events ++ remainder

end TemplateFill.Html
