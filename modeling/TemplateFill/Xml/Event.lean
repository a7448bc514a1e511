import TemplateFill.Xml.Doctype.Declarations

/-!
# Events

Written markup is a sequence of events: elements start and finish, and text and asides stand
between. Scanning turns a text into its events and resolves references and line breaks; it does
not look at how events nest.

Literal text comes in runs, because a blank run may be layout, and whether it is depends on what
follows it. A text is one run up to its first character that is not ASCII or a lone carriage
return, and another one from there on; the first part is also cut at line breaks of two
characters.
-/

namespace TemplateFill.Xml

/-- What a run of text ends at. -/
inductive RunEnd where
  /-- Markup, or the end of everything. -/
  | markup
  | lineBreak
  /-- A reference, or a character that is not ASCII. -/
  | other
  deriving Repr, DecidableEq

/-- One piece of markup. Names are as written, with their tags. -/
inductive Event where
  /-- An element starts; it also finishes at once if it is empty. -/
  | start (tag : StartTag) (isEmpty : Bool)
  | finish (name : String)
  /-- Literal text. -/
  | run (content : String) (ending : RunEnd)
  /-- Text that is never layout, from a reference or a section of data. -/
  | fixed (content : String)
  /-- A reference to an entity, which is not followed. -/
  | entity (name : String)
  | comment (content : String)
  | instruction (target content : String)
  deriving Repr, DecidableEq

namespace Event

/-- The values that an event gives to tell an element from all others. -/
def ids : Event → List String
  | .start tag _ => tag.ids
  | _ => []

/-! ### Literal text -/

/-- Whether a run goes on over a character. -/
def isPlain (c : Char) : Bool :=
  let n := c.toNat
  n = 0x9 || n = 0xA || (0x20 ≤ n && n ≤ 0x7F)

/-- Put a character in front of the first one of some texts. -/
def consFirst (c : Char) : List (List Char) → List (List Char)
  | [] => [[c]]
  | first :: more => (c :: first) :: more

/-- The runs of a text, which may be empty. Line breaks become line feeds. -/
def cutRuns : List Char → List (List Char)
  | [] => [[]]
  | '\r' :: '\n' :: rest =>
    if rest.head?.all isPlain then [] :: consFirst '\n' (cutRuns rest)
    else [[], Text.unifyBreaks ('\n' :: rest)]
  | c :: rest =>
    if isPlain c then consFirst c (cutRuns rest) else [[], Text.unifyBreaks (c :: rest)]

def endOf (following : List Char) : RunEnd :=
  if following.head? = some '\n' then .lineBreak else .other

/-- The events of some runs, the last of which ends at a given place. Empty runs are none. -/
def ofRuns (ending : RunEnd) : List (List Char) → List Event
  | [] => []
  | content :: more =>
    let ending := match more with
      | [] => ending
      | following :: _ => endOf following
    let event := if content.isEmpty then [] else [.run (String.ofList content) ending]
    event ++ ofRuns ending more

def isLiteral (c : Char) : Bool := c != '<' && c != '&'

/-- The events of the literal text in front, and what follows it. The end of a section of data
may not stand in it. -/
def takeText? (s : List Char) : Option (List Event × List Char) :=
  let text := s.takeWhile isLiteral
  let rest := s.dropWhile isLiteral
  if (splitAtMark? [']', ']', '>'] text).isSome || !text.all isWritable then none
  else
    let ending := if rest.head? = some '&' then RunEnd.other else .markup
    some (ofRuns ending (cutRuns text), rest)

/-! ### Markup -/

def takeAttributes? (doctype : Doctype) :
    Nat → List Char → Option (List WrittenAttribute × List Char)
  | 0, _ => none
  | bound + 1, s =>
    match skipSpace s with
    | '>' :: rest => some ([], '>' :: rest)
    | '/' :: rest => some ([], '/' :: rest)
    | _ => do
      let (name, rest) ← takeName? (← afterSpace? s)
      match skipSpace rest with
      | '=' :: rest => do
        let (raw, rest) ← takeQuoted? (skipSpace rest)
        let first ← doctype.readAttribute? name raw
        let (attributes, rest) ← takeAttributes? doctype bound rest
        return (first :: attributes, rest)
      | _ => none

/-- The start of an element, read behind its bracket, and what follows it. -/
def takeStart? (doctype : Doctype) (s : List Char) : Option (Event × List Char) := do
  let (name, rest) ← takeName? s
  let (written, rest) ← takeAttributes? doctype (rest.length + 1) rest
  if !(written.map (·.name)).Nodup then none
  let tag := doctype.startTag name written
  match rest with
  | '>' :: rest => return (.start tag false, rest)
  | '/' :: '>' :: rest => return (.start tag true, rest)
  | _ => none

/-- The end of an element, read behind its slash, and what follows it. -/
def takeFinish? (s : List Char) : Option (Event × List Char) := do
  let (name, rest) ← takeName? s
  match skipSpace rest with
  | '>' :: rest => return (.finish name, rest)
  | _ => none

/-- A section of data, read behind its opening, and what follows it. -/
def takeSection? (s : List Char) : Option (Event × List Char) := do
  let (content, rest) ← splitAtMark? [']', ']', '>'] s
  if content.all isWritable then
    return (.fixed (String.ofList (Text.unifyBreaks content)), rest)
  else none

/-- A comment, read behind its opening, and what follows it. -/
def takeComment? (s : List Char) : Option (Event × List Char) := do
  let (content, rest) ← Doctype.takeComment? s
  return (.comment (String.ofList (Text.unifyBreaks content)), rest)

/-- An instruction, read behind its opening, and what follows it. -/
def takeInstruction? (s : List Char) : Option (Event × List Char) := do
  let (target, content, rest) ← Doctype.takeInstruction? s
  return (.instruction target (String.ofList (Text.unifyBreaks content)), rest)

/-- A reference, read behind its ampersand, and what follows it. -/
def takeReference? (doctype : Doctype) (s : List Char) : Option (Event × List Char) := do
  match ← Xml.takeReference? s with
  | (.char c, rest) => return (.fixed c.toString, rest)
  | (.entity name, rest) => if doctype.allows name then return (.entity name, rest) else none

/-- The events at the front of a text, and what follows them. -/
def takeNext? (doctype : Doctype) (s : List Char) : Option (List Event × List Char) :=
  let single (event : Option (Event × List Char)) : Option (List Event × List Char) :=
    event.map fun (event, rest) => ([event], rest)
  match afterWord? "<!--" s, afterWord? "<![CDATA[" s, s with
  | some rest, _, _ => single (takeComment? rest)
  | _, some rest, _ => single (takeSection? rest)
  | _, _, '<' :: '?' :: rest => single (takeInstruction? rest)
  | _, _, '<' :: '/' :: rest => single (takeFinish? rest)
  | _, _, '<' :: rest => single (takeStart? doctype rest)
  | _, _, '&' :: rest => single (takeReference? doctype rest)
  | _, _, s => takeText? s

/-- The events of a text whose length is at most the bound. -/
def scanWithin (doctype : Doctype) : Nat → List Char → Option (List Event)
  | _, [] => some []
  | 0, _ => none
  | bound + 1, s => do
    let (events, rest) ← takeNext? doctype s
    return events ++ (← scanWithin doctype bound rest)

def scan (doctype : Doctype) (s : List Char) : Option (List Event) :=
  scanWithin doctype s.length s

/-! ### Entities -/

/-- Whether every element that starts also finishes, given those that are open. -/
def isBalanced : List String → List Event → Bool
  | opened, [] => opened.isEmpty
  | opened, .start tag isEmpty :: rest =>
    isBalanced (if isEmpty then opened else tag.name :: opened) rest
  | [], .finish _ :: _ => false
  | name :: opened, .finish written :: rest => name == written && isBalanced opened rest
  | opened, _ :: rest => isBalanced opened rest

def isContent (doctype : Doctype) (content : List Char) : Bool :=
  (scan doctype content).any (isBalanced [])

/-- The document type with the entities that are broken. At first all of them are taken to be, so
that none is content because of itself; each round finds those that are not. -/
def findBroken (doctype : Doctype) : Nat → Doctype
  | 0 => { doctype with broken := doctype.entities.map (·.1) }
  | rounds + 1 =>
    let known := findBroken doctype rounds
    let isBroken (value : EntityValue) : Bool :=
      match value with
      | .text content => !isContent known content
      | _ => false
    { known with broken := (known.entities.filter (isBroken ·.2)).map (·.1) }

/-! ### Documents -/

/-- Pass over what may stand outside the root of a document: blanks, comments and instructions.
The first argument is how many elements are open. -/
def withinRoot? : Nat → List Event → Option (List Event)
  | _, [] => some []
  | depth, .start tag isEmpty :: rest => do
    let depth := if isEmpty then depth else depth + 1
    return .start tag isEmpty :: (← withinRoot? depth rest)
  | depth, .finish name :: rest => do return .finish name :: (← withinRoot? (depth - 1) rest)
  | depth + 1, event :: rest => do return event :: (← withinRoot? (depth + 1) rest)
  | 0, .comment _ :: rest => withinRoot? 0 rest
  | 0, .instruction _ _ :: rest => withinRoot? 0 rest
  | 0, .run content _ :: rest => if content.toList.all isSpace then withinRoot? 0 rest else none
  | 0, _ => none

/-- Pass over blanks, comments and instructions. -/
def skipAsides? : Nat → List Char → Option (List Char)
  | 0, _ => none
  | bound + 1, s =>
    let s := skipSpace s
    match afterWord? "<!--" s, afterWord? "<?" s with
    | some rest, _ => do skipAsides? bound (← Doctype.takeComment? rest).2
    | _, some rest => do skipAsides? bound (← Doctype.takeInstruction? rest).2.2
    | _, _ => some s

/-- The events of the root of a document, read behind its declaration. Its type may be declared
in front of it. -/
def scanDocument (isStandalone : Bool) (s : List Char) : Option (List Event) := do
  let front ← skipAsides? (s.length + 1) s
  let (doctype, rest) ←
    match afterWord? "<!DOCTYPE" front with
    | none => pure (Doctype.empty isStandalone, front)
    | some rest => Doctype.take? isStandalone rest
  withinRoot? 0 (← scan (findBroken doctype doctype.entities.length) rest)

end Event

end TemplateFill.Xml
