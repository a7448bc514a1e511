import TemplateFill.Text.Blank
import TemplateFill.Text.Case

/-!
# Start tags

Where a start tag ends and whether it closes itself. Attributes matter because a greater-than
sign inside a quoted value does not end the tag, and because of the references in their values.
A tag is read twice: once to
find its end, where any slashes may stand before the first attribute, and once to see what
is left before the end, where a slash in front of the greater-than sign stays.
-/

namespace TemplateFill.Html

/-- A place in a text: the character before it, and the text from it on. -/
structure Cursor where
  before : Char
  rest : List Char
  deriving Repr, DecidableEq

namespace Cursor

/-- Whether one cursor stands before another one in the same text. -/
def isBefore (a b : Cursor) : Bool := b.rest.length < a.rest.length

def upTo (a b : Cursor) : List Char := a.rest.take (a.rest.length - b.rest.length)

/-- Move past the characters that satisfy `p`. -/
def skipWhile (p : Char → Bool) : Cursor → Cursor
  | ⟨before, rest⟩ => go before rest
where
  /-- The cursor after the characters that satisfy the condition. -/
  go (before : Char) : List Char → Cursor
    | [] => ⟨before, []⟩
    | c :: rest => if p c then go c rest else ⟨before, c :: rest⟩

/-- Move past blanks, and past slashes that do not stand before a greater-than sign. -/
def skipGap : Cursor → Cursor
  | ⟨before, rest⟩ => go before rest
where
  /-- The cursor after the gap. -/
  go (before : Char) : List Char → Cursor
    | [] => ⟨before, []⟩
    | '/' :: '>' :: rest => ⟨before, '/' :: '>' :: rest⟩
    | c :: rest => if c = '/' || Text.isBlank c then go c rest else ⟨before, c :: rest⟩

end Cursor

def isTagNameChar (c : Char) : Bool :=
  !(c = '\t' || c = '\n' || c = '\r' || c.toNat = 0xC || c = ' ' || c = '/' || c = '>' ||
    c.toNat = 0)

/-- The name of a tag, which begins with an ASCII letter, and the cursor after it. -/
def tagName? : List Char → Option (List Char × Cursor)
  | c :: rest =>
    if c.isAlpha then
      let after := Cursor.skipWhile isTagNameChar ⟨c, rest⟩
      some ((Cursor.mk c (c :: rest)).upTo after, after)
    else none
  | [] => none

/-- A quoted text and the cursor after it, given its quote; `none` if it is not closed. -/
def takeQuoted? (quote : Char) (s : List Char) : Option (List Char × Cursor) :=
  match s.dropWhile (· != quote) with
  | [] => none
  | _ :: rest => some (s.takeWhile (· != quote), ⟨quote, rest⟩)

def takeBare (start : Cursor) : List Char × Cursor :=
  let after := start.skipWhile fun c => c != '>' && !Text.isBlank c
  (start.upTo after, after)

/-- The value of an attribute and the cursor after it, given the cursor after its name. A value
is quoted or bare. If a quote is not closed, the value is empty when a blank comes before the
quote; it begins at the last of several equals signs when there are any; and otherwise the
attribute has no value, which is as good as an empty one. -/
def takeValue (start : Cursor) : List Char × Cursor :=
  let signs := start.skipWhile Text.isBlank
  let afterSigns := signs.skipWhile (· = '=')
  let count := signs.rest.length - afterSigns.rest.length
  let value := afterSigns.skipWhile Text.isBlank
  match count, value.rest with
  | 0, _ => ([], start)
  | _ + 1, quote :: rest =>
    if quote = '"' || quote = '\'' then
      match takeQuoted? quote rest with
      | some taken => taken
      | none =>
        if afterSigns.isBefore value then ([], value)
        else if 1 < count then takeBare ⟨'=', '=' :: value.rest⟩
        else ([], start)
    else takeBare value
  | _ + 1, [] => ([], value)

/-- The value of an attribute, and the cursor after the attribute and the gap behind it. An
attribute must come after a blank, a slash or a quote. -/
def takeAttribute? (start : Cursor) : Option (List Char × Cursor) :=
  let separated := Text.isBlank start.before ||
    start.before = '/' || start.before = '\'' || start.before = '"'
  match start.rest with
  | c :: rest =>
    if separated && !(Text.isBlank c || c = '/' || c = '>') then
      let name := Cursor.skipWhile
        (fun c => !(Text.isBlank c || c = '/' || c = '=' || c = '>')) ⟨c, rest⟩
      let (value, after) := takeValue name
      some (value, after.skipGap)
    else none
  | [] => none

/-- The values of the attributes that begin before the cursor stands at `stop`, at most as many
as the bound, and the cursor after them. -/
def takeAttributes (stop : Cursor → Bool) : Nat → Cursor → List (List Char) × Cursor
  | 0, cursor => ([], cursor)
  | bound + 1, cursor =>
    if stop cursor then ([], cursor)
    else
      match takeAttribute? cursor with
      | some (value, after) =>
        let (values, last) := takeAttributes stop bound after
        (value :: values, last)
      | none => ([], cursor)

inductive TagForm where
  /-- It is none, and its text is plain. -/
  | improper
  | opening (name : String)
  /-- It also ends the element. -/
  | closed (name : String)
  deriving Repr, DecidableEq

/-- A start tag: its form, the values of its attributes, and the cursor after it. -/
structure StartTag where
  form : TagForm
  values : List (List Char)
  after : Cursor

/-- The cursor behind a tag whose name and attributes end at `cursor`; `none` if the text
ends first. -/
def tagEnd? (cursor : Cursor) : Option Cursor :=
  match cursor.rest with
  | [] => none
  | '>' :: rest => some ⟨'>', rest⟩
  | '/' :: '>' :: rest => some ⟨'>', rest⟩
  | c :: _ => if c.isAlpha || c = '=' || c = '/' then none else some cursor

/-- Read a start tag from the text behind its less-than sign; `none` if the text ends in it. -/
def StartTag.read? (s : List Char) : Option StartTag := do
  let (name, afterName) ← tagName? s
  let first := afterName.skipWhile fun c => c = '/' || Text.isBlank c
  let (_, attributesEnd) := takeAttributes (fun _ => false) s.length first
  let after ← tagEnd? (attributesEnd.skipWhile Text.isBlank)
  let (values, last) :=
    takeAttributes (fun cursor => !cursor.isBefore after) s.length afterName.skipGap
  let form :=
    match Text.trim (last.upTo after) with
    | ['>'] => .opening (Text.lower (String.ofList name))
    | ['/', '>'] => .closed (Text.lower (String.ofList name))
    | _ => .improper
  return ⟨form, values, after⟩

end TemplateFill.Html
