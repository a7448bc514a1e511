import TemplateFill.Data.Json
import TemplateFill.Number.Notation
import TemplateFill.Text.Quoted

/-!
# Writing data texts

A data value is written as a data text in one of two layouts: indented by two spaces
per level with every character of a text written as itself, or on one line without
blanks and in ASCII. In both, quotes, backslashes and control characters are escaped and
empty containers have no inside.
-/

namespace TemplateFill.Data

structure Layout where
  /-- Spaces for each level, or a single line. -/
  indent : Option Nat
  /-- What stands between a key and its value. -/
  colon : String
  /-- Whether characters outside ASCII are escaped. -/
  asciiOnly : Bool

/-- Indented by two spaces, for reading. -/
def Layout.indented : Layout := ⟨some 2, ": ", false⟩

def Layout.compact : Layout := ⟨none, ":", true⟩

def escapeUnit (n : Nat) : List Char := ['\\', 'u'] ++ Text.hexDigits 4 n

/-- One character inside the quotes of a data text. -/
def escapeChar (asciiOnly : Bool) (c : Char) : List Char :=
  if c = '"' then ['\\', '"']
  else if c = '\\' then ['\\', '\\']
  else if c = '\n' then ['\\', 'n']
  else if c = '\r' then ['\\', 'r']
  else if c = '\t' then ['\\', 't']
  else if c.toNat = 0x8 then ['\\', 'b']
  else if c.toNat = 0xC then ['\\', 'f']
  else if c.toNat < 0x20 then escapeUnit c.toNat
  else if asciiOnly && 0x7E < c.toNat then
    if c.toNat < 0x10000 then escapeUnit c.toNat
    else
      let offset := c.toNat - 0x10000
      escapeUnit (0xD800 + offset / 0x400) ++ escapeUnit (0xDC00 + offset % 0x400)
  else [c]

def writeText (asciiOnly : Bool) (s : String) : List Char :=
  ['"'] ++ s.toList.flatMap (escapeChar asciiOnly) ++ ['"']

def Layout.lineAt (layout : Layout) (level : Nat) : List Char :=
  match layout.indent with
  | some width => '\n' :: List.replicate (width * level) ' '
  | none => []

namespace Json

mutual

/-- The data text of a value that starts at the given level. -/
def write (layout : Layout) (level : Nat) : Json → List Char
  | .null => ['n', 'u', 'l', 'l']
  | .bool true => ['t', 'r', 'u', 'e']
  | .bool false => ['f', 'a', 'l', 's', 'e']
  | .int n => (toString n).toList
  | .float x => (Number.floatText Number.dataNames x).toList
  | .text s => writeText layout.asciiOnly s
  | .list [] => ['[', ']']
  | .list (item :: items) =>
    ['['] ++ layout.lineAt (level + 1) ++ write layout (level + 1) item ++
      writeItems layout (level + 1) items ++ layout.lineAt level ++ [']']
  | .object [] => ['{', '}']
  | .object ((key, value) :: members) =>
    ['{'] ++ layout.lineAt (level + 1) ++ writeText layout.asciiOnly key ++
      layout.colon.toList ++ write layout (level + 1) value ++
      writeMembers layout (level + 1) members ++ layout.lineAt level ++ ['}']

/-- The items after the first, each behind its comma. -/
def writeItems (layout : Layout) (level : Nat) : List Json → List Char
  | [] => []
  | item :: items =>
    [','] ++ layout.lineAt level ++ write layout level item ++ writeItems layout level items

/-- The members after the first, each behind its comma. -/
def writeMembers (layout : Layout) (level : Nat) : List (String × Json) → List Char
  | [] => []
  | (key, value) :: members =>
    [','] ++ layout.lineAt level ++ writeText layout.asciiOnly key ++ layout.colon.toList ++
      write layout level value ++ writeMembers layout level members

end

def compactText (v : Json) : String := String.ofList (v.write .compact 0)

def indentedText (v : Json) : String := String.ofList (v.write .indented 0)

end Json

end TemplateFill.Data
