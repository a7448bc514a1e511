import TemplateFill.Xml.Character
import TemplateFill.Data.Reader

/-!
# References

A reference stands for the character with a number, for one of five characters that have
names, or for an entity, whose name is declared elsewhere.
-/

namespace TemplateFill.Xml

/-- A character of a text, or an entity that is referred to. -/
inductive Piece where
  | char (c : Char)
  | entity (name : String)
  deriving Repr, DecidableEq

def numberedCharacter? (base : Nat) (digits : List Char) : Option Char := do
  let values ← digits.mapM Data.hexValue?
  if values.isEmpty || values.any (base ≤ ·) then none
  let number := values.foldl (fun n digit => n * base + digit) 0
  if 0x110000 ≤ number || (0xD800 ≤ number && number < 0xE000) then none
  if isWritable (Char.ofNat number) then some (Char.ofNat number) else none

/-- The character that a reference by number stands for, given what is behind its number
sign. -/
def characterOfNumber? : List Char → Option Char
  | 'x' :: digits => numberedCharacter? 16 digits
  | digits => numberedCharacter? 10 digits

def pieceOfName (name : String) : Piece :=
  match namedCharacter? name with
  | some c => .char c
  | none => .entity name

/-- A reference, read behind its ampersand, and what follows it. -/
def takeReference? (s : List Char) : Option (Piece × List Char) := do
  let (inside, rest) ← splitAtMark? [';'] s
  match inside with
  | '#' :: number => return (.char (← characterOfNumber? number), rest)
  | inside =>
    match takeName? inside with
    | some (name, []) => return (pieceOfName name, rest)
    | _ => none

/-- The pieces of a text whose length is at most the bound. -/
def piecesWithin? : Nat → List Char → Option (List Piece)
  | _, [] => some []
  | 0, _ => none
  | bound + 1, '&' :: rest => do
    let (piece, rest) ← takeReference? rest
    return piece :: (← piecesWithin? bound rest)
  | bound + 1, c :: rest =>
    if isWritable c then (piecesWithin? bound rest).map (.char c :: ·) else none

/-- The pieces of a text. `none` if a reference in it is malformed or a character cannot be
written. -/
def pieces? (s : List Char) : Option (List Piece) := piecesWithin? s.length s

end TemplateFill.Xml
