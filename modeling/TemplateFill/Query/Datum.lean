import TemplateFill.Data.Writer
import TemplateFill.Number.Numeral
import TemplateFill.Number.Quantity
import TemplateFill.Query.Syntax

/-!
# Values of queries

A query yields more than plain data: a reference to a query is a value too, and the keys of an
object that a query puts together can be any values without parts. Two things that look alike
need not be the same: every evaluation of a reference makes a new one, and so does every
operation that yields the value that is no number. A mark tells them apart.
-/

namespace TemplateFill

open Data (Json)

/-- Tells apart what looks alike. -/
abbrev Mark := Nat

/-- A value without parts. The mark of a double only matters if it is no number; the one that
plain data holds has the mark zero. -/
inductive Atom where
  | null
  | bool (b : Bool)
  | int (n : Int)
  | float (x : Float) (mark : Mark)
  | text (s : String)
  | reference (target : Query) (mark : Mark)

/-- A value that a query can yield. -/
inductive Datum where
  | atom (a : Atom)
  | list (items : List Datum)
  | object (members : List (Atom × Datum))

instance : Inhabited Datum := ⟨.atom .null⟩

namespace Atom

def quantity? : Atom → Option Number.Quantity
  | .int n => some (.whole n)
  | .float x _ => some (.real x)
  | _ => none

/-- The number that an atom counts as in a comparison, where a truth value is one or zero. -/
def measure? : Atom → Option Number.Quantity
  | .bool b => some (.whole (if b then 1 else 0))
  | a => a.quantity?

/-- Equality of two atoms. Numbers are compared by size across kinds, references by their marks,
and the value that is no number differs from itself. -/
def equal : Atom → Atom → Bool
  | .null, .null => true
  | .text s, .text t => s == t
  | .reference _ mark, .reference _ other => mark == other
  | a, b =>
    match a.measure?, b.measure? with
    | some p, some q => p.equal q
    | _, _ => false

/-- Equality of keys and inside containers: as `equal`, but everything is the same as itself. -/
def same : Atom → Atom → Bool
  | .float x mark, .float y other => x == y || (x.isNaN && y.isNaN && mark == other)
  | a, b => a.equal b

def kindName : Atom → String
  | .null => "NoneType"
  | .bool _ => "bool"
  | .int _ => "int"
  | .float _ _ => "float"
  | .text _ => "str"
  | .reference _ _ => "_Expression"

/-- Null, false, zero and the empty text do not hold. -/
def holds : Atom → Bool
  | .null => false
  | .bool b => b
  | .int n => n != 0
  | .float x _ => x != 0
  | .text s => !s.isEmpty
  | .reference _ _ => true

/-- A mark above that of an atom and above that of plain data. -/
def nextMark : Atom → Mark
  | .float _ mark => mark + 1
  | .reference _ mark => mark + 1
  | _ => 1

def referenceText : String := "<expression>"

/-- An atom as it is shown inside a message, where texts are quoted. -/
def shown : Atom → String
  | .null => "None"
  | .bool b => if b then "True" else "False"
  | .int n => toString n
  | .float x _ => Number.floatText Number.plainNames x
  | .text s => Text.quoted s
  | .reference _ _ => referenceText

/-- Whether an atom is a number with more digits than are ever written. -/
def isOverLimit : Atom → Bool
  | .int n => Number.isOverLimit n
  | _ => false

end Atom

namespace Datum

/-! ### Values without parts -/

@[match_pattern] abbrev null : Datum := .atom .null
@[match_pattern] abbrev bool (b : Bool) : Datum := .atom (.bool b)
@[match_pattern] abbrev int (n : Int) : Datum := .atom (.int n)
@[match_pattern] abbrev float (x : Float) (mark : Mark) : Datum := .atom (.float x mark)
@[match_pattern] abbrev text (s : String) : Datum := .atom (.text s)
@[match_pattern] abbrev reference (target : Query) (mark : Mark) : Datum :=
  .atom (.reference target mark)

def quantity? : Datum → Option Number.Quantity
  | .atom a => a.quantity?
  | _ => none

/-- Null, false, zero, and what is empty do not hold. -/
def holds : Datum → Bool
  | .atom a => a.holds
  | .list items => !items.isEmpty
  | .object members => !members.isEmpty

def kindName : Datum → String
  | .atom a => a.kindName
  | .list _ => "list"
  | .object _ => "dict"

/-- The value of the member of an object that has a text for a key. -/
def member? (name : String) : Datum → Option Datum
  | .object members => Data.Members.find? Atom.same members (.text name)
  | _ => none

/-- The object of some members, of which a later one replaces an earlier one. -/
def ofMembers (members : List (Atom × Datum)) : Datum :=
  .object (Data.Members.putAll Atom.same [] members)

/-! ### Equality -/

mutual

/-- Equality inside a container, with some room for containers inside each other; `none` if it is
not enough. Members are compared without regard to their order. -/
def same : Nat → Datum → Datum → Option Bool
  | _, .atom a, .atom b => some (a.same b)
  | 0, .list _, .list _ => none
  | 0, .object _, .object _ => none
  | room + 1, .list items, .list others =>
    if items.length = others.length then sameItems room items others else some false
  | room + 1, .object members, .object others =>
    if members.length = others.length then sameMembers room members others else some false
  | _, _, _ => some false

def sameItems : Nat → List Datum → List Datum → Option Bool
  | room, v :: items, w :: others =>
    match same room v w with
    | some true => sameItems room items others
    | result => result
  | _, [], [] => some true
  | _, _, _ => some false

/-- Every member of the first list is in the second, with the same value. -/
def sameMembers : Nat → List (Atom × Datum) → List (Atom × Datum) → Option Bool
  | _, [], _ => some true
  | room, (key, v) :: members, others =>
    match Data.Members.find? Atom.same others key with
    | none => some false
    | some w =>
      match same room v w with
      | some true => sameMembers room members others
      | result => result

end

/-- Equality of two values, each of which stands alone. -/
def equal (room : Nat) : Datum → Datum → Option Bool
  | .atom a, .atom b => some (a.equal b)
  | v, w => v.same room w

/-! ### Marks -/

mutual

/-- A mark above those in a value and above that of plain data. -/
def nextMark : Datum → Mark
  | .atom a => a.nextMark
  | .list items => nextMarkOfItems items
  | .object members => nextMarkOfMembers members

def nextMarkOfItems : List Datum → Mark
  | [] => 1
  | v :: items => max v.nextMark (nextMarkOfItems items)

def nextMarkOfMembers : List (Atom × Datum) → Mark
  | [] => 1
  | (key, v) :: members => max (max key.nextMark v.nextMark) (nextMarkOfMembers members)

end

/-! ### Showing -/

mutual

/-- A value as it is shown inside a message: texts quoted, members in braces. -/
def shown : Datum → String
  | .atom a => a.shown
  | .list items => "[" ++ shownItems items ++ "]"
  | .object members => "\x7b" ++ shownMembers members ++ "\x7d"

def shownItems : List Datum → String
  | [] => ""
  | v :: items => shown v ++ (if items.isEmpty then "" else ", " ++ shownItems items)

def shownMembers : List (Atom × Datum) → String
  | [] => ""
  | (key, v) :: members =>
    key.shown ++ ": " ++ shown v ++
      (if members.isEmpty then "" else ", " ++ shownMembers members)

end

/-- A value as it is shown on its own, where a text needs no quotes. -/
def shownAlone : Datum → String
  | .text s => s
  | v => shown v

/-! ### Plain data -/

mutual

def ofJson : Json → Datum
  | .null => .null
  | .bool b => .bool b
  | .int n => .int n
  | .float x => .float x 0
  | .text s => .text s
  | .list items => .list (ofJsonItems items)
  | .object members => .object (ofJsonMembers members)

def ofJsonItems : List Json → List Datum
  | [] => []
  | v :: items => ofJson v :: ofJsonItems items

def ofJsonMembers : List (String × Json) → List (Atom × Datum)
  | [] => []
  | (key, v) :: members => (.text key, ofJson v) :: ofJsonMembers members

end

/-- Why a value is no plain data, or is not shown. -/
inductive Obstacle where
  /-- A whole number in it has too many digits. -/
  | tooLarge
  /-- There is a reference in it. -/
  | reference
  /-- A reference is the key of a member. -/
  | referenceKey
  /-- There is no room for its containers inside each other. -/
  | tooDeep
  deriving Repr, DecidableEq

def Obstacle.message : Obstacle → String
  | .tooLarge => Number.NumeralFault.tooLarge.message
  | .reference => "Object of type _Expression is not JSON serializable"
  | .referenceKey => "keys must be str, int, float, bool or None, not _Expression"
  | .tooDeep => "maximum recursion depth exceeded"

mutual

/-- The first obstacle to showing a value, with some room for containers inside each other. -/
def obstacle? : Nat → Datum → Option Obstacle
  | _, .atom a => if a.isOverLimit then some .tooLarge else none
  | 0, .list _ => some .tooDeep
  | 0, .object _ => some .tooDeep
  | room + 1, .list items => obstacleAmong? room items
  | room + 1, .object members => obstacleAmongMembers? room members

def obstacleAmong? : Nat → List Datum → Option Obstacle
  | _, [] => none
  | room, v :: items => obstacle? room v <|> obstacleAmong? room items

def obstacleAmongMembers? : Nat → List (Atom × Datum) → Option Obstacle
  | _, [] => none
  | room, (key, v) :: members =>
    (if key.isOverLimit then some .tooLarge else none) <|> obstacle? room v <|>
      obstacleAmongMembers? room members

end

/-- Whether a value can be shown in some room. -/
def fits (room : Nat) (v : Datum) : Bool := (v.obstacle? room).isNone

def keyText : Atom → Except Obstacle String
  | .null => .ok "null"
  | .bool b => .ok (if b then "true" else "false")
  | .int n => if Number.isOverLimit n then .error .tooLarge else .ok (toString n)
  | .float x _ => .ok (Number.floatText Number.dataNames x)
  | .text s => .ok s
  | .reference _ _ => .error .referenceKey

/-- The plain data that an atom becomes, given what becomes of references. -/
def plainAtom (onReference : Except Obstacle Json) : Atom → Except Obstacle Json
  | .null => .ok .null
  | .bool b => .ok (.bool b)
  | .int n => if Number.isOverLimit n then .error .tooLarge else .ok (.int n)
  | .float x _ => .ok (.float x)
  | .text s => .ok (.text s)
  | .reference _ _ => onReference

mutual

/-- The plain data that a value becomes, given what becomes of references and the room for
containers inside each other, or the first obstacle to that. Keys that become the same text all
stay. -/
def toJson (onReference : Except Obstacle Json) : Nat → Datum → Except Obstacle Json
  | _, .atom a => plainAtom onReference a
  | 0, .list _ => .error .tooDeep
  | 0, .object _ => .error .tooDeep
  | room + 1, .list items => (toJsonItems onReference room items).map .list
  | room + 1, .object members => (toJsonMembers onReference room members).map .object

def toJsonItems (onReference : Except Obstacle Json) :
    Nat → List Datum → Except Obstacle (List Json)
  | _, [] => .ok []
  | room, v :: items => do
    return (← toJson onReference room v) :: (← toJsonItems onReference room items)

def toJsonMembers (onReference : Except Obstacle Json) :
    Nat → List (Atom × Datum) → Except Obstacle (List (String × Json))
  | _, [] => .ok []
  | room, (key, v) :: members => do
    let name ← keyText key
    let value ← toJson onReference room v
    return (name, value) :: (← toJsonMembers onReference room members)

end

end Datum

end TemplateFill
