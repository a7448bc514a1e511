/-!
# Plain data

A data text denotes null, a truth value, a number, a text, a list, or an object, whose keys
are texts and whose members stand in the order in which the keys were first set.
-/

namespace TemplateFill.Data

/-! ### Members

The operations take the equality of keys as an argument, because keys can be the same without
being alike. -/

namespace Members

variable {κ α : Type}

def find? (same : κ → κ → Bool) (members : List (κ × α)) (key : κ) : Option α :=
  (members.find? fun member => same member.1 key).map (·.2)

/-- Set a member: a new one goes to the end, an old one keeps its place and its key. -/
def put (same : κ → κ → Bool) (members : List (κ × α)) (key : κ) (value : α) : List (κ × α) :=
  if members.any fun member => same member.1 key then
    members.map fun member => if same member.1 key then (member.1, value) else member
  else members ++ [(key, value)]

/-- Set the members of `extra` one after the other. -/
def putAll (same : κ → κ → Bool) (members extra : List (κ × α)) : List (κ × α) :=
  extra.foldl (fun members member => put same members member.1 member.2) members

end Members

/-! ### Values -/

/-- Plain data. -/
inductive Json where
  | null
  | bool (b : Bool)
  | int (n : Int)
  | float (x : Float)
  | text (s : String)
  | list (items : List Json)
  | object (members : List (String × Json))
  deriving Inhabited

namespace Json

/-- The object of some members, of which a later one replaces an earlier one. -/
def ofMembers (members : List (String × Json)) : Json :=
  .object (Members.putAll (· == ·) [] members)

def member? (key : String) : Json → Option Json
  | .object members => Members.find? (· == ·) members key
  | _ => none

def kindName : Json → String
  | .null => "NoneType"
  | .bool _ => "bool"
  | .int _ => "int"
  | .float _ => "float"
  | .text _ => "str"
  | .list _ => "list"
  | .object _ => "dict"

end Json

end TemplateFill.Data
