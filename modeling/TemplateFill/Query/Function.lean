import TemplateFill.Query.Fault
import TemplateFill.Query.Sorting
import TemplateFill.Number.Scientific

/-!
# Functions of queries

Every function states what kinds of arguments it takes; arguments are checked before it
runs. A list may be asked to have items of one kind only, and where several kinds of items
are allowed its first item decides between them. Functions that take a reference get the
way to evaluate it as an argument of their own.
-/

namespace TemplateFill.Query

open Data (Json)
open Number (Quantity)

/-- The kinds of values, as signatures know them. -/
inductive Kind where
  | boolean
  | array
  | object
  | null
  | string
  | number
  | reference
  deriving Repr, DecidableEq

def Kind.name : Kind → String
  | .boolean => "boolean"
  | .array => "array"
  | .object => "object"
  | .null => "null"
  | .string => "string"
  | .number => "number"
  | .reference => "expref"

def kindOf : Datum → Kind
  | .null => .null
  | .bool _ => .boolean
  | .int _ => .number
  | .float _ _ => .number
  | .text _ => .string
  | .list _ => .array
  | .object _ => .object
  | .reference _ _ => .reference

/-- What a parameter accepts: a kind of values, or lists whose items are of one kind. -/
inductive Accepted where
  | only (kind : Kind)
  | listOf (items : Kind)
  deriving Repr, DecidableEq

def Accepted.name : Accepted → String
  | .only kind => kind.name
  | .listOf items => "array-" ++ items.name

def Accepted.outer : Accepted → Kind
  | .only kind => kind
  | .listOf _ => .array

/-- The kind that the items of a list must have. -/
def Accepted.inner? : Accepted → Option Kind
  | .only _ => none
  | .listOf items => some items

/-- A function's parameters; a parameter that accepts everything has an empty list. The
last one may be repeated, but only its first argument is checked. -/
structure Signature where
  parameters : List (List Accepted)
  repeats : Bool

inductive Function where
  | abs | avg | ceil | contains | endsWith | floor | join | keys | length | map | max | maxBy
  | merge | min | minBy | notNull | reverse | sort | sortBy | startsWith | sum | toArray
  | toNumber | toString | type | values
  deriving Repr, DecidableEq

def Function.table : List (String × Function) :=
  [("abs", .abs), ("avg", .avg), ("ceil", .ceil), ("contains", .contains),
   ("ends_with", .endsWith), ("floor", .floor), ("join", .join), ("keys", .keys),
   ("length", .length), ("map", .map), ("max", .max), ("max_by", .maxBy), ("merge", .merge),
   ("min", .min), ("min_by", .minBy), ("not_null", .notNull), ("reverse", .reverse),
   ("sort", .sort), ("sort_by", .sortBy), ("starts_with", .startsWith), ("sum", .sum),
   ("to_array", .toArray), ("to_number", .toNumber), ("to_string", .toString), ("type", .type),
   ("values", .values)]

def Function.signature : Function → Signature
  | .abs | .ceil | .floor => ⟨[[.only .number]], false⟩
  | .avg | .sum => ⟨[[.listOf .number]], false⟩
  | .contains => ⟨[[.only .array, .only .string], []], false⟩
  | .endsWith | .startsWith => ⟨[[.only .string], [.only .string]], false⟩
  | .join => ⟨[[.only .string], [.listOf .string]], false⟩
  | .keys | .values => ⟨[[.only .object]], false⟩
  | .length => ⟨[[.only .string, .only .array, .only .object]], false⟩
  | .map => ⟨[[.only .reference], [.only .array]], false⟩
  | .max | .min => ⟨[[.listOf .number, .listOf .string]], false⟩
  | .maxBy | .minBy | .sortBy => ⟨[[.only .array], [.only .reference]], false⟩
  | .merge => ⟨[[.only .object]], true⟩
  | .notNull => ⟨[[]], true⟩
  | .reverse => ⟨[[.only .array, .only .string]], false⟩
  | .sort => ⟨[[.listOf .string, .listOf .number]], false⟩
  | .toArray | .toNumber | .toString | .type => ⟨[[]], false⟩

abbrev Outcome := Except Fault

/-- Evaluation, which knows a mark that is not in use. -/
abbrev Evaluation := StateT Mark Outcome

def refuse (cause : Refusal) : Outcome α := .error (.refusal cause)

/-- Stop because the values have no result. -/
def breakDown (cause : Breakdown) : Outcome α := .error (.breakdown cause)

def freshMark : Evaluation Mark := modifyGet fun mark => (mark, mark + 1)

/-- The value of a double that was computed. -/
def newFloat (x : Float) : Evaluation Datum := do return .float x (← freshMark)

def ofQuantity : Quantity → Evaluation Datum
  | .whole n => return .int n
  | .real x => newFloat x

def computed (result : Except Number.QuantityFault Quantity) : Evaluation Datum :=
  match result with
  | .ok quantity => ofQuantity quantity
  | .error fault => breakDown (.quantity fault)

/-- The first item that is not of the given kind. A wrong item is named by the word for its
own kind of value. -/
def checkItems (name : String) (expected : List String) (kind : Kind) (items : List Datum) :
    Outcome Unit :=
  match items.find? fun item => kindOf item != kind with
  | some item => refuse (.wrongKind name item expected item.kindName)
  | none => .ok ()

def checkArgument (name : String) (accepted : List Accepted) (value : Datum) : Outcome Unit :=
  let expected := accepted.map (·.name)
  if accepted.isEmpty then .ok ()
  else if !(accepted.map (·.outer)).contains (kindOf value) then
    refuse (.wrongKind name value expected (kindOf value).name)
  else
    match accepted.filterMap (·.inner?), value with
    | [], _ => .ok ()
    | [kind], .list items => checkItems name expected kind items
    | kinds, .list (first :: rest) =>
      if kinds.contains (kindOf first) then checkItems name expected (kindOf first) (first :: rest)
      else refuse (.wrongKind name first expected first.kindName)
    | _, _ => .ok ()

def checkArguments (name : String) (signature : Signature) (values : List Datum) : Outcome Unit :=
  let expected := signature.parameters.length
  let received := values.length
  if if signature.repeats then received < expected else received ≠ expected then
    refuse (.wrongCount name expected received signature.repeats)
  else
    (signature.parameters.zip values).forM fun (accepted, value) =>
      checkArgument name accepted value

/-! ### Order -/

/-- Whether one value is less than another: numbers by size, texts by code points. `none`
for values that have no order. -/
def less? (a b : Datum) : Option Bool :=
  match a, b with
  | .text s, .text t => some (s < t)
  | a, b => do return (← a.quantity?).less (← b.quantity?)

def keyLess (a b : Datum × Datum) : Bool := (less? a.1 b.1).getD false

/-- The extreme of a list, or null if it is empty: the first item with the greatest, or the
least, key. Keys that have no order break down when they meet. -/
def extremeOf (greatest : Bool) (key : Datum → Evaluation Datum) (items : List Datum) :
    Evaluation Datum := do
  match items with
  | [] => return .null
  | first :: rest =>
    let best ← rest.foldlM better (← key first, first)
    return best.2
where
  /-- The better one of the best item so far and the next one. -/
  better (best : Datum × Datum) (item : Datum) : Evaluation (Datum × Datum) := do
    let found ← key item
    match if greatest then less? best.1 found else less? found best.1 with
    | none =>
      breakDown (.unordered (if greatest then ">" else "<") found.kindName best.1.kindName)
    | some isBetter => return if isBetter then (found, item) else best

/-! ### Members, parts and texts -/

/-- The member that an item of a list stands for when the list is merged into an object. -/
def pairOf (position : Nat) (item : Datum) : Outcome (Atom × Datum) :=
  let parts? : Option (List Datum) := match item with
    | .list parts => some parts
    | .object members => some (members.map fun member => .atom member.1)
    | .text s => some (s.toList.map fun c => .text (String.ofList [c]))
    | _ => none
  match parts? with
  | none => breakDown (.notPair position)
  | some [.atom key, value] => .ok (key, value)
  | some [key, _] => breakDown (.badKey key.kindName)
  | some parts => breakDown (.wrongParts position parts.length)

/-- The members that a value contributes to a merged object. -/
def membersOf : Datum → Outcome (List (Atom × Datum))
  | .object members => .ok members
  | .list items => items.zipIdx.mapM fun (item, position) => pairOf position item
  | .text s =>
    s.toList.zipIdx.mapM fun (c, position) => pairOf position (.text (String.ofList [c]))
  | v => breakDown (.notIterable v.kindName)

def occursIn (part : List Char) : List Char → Bool
  | [] => part.isEmpty
  | c :: rest => part.isPrefixOf (c :: rest) || occursIn part rest

/-- Whether a value is found in a list or in a text. The items of a list are compared until one is
the same. -/
def findIn [Room] (subject search : Datum) : Outcome Datum :=
  match subject, search with
  | .text s, .text t => .ok (.bool (occursIn t.toList s.toList))
  | .text _, v => breakDown (.searchKind v.kindName)
  | .list items, v =>
    match items.anyM fun item => item.same Room.viewing v with
    | some isFound => .ok (.bool isFound)
    | none => breakDown .tooDeep
  | _, _ => .ok (.bool false)

def numberOf : Datum → Evaluation Datum
  | .int n => return .int n
  | .float x mark => return .float x mark
  | .text s =>
    match Number.readNumeral 10 s, Number.readFloat? s with
    | .ok n, _ => return .int n
    | .error _, some x => newFloat x
    | .error _, none => return .null
  | .reference _ _ => breakDown (.notNumeric "_Expression")
  | _ => return .null

/-- The text of a value: a text is its own, any other value has its data text, in which a
reference is the text that shows it. -/
def textOf [Room] (v : Datum) : Outcome Datum :=
  match v with
  | .text s => .ok (.text s)
  | v =>
    match v.toJson (.ok (.text Atom.referenceText)) Room.writing with
    | .ok plain => .ok (.text plain.compactText)
    | .error cause => breakDown (.obstacle cause)

def quantitiesOf (items : List Datum) : List Quantity := items.filterMap (·.quantity?)

def keyOf (name : String) (expected : List Kind) (key : Datum) : Outcome Datum :=
  if expected.contains (kindOf key) then .ok key
  else refuse (.wrongKind name key (expected.map (·.name)) (kindOf key).name)

/-- Sort by the results of a reference, which must all be of the kind of the first. -/
def sortWith (run : Datum → Evaluation Datum) : List Datum → Evaluation Datum
  | [] => return .list []
  | first :: rest => do
    let required := kindOf (← run first)
    if required != .number && required != .string then
      refuse (.wrongKind "sort_by" first ["string", "number"] required.name)
    else
      let keyed ← (first :: rest).mapM fun item => do
        return (← keyOf "sort_by" [required] (← run item), item)
      return .list ((sorted keyLess keyed).map (·.2))

/-- The extreme item by the results of a reference. -/
def extremeBy (name : String) (greatest : Bool) (run : Datum → Evaluation Datum) :
    List Datum → Evaluation Datum :=
  extremeOf greatest fun item => do keyOf name [.number, .string] (← run item)

/-- Apply a function to arguments that have been checked. `run` evaluates a reference for a
value. -/
def Function.apply [Room] (run : Query → Datum → Evaluation Datum) :
    Function → List Datum → Evaluation Datum
  | .abs, [v] => v.quantity?.elim (return .null) fun q => ofQuantity q.magnitude
  | .avg, [.list items] =>
    if items.isEmpty then return .null
    else computed (Quantity.sum (quantitiesOf items) >>= Quantity.divideBy items.length)
  | .ceil, [v] => v.quantity?.elim (return .null) fun q => computed q.ceil
  | .contains, [subject, search] => findIn subject search
  | .endsWith, [.text s, .text t] => return .bool (t.toList.isSuffixOf s.toList)
  | .floor, [v] => v.quantity?.elim (return .null) fun q => computed q.floor
  | .join, [.text glue, .list items] =>
    return .text (glue.intercalate (items.map (·.shownAlone)))
  | .keys, [.object members] => return .list (members.map fun member => .atom member.1)
  | .length, [.text s] => return .int s.length
  | .length, [.list items] => return .int items.length
  | .length, [.object members] => return .int members.length
  | .map, [.reference target _, .list items] => do return .list (← items.mapM (run target))
  | .max, [.list items] => extremeOf true pure items
  | .maxBy, [.list items, .reference target _] => extremeBy "max_by" true (run target) items
  | .merge, objects => do
    return .object ((← objects.mapM fun v => membersOf v).foldl (Data.Members.putAll Atom.same) [])
  | .min, [.list items] => extremeOf false pure items
  | .minBy, [.list items, .reference target _] => extremeBy "min_by" false (run target) items
  | .notNull, found => return (found.find? fun v => kindOf v != .null).getD .null
  | .reverse, [.text s] => return .text (String.ofList s.toList.reverse)
  | .reverse, [.list items] => return .list items.reverse
  | .sort, [.list items] => return .list (sorted (fun a b => (less? a b).getD false) items)
  | .sortBy, [.list items, .reference target _] => sortWith (run target) items
  | .startsWith, [.text s, .text t] => return .bool (t.toList.isPrefixOf s.toList)
  | .sum, [.list items] => computed (Quantity.sum (quantitiesOf items))
  | .toArray, [.list items] => return .list items
  | .toArray, [v] => return .list [v]
  | .toNumber, [v] => numberOf v
  | .toString, [v] => textOf v
  | .type, [v] => return if kindOf v = .reference then .null else .text (kindOf v).name
  | .values, [.object members] => return .list (members.map (·.2))
  | _, _ => return .null

end TemplateFill.Query
