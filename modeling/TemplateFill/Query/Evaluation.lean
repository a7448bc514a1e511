import TemplateFill.Query.Parser
import TemplateFill.Query.Function

/-!
# Evaluating queries

A query is evaluated for a value and yields a value, where null stands for "nothing". What
does not apply to a value yields null rather than a fault: a member of a list, an item of an
object, an ordering of values that are neither numbers nor texts. Parts inside of parts are
evaluated inside each other, and so are the references that are followed, and there must be room
for that.
-/

namespace TemplateFill.Query


/-- The empty values, null and false: what a connective passes over. -/
def isFalse : Datum → Bool
  | .null => true
  | .bool b => !b
  | .text s => s.isEmpty
  | .list items => items.isEmpty
  | .object members => members.isEmpty
  | _ => false

def itemAt (position : Int) : Datum → Datum
  | .list items =>
    let place := if position < 0 then position + items.length else position
    if place < 0 then .null else items[place.toNat]?.getD .null
  | _ => .null

/-- A bound of a slice, counted from the end if negative and moved into `low..high`. -/
def clampBound (length low high : Int) (bound : Option Int) (missing : Int) : Int :=
  match bound with
  | none => missing
  | some n =>
    let place := if n < 0 then n + length else n
    max low (min high place)

def slicePositions (length : Nat) (start stop : Option Int) (step : Int) : List Nat :=
  let n : Int := length
  if 0 < step then
    let first := clampBound n 0 n start 0
    let last := clampBound n 0 n stop n
    let count := if first < last then ((last - first - 1) / step + 1).toNat else 0
    (List.range count).map fun (k : Nat) => (first + k * step).toNat
  else
    let first := clampBound n (-1) (n - 1) start (n - 1)
    let last := clampBound n (-1) (n - 1) stop (-1)
    let count := if last < first then ((first - last - 1) / (-step) + 1).toNat else 0
    (List.range count).map fun (k : Nat) => (first + k * step).toNat

/-- Part of a list; a step of zero leads nowhere. -/
def sliceOf (start stop step : Option Int) : Datum → Outcome Datum
  | .list items =>
    let step := step.getD 1
    if step = 0 then breakDown .zeroStep
    else
      .ok (.list ((slicePositions items.length start stop step).filterMap (items[·]?)))
  | _ => .ok .null

/-- A list with the lists inside it dissolved into it, one level deep. -/
def flattened : Datum → Datum
  | .list items =>
    .list (items.flatMap fun item => match item with
      | .list inner => inner
      | item => [item])
  | _ => .null

/-- Equality in queries: one and zero are not the truth values. There is none without enough room
to compare the two. -/
def areEqual [Room] (a b : Datum) : Option Bool :=
  let isBit (v : Datum) : Bool :=
    v.quantity?.elim false fun q => q.equal (.whole 0) || q.equal (.whole 1)
  let isBool (v : Datum) : Bool := kindOf v = .boolean
  if isBit a && isBool b then some false
  else if isBit b && isBool a then some false
  else a.equal Room.viewing b

def Relation.sign : Relation → String
  | .equal => "=="
  | .notEqual => "!="
  | .less => "<"
  | .lessEqual => "<="
  | .greater => ">"
  | .greaterEqual => ">="

def Relation.allows (relation : Relation) (order : Option Ordering) : Bool :=
  match relation with
  | .equal => order == some .eq
  | .notEqual => order != some .eq
  | .less => order == some .lt
  | .lessEqual => order == some .lt || order == some .eq
  | .greater => order == some .gt
  | .greaterEqual => order == some .gt || order == some .eq

/-- The outcome of a comparison that needs room. -/
def judged (result : Option Bool) : Outcome Datum :=
  match result with
  | some b => .ok (.bool b)
  | none => breakDown .tooDeep

/-- Compare two values. Only numbers and texts have an order, and not with each other. -/
def related [Room] (relation : Relation) (a b : Datum) : Outcome Datum :=
  match relation with
  | .equal => judged (areEqual a b)
  | .notEqual => judged ((areEqual a b).map (!·))
  | _ =>
    match a, b with
    | .text s, .text t => .ok (.bool (relation.allows (some (Ord.compare s t))))
    | a, b =>
      match a.quantity?, b.quantity?, kindOf a, kindOf b with
      | some p, some q, _, _ => .ok (.bool (relation.allows (p.order? q)))
      | some _, _, _, .string | _, some _, .string, _ =>
        breakDown (.unordered relation.sign a.kindName b.kindName)
      | _, _, _, _ => .ok .null

/-- The opposite of a truth value; the number zero counts as true. -/
def negated (v : Datum) : Datum :=
  match v.quantity? with
  | some q => .bool (if q.equal (.whole 0) then false else !v.holds)
  | none => .bool !v.holds

/-- The parts of a chain. Members of members, and positions in what is at a position, follow each
other; what a pipe joins does not. -/
def parts (link : Link) : Query → List Query
  | .chain other first second =>
    if other = link && link != .pipe then parts link first ++ [second]
    else [.chain other first second]
  | query => [query]

def withoutNull (results : List Datum) : List Datum :=
  results.filter fun v => kindOf v != .null

mutual

/-- Evaluate a query for a value. The first argument is the room that is left. -/
def eval [Room] : Nat → Query → Datum → Evaluation Datum
  | 0, _, _ => breakDown .tooDeep
  | room + 1, query, v =>
    match query with
    | .current => return v
    | .field name => return (v.member? name).getD .null
    | .literal value => return .ofJson value
    | .index position => return itemAt position v
    | .slice start stop step => sliceOf start stop step v
    | .chain link first second => do
      eval room second (← (parts link first).foldlM (fun w part => eval room part w) v)
    | .flatten base => do return flattened (← eval room base v)
    | .projection base item => do
      match ← eval room base v with
      | .list items => return .list (withoutNull (← items.mapM (eval room item)))
      | _ => return .null
    | .memberProjection base item => do
      match ← eval room base v with
      | .object members =>
        return .list (withoutNull (← (members.map (·.2)).mapM (eval room item)))
      | _ => return .null
    | .filterProjection base item condition => do
      match ← eval room base v with
      | .list items =>
        let results ← items.mapM fun element => do
          if isFalse (← eval room condition element) then return .null
          else eval room item element
        return .list (withoutNull results)
      | _ => return .null
    | .compare relation left right => do
      related relation (← eval room left v) (← eval room right v)
    | .either left right => do
      let result ← eval room left v
      if isFalse result then eval room right v else return result
    | .both left right => do
      let result ← eval room left v
      if isFalse result then return result else eval room right v
    | .negation operand => do return negated (← eval room operand v)
    | .listOf items =>
      match v with
      | .null => return .null
      | v => do return .list (← items.mapM fun item => eval room item v)
    | .objectOf members =>
      match v with
      | .null => return .null
      | v => do
        return .ofMembers (← members.mapM fun (name, value) => do
          return (.text name, ← eval room value v))
    | .call name arguments => do
      invoke room name (← arguments.mapM fun argument => eval room argument v)
    | .reference target => do return .reference target (← freshMark)

def invoke [Room] : Nat → String → List Datum → Evaluation Datum
  | 0, _, _ => breakDown .tooDeep
  | room + 1, name, values =>
    match Function.table.lookup name with
    | none => refuse (.unknownFunction name)
    | some function => do
      checkArguments name function.signature values
      function.apply (fun target v => eval room target v) values

end

def search [Room] (query : Query) (v : Datum) : Outcome Datum :=
  (eval (Room.evaluating + 2) query v).run' v.nextMark

end TemplateFill.Query
