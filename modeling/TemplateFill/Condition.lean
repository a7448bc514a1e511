import TemplateFill.Scope
import TemplateFill.Text.Case

/-!
# Conditions

A condition compares two operands, negates one, or is one: null, a whole number, a truth
value, a quoted text, or a tag. What a tag selects wins over every literal reading, and a
tag that selects nothing is null, so that a template can ask for values that may be missing.
A condition that is badly formed does not hold and has a complaint.
-/

namespace TemplateFill.Condition

inductive Operator where
  | equal
  | notEqual
  | lessEqual
  | greaterEqual
  | less
  | greater
  deriving Repr, DecidableEq

def Operator.sign : Operator → String
  | .equal => "=="
  | .notEqual => "!="
  | .lessEqual => "<="
  | .greaterEqual => ">="
  | .less => "<"
  | .greater => ">"

inductive Operand where
  | none
  | bool (b : Bool)
  | int (n : Int)
  | text (s : String)
  deriving Repr, DecidableEq

def Operand.kindName : Operand → String
  | .none => "NoneType"
  | .bool _ => "bool"
  | .int _ => "int"
  | .text _ => "str"

/-- Null, false, zero and the empty text do not hold; everything else does. -/
def Operand.holds : Operand → Bool
  | .none => false
  | .bool b => b
  | .int n => n != 0
  | .text s => !s.isEmpty

inductive Complaint where
  | emptyOperand
  | emptyLeft
  | emptyRight
  /-- An ordering operator stands between values of these kinds. -/
  | unordered (operator : Operator) (left right : Operand)
  deriving Repr, DecidableEq

def Complaint.message : Complaint → String
  | .emptyOperand => "Operand is null or empty"
  | .emptyLeft => "Left operand is null or empty"
  | .emptyRight => "Right operand is null or empty"
  | .unordered operator left right =>
    s!"Operator '{operator.sign}' is allowed only for ints, but operands have types " ++
      s!"'{left.kindName}' and '{right.kindName}'"

structure Verdict where
  holds : Bool
  complaint : Option Complaint
  deriving Repr, DecidableEq

def Verdict.plain (holds : Bool) : Verdict := ⟨holds, none⟩

def Verdict.blamed (complaint : Complaint) : Verdict := ⟨false, some complaint⟩

/-- Cut a condition at its first operator. -/
def splitOperator? : List Char → Option (List Char × Operator × List Char)
  | [] => none
  | '=' :: '=' :: rest => some ([], .equal, rest)
  | '!' :: '=' :: rest => some ([], .notEqual, rest)
  | '<' :: '=' :: rest => some ([], .lessEqual, rest)
  | '>' :: '=' :: rest => some ([], .greaterEqual, rest)
  | '<' :: rest => some ([], .less, rest)
  | '>' :: rest => some ([], .greater, rest)
  | c :: rest =>
    (splitOperator? rest).map fun (before, operator, after) => (c :: before, operator, after)

/-- An optional sign and digits of any script, up to the end or to a last line feed. -/
def isWholeNumber (s : List Char) : Bool :=
  let (_, body) := Number.splitSign s
  let rest := body.dropWhile Text.isDecimalDigit
  rest.length < body.length && (rest = [] || rest = ['\n'])

/-- The inside of a text in single or double quotes. -/
def unquoted? (s : List Char) : Option (List Char) :=
  match s with
  | quote :: rest =>
    if (quote = '\'' || quote = '"') && rest.getLast? = some quote then some rest.dropLast
    else none
  | [] => none

/-- The literal reading of an operand that selects nothing. -/
def literal (expression : String) : Except Fault Operand :=
  let s := expression.toList
  if isWholeNumber s then
    match Number.readNumeral 10 expression with
    | .ok n => .ok (.int n)
    | .error cause => .error (.numeral cause)
  else if Text.isWord "true" expression then .ok (.bool true)
  else if Text.isWord "false" expression then .ok (.bool false)
  else
    match unquoted? s with
    | some inside => .ok (.text (String.ofList inside))
    | none => .ok .none

/-- The operand that a selected value amounts to. -/
def ofDatum [Room] : Datum → Except Fault Operand
  | .null => .ok .none
  | .bool b => .ok (.bool b)
  | .int n => .ok (.int n)
  | v => (Scope.stringify v).map .text

/-- The value of an operand, which is taken as it stands, without trimming. -/
def operand [Room] (expression : String) (scope : Datum) : Except Fault Operand :=
  if expression.isEmpty || Text.isWord "null" expression then .ok .none
  else
    match Scope.resolve scope expression with
    | .ok (some v) => ofDatum v
    | .ok none => literal expression
    | .error (.refused _ _) => literal expression
    | .error (.fault cause) => .error cause

def truth [Room] (expression : List Char) (scope : Datum) : Except Fault Verdict :=
  match Text.trim expression with
  | [] => .ok (.blamed .emptyOperand)
  | s => do return .plain (← operand (String.ofList s) scope).holds

/-- Compare two values. Equality never crosses kinds, and only whole numbers have an order. -/
def compareOperands (operator : Operator) (left right : Operand) : Verdict :=
  match operator with
  | .equal => .plain (left = right)
  | .notEqual => .plain (left ≠ right)
  | .lessEqual =>
    match left, right with
    | .int a, .int b => .plain (a ≤ b)
    | _, _ => .blamed (.unordered operator left right)
  | .greaterEqual =>
    match left, right with
    | .int a, .int b => .plain (b ≤ a)
    | _, _ => .blamed (.unordered operator left right)
  | .less =>
    match left, right with
    | .int a, .int b => .plain (a < b)
    | _, _ => .blamed (.unordered operator left right)
  | .greater =>
    match left, right with
    | .int a, .int b => .plain (b < a)
    | _, _ => .blamed (.unordered operator left right)

/-- The verdict on a comparison, whose operands must not be blank. -/
def comparison [Room] (left : List Char) (operator : Operator) (right : List Char) (scope : Datum) :
    Except Fault Verdict :=
  match Text.trim left, Text.trim right with
  | [], _ => .ok (.blamed .emptyLeft)
  | _, [] => .ok (.blamed .emptyRight)
  | a, b => do
    let left ← operand (String.ofList a) scope
    let right ← operand (String.ofList b) scope
    return compareOperands operator left right

/-- The opposite verdict; a complaint stays. -/
def Verdict.negate (verdict : Verdict) : Verdict :=
  match verdict.complaint with
  | some complaint => .blamed complaint
  | none => .plain !verdict.holds

def evaluate [Room] (condition : String) (scope : Datum) : Except Fault Verdict :=
  match splitOperator? condition.toList with
  | some (left, operator, right) => comparison left operator right scope
  | none =>
    match Text.trim condition.toList with
    | '!' :: rest => (truth rest scope).map Verdict.negate
    | s => truth s scope

end TemplateFill.Condition
