import TemplateFill.Query.Evaluation
import TemplateFill.Fault

/-!
# Looking up tags

A tag selects a value in the scope of a control. If the scope is an object with a member of
exactly that name, the member is meant; otherwise the tag is a query, in which a leading
dollar sign stands for the scope itself. A query that collects matches and finds a single
one yields that match.
-/

namespace TemplateFill.Scope

inductive LookupFault where
  /-- The tag is no query, or one that misuses a function. -/
  | refused (query : String) (cause : Query.Refusal)
  /-- The query broke down. -/
  | fault (cause : Fault)

def LookupFault.message : LookupFault → String
  | .refused query cause => cause.message query
  | .fault cause => cause.message

def dropDots (s : List Char) : List Char := s.dropWhile (· = '.')

/-- The query that a tag stands for: trimmed, and without a leading dollar sign and the dots
after it. `none` if nothing but the dollar sign remains, which stands for the scope. -/
def queryOf (tag : String) : Option String :=
  match Text.trim tag.toList with
  | '$' :: rest =>
    match dropDots rest with
    | [] => none
    | s => some (String.ofList s)
  | s => some (String.ofList s)

/-- A single match of a query that collects matches stands for itself. -/
def unwrap (query : Query) (v : Datum) : Datum :=
  match query.isMultiMatch, v with
  | true, .list [item] => item
  | _, v => v

/-- What a fault of the query with the given text means for the lookup. Only a refusal that can be
told is one of the tag. -/
def LookupFault.ofQuery [Room] (text : String) : Query.Fault → LookupFault
  | .refusal cause =>
    match cause.obstacle? with
    | none => .refused text cause
    | some obstacle => .fault (.breakdown (.untold obstacle))
  | .breakdown cause => .fault (.breakdown cause)

/-- Evaluate a query text in a scope; `none` if it selects nothing. -/
def select [Room] (scope : Datum) (text : String) : Except LookupFault (Option Datum) := do
  let query ← (Query.parse text).mapError (LookupFault.ofQuery text)
  match ← (Query.search query scope).mapError (LookupFault.ofQuery text) with
  | .null => return none
  | v => return some (unwrap query v)

/-- The value that a tag selects in a scope, or `none` if it selects nothing. -/
def resolve [Room] (scope : Datum) (tag : String) : Except LookupFault (Option Datum) :=
  match scope.member? tag with
  | some v => .ok (some v)
  | none =>
    match queryOf tag with
    | none => .ok (some scope)
    | some text => select scope text

/-- The text of a value as it is written into a document. Null is empty, texts stand for
themselves, numbers and truth values have their usual spelling, and lists and objects are
written as indented data texts. -/
def stringify [Room] (v : Datum) : Except Fault String :=
  match v with
  | .null => .ok ""
  | .text s => .ok s
  | .bool b => .ok (if b then "true" else "false")
  | .float x _ => .ok (Number.floatText Number.plainNames x)
  | .reference _ _ => .ok v.shown
  | .int n => (Number.writeNumeral n).mapError .numeral
  | v => ((v.toJson (.error .reference) Room.writing).map (·.indentedText)).mapError .obstacle

end TemplateFill.Scope
