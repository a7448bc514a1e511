import TemplateFill.Data.Json

/-!
# Syntax of queries

A query selects values in a data value. Members are reached by name, items by index or by
a slice; a projection applies a query to every item of a list (or to every member of an
object) and keeps what is not null. Queries can also be built from comparisons, logical
connectives, literals, constructors of lists and objects, and function calls, whose
arguments may refer to a query without evaluating it.
-/

namespace TemplateFill

open Data (Json)

/-- The relations between two values. -/
inductive Query.Relation where
  | equal
  | notEqual
  | less
  | lessEqual
  | greater
  | greaterEqual
  deriving Repr, DecidableEq

/-- How two queries are chained. All chains mean "apply the second to the result of the
first"; they differ in how they group with what follows. -/
inductive Query.Link where
  | member
  | bracket
  | pipe
  deriving Repr, DecidableEq

inductive Query where
  /-- The value itself. -/
  | current
  /-- A member by name. -/
  | field (name : String)
  /-- A value that does not depend on the data. -/
  | literal (value : Json)
  /-- An item by position, counted from the end if negative. -/
  | index (position : Int)
  /-- Part of a list. -/
  | slice (start stop step : Option Int)
  /-- One query after the other. -/
  | chain (link : Query.Link) (first second : Query)
  /-- Lists inside a list dissolved into it. -/
  | flatten (base : Query)
  /-- A query for every item of a list. -/
  | projection (base item : Query)
  /-- A query for every member of an object. -/
  | memberProjection (base item : Query)
  /-- A query for every item that meets a condition. -/
  | filterProjection (base item condition : Query)
  | compare (relation : Query.Relation) (left right : Query)
  | either (left right : Query)
  | both (left right : Query)
  | negation (operand : Query)
  | listOf (items : List Query)
  | objectOf (members : List (String × Query))
  | call (name : String) (arguments : List Query)
  /-- The query itself as a value. -/
  | reference (target : Query)

/-- Whether a query yields a list of all its matches. -/
def Query.isMultiMatch : Query → Bool
  | .projection .. => true
  | .memberProjection .. => true
  | .filterProjection .. => true
  | _ => false

end TemplateFill
