import TemplateFill.Query.Datum
import TemplateFill.Query.Token

/-!
# Faults of queries

A query can be refused, because its text is not one or because it calls a function in a
way that the function does not allow, and it can break down while it runs, because an
operation on the values it meets has no result. A refusal is about the query and its
message may show the query's text; a breakdown is about the values.
-/

namespace TemplateFill.Query

inductive Refusal where
  /-- There is no text. -/
  | empty
  /-- The text has no tokens, as seen from this offset. -/
  | unreadable (fault : TokenFault) (offset : Nat)
  /-- The text ends too early. -/
  | incomplete
  /-- A token does not fit. -/
  | unexpected (words : String) (token : Token)
  /-- There is no function of this name. -/
  | unknownFunction (name : String)
  /-- A function gets the wrong number of arguments. -/
  | wrongCount (name : String) (expected received : Nat) (orMore : Bool)
  /-- A function gets an argument of the wrong kind. -/
  | wrongKind (name : String) (value : Datum) (expected : List String) (received : String)

/-- Why a query that runs has no result. -/
inductive Breakdown where
  /-- A slice has a step of zero. -/
  | zeroStep
  /-- Values of these kinds have no order. -/
  | unordered (operator left right : String)
  /-- Only a text can be part of a text. -/
  | searchKind (kind : String)
  /-- An object can only be merged with what has members. -/
  | notIterable (kind : String)
  /-- An item that is to become a member is no pair. -/
  | notPair (position : Nat)
  /-- An item that is to become a member has the wrong number of parts. -/
  | wrongParts (position count : Nat)
  /-- A value of this kind is no key. -/
  | badKey (kind : String)
  /-- A value of this kind is no number. -/
  | notNumeric (kind : String)
  /-- A numeral in the query is too long. -/
  | numeral (fault : Number.NumeralFault)
  /-- A value has no data text. -/
  | obstacle (cause : Datum.Obstacle)
  /-- A refusal shows a value that cannot be shown. -/
  | untold (cause : Datum.Obstacle)
  /-- An operation on numbers has no result. -/
  | quantity (fault : Number.QuantityFault)
  /-- A literal is nested too deeply to be read. -/
  | unread (cause : Data.ReadFault)
  /-- There is no room for the parts of a query, or of values that are compared, inside each
  other. -/
  | tooDeep

inductive Fault where
  | refusal (cause : Refusal)
  | breakdown (cause : Breakdown)

def TokenFault.words : TokenFault → String
  | .unknown text => "Unknown token " ++ text
  | .unclosed delimiter => s!"Unclosed {delimiter} delimiter"
  | .badName words => words
  | .badLiteral text => "Bad token " ++ text
  | .numeral fault => fault.message
  | .tooDeep kind => (Data.ReadFault.tooDeep kind).words

def Token.shown (token : Token) : String := (Datum.ofJson token.value).shownAlone

/-- A line with a caret under the character at the given offset. -/
def caret (offset : Nat) : String := "".pushn ' ' offset ++ "^"

def shownTexts (texts : List String) : String :=
  "[" ++ ", ".intercalate (texts.map Text.quoted) ++ "]"

def Refusal.message (query : String) : Refusal → String
  | .empty => "Invalid JMESPath expression: cannot be empty."
  | .unreadable fault offset =>
    s!"Bad jmespath expression: {fault.words}:\n{query}\n{caret offset}"
  | .incomplete =>
    s!"Invalid jmespath expression: Incomplete expression:\n\"{query}\"\n" ++
      caret (query.length + 1)
  | .unexpected words token =>
    let kind := token.kind.name.toUpper
    s!"{words}: Parse error at column {token.start}, token \"{token.shown}\" " ++
      s!"({kind}), for expression:\n\"{query}\"\n{caret (token.start + 1)}"
  | .unknownFunction name => s!"Unknown function: {name}()"
  | .wrongCount name expected received orMore =>
    let least := if orMore then "at least " else ""
    let noun := if expected = 1 then "argument" else "arguments"
    s!"Expected {least}{expected} {noun} for function {name}(), received {received}"
  | .wrongKind name value expected received =>
    s!"In function {name}(), invalid type for value: {value.shownAlone}, " ++
      s!"expected one of: {shownTexts expected}, received: \"{received}\""

/-- What keeps a refusal from having a message: the value that it shows cannot be shown. -/
def Refusal.obstacle? [Room] : Refusal → Option Datum.Obstacle
  | .wrongKind _ value _ _ => value.obstacle? Room.viewing
  | .unexpected _ token => (Datum.ofJson token.value).obstacle? Room.viewing
  | _ => none

def Breakdown.message : Breakdown → String
  | .zeroStep => "slice step cannot be zero"
  | .unordered operator left right =>
    s!"'{operator}' not supported between instances of '{left}' and '{right}'"
  | .searchKind kind => s!"'in <string>' requires string as left operand, not {kind}"
  | .notIterable kind => s!"'{kind}' object is not iterable"
  | .notPair position =>
    s!"cannot convert dictionary update sequence element #{position} to a sequence"
  | .wrongParts position count =>
    s!"dictionary update sequence element #{position} has length {count}; 2 is required"
  | .badKey kind => s!"unhashable type: '{kind}'"
  | .notNumeric kind =>
    s!"int() argument must be a string, a bytes-like object or a real number, not '{kind}'"
  | .numeral fault => fault.message
  | .obstacle cause => cause.message
  | .untold cause => cause.message
  | .quantity fault => fault.message
  | .unread cause => cause.words
  | .tooDeep => Datum.Obstacle.tooDeep.message

end TemplateFill.Query
