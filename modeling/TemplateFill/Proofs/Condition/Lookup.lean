import TemplateFill.Condition
import TemplateFill.Proofs.Text.Blank

/-!
# Looking up operands

An operand that is neither blank nor null is looked up before it is read. A text with nothing to
trim is its own query, and what the query finds is selected unless it is null. The literal readings
are tried by the first character where they can be.
-/

namespace TemplateFill.Condition

variable {scope : Datum}

/-! ### Looking up -/

/-- A text with nothing to trim that does not begin with a dollar sign is a query. -/
theorem queryOf_eq_self {tag : String}
    (first : ∀ c ∈ tag.toList.head?, c ≠ '$' ∧ Text.isBlank c = false)
    (last : ∀ c ∈ tag.toList.getLast?, Text.isBlank c = false) : Scope.queryOf tag = some tag := by
  rw [Scope.queryOf, Text.trim_eq_self (fun c isFirst => (first c isFirst).2) last]
  split
  · rename_i rest isText
    rw [isText] at first
    exact absurd rfl (first '$' rfl).1
  · rw [String.ofList_toList]

/-- A value that is not null. -/
def present? : Datum → Option Datum
  | .null => none
  | v => some v

/-- What a query selects that can be read and evaluated. -/
theorem select_of_search [Room] {text : String} {query : Query} {found : Datum}
    (isParsed : Query.parse text = .ok query) (isFound : Query.search query scope = .ok found) :
    Scope.select scope text = .ok ((present? found).map (Scope.unwrap query)) := by
  rw [Scope.select, isParsed]
  dsimp only [Except.mapError, Bind.bind, Except.bind]
  rw [isFound]
  cases found with
  | atom a => cases a <;> rfl
  | _ => rfl

/-- A tag that is no key of the scope is a query. -/
theorem resolve_eq_select [Room] {tag text : String} (noKey : scope.member? tag = none)
    (isQuery : Scope.queryOf tag = some text) :
    Scope.resolve scope tag = Scope.select scope text := by
  rw [Scope.resolve, noKey, isQuery]

/-- The value of an operand that is neither blank nor null. -/
theorem operand_eq_lookup [Room] {expression : String} (nonempty : expression.isEmpty = false)
    (noNull : Text.isWord "null" expression = false) :
    operand expression scope =
      match Scope.resolve scope expression with
      | .ok (some v) => ofDatum v
      | .ok none => literal expression
      | .error (.refused _ _) => literal expression
      | .error (.fault cause) => .error cause := by
  rw [operand, nonempty, noNull]
  rfl

/-! ### Literal readings -/

/-- A text that begins with another letter is another word. -/
theorem isWord_of_first {word expression : String} {first c : Char} {rest letters : List Char}
    (isText : expression.toList = first :: rest) (isLetters : word.toList = c :: letters)
    (other : first.toLower ≠ c) : Text.isWord word expression = false := by
  rw [Text.isWord, isText, isLetters, List.map_cons]
  exact beq_false_of_ne fun same => other (List.cons.inj same).1

/-- What begins with something else than a digit is no number. -/
theorem isWholeNumber_of_body {text rest : List Char} {c : Char}
    (isBody : (Number.splitSign text).2 = c :: rest) (noDigit : Text.isDecimalDigit c = false) :
    isWholeNumber text = false := by
  have stays : (c :: rest).dropWhile Text.isDecimalDigit = c :: rest :=
    List.dropWhile_cons_of_neg (by simp [noDigit])
  rw [isWholeNumber]
  change (decide (((Number.splitSign text).2.dropWhile Text.isDecimalDigit).length <
    (Number.splitSign text).2.length) && _) = false
  rw [isBody, stays, decide_eq_false (Nat.lt_irrefl _), Bool.false_and]

end TemplateFill.Condition
