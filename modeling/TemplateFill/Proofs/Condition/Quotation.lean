import TemplateFill.Proofs.Condition.Lookup
import TemplateFill.Proofs.Query.Word

/-!
# Quoted operands

An operand in quotes reads as a text, but it is looked up before it is read. In single quotes that
makes no difference, because the query language has such texts as well. In double quotes it has the
names of members: a member that is not null is found in place of the text.
-/

namespace TemplateFill.Condition

open Query (IsBare)

variable {scope : Datum} {s : String}

/-- Quotes at both ends leave nothing to trim. -/
theorem queryOf_quoted {tag : String} {quote : Char} {inside : List Char}
    (isText : tag.toList = quote :: (inside ++ [quote])) (noDollar : quote ≠ '$')
    (noBlank : Text.isBlank quote = false) : Scope.queryOf tag = some tag := by
  apply queryOf_eq_self
  · rw [isText]
    rintro _ ⟨⟩
    exact ⟨noDollar, noBlank⟩
  · rw [isText, ← List.cons_append, List.getLast?_concat]
    rintro _ ⟨⟩
    exact noBlank

/-- The literal reading of a text in double quotes. -/
theorem literal_double (s : String) : literal ("\"" ++ s ++ "\"") = .ok (.text s) := by
  have noNumber : isWholeNumber ('"' :: (s.toList ++ ['"'])) = false :=
    isWholeNumber_of_body rfl (by decide)
  have inside : unquoted? ('"' :: (s.toList ++ ['"'])) = some s.toList := by
    simp [unquoted?]
  have noWord {word : String} {c : Char} {rest : List Char} (isLetters : word.toList = c :: rest)
      (other : '"'.toLower ≠ c) : Text.isWord word ("\"" ++ s ++ "\"") = false :=
    isWord_of_first (Query.toList_double s) isLetters other
  rw [literal, noWord rfl (by decide), noWord rfl (by decide), Query.toList_double, noNumber,
    inside]
  simp

/-! ### Quoted operands -/

/-- The value that a text in double quotes selects, if any: a member of that name that is not null.
A name with a control character in it cannot be asked for. -/
def named? (scope : Datum) (s : String) : Option Datum :=
  if s.toList.any Data.isControl then none else (scope.member? s).bind present?

theorem resolve_single [Room] (bare : IsBare s.toList) (noKey : scope.member? ("'" ++ s ++ "'") = none) :
    Scope.resolve scope ("'" ++ s ++ "'") = .ok (some (.text s)) := by
  have isQuery : Scope.queryOf ("'" ++ s ++ "'") = some ("'" ++ s ++ "'") :=
    queryOf_quoted (Query.toList_single s) (by decide) (by decide)
  rw [resolve_eq_select noKey isQuery]
  exact select_of_search (Query.parse_single bare) (Query.search_literal _ scope)

theorem resolve_double [Room] (bare : IsBare s.toList)
    (noKey : scope.member? ("\"" ++ s ++ "\"") = none) :
    Scope.resolve scope ("\"" ++ s ++ "\"") = .ok (named? scope s) ∨
      named? scope s = none ∧
        ∃ text cause, Scope.resolve scope ("\"" ++ s ++ "\"") = .error (.refused text cause) := by
  have isQuery : Scope.queryOf ("\"" ++ s ++ "\"") = some ("\"" ++ s ++ "\"") :=
    queryOf_quoted (Query.toList_double s) (by decide) (by decide)
  have asked := resolve_eq_select noKey isQuery
  cases control : s.toList.any Data.isControl with
  | true =>
    right
    obtain ⟨cause, isRefused, tellable⟩ := Query.parse_double_control bare control
    refine ⟨by rw [named?, control]; rfl, "\"" ++ s ++ "\"", cause, ?_⟩
    rw [asked, Scope.select, isRefused]
    simp only [Except.mapError, Scope.LookupFault.ofQuery, tellable]
    rfl
  | false =>
    left
    rw [asked, select_of_search (Query.parse_double bare control) (Query.search_field s scope),
      named?, control]
    cases scope.member? s with
    | none => rfl
    | some v =>
      cases v with
      | atom a => cases a <;> rfl
      | _ => rfl

/-- An operand in single quotes is its text. -/
theorem operand_single [Room] (bare : IsBare s.toList)
    (noKey : scope.member? ("'" ++ s ++ "'") = none) :
    operand ("'" ++ s ++ "'") scope = .ok (.text s) := by
  rw [operand_eq_lookup (by simp) (isWord_of_first (Query.toList_single s) rfl (by decide)),
    resolve_single bare noKey]
  rfl

/-- An operand in double quotes is a member before it is its text. -/
theorem operand_double [Room] (bare : IsBare s.toList)
    (noKey : scope.member? ("\"" ++ s ++ "\"") = none) :
    operand ("\"" ++ s ++ "\"") scope = (named? scope s).elim (.ok (.text s)) ofDatum := by
  rw [operand_eq_lookup (by simp) (isWord_of_first (Query.toList_double s) rfl (by decide))]
  obtain isFound | ⟨isMissing, text, cause, isRefused⟩ := resolve_double bare noKey
  · rw [isFound]
    cases named? scope s with
    | none => exact literal_double s
    | some v => rfl
  · rw [isRefused, isMissing]
    exact literal_double s

/-- An operand in quotes, in a scope that has no member whose name holds the quotes themselves. In
single quotes it is its text. In double quotes it is the member of that name, if there is one that
is not null, and its text otherwise. -/
theorem operand_quoted [Room] (bare : IsBare s.toList) :
    (scope.member? ("'" ++ s ++ "'") = none →
      operand ("'" ++ s ++ "'") scope = .ok (.text s)) ∧
    (scope.member? ("\"" ++ s ++ "\"") = none →
      operand ("\"" ++ s ++ "\"") scope = (named? scope s).elim (.ok (.text s)) ofDatum) :=
  ⟨operand_single bare, operand_double bare⟩

/-- A text that is the value of a member, and the name of none. -/
theorem operand_quoted_value :
    operand "'open'" (.ofJson (.object [("state", .text "open")])) = .ok (.text "open") ∧
      operand "\"open\"" (.ofJson (.object [("state", .text "open")])) = .ok (.text "open") := by
  have bare : IsBare "open".toList := by simp [IsBare]
  obtain ⟨single, double⟩ := @operand_quoted (.ofJson (.object [("state", .text "open")])) "open" _ bare
  exact ⟨single (by decide), double (by decide)⟩

/-- A member takes the place of a text in double quotes, not of the same text in single quotes. -/
theorem doubleQuotes_select :
    operand "\"a\"" (.ofJson (.object [("a", .int 1)])) = .ok (.int 1) ∧
      operand "'a'" (.ofJson (.object [("a", .int 1)])) = .ok (.text "a") := by
  have bare : IsBare "a".toList := by simp [IsBare]
  constructor
  · exact operand_double bare (by decide)
  · exact operand_single bare (by decide)

end TemplateFill.Condition
