import TemplateFill.Condition
import TemplateFill.Proofs.Number.Numeral
import TemplateFill.Proofs.Query.Evaluation
import TemplateFill.Proofs.Query.Reading
import TemplateFill.Proofs.Traversal

/-!
# Verdicts on conditions

The verdict on a condition depends on the values of its operands and on nothing else, so there is
one if and only if every operand has a value. What an operand selects may have none: its query
may break down, and what it yields may not be written. A text that is no query and a gentle
query select without breaking down, and data that can be shown has no value that is not written,
if there is room for what is nested in them.
-/

namespace TemplateFill.Condition

open Data (Json)

/-! ### Operands -/

def soleOperand (s : List Char) : List String :=
  match Text.trim s with
  | [] => []
  | s => [String.ofList s]

/-- A verdict with a complaint does not hold. -/
def Verdict.IsFair (verdict : Verdict) : Prop :=
  verdict.complaint ≠ none → verdict.holds = false

theorem Verdict.plain_isFair (holds : Bool) : (Verdict.plain holds).IsFair :=
  fun complains => absurd rfl complains

theorem Verdict.blamed_isFair (complaint : Complaint) : (Verdict.blamed complaint).IsFair :=
  fun _ => rfl

theorem Verdict.negate_isFair (verdict : Verdict) : verdict.negate.IsFair := by
  rw [Verdict.negate]
  cases verdict.complaint with
  | some complaint => exact blamed_isFair complaint
  | none => exact plain_isFair _

theorem compareOperands_isFair (operator : Operator) (left right : Operand) :
    (compareOperands operator left right).IsFair := by
  unfold compareOperands
  cases operator with
  | equal => exact Verdict.plain_isFair _
  | notEqual => exact Verdict.plain_isFair _
  | _ =>
    dsimp only
    split
    · exact Verdict.plain_isFair _
    · exact Verdict.blamed_isFair _

/-- In every scope, the verdict is what is made of the values of the operands. -/
def IsJudged [Room] (operands : List String) (verdict : Datum → Except Fault Verdict) : Prop :=
  ∃ judge : List Operand → Verdict, (∀ values, (judge values).IsFair) ∧
    ∀ scope, verdict scope = (operands.mapM (operand · scope)).map judge

theorem isJudged_blamed [Room] (complaint : Complaint) :
    IsJudged [] fun _ => .ok (.blamed complaint) :=
  ⟨fun _ => .blamed complaint, fun _ => Verdict.blamed_isFair complaint, fun _ => rfl⟩

theorem truth_isJudged [Room] (expression : List Char) :
    IsJudged (soleOperand expression) (truth expression) := by
  unfold truth soleOperand
  cases Text.trim expression with
  | nil => exact isJudged_blamed _
  | cons c s =>
    refine ⟨fun values => .plain (values.any (·.holds)), fun _ => Verdict.plain_isFair _,
      fun scope => ?_⟩
    dsimp only
    rw [List.mapM_cons, List.mapM_nil]
    cases operand (String.ofList (c :: s)) scope with
    | error cause => rfl
    | ok value => exact congrArg (Except.ok ∘ Verdict.plain) (Bool.or_false _).symm

def bothOperands (left right : List Char) : List String :=
  match soleOperand left, soleOperand right with
  | [a], [b] => [a, b]
  | _, _ => []

def compareValues (operator : Operator) : List Operand → Verdict
  | [a, b] => compareOperands operator a b
  | _ => .plain false

theorem compareValues_isFair (operator : Operator) (values : List Operand) :
    (compareValues operator values).IsFair := by
  unfold compareValues
  split
  · exact compareOperands_isFair _ _ _
  · exact Verdict.plain_isFair _

theorem comparison_isJudged [Room] (left : List Char) (operator : Operator) (right : List Char) :
    IsJudged (bothOperands left right) (comparison left operator right) := by
  unfold comparison bothOperands soleOperand
  cases Text.trim left with
  | nil => exact isJudged_blamed _
  | cons c left =>
    cases Text.trim right with
    | nil => exact isJudged_blamed _
    | cons d right =>
      refine ⟨compareValues operator, compareValues_isFair operator, fun scope => ?_⟩
      dsimp only
      rw [List.mapM_cons, List.mapM_cons, List.mapM_nil]
      cases operand (String.ofList (c :: left)) scope with
      | error cause => rfl
      | ok a =>
        cases operand (String.ofList (d :: right)) scope with
        | error cause => rfl
        | ok b => rfl

/-- The operands that the verdict on a condition depends on. A condition with a blank operand
is badly formed and depends on none. -/
def operandsOf (condition : String) : List String :=
  match splitOperator? condition.toList with
  | some (left, _, right) => bothOperands left right
  | none =>
    match Text.trim condition.toList with
    | '!' :: rest => soleOperand rest
    | s => soleOperand s

theorem IsJudged.negate [Room] {operands : List String} {verdict : Datum → Except Fault Verdict}
    (judged : IsJudged operands verdict) :
    IsJudged operands fun scope => (verdict scope).map Verdict.negate := by
  obtain ⟨judge, -, isVerdict⟩ := judged
  refine ⟨fun values => (judge values).negate, fun values => Verdict.negate_isFair _,
    fun scope => ?_⟩
  dsimp only
  rw [isVerdict scope]
  cases operands.mapM (operand · scope) with
  | error cause => rfl
  | ok values => rfl

theorem evaluate_isJudged [Room] (condition : String) :
    IsJudged (operandsOf condition) (evaluate condition) := by
  unfold operandsOf
  cases parts : splitOperator? condition.toList with
  | some found =>
    unfold evaluate
    simp only [parts]
    exact comparison_isJudged found.1 found.2.1 found.2.2
  | none =>
    dsimp only
    split
    · rename_i rest isNegation
      unfold evaluate
      simp only [parts, isNegation]
      exact (truth_isJudged rest).negate
    · rename_i noNegation
      have isTruth : evaluate condition = truth (Text.trim condition.toList) := by
        funext scope
        unfold evaluate
        simp only [parts]
      rw [isTruth]
      exact truth_isJudged _

/-! ### Literals -/

def digitCount (s : List Char) : Nat :=
  ((Number.splitSign s).2.takeWhile Text.isDecimalDigit).length

/-- A whole number consists of a sign or none, decimal digits, and at most a line feed. -/
theorem exists_digits_of_isWholeNumber {s : List Char} (whole : isWholeNumber s) :
    ∃ digits rest, (Number.splitSign s).2 = digits ++ rest ∧ digits.length = digitCount s ∧
      digits ≠ [] ∧ (∀ c ∈ digits, Text.isDecimalDigit c) ∧ (rest = [] ∨ rest = ['\n']) := by
  rw [isWholeNumber, Bool.and_eq_true, Bool.or_eq_true] at whole
  simp only [decide_eq_true_eq] at whole
  obtain ⟨shorter, rest⟩ := whole
  refine ⟨_, _, List.takeWhile_append_dropWhile.symm, rfl, fun none => ?_, fun c member => ?_,
    rest⟩
  · have lengths := congrArg List.length
      (List.takeWhile_append_dropWhile (p := Text.isDecimalDigit) (l := (Number.splitSign s).2))
    rw [List.length_append, none] at lengths
    simp only [List.length_nil] at lengths
    omega
  · exact List.all_eq_true.mp List.all_takeWhile c member

/-- No padding stands before a whole number. -/
theorem dropWhile_isPadding_of_isWholeNumber {s : List Char} (whole : isWholeNumber s) :
    s.dropWhile Number.isPadding = s := by
  obtain ⟨digits, rest, isBody, -, some, decimal, -⟩ := exists_digits_of_isWholeNumber whole
  unfold Number.splitSign at isBody
  split at isBody
  · exact Number.dropWhile_isPadding _ rfl
  · exact Number.dropWhile_isPadding _ rfl
  · obtain ⟨c, digits, rfl⟩ := List.exists_cons_of_ne_nil some
    dsimp only at isBody
    rw [isBody]
    exact Number.dropWhile_isPadding _ (Number.isPadding_of_isDigitLike
      (Bool.or_eq_true_iff.mpr (.inl (decimal c List.mem_cons_self))))

/-- A whole number is read if it does not have too many digits. -/
theorem readNumeral_of_isWholeNumber {text : String} (whole : isWholeNumber text.toList) :
    ∃ n, Number.readNumeral 10 text =
      if Number.digitLimit < digitCount text.toList then
        .error (.tooLong (digitCount text.toList))
      else .ok n := by
  obtain ⟨digits, rest, isBody, count, some, decimal, isRest⟩ :=
    exists_digits_of_isWholeNumber whole
  have areDigits : ∀ c ∈ digits, (Number.digitIn? 10 c).isSome := by
    intro c member
    rw [Number.digitIn?_ten]
    exact decimal c member
  have ends : ∀ c ∈ rest.head?, Number.digitIn? 10 c = none ∧ c ≠ '_' := by
    rcases isRest with rfl | rfl
    · exact nofun
    · rintro _ ⟨⟩
      decide
  have padded : rest.all Number.isPadding := by
    rcases isRest with rfl | rfl
    · rfl
    · rfl
  have taken := Number.takeDigits?_append some areDigits ends
  have length : (digits.filterMap (Number.digitIn? 10)).length = digitCount text.toList := by
    rw [List.filterMap_length_eq_length.mpr areDigits, count]
  rw [Number.readNumeral, dropWhile_isPadding_of_isWholeNumber whole]
  simp only [Number.skipBaseMark_ten, isBody, taken, length, padded]
  simp only [decide_true, Bool.true_and, decide_eq_true_eq, if_true]
  exact ⟨_, rfl⟩

/-- The literal reading of a text has a value unless it is a whole number with too many digits. -/
def IsReadable (expression : String) : Prop :=
  isWholeNumber expression.toList → digitCount expression.toList ≤ Number.digitLimit

theorem literal_of_isReadable {expression : String} (readable : IsReadable expression) :
    ∃ value, literal expression = .ok value := by
  unfold literal
  dsimp only
  split
  · rename_i whole
    obtain ⟨n, isRead⟩ := readNumeral_of_isWholeNumber whole
    rw [isRead, if_neg (Nat.not_lt.mpr (readable whole))]
    exact ⟨_, rfl⟩
  · split
    · exact ⟨_, rfl⟩
    · split
      · exact ⟨_, rfl⟩
      · split
        · exact ⟨_, rfl⟩
        · exact ⟨_, rfl⟩

theorem literal_of_not_isReadable {expression : String} (unreadable : ¬ IsReadable expression) :
    literal expression = .error (.numeral (.tooLong (digitCount expression.toList))) := by
  obtain ⟨whole, exceeds⟩ := Classical.not_imp.mp unreadable
  obtain ⟨n, isRead⟩ := readNumeral_of_isWholeNumber whole
  rw [if_pos (Nat.not_le.mp exceeds)] at isRead
  unfold literal
  simp only [whole, isRead, if_true]

theorem literal_returns_iff {expression : String} :
    (∃ value, literal expression = .ok value) ↔ IsReadable expression := by
  refine ⟨fun ⟨value, isValue⟩ => ?_, literal_of_isReadable⟩
  by_contra unreadable
  rw [literal_of_not_isReadable unreadable] at isValue
  cases isValue

/-! ### Values of operands -/

/-- A value can be an operand if it is a whole number or can be written. -/
def CanStand [Room] (v : Datum) : Prop := (∃ n, v = .int n) ∨ ∃ text, Scope.stringify v = .ok text

theorem ofDatum_returns_iff [Room] {v : Datum} : (∃ value, ofDatum v = .ok value) ↔ CanStand v := by
  unfold ofDatum
  split
  · exact ⟨fun _ => .inr ⟨_, rfl⟩, fun _ => ⟨_, rfl⟩⟩
  · exact ⟨fun _ => .inr ⟨_, rfl⟩, fun _ => ⟨_, rfl⟩⟩
  · exact ⟨fun _ => .inl ⟨_, rfl⟩, fun _ => ⟨_, rfl⟩⟩
  · rename_i noInt
    cases isText : Scope.stringify v with
    | ok text => exact ⟨fun _ => .inr ⟨text, isText⟩, fun _ => ⟨_, rfl⟩⟩
    | error cause =>
      constructor
      · rintro ⟨_, ⟨⟩⟩
      · rintro (⟨n, isInt⟩ | ⟨text, written⟩)
        · exact (noInt n isInt).elim
        · rw [isText] at written
          cases written

/-- A text has a value as an operand if it is blank or null, if it selects a value that can be
one, or if it selects nothing or is no proper query and its literal reading has a value. -/
def HasValue [Room] (scope : Datum) (expression : String) : Prop :=
  expression.isEmpty ∨ Text.isWord "null" expression ∨
    match Scope.resolve scope expression with
    | .ok (some v) => CanStand v
    | .ok none | .error (.refused _ _) => IsReadable expression
    | .error (.fault _) => False

theorem operand_returns_iff [Room] {scope : Datum} {expression : String} :
    (∃ value, operand expression scope = .ok value) ↔ HasValue scope expression := by
  unfold operand HasValue
  split
  · rename_i isNull
    refine ⟨fun _ => ?_, fun _ => ⟨_, rfl⟩⟩
    rcases Bool.or_eq_true_iff.mp isNull with isEmpty | isWord
    · exact .inl isEmpty
    · exact .inr (.inl isWord)
  · rename_i noNull
    obtain ⟨notEmpty, noWord⟩ := Bool.or_eq_false_iff.mp (Bool.eq_false_iff.mpr noNull)
    simp only [notEmpty, noWord, Bool.false_eq_true, false_or]
    cases Scope.resolve scope expression with
    | ok found =>
      cases found with
      | some v => exact ofDatum_returns_iff
      | none => exact literal_returns_iff
    | error cause =>
      cases cause with
      | refused query cause => exact literal_returns_iff
      | fault cause =>
        constructor
        · rintro ⟨_, ⟨⟩⟩
        · exact False.elim

/-! ### Gentle operands -/

/-- Whether looking up a text does not break down, if there is room for it. A text that is no query
does not. -/
def isGentle [Room] (bounded : Bool) (expression : String) : Bool :=
  match Scope.queryOf expression with
  | none => true
  | some text =>
    match Query.parse text with
    | .ok query => query.isGentle bounded
    | .error _ => true

/-- Whether there is room for a text as an operand if the values in the scope are nested no deeper
than so many levels. The text must not be longer than a number may be, nor so long that what is
nested in it might not be read. -/
def hasRoom [Room] (level : Nat) (expression : String) : Bool :=
  level ≤ Room.writing && expression.length ≤ Number.digitLimit &&
    expression.length ≤ Room.reading && expression.length ≤ Room.viewing &&
    3 * expression.length ≤ Room.parsing + 2 &&
    match Scope.queryOf expression with
    | none => true
    | some text =>
      match Query.parse text with
      | .ok query => Query.HasRoom (Room.evaluating + 2) level query
      | .error _ => true

theorem length_trim_le (s : List Char) : (Text.trim s).length ≤ s.length := by
  rw [Text.trim, Text.trimEnd, Text.trimStart, List.length_reverse]
  refine Nat.le_trans (List.length_dropWhile_le _ _) ?_
  rw [List.length_reverse]
  exact List.length_dropWhile_le _ _

theorem length_queryOf_le {expression text : String}
    (isQuery : Scope.queryOf expression = some text) :
    text.length ≤ expression.length := by
  have shorter := length_trim_le expression.toList
  unfold Scope.queryOf at isQuery
  split at isQuery
  · rename_i rest isTrimmed
    rw [isTrimmed] at shorter
    split at isQuery
    · cases isQuery
    · cases isQuery
      have := List.length_dropWhile_le (· = '.') rest
      simp only [Scope.dropDots, String.length_ofList, List.length_cons, String.length_toList] at *
      omega
  · cases isQuery
    rwa [String.length_ofList, ← String.length_toList]

theorem isReadable_of_short {expression : String} (short : expression.length ≤ Number.digitLimit) :
    IsReadable expression := by
  intro _
  refine Nat.le_trans (List.takeWhile_prefix _).length_le (Nat.le_trans ?_ short)
  rw [← String.length_toList]
  unfold Number.splitSign
  split
  · rename_i isSigned
    rw [isSigned]
    exact Nat.le_succ _
  · rename_i isSigned
    rw [isSigned]
    exact Nat.le_succ _
  · exact Nat.le_refl _

section Gentle

variable {bounded : Bool} {level : Nat} {scope v : Datum} {expression text : String}

theorem isPlain_unwrap (query : Query) (plain : v.IsPlain bounded level) :
    (Scope.unwrap query v).IsPlain bounded level := by
  unfold Scope.unwrap
  split
  · exact Query.IsPlain.items plain _ List.mem_cons_self
  · exact plain

theorem literal_returns (short : bounded → expression.length ≤ Number.digitLimit) :
    Returns bounded (fun cause => cause.isLimit) (literal expression) := by
  by_cases readable : IsReadable expression
  · obtain ⟨value, isValue⟩ := literal_of_isReadable readable
    rw [isValue]
    exact .ok value
  · rw [literal_of_not_isReadable readable]
    refine .error ?_ rfl
    cases bounded with
    | false => rfl
    | true => exact absurd (isReadable_of_short (short rfl)) readable

variable [Room]

/-- A value is plain and can be written if that is bounded. -/
def IsWritable (bounded : Bool) (v : Datum) : Prop :=
  ∃ level, v.IsPlain bounded level ∧ (bounded → level ≤ Room.writing)

/-- A lookup finds plain values or none, or is refused. Only a number with too many digits and
nesting without end may break it, if neither is bounded. -/
def LookupCalm (bounded : Bool) : Except Scope.LookupFault (Option Datum) → Prop
  | .ok found => ∀ v ∈ found, IsWritable bounded v
  | .error (.refused _ _) => True
  | .error (.fault cause) => bounded = false ∧ cause.isLimit

/-- A lookup is calm if the query that it stands for is. -/
theorem lookupCalm_of_fault {fault : Query.Fault} (calm : fault.IsCalm bounded) :
    LookupCalm bounded (.error (.ofQuery text fault)) := by
  cases fault with
  | refusal cause =>
    rw [Scope.LookupFault.ofQuery]
    cases isObstacle : cause.obstacle? with
    | none => exact trivial
    | some obstacle =>
      refine ⟨Bool.eq_false_iff.mpr fun bounds => ?_, rfl⟩
      rw [calm bounds] at isObstacle
      cases isObstacle
  | breakdown cause => exact calm

theorem select_calm (short : Query.IsShort bounded text.length)
    (parts : bounded → 3 * text.length ≤ Room.parsing + 2)
    (gentle : ∀ query, Query.parse text = .ok query → query.isGentle bounded)
    (enough : ∀ query, Query.parse text = .ok query →
      bounded → Query.HasRoom (Room.evaluating + 2) level query)
    (plain : scope.IsPlain bounded level) : LookupCalm bounded (Scope.select scope text) := by
  have parsing := Query.parse_calm short parts
  unfold Scope.select
  cases isQuery : Query.parse text with
  | error fault =>
    rw [isQuery] at parsing
    exact lookupCalm_of_fault parsing
  | ok query =>
    have enough := enough query isQuery
    have calm := Query.calm_search (gentle query isQuery) enough plain
    change LookupCalm bounded ((Query.search query scope).mapError _ >>= _)
    cases found : Query.search query scope with
    | ok v =>
      rw [found] at calm
      have isPlain := isPlain_unwrap query calm
      simp only [Except.mapError, bind, Except.bind]
      split
      · exact nofun
      · rintro _ ⟨⟩
        exact ⟨_, isPlain, fun bounds => (enough bounds).2.2⟩
    | error fault =>
      rw [found] at calm
      exact lookupCalm_of_fault calm

theorem resolve_calm (gentle : isGentle bounded expression)
    (enough : bounded → hasRoom level expression) (plain : scope.IsPlain bounded level) :
    LookupCalm bounded (Scope.resolve scope expression) := by
  simp only [hasRoom, Bool.and_eq_true, decide_eq_true_eq] at enough
  have written (bounds : bounded) : level ≤ Room.writing := (enough bounds).1.1.1.1.1
  unfold Scope.resolve
  cases isMember : scope.member? expression with
  | some v =>
    rintro _ ⟨⟩
    exact ⟨level, Query.isPlain_member? plain expression v isMember, written⟩
  | none =>
    cases isQuery : Scope.queryOf expression with
    | none =>
      rintro _ ⟨⟩
      exact ⟨level, plain, written⟩
    | some text =>
      have shorter := length_queryOf_le isQuery
      rw [isGentle, isQuery] at gentle
      rw [isQuery] at enough
      refine select_calm (fun bounds => ?_) (fun bounds => ?_) (fun query isParsed => ?_)
        (fun query isParsed bounds => ?_) plain
      · obtain ⟨⟨⟨⟨⟨-, digits⟩, reading⟩, viewing⟩, -⟩, -⟩ := enough bounds
        exact ⟨by omega, by omega, by omega⟩
      · obtain ⟨⟨-, parts⟩, -⟩ := enough bounds
        omega
      · simpa [isParsed] using gentle
      · simpa [isParsed] using (enough bounds).2

theorem ofDatum_returns (writable : IsWritable bounded v) :
    Returns bounded (fun cause => cause.isLimit) (ofDatum v) := by
  obtain ⟨level, plain, enough⟩ := writable
  unfold ofDatum
  split
  · exact .ok _
  · exact .ok _
  · exact .ok _
  · exact (plain.stringify_returns enough).map _

/-- A gentle operand has a value in every plain scope, if there is room for it. -/
theorem operand_returns (gentle : isGentle bounded expression)
    (enough : bounded → hasRoom level expression) (plain : scope.IsPlain bounded level) :
    Returns bounded (fun cause => cause.isLimit) (operand expression scope) := by
  have short (bounds : bounded) : expression.length ≤ Number.digitLimit := by
    have enough := enough bounds
    simp only [hasRoom, Bool.and_eq_true, decide_eq_true_eq] at enough
    exact enough.1.1.1.1.2
  have calm := resolve_calm gentle enough plain
  unfold operand
  split
  · exact .ok _
  · cases found : Scope.resolve scope expression with
    | ok selected =>
      rw [found] at calm
      cases selected with
      | some v => exact ofDatum_returns (calm v rfl)
      | none => exact literal_returns short
    | error cause =>
      rw [found] at calm
      cases cause with
      | refused query cause => exact literal_returns short
      | fault cause => exact .error calm.1 calm.2

/-! ### Verdicts -/

theorem operands_return_iff {operands : List String} :
    (∃ values, operands.mapM (operand · scope) = .ok values) ↔
      ∀ expression ∈ operands, HasValue scope expression := by
  constructor
  · rintro ⟨values, areValues⟩ expression member
    obtain ⟨value, -, isValue⟩ := exists_right_of_mem (forall₂_of_mapM areValues) member
    exact operand_returns_iff.mp ⟨value, isValue⟩
  · exact fun each => exists_mapM_eq_ok fun expression member =>
      operand_returns_iff.mpr (each expression member)

theorem operands_return {operands : List String} (plain : scope.IsPlain bounded level)
    (gentle : ∀ expression ∈ operands, isGentle bounded expression)
    (enough : ∀ expression ∈ operands, bounded → hasRoom level expression) :
    Returns bounded (fun cause => cause.isLimit) (operands.mapM (operand · scope)) :=
  .mapM fun expression member => operand_returns (gentle expression member)
    (enough expression member) plain

end Gentle

/-- A condition about which there is a complaint does not hold. There is a verdict if and only if
every operand has a value. If all operands are gentle, nothing but a number with too many digits or
nesting keeps the verdict away, and nothing at all if there is room for the operands and the data
can be shown. -/
theorem evaluate_answers [Room] (condition : String) (data : Json) :
    (∀ verdict, evaluate condition (.ofJson data) = .ok verdict → verdict.IsFair) ∧
    ((∃ verdict, evaluate condition (.ofJson data) = .ok verdict) ↔
      ∀ expression ∈ operandsOf condition, HasValue (.ofJson data) expression) ∧
    ((∀ expression ∈ operandsOf condition, isGentle false expression) →
      (∃ verdict, evaluate condition (.ofJson data) = .ok verdict) ∨
        ∃ cause, evaluate condition (.ofJson data) = .error cause ∧ cause.isLimit) ∧
    (∀ level, (Datum.ofJson data).fits level →
      (∀ expression ∈ operandsOf condition, isGentle true expression ∧ hasRoom level expression) →
      ∃ verdict, evaluate condition (.ofJson data) = .ok verdict) := by
  obtain ⟨judge, fair, judged⟩ := evaluate_isJudged condition
  rw [judged]
  refine ⟨fun verdict isVerdict => ?_, ?_, fun gentle => ?_, fun level fits gentle => ?_⟩
  · obtain ⟨values, -, rfl⟩ := map_eq_ok isVerdict
    exact fair values
  · rw [← operands_return_iff]
    constructor
    · rintro ⟨verdict, isVerdict⟩
      obtain ⟨values, areValues, -⟩ := map_eq_ok isVerdict
      exact ⟨values, areValues⟩
    · rintro ⟨values, areValues⟩
      rw [areValues]
      exact ⟨_, rfl⟩
  · have plain : (Datum.ofJson data).IsPlain false 0 := Datum.isPlain_ofJson data nofun
    exact ((operands_return plain gentle fun _ _ => nofun).map judge).imp id fun limited => limited.2
  · have plain : (Datum.ofJson data).IsPlain true level :=
      Datum.isPlain_ofJson data fun _ => Datum.fits_iff.mp fits
    exact ((operands_return plain (fun expression member => (gentle expression member).1)
      fun expression member _ => (gentle expression member).2).map judge).exists_ok

/-- An operand may lead to a member of an item and be compared with a text. -/
theorem evaluate_answers_path :
    ∃ verdict, evaluate "a[0].b == 'x'"
      (.ofJson (.object [("a", .list [.object [("b", .text "x")]])])) = .ok verdict :=
  (evaluate_answers _ _).2.2.2 3 (by decide +kernel) (by decide +kernel)

/-- A slice that steps nowhere leaves a condition without verdict and without complaint. -/
theorem zeroStep_has_no_verdict :
    ∃ cause, evaluate "a[::0]" (.ofJson (.object [("a", .list [.int 1])])) = .error cause ∧
      cause.message = "slice step cannot be zero" := by
  have stops : (match evaluate "a[::0]" (.ofJson (.object [("a", .list [.int 1])])) with
      | .error cause => cause.message == "slice step cannot be zero"
      | .ok _ => false) = true := by
    decide +kernel
  cases result : evaluate "a[::0]" (.ofJson (.object [("a", .list [.int 1])])) with
  | error cause =>
    rw [result] at stops
    exact ⟨cause, rfl, eq_of_beq stops⟩
  | ok verdict =>
    rw [result] at stops
    cases stops

end TemplateFill.Condition
