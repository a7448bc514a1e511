import TemplateFill.Condition
import TemplateFill.Proofs.Text.Blank

/-!
# Comparisons

A condition is cut at its first operator, so two operands that hold none of the characters of
operators are compared by the operator that stands between them. What comes of it depends on the
two values alone. The six operators fit together: two are an equality and its opposite, and the
other four are a linear order on the whole numbers and are blamed for everything else.
-/

namespace TemplateFill.Condition

/-- The characters that operators are made of. -/
def isSign (c : Char) : Bool := c = '=' || c = '!' || c = '<' || c = '>'

/-- Two operands with an operator between them, and a space on both sides of it. -/
def comparing (left : String) (operator : Operator) (right : String) : String :=
  left ++ " " ++ operator.sign ++ " " ++ right

/-- A text is an operand with a value, and nothing in it can be taken for an operator. -/
structure StandsFor [Room] (scope : Datum) (text : String) (value : Operand) : Prop where
  notBlank : Text.trim text.toList ≠ []
  noSign : ∀ c ∈ text.toList, isSign c = false
  hasValue : operand (Text.trimmed text) scope = .ok value

/-! ### Cutting -/

theorem splitOperator?_cons {c : Char} (noSign : isSign c = false) (s : List Char) :
    splitOperator? (c :: s) =
      (splitOperator? s).map fun (before, operator, after) => (c :: before, operator, after) := by
  have other (sign : Char) (isSigned : isSign sign) : c ≠ sign := by
    rintro rfl
    rw [noSign] at isSigned
    cases isSigned
  rw [splitOperator?]
  · exact fun _ same => absurd same (other '=' rfl)
  · exact fun _ same => absurd same (other '!' rfl)
  · exact fun _ same => absurd same (other '<' rfl)
  · exact fun _ same => absurd same (other '>' rfl)
  · exact other '<' rfl
  · exact other '>' rfl

/-- What stands before the first operator is not looked at. -/
theorem splitOperator?_append {s : List Char} (noSign : ∀ c ∈ s, isSign c = false)
    (rest : List Char) :
    splitOperator? (s ++ rest) = (splitOperator? rest).map
      fun (before, operator, after) => (s ++ before, operator, after) := by
  induction s with
  | nil => simp
  | cons c s ih =>
    rw [List.cons_append, splitOperator?_cons (noSign c List.mem_cons_self),
      ih fun d member => noSign d (List.mem_cons_of_mem _ member), Option.map_map]
    rfl

/-- An operator is found if a space follows it. -/
theorem splitOperator?_sign (operator : Operator) (rest : List Char) :
    splitOperator? (operator.sign.toList ++ ' ' :: rest) = some ([], operator, ' ' :: rest) := by
  cases operator <;> rfl

variable {scope : Datum} {left middle right : String} {a b c : Operand}

theorem splitOperator?_comparing (noSign : ∀ c ∈ left.toList, isSign c = false)
    (operator : Operator) (right : String) :
    splitOperator? (comparing left operator right).toList =
      some (left.toList ++ [' '], operator, ' ' :: right.toList) := by
  have letters : (comparing left operator right).toList =
      left.toList ++ ' ' :: (operator.sign.toList ++ ' ' :: right.toList) := by
    simp [comparing]
  rw [letters, splitOperator?_append noSign, splitOperator?_cons rfl, splitOperator?_sign]
  rfl

/-! ### Operands with values -/

/-- The verdict on a comparison is what the operator makes of the two values. -/
theorem evaluate_comparing [Room] (first : StandsFor scope left a) (second : StandsFor scope right b)
    (operator : Operator) :
    evaluate (comparing left operator right) scope = .ok (compareOperands operator a b) := by
  have isFirst := first.hasValue
  have isSecond := second.hasValue
  rw [Text.trimmed] at isFirst isSecond
  obtain ⟨d, s, isLeft⟩ := List.exists_cons_of_ne_nil first.notBlank
  obtain ⟨e, t, isRight⟩ := List.exists_cons_of_ne_nil second.notBlank
  rw [evaluate, splitOperator?_comparing first.noSign]
  dsimp only
  rw [comparison, Text.trim_concat_of_blank rfl, Text.trim_cons_of_blank rfl]
  rw [isLeft] at isFirst ⊢
  rw [isRight] at isSecond ⊢
  dsimp only
  rw [isFirst, isSecond]
  rfl

/-- A comparison that holds, with nothing to complain about. -/
def Holds [Room] (scope : Datum) (left : String) (operator : Operator) (right : String) : Prop :=
  evaluate (comparing left operator right) scope = .ok (.plain true)

theorem holds_iff [Room] (first : StandsFor scope left a) (second : StandsFor scope right b)
    (operator : Operator) :
    Holds scope left operator right ↔ compareOperands operator a b = .plain true := by
  rw [Holds, evaluate_comparing first second, Except.ok.injEq]

/-! ### Equality -/

theorem plain_eq_plain {p q : Bool} : Verdict.plain p = .plain q ↔ p = q := by
  simp [Verdict.plain]

theorem holds_equal_iff [Room] (first : StandsFor scope left a) (second : StandsFor scope right b) :
    Holds scope left .equal right ↔ a = b := by
  rw [holds_iff first second, compareOperands, plain_eq_plain, decide_eq_true_iff]

/-! ### Order -/

def Operator.isOrdering : Operator → Bool
  | .equal | .notEqual => false
  | _ => true

/-- A value is a whole number, which no truth value is. -/
def Operand.isInt : Operand → Bool
  | .int _ => true
  | _ => false

/-- Only whole numbers have an order. -/
theorem compareOperands_unordered {operator : Operator} (ordering : operator.isOrdering)
    (apart : (a.isInt && b.isInt) = false) :
    compareOperands operator a b = .blamed (.unordered operator a b) := by
  cases operator with
  | equal => cases ordering
  | notEqual => cases ordering
  | _ =>
    cases a with
    | int m =>
      cases b with
      | int n => cases apart
      | _ => rfl
    | _ => rfl

/-- One of three holds and the other two do not. -/
def ExactlyOne (p q r : Prop) : Prop := (p ∧ ¬q ∧ ¬r) ∨ (¬p ∧ q ∧ ¬r) ∨ (¬p ∧ ¬q ∧ r)

/-- What the operators say of two texts that are whole numbers. -/
structure IsOrdered [Room] (scope : Datum) (left right : String) : Prop where
  isJudged : ∀ operator, ∃ holds, evaluate (comparing left operator right) scope =
    .ok (.plain holds)
  one : ExactlyOne (Holds scope left .less right) (Holds scope left .equal right)
    (Holds scope left .greater right)
  lessEqual : Holds scope left .lessEqual right ↔
    Holds scope left .less right ∨ Holds scope left .equal right
  greaterEqual : Holds scope left .greaterEqual right ↔
    Holds scope left .greater right ∨ Holds scope left .equal right
  swap : evaluate (comparing left .less right) scope =
    evaluate (comparing right .greater left) scope
  swapEqual : evaluate (comparing left .lessEqual right) scope =
    evaluate (comparing right .greaterEqual left) scope

theorem isOrdered_of_int [Room] {m n : Int} (first : StandsFor scope left (.int m))
    (second : StandsFor scope right (.int n)) : IsOrdered scope left right where
  isJudged operator := by
    rw [evaluate_comparing first second]
    cases operator <;> exact ⟨_, rfl⟩
  one := by
    simp only [holds_iff first second, compareOperands, plain_eq_plain, decide_eq_true_iff,
      Operand.int.injEq]
    unfold ExactlyOne
    omega
  lessEqual := by
    simp only [holds_iff first second, compareOperands, plain_eq_plain, decide_eq_true_iff,
      Operand.int.injEq]
    omega
  greaterEqual := by
    simp only [holds_iff first second, compareOperands, plain_eq_plain, decide_eq_true_iff,
      Operand.int.injEq]
    omega
  swap := by
    rw [evaluate_comparing first second, evaluate_comparing second first]
    rfl
  swapEqual := by
    rw [evaluate_comparing first second, evaluate_comparing second first]
    rfl

/-! ### The laws of comparisons -/

/-- The verdict on a comparison depends on the values of its two operands alone. Equality holds
between equal values, which are of one kind, so it is an equivalence, and the operator for
inequality says the opposite. Two whole numbers are in a linear order. If one of the values is no
whole number, an operator that asks for an order is blamed, with the kinds of the two. -/
theorem comparisons_agree [Room] (first : StandsFor scope left a) (second : StandsFor scope middle b)
    (third : StandsFor scope right c) :
    (∀ other text word, StandsFor other text a → StandsFor other word b → ∀ operator,
      evaluate (comparing text operator word) other =
        evaluate (comparing left operator middle) scope) ∧
    (∃ same : Bool, evaluate (comparing left .equal middle) scope = .ok (.plain same) ∧
      evaluate (comparing left .notEqual middle) scope = .ok (.plain !same) ∧
      (same ↔ a = b) ∧ (same → a.kindName = b.kindName)) ∧
    Holds scope left .equal left ∧
    (Holds scope left .equal middle → Holds scope middle .equal left) ∧
    (Holds scope left .equal middle → Holds scope middle .equal right →
      Holds scope left .equal right) ∧
    (a.isInt → b.isInt → IsOrdered scope left middle) ∧
    ((a.isInt && b.isInt) = false → ∀ operator : Operator, operator.isOrdering →
      ∃ complaint, evaluate (comparing left operator middle) scope = .ok ⟨false, some complaint⟩ ∧
        complaint.message =
          s!"Operator '{operator.sign}' is allowed only for ints, but operands have types " ++
            s!"'{a.kindName}' and '{b.kindName}'") := by
  refine ⟨?_, ?_, ?_, ?_, ?_, ?_, ?_⟩
  · intro other text word isText isWord operator
    rw [evaluate_comparing isText isWord, evaluate_comparing first second]
  · refine ⟨decide (a = b), evaluate_comparing first second .equal, ?_, by simp, ?_⟩
    · rw [evaluate_comparing first second]
      simp [compareOperands]
    · intro same
      rw [of_decide_eq_true same]
  · exact (holds_equal_iff first first).mpr rfl
  · rw [holds_equal_iff first second, holds_equal_iff second first]
    exact Eq.symm
  · rw [holds_equal_iff first second, holds_equal_iff second third, holds_equal_iff first third]
    exact Eq.trans
  · intro isInt isOtherInt
    cases a with
    | int m =>
      cases b with
      | int n => exact isOrdered_of_int first second
      | _ => cases isOtherInt
    | _ => cases isInt
  · intro apart operator ordering
    refine ⟨.unordered operator a b, ?_, rfl⟩
    rw [evaluate_comparing first second, compareOperands_unordered ordering apart]
    rfl

def isFound {α : Type} [DecidableEq α] (value : α) : Except Fault α → Bool
  | .ok found => found = value
  | .error _ => false

theorem eq_ok_of_isFound {α : Type} [DecidableEq α] {value : α} {found : Except Fault α}
    (h : isFound value found) : found = .ok value := by
  cases found with
  | ok other => rw [of_decide_eq_true h]
  | error cause => cases h

/-- A member is compared with numerals, and with a text that looks like one. -/
theorem comparisons_agree_on_kinds :
    let scope := Datum.ofJson (.object [("n", .int 1)])
    StandsFor scope "n" (.int 1) ∧ StandsFor scope " 1 " (.int 1) ∧ StandsFor scope "+1" (.int 1) ∧
      StandsFor scope "'1'" (.text "1") ∧
      Holds scope "n" .equal "+1" ∧ IsOrdered scope "n" " 1 " ∧
      ∃ complaint, evaluate "n < '1'" scope = .ok ⟨false, some complaint⟩ ∧ complaint.message =
        "Operator '<' is allowed only for ints, but operands have types 'int' and 'str'" := by
  intro scope
  have member : StandsFor scope "n" (.int 1) :=
    ⟨by decide, by simp [isSign], eq_ok_of_isFound (by decide)⟩
  have numeral : StandsFor scope " 1 " (.int 1) :=
    ⟨by decide, by simp [isSign], eq_ok_of_isFound (by decide +kernel)⟩
  have signed : StandsFor scope "+1" (.int 1) :=
    ⟨by decide, by simp [isSign], eq_ok_of_isFound (by decide)⟩
  have quoted : StandsFor scope "'1'" (.text "1") :=
    ⟨by decide, by simp [isSign], eq_ok_of_isFound (by decide +kernel)⟩
  obtain ⟨-, -, -, -, equal, ordered, -⟩ := comparisons_agree member numeral signed
  obtain ⟨-, -, -, -, -, -, blamed⟩ := comparisons_agree member quoted numeral
  refine ⟨member, numeral, signed, quoted, ?_, ordered rfl rfl, blamed rfl .less rfl⟩
  apply equal
  · exact (holds_equal_iff member numeral).mpr rfl
  · exact (holds_equal_iff numeral signed).mpr rfl

end TemplateFill.Condition
