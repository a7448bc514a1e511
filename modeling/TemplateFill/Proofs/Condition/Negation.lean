import TemplateFill.Proofs.Condition.Comparison
import TemplateFill.Proofs.Condition.Lookup
import TemplateFill.Proofs.Data.Written
import TemplateFill.Proofs.Query.Word

/-!
# Negations

The first negation sign of a condition turns the verdict on the rest around. A further one belongs
to the operand, which is a query, and a query has its own idea of what counts as true: the number
zero does, and an empty list or object does not. So a condition is negated as one expects if it does
not begin with a negation sign, and a name behind two or more signs is judged as a query judges it.
-/

namespace TemplateFill.Condition

open Query (IsName isNameStart isNamePart signed)

variable {scope v : Datum} {c name : String} {s t : List Char} {n : Nat}

/-! ### The first negation sign -/

theorem toList_not (s : String) : ("!" ++ s).toList = '!' :: s.toList := by
  rw [String.toList_append]
  rfl

theorem truth_congr [Room] (same : Text.trim s = Text.trim t) : truth s scope = truth t scope := by
  rw [truth, truth, same]

/-- A negation sign is passed over if no equality sign follows it. -/
theorem splitOperator?_not {d : Char} (other : d ≠ '=') (s : List Char) :
    splitOperator? ('!' :: d :: s) = (splitOperator? (d :: s)).map
      fun (before, operator, after) => ('!' :: before, operator, after) := by
  rw [splitOperator?]
  · exact fun _ same _ => absurd same (by decide)
  · exact fun _ _ same => other (List.cons.inj same).1
  · exact fun _ same _ => absurd same (by decide)
  · exact fun _ same _ => absurd same (by decide)
  · decide
  · decide

theorem splitOperator?_of_not (noOperator : splitOperator? ('!' :: s) = none) :
    splitOperator? s = none := by
  cases s with
  | nil => rfl
  | cons d s =>
    have other : d ≠ '=' := by
      rintro rfl
      cases noOperator
    rw [splitOperator?_not other, Option.map_eq_none_iff] at noOperator
    exact noOperator

/-- A condition without an operator and without a negation sign is an operand. -/
theorem evaluate_eq_truth [Room] (noOperator : splitOperator? c.toList = none)
    (noSign : (Text.trim c.toList).head? ≠ some '!') :
    evaluate c scope = truth c.toList scope := by
  rw [evaluate, noOperator]
  dsimp only
  split
  · rename_i rest isTrimmed
    rw [isTrimmed] at noSign
    exact absurd rfl noSign
  · exact truth_congr (Text.trim_trim _)

/-- The first negation sign turns the verdict on the rest around. -/
theorem evaluate_not [Room] (noOperator : splitOperator? ("!" ++ c).toList = none) :
    evaluate ("!" ++ c) scope = (truth c.toList scope).map Verdict.negate := by
  rw [evaluate, noOperator, toList_not, Text.trim_cons_of_not_blank rfl]
  change (truth (Text.trimEnd c.toList) scope).map Verdict.negate = _
  rw [truth_congr (Text.trim_trimEnd _)]

/-- A text that is not blank is an operand. -/
theorem truth_eq_operand [Room] (notBlank : Text.trim s ≠ []) :
    truth s scope = (operand (String.ofList (Text.trim s)) scope).map
      fun value => .plain value.holds := by
  obtain ⟨d, rest, isTrimmed⟩ := List.exists_cons_of_ne_nil notBlank
  rw [truth, isTrimmed]
  dsimp only
  cases operand (String.ofList (d :: rest)) scope <;> rfl

/-! ### Names -/

/-- The letters of names and negation signs, none of which is a blank or part of an operator. -/
def isSignedLetter (d : Char) : Bool := d = '!' || isNamePart d

theorem toNat_of_isAlpha {d : Char} (letter : d.isAlpha) : 65 ≤ d.toNat ∧ d.toNat ≤ 122 := by
  delta Char.isAlpha Char.isUpper Char.isLower at letter
  simp only [Bool.or_eq_true, Bool.and_eq_true, decide_eq_true_eq, ge_iff_le] at letter
  obtain ⟨above, below⟩ | ⟨above, below⟩ := letter
  · exact ⟨above, Nat.le_trans below (by decide)⟩
  · exact ⟨Nat.le_trans (by decide) above, below⟩

theorem toNat_of_isNameStart {d : Char} (starts : isNameStart d) :
    65 ≤ d.toNat ∧ d.toNat ≤ 122 := by
  rw [isNameStart, Bool.or_eq_true, decide_eq_true_eq] at starts
  obtain letter | rfl := starts
  · exact toNat_of_isAlpha letter
  · decide

theorem toNat_of_isSignedLetter {d : Char} (letter : isSignedLetter d) :
    33 ≤ d.toNat ∧ d.toNat ≤ 122 := by
  rw [isSignedLetter, isNamePart, Char.isAlphanum] at letter
  simp only [Bool.or_eq_true, decide_eq_true_eq] at letter
  obtain rfl | (letter | digit) | rfl := letter
  · decide
  · have bounds := toNat_of_isAlpha letter
    omega
  · have bounds := Number.toNat_of_isDigit digit
    omega
  · decide

/-- A blank stands before the letters of signed names or behind all of them. -/
theorem isBlank_of_isSignedLetter {d : Char} (letter : isSignedLetter d) :
    Text.isBlank d = false := by
  have bounds := toNat_of_isSignedLetter letter
  simp only [Text.isBlank, Bool.or_eq_false_iff, Bool.and_eq_false_iff, decide_eq_false_iff_not,
    beq_eq_false_iff_ne]
  omega

theorem isSignedLetter_of_isNamePart {d : Char} (part : isNamePart d) : isSignedLetter d := by
  rw [isSignedLetter, part, Bool.or_true]

theorem isSign_of_isNamePart {d : Char} (part : isNamePart d) : isSign d = false := by
  rw [Bool.eq_false_iff]
  intro sign
  simp only [isSign, Bool.or_eq_true, decide_eq_true_eq] at sign
  obtain ((rfl | rfl) | rfl) | rfl := sign <;> cases part

/-- The digits of every script stand before the first letters of names or behind all of them. -/
theorem isDecimalDigit_of_isNameStart {d : Char} (starts : isNameStart d) :
    Text.isDecimalDigit d = false := by
  have apart : ∀ first ∈ Text.digitZeros, first + 10 ≤ 65 ∨ 122 < first := by decide
  have bounds := toNat_of_isNameStart starts
  rw [Bool.eq_false_iff]
  intro decimal
  obtain ⟨value, found⟩ := Option.isSome_iff_exists.mp decimal
  obtain ⟨first, isFirst, -⟩ := Option.map_eq_some_iff.mp found
  have inBlock := List.find?_some isFirst
  rw [Bool.and_eq_true, decide_eq_true_eq, decide_eq_true_eq] at inBlock
  have := apart first (List.mem_of_find?_eq_some isFirst)
  omega

theorem isSignedLetter_of_mem (isName : IsName name.toList) (n : Nat) :
    ∀ d ∈ (signed n name).toList, isSignedLetter d := by
  intro d member
  rw [Query.toList_signed, List.mem_append] at member
  obtain isSigned | isLetter := member
  · rw [List.eq_of_mem_replicate isSigned]
    rfl
  · exact isSignedLetter_of_isNamePart (isName.isNamePart d isLetter)

theorem toList_signed_ne_nil (isName : IsName name.toList) (n : Nat) :
    (signed n name).toList ≠ [] := by
  obtain ⟨first, rest, isText, -, -⟩ := isName
  rw [Query.toList_signed, isText]
  simp

theorem trim_signed (isName : IsName name.toList) (n : Nat) :
    Text.trim (signed n name).toList = (signed n name).toList := by
  have noBlank : ∀ d ∈ (signed n name).toList, Text.isBlank d = false :=
    fun d member => isBlank_of_isSignedLetter (isSignedLetter_of_mem isName n d member)
  exact Text.trim_eq_self (fun d isFirst => noBlank d (List.mem_of_mem_head? isFirst))
    fun d isLast => noBlank d (List.mem_of_getLast? isLast)

theorem queryOf_signed (isName : IsName name.toList) (n : Nat) :
    Scope.queryOf (signed n name) = some (signed n name) := by
  have letter := isSignedLetter_of_mem isName n
  apply queryOf_eq_self
  · intro d isFirst
    have isLetter := letter d (List.mem_of_mem_head? isFirst)
    refine ⟨?_, isBlank_of_isSignedLetter isLetter⟩
    rintro rfl
    cases isLetter
  · intro d isLast
    exact isBlank_of_isSignedLetter (letter d (List.mem_of_getLast? isLast))

theorem splitOperator?_signed (isName : IsName name.toList) (n : Nat) :
    splitOperator? (signed n name).toList = none := by
  induction n with
  | zero =>
    have noSign : ∀ d ∈ name.toList, isSign d = false :=
      fun d member => isSign_of_isNamePart (isName.isNamePart d member)
    have isCut := splitOperator?_append noSign []
    rw [List.append_nil] at isCut
    rw [Query.toList_signed]
    exact isCut
  | succ n ih =>
    obtain ⟨d, rest, isText⟩ := List.exists_cons_of_ne_nil (toList_signed_ne_nil isName n)
    have other : d ≠ '=' := by
      have letter := isSignedLetter_of_mem isName n d (by rw [isText]; exact List.mem_cons_self)
      rintro rfl
      cases letter
    rw [Query.signed_succ, toList_not, isText, splitOperator?_not other, ← isText, ih]
    rfl

/-! ### What queries count as true -/

/-- Whether a query counts a value as true: zero does, as every other number. -/
def counts (v : Datum) : Bool :=
  match v.quantity? with
  | some q => q.equal (.whole 0) || v.holds
  | none => v.holds

theorem negated_eq (v : Datum) : Query.negated v = .bool !(counts v) := by
  rw [Query.negated, counts]
  cases v.quantity? with
  | none => rfl
  | some q => cases isZero : q.equal (.whole 0) <;> simp [isZero]

theorem iterate_negated (v : Datum) (n : Nat) :
    Query.negated^[n + 1] v = .bool (not^[n + 1] (counts v)) := by
  induction n with
  | zero => exact negated_eq v
  | succ n ih =>
    rw [Function.iterate_succ_apply', ih, negated_eq, Function.iterate_succ_apply' not (n + 1)]
    rfl

theorem unwrap_bool (query : Query) (b : Bool) : Scope.unwrap query (.bool b) = .bool b := by
  unfold Scope.unwrap
  cases query.isMultiMatch <;> rfl

/-- There is room for a name behind so many signs, of which the last belong to a query. -/
def HasSignRoom [Room] (n : Nat) : Prop := 2 * n ≤ Room.parsing ∧ n ≤ Room.evaluating

instance [Room] (n : Nat) : Decidable (HasSignRoom n) := inferInstanceAs (Decidable (_ ∧ _))

theorem select_signed [Room] (isName : IsName name.toList) (n : Nat) :
    Scope.select scope (signed (n + 1) name) =
      if HasSignRoom n then
        .ok (some (.bool (not^[n + 1] (counts ((scope.member? name).getD .null)))))
      else .error (.fault (.breakdown .tooDeep)) := by
  have isParsed := Query.parse_signed isName (n + 1)
  have isJudged := Query.search_negations name scope (n + 1)
  rw [iterate_negated] at isJudged
  by_cases parses : 2 * n ≤ Room.parsing
  · rw [if_pos (by omega)] at isParsed
    by_cases evaluates : n ≤ Room.evaluating
    · rw [if_pos (by omega)] at isJudged
      rw [select_of_search isParsed isJudged, present?, Option.map_some, unwrap_bool,
        if_pos ⟨parses, evaluates⟩]
      exact nofun
    · rw [if_neg (by omega)] at isJudged
      rw [Scope.select, isParsed, if_neg fun fits => evaluates fits.2]
      dsimp only [Except.mapError, Bind.bind, Except.bind]
      rw [isJudged]
      rfl
  · rw [if_neg (by omega)] at isParsed
    rw [Scope.select, isParsed, if_neg fun fits => parses fits.1]
    rfl

theorem operand_signed [Room] (isName : IsName name.toList)
    (noKey : scope.member? (signed (n + 1) name) = none) :
    operand (signed (n + 1) name) scope =
      if HasSignRoom n then
        .ok (.bool (not^[n + 1] (counts ((scope.member? name).getD .null))))
      else .error (.breakdown .tooDeep) := by
  have isText : (signed (n + 1) name).toList = '!' :: (signed n name).toList := by
    rw [Query.signed_succ, toList_not]
  have nonempty : (signed (n + 1) name).isEmpty = false := by
    rw [Query.signed_succ]
    simp
  rw [operand_eq_lookup nonempty (isWord_of_first isText rfl (by decide)),
    resolve_eq_select noKey (queryOf_signed isName (n + 1)), select_signed isName]
  by_cases fits : HasSignRoom n
  · rw [if_pos fits, if_pos fits]
    rfl
  · rw [if_neg fits, if_neg fits]

/-- Behind two or more signs a name is judged as a query judges it. -/
theorem evaluate_signed [Room] (isName : IsName name.toList)
    (noKey : scope.member? (signed (n + 1) name) = none) :
    evaluate (signed (n + 2) name) scope =
      if HasSignRoom n then
        .ok (.plain (not^[n] (counts ((scope.member? name).getD .null))))
      else .error (.breakdown .tooDeep) := by
  have noOperator := splitOperator?_signed isName (n + 2)
  rw [Query.signed_succ] at noOperator ⊢
  rw [evaluate_not noOperator, truth_eq_operand, trim_signed isName, String.ofList_toList,
    operand_signed isName noKey, ← Bool.not_not (not^[n] _), ← Function.iterate_succ_apply' not n]
  · split <;> rfl
  · rw [trim_signed isName]
    exact toList_signed_ne_nil isName _

/-! ### Names without signs -/

/-- A name is judged by its value. -/
theorem evaluate_name [Room] (isName : IsName name.toList) :
    evaluate name scope = (operand name scope).map fun value => .plain value.holds := by
  have noOperator := splitOperator?_signed isName 0
  have isTrimmed := trim_signed isName 0
  have nonempty := toList_signed_ne_nil isName 0
  rw [Query.signed_zero] at noOperator isTrimmed nonempty
  have noSign : (Text.trim name.toList).head? ≠ some '!' := by
    obtain ⟨first, rest, isText, starts, -⟩ := isName
    rw [isTrimmed, isText, List.head?_cons]
    rintro ⟨⟩
    cases starts
  rw [evaluate_eq_truth noOperator noSign, truth_eq_operand (by rwa [isTrimmed]), isTrimmed,
    String.ofList_toList]

theorem operand_member [Room] (isName : IsName name.toList) (noNull : Text.isWord "null" name = false)
    (isMember : scope.member? name = some v) : operand name scope = ofDatum v := by
  rw [operand_eq_lookup isName.nonempty noNull, Scope.resolve, isMember]

/-- A name that is no member is a truth value or nothing. -/
theorem literal_name (isName : IsName name.toList) :
    literal name = .ok (if Text.isWord "true" name then .bool true
      else if Text.isWord "false" name then .bool false else .none) := by
  obtain ⟨first, rest, isText, starts, parts⟩ := isName
  have noDigit : Text.isDecimalDigit first = false := isDecimalDigit_of_isNameStart starts
  have other (d : Char) (noStart : isNameStart d = false) : first ≠ d := by
    rintro rfl
    rw [noStart] at starts
    cases starts
  have noNumber : isWholeNumber (first :: rest) = false := by
    apply isWholeNumber_of_body _ noDigit
    · exact rest
    · rw [Number.splitSign]
      · exact fun _ same => other '-' (by decide) (List.cons.inj same).1
      · exact fun _ same => other '+' (by decide) (List.cons.inj same).1
  have noText : unquoted? (first :: rest) = none := by
    simp [unquoted?, other '\'' (by decide), other '"' (by decide)]
  rw [literal, isText, noNumber, noText]
  cases Text.isWord "true" name <;> cases Text.isWord "false" name <;> rfl

theorem operand_missing [Room] (isName : IsName name.toList) (noMember : scope.member? name = none) :
    ∃ value, operand name scope = .ok value ∧ value.holds = Text.isWord "true" name := by
  cases isNull : Text.isWord "null" name with
  | true =>
    refine ⟨.none, ?_, ?_⟩
    · rw [operand, isNull, Bool.or_true]
      rfl
    · have isText : name.toList.map Char.toLower = "null".toList := eq_of_beq isNull
      rw [Text.isWord, isText]
      rfl
  | false =>
    have isMissing : Scope.resolve scope name = .ok none := by
      have isQuery := queryOf_signed isName 0
      rw [Query.signed_zero] at isQuery
      have isFound := Query.search_field name scope
      rw [noMember] at isFound
      rw [resolve_eq_select noMember isQuery]
      exact select_of_search (Query.parse_name isName) isFound
    have isRead : operand name scope = literal name := by
      rw [operand_eq_lookup isName.nonempty isNull, isMissing]
    rw [isRead]
    refine ⟨_, literal_name isName, ?_⟩
    cases Text.isWord "true" name <;> cases Text.isWord "false" name <;> rfl

/-! ### Two ideas of truth -/

theorem holds_of_written [Room] {value : Operand}
    (written : (Scope.stringify v).map .text = .ok value) :
    value.holds = false ↔ v = .null ∨ v = .text "" := by
  obtain ⟨s, isText, rfl⟩ := map_eq_ok written
  rw [← Scope.stringify_eq_empty_iff, isText]
  simp [Operand.holds]

/-- What a condition counts as false: null, false, zero and the empty text. -/
theorem holds_eq_false_iff [Room] {value : Operand} (isFound : ofDatum v = .ok value) :
    value.holds = false ↔ v = .null ∨ v = .bool false ∨ v = .int 0 ∨ v = .text "" := by
  cases v with
  | atom a =>
    cases a with
    | null =>
      cases isFound
      simp [Operand.holds]
    | bool b =>
      cases isFound
      simp [Operand.holds]
    | int n =>
      cases isFound
      simp [Operand.holds]
    | float x mark => simpa using holds_of_written (v := .float x mark) isFound
    | text s => simpa using holds_of_written (v := .text s) isFound
    | reference target mark => simpa using holds_of_written (v := .reference target mark) isFound
  | list items => simpa using holds_of_written (v := .list items) isFound
  | object members => simpa using holds_of_written (v := .object members) isFound

/-- What a query counts as false: null, false, and what is empty. -/
theorem counts_eq_false_iff (v : Datum) :
    counts v = false ↔ v = .null ∨ v = .bool false ∨ v = .text "" ∨ v = .list [] ∨
      v = .object [] ∨ ∃ x mark, v = .float x mark ∧ counts (.float x mark) = false := by
  cases v with
  | atom a =>
    cases a with
    | int n =>
      have always : counts (.int n) := by
        by_cases isZero : n = 0
        · subst isZero
          decide
        · simp [counts, Datum.quantity?, Atom.quantity?, Datum.holds, Atom.holds, isZero]
      simp [always]
    | float x mark => simp
    | _ => simp [counts, Datum.quantity?, Atom.quantity?, Datum.holds, Atom.holds]
  | list items => simp [counts, Datum.quantity?, Datum.holds]
  | object members => simp [counts, Datum.quantity?, Datum.holds]

/-- The two agree on everything but zero and what is empty without being a text. -/
theorem holds_eq_counts_iff [Room] {value : Operand} (isFound : ofDatum v = .ok value) :
    value.holds = counts v ↔ v ≠ .int 0 ∧ v ≠ .list [] ∧ v ≠ .object [] ∧
      ∀ x mark, v = .float x mark → counts v := by
  have same : value.holds = counts v ↔ (value.holds = false ↔ counts v = false) := by
    cases value.holds <;> cases counts v <;> decide
  rw [same, holds_eq_false_iff isFound, counts_eq_false_iff]
  cases v with
  | atom a => cases a <;> simp
  | _ => simp

/-! ### The laws of negations -/

theorem evaluate_doubled [Room] (isName : IsName name.toList)
    (noKey : scope.member? ("!" ++ name) = none) :
    evaluate ("!!" ++ name) scope = .ok (.plain (counts ((scope.member? name).getD .null))) := by
  have isSigned : signed 1 name = "!" ++ name := by
    rw [Query.signed_succ, Query.signed_zero]
  have isDoubled : signed 2 name = "!!" ++ name := by
    rw [Query.signed_succ, isSigned, ← String.append_assoc]
    rfl
  rw [← isSigned] at noKey
  have isJudged := evaluate_signed isName noKey
  rwa [if_pos ⟨Nat.zero_le _, Nat.zero_le _⟩, isDoubled] at isJudged

theorem doubled_agrees_iff [Room] {verdict : Verdict} (isName : IsName name.toList)
    (noKey : scope.member? ("!" ++ name) = none) (noNull : Text.isWord "null" name = false)
    (isMember : scope.member? name = some v) (isJudged : evaluate name scope = .ok verdict) :
    evaluate ("!!" ++ name) scope = .ok verdict ↔
      v ≠ .int 0 ∧ v ≠ .list [] ∧ v ≠ .object [] ∧ ∀ x mark, v = .float x mark → counts v := by
  rw [evaluate_name isName, operand_member isName noNull isMember] at isJudged
  obtain ⟨value, isFound, rfl⟩ := map_eq_ok isJudged
  rw [evaluate_doubled isName noKey, isMember, Except.ok.injEq, plain_eq_plain,
    ← holds_eq_counts_iff isFound]
  exact eq_comm

theorem doubled_missing_agrees_iff [Room] (isName : IsName name.toList)
    (noKey : scope.member? ("!" ++ name) = none) (noMember : scope.member? name = none) :
    evaluate ("!!" ++ name) scope = evaluate name scope ↔ Text.isWord "true" name = false := by
  obtain ⟨value, isFound, isHeld⟩ := operand_missing isName noMember
  have isJudged : evaluate name scope = .ok (.plain (Text.isWord "true" name)) := by
    rw [evaluate_name isName, isFound, ← isHeld]
    rfl
  rw [evaluate_doubled isName noKey, noMember, isJudged, Except.ok.injEq, plain_eq_plain]
  exact eq_comm

/-- Negation of a condition that is cut by no operator. In front of a text that does not begin with
a negation sign it turns the verdict around and keeps complaints. In front of one that does, the
text is an operand as it stands, and its value is what is turned around. So a name behind two or
more signs is what a query counts its value as, once more negated for each sign after the second,
as long as there is room for so many signs. Two signs cancel out unless the value is zero, an empty
list or an empty object, or there is no value and the name is the word for the truth. -/
theorem evaluate_negation [Room] (noOperator : splitOperator? ("!" ++ c).toList = none) :
    ((Text.trim c.toList).head? ≠ some '!' →
      evaluate ("!" ++ c) scope = (evaluate c scope).map Verdict.negate) ∧
    ((Text.trim c.toList).head? = some '!' →
      evaluate ("!" ++ c) scope =
        (operand (Text.trimmed c) scope).map fun value => .plain !value.holds) ∧
    ∀ name : String, IsName name.toList →
      (∀ n, scope.member? (signed (n + 1) name) = none →
        evaluate (signed (n + 2) name) scope =
          if HasSignRoom n then
            .ok (.plain (not^[n] (counts ((scope.member? name).getD .null))))
          else .error (.breakdown .tooDeep)) ∧
      (scope.member? ("!" ++ name) = none →
        (∀ v verdict, Text.isWord "null" name = false → scope.member? name = some v →
          evaluate name scope = .ok verdict →
          (evaluate ("!!" ++ name) scope = .ok verdict ↔
            v ≠ .int 0 ∧ v ≠ .list [] ∧ v ≠ .object [] ∧
              ∀ x mark, v = .float x mark → counts v)) ∧
        (scope.member? name = none →
          (evaluate ("!!" ++ name) scope = evaluate name scope ↔
            Text.isWord "true" name = false))) := by
  refine ⟨?_, ?_, fun name isName => ⟨?_, ?_⟩⟩
  · intro noSign
    have noInner : splitOperator? c.toList = none := by
      rw [toList_not] at noOperator
      exact splitOperator?_of_not noOperator
    rw [evaluate_not noOperator, evaluate_eq_truth noInner noSign]
  · intro isSigned
    have notBlank : Text.trim c.toList ≠ [] := by
      intro isBlank
      rw [isBlank] at isSigned
      cases isSigned
    rw [evaluate_not noOperator, truth_eq_operand notBlank, Text.trimmed]
    cases operand (String.ofList (Text.trim c.toList)) scope <;> rfl
  · intro n noKey
    exact evaluate_signed isName noKey
  · intro noKey
    constructor
    · intro v verdict noNull isMember isJudged
      exact doubled_agrees_iff isName noKey noNull isMember isJudged
    · intro noMember
      exact doubled_missing_agrees_iff isName noKey noMember

/-- A number other than zero counts as true either way. -/
theorem evaluate_negation_of_number :
    let scope := Datum.ofJson (.object [("n", .int 2)])
    evaluate "!n" scope = (evaluate "n" scope).map Verdict.negate ∧
      evaluate "!!n" scope = .ok (.plain true) ∧ evaluate "!!!n" scope = .ok (.plain false) := by
  intro scope
  have noOperator : splitOperator? ("!" ++ "n").toList = none := by decide
  have isName : IsName "n".toList := ⟨'n', [], rfl, by decide, by decide⟩
  obtain ⟨plain, -, names⟩ := @evaluate_negation scope "n" _ noOperator
  obtain ⟨signed, -⟩ := names "n" isName
  exact ⟨plain (by decide), signed 0 (by decide), signed 1 (by decide)⟩

/-- Zero counts as false in a condition and as true in a query, so two signs do not cancel out. -/
theorem doubledZero_holds :
    let scope := Datum.ofJson (.object [("x", .int 0)])
    splitOperator? "!!x".toList = none ∧ evaluate "x" scope = .ok (.plain false) ∧
      evaluate "!x" scope = .ok (.plain true) ∧ evaluate "!!x" scope = .ok (.plain true) := by
  intro scope
  refine ⟨by decide, ?_, ?_, ?_⟩
  · exact eq_ok_of_isFound (by decide)
  · exact eq_ok_of_isFound (by decide)
  · exact eq_ok_of_isFound (by decide +kernel)

end TemplateFill.Condition
