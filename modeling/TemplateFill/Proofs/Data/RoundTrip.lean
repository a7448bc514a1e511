import Mathlib.Tactic.IntervalCases
import TemplateFill.Data.Source
import TemplateFill.Proofs.Data.Nesting
import TemplateFill.Proofs.Data.Progress
import TemplateFill.Proofs.Data.Quoted
import TemplateFill.Proofs.Number.Numeral
import TemplateFill.Proofs.Query.Plain

/-!
# Reading what was written

A list or an object that is written into a document is an indented data text. Reading it gives the
value back, with its members in the order in which they were, if all numbers in it are whole and
can be written at all. The reader is followed through the text with what is left behind each part.
A value that is nested more deeply than there is room for is not written, and its text is not read.
-/

namespace TemplateFill.Data

variable {room : Nat} {s t rest : List Char} {v : Json} {items : List Json}
  {members : List (String × Json)} {key : String}

/-! ### What stands at the front of a text -/

/-- What a reading finds, or `none` if there is no room for it. -/
def Finds {α : Type} (reading : Reading α) : Option α → Prop
  | some found => reading = .ok found
  | none => ∃ kind rest, reading = .error ⟨.tooDeep kind, rest⟩

theorem Finds.map {α β : Type} {reading : Reading α} {result : Option α} (f : α → β)
    (finds : Finds reading result) : Finds (reading.map f) (result.map f) := by
  cases result with
  | some found =>
    have isRead : reading = .ok found := finds
    rw [isRead]
    rfl
  | none =>
    obtain ⟨kind, rest, failed⟩ := finds
    rw [failed]
    exact ⟨kind, rest, rfl⟩

/-- What stands at the front of a text, whatever bound is enough to read it: a value with what is
left behind it, or a value for which there is no room. -/
def ReadsValue (room : Nat) (s : List Char) (result : Option (Json × List Char)) : Prop :=
  ∀ bound, 2 * s.length < bound → Finds (readValue bound room s) result

/-- The items of a list, with the bracket behind them. -/
def ReadsItems (room : Nat) (s : List Char) (result : Option (List Json × List Char)) : Prop :=
  ∀ bound, 2 * s.length + 1 < bound → Finds (readItems bound room s) result

/-- The members of an object, with the brace behind them. -/
def ReadsMembers (room : Nat) (s : List Char)
    (result : Option (List (String × Json) × List Char)) : Prop :=
  ∀ bound, 2 * s.length + 1 < bound → Finds (readMembers bound room s) result

def ReadsMember (room : Nat) (s : List Char) (key : String)
    (result : Option (Json × List Char)) : Prop :=
  ∃ inside behind afterColon, s = '"' :: inside ∧ readQuoted s inside = .ok (key, behind) ∧
    skipSpace behind = ':' :: afterColon ∧ ReadsValue room (skipSpace afterColon) result

theorem ReadsValue.length_lt (reads : ReadsValue room s (some (v, rest))) :
    rest.length < s.length :=
  ((advanceWithin _).value room s v rest (reads _ (Nat.lt_succ_self _))).shorter

theorem ReadsItems.last (item : ReadsValue room s (some (v, t)))
    (closed : skipSpace t = ']' :: rest) : ReadsItems room s (some ([v], rest)) := by
  intro bound enough
  match bound with
  | bound + 1 =>
    have isRead : readValue bound room s = .ok (v, t) := item bound (by omega)
    change readItems (bound + 1) room s = _
    rw [readItems, isRead]
    simp only [bind, Except.bind, closed]

theorem ReadsItems.cons {behind : List Char} {result : Option (List Json × List Char)}
    (item : ReadsValue room s (some (v, t))) (comma : skipSpace t = ',' :: behind)
    (onward : ReadsItems room (skipSpace behind) result) :
    ReadsItems room s (result.map fun (items, rest) => (v :: items, rest)) := by
  intro bound enough
  have shorter := item.length_lt
  have comma' := (isEnd_of_skipSpace comma).shorter
  have spaces := length_skipSpace_le behind
  match bound with
  | bound + 1 =>
    have isRead : readValue bound room s = .ok (v, t) := item bound (by omega)
    rw [readItems, isRead]
    simp only [bind, Except.bind, comma]
    exact (onward bound (by omega)).map fun (items, rest) => (v :: items, rest)

/-- There is no room for the items if there is none for the first. -/
theorem ReadsItems.none (item : ReadsValue room s none) : ReadsItems room s none := by
  intro bound enough
  match bound with
  | bound + 1 =>
    obtain ⟨kind, rest, failed⟩ := item bound (by omega)
    rw [readItems, failed]
    exact ⟨kind, rest, rfl⟩

theorem ReadsMembers.last (member : ReadsMember room s key (some (v, t)))
    (closed : skipSpace t = '}' :: rest) : ReadsMembers room s (some ([(key, v)], rest)) := by
  obtain ⟨inside, behind, afterColon, rfl, isKey, colon, value⟩ := member
  intro bound enough
  have shorter := (readQuoted_advances _ _ _ _ isKey).shorter
  have colon' := (isEnd_of_skipSpace colon).shorter
  have spaces := length_skipSpace_le afterColon
  rw [List.length_cons] at enough
  match bound with
  | bound + 1 =>
    have isRead : readValue bound room (skipSpace afterColon) = .ok (v, t) :=
      value bound (by omega)
    change readMembers (bound + 1) room _ = _
    rw [readMembers, isKey]
    simp only [bind, Except.bind, colon]
    rw [isRead]
    simp only [closed]

theorem ReadsMembers.cons {behind : List Char}
    {result : Option (List (String × Json) × List Char)}
    (member : ReadsMember room s key (some (v, t))) (comma : skipSpace t = ',' :: behind)
    (onward : ReadsMembers room (skipSpace behind) result) :
    ReadsMembers room s (result.map fun (members, rest) => ((key, v) :: members, rest)) := by
  obtain ⟨inside, behind', afterColon, rfl, isKey, colon, value⟩ := member
  intro bound enough
  have shorter := (readQuoted_advances _ _ _ _ isKey).shorter
  have colon' := (isEnd_of_skipSpace colon).shorter
  have spaces := length_skipSpace_le afterColon
  have shorter' := value.length_lt
  have comma' := (isEnd_of_skipSpace comma).shorter
  have spaces' := length_skipSpace_le behind
  rw [List.length_cons] at enough
  match bound with
  | bound + 1 =>
    have isRead : readValue bound room (skipSpace afterColon) = .ok (v, t) :=
      value bound (by omega)
    rw [readMembers, isKey]
    simp only [bind, Except.bind, colon]
    rw [isRead]
    simp only [comma]
    exact (onward bound (by omega)).map fun (members, rest) => ((key, v) :: members, rest)

/-- There is no room for the members if there is none for the value of the first. -/
theorem ReadsMembers.none (member : ReadsMember room s key none) : ReadsMembers room s none := by
  obtain ⟨inside, behind, afterColon, rfl, isKey, colon, value⟩ := member
  intro bound enough
  have shorter := (readQuoted_advances _ _ _ _ isKey).shorter
  have colon' := (isEnd_of_skipSpace colon).shorter
  have spaces := length_skipSpace_le afterColon
  rw [List.length_cons] at enough
  match bound with
  | bound + 1 =>
    obtain ⟨kind, rest, failed⟩ := value bound (by omega)
    rw [readMembers, isKey]
    simp only [bind, Except.bind, colon]
    rw [failed]
    exact ⟨kind, rest, rfl⟩

theorem ReadsValue.list {result : Option (List Json × List Char)}
    (unclosed : (skipSpace s).head? ≠ some ']') (reads : ReadsItems room (skipSpace s) result) :
    ReadsValue (room + 1) ('[' :: s) (result.map fun (items, rest) => (.list items, rest)) := by
  intro bound enough
  have spaces := length_skipSpace_le s
  rw [List.length_cons] at enough
  match bound with
  | bound + 1 =>
    rw [readValue_list bound room unclosed]
    exact (reads bound (by omega)).map _

theorem ReadsValue.object {result : Option (List (String × Json) × List Char)}
    (unclosed : (skipSpace s).head? ≠ some '}')
    (reads : ReadsMembers room (skipSpace s) result) :
    ReadsValue (room + 1) ('{' :: s)
      (result.map fun (members, rest) => (.ofMembers members, rest)) := by
  intro bound enough
  have spaces := length_skipSpace_le s
  rw [List.length_cons] at enough
  match bound with
  | bound + 1 =>
    rw [readValue_object bound room unclosed]
    exact (reads bound (by omega)).map _

/-- A bound that is enough is never zero. -/
theorem ReadsValue.of_succ {result : Option (Json × List Char)}
    (reads : ∀ bound, Finds (readValue (bound + 1) room s) result) :
    ReadsValue room s result := by
  intro bound enough
  match bound with
  | bound + 1 => exact reads bound

/-! ### Texts -/

theorem readUnits_simple (opening : List Char) {letter e : Char} (noUnit : letter ≠ 'u')
    (isEscape : simpleEscape? letter = some e) (rest : List Char) :
    readUnits opening (['\\', letter] ++ rest) =
      (readUnits opening rest).map fun (units, rest) => (e.toNat :: units, rest) := by
  rw [List.cons_append, List.cons_append, List.nil_append, readUnits_escape _ _ noUnit, isEscape]

theorem unitOfHex?_hexDigits {n : Nat} (control : n < 0x20) :
    ∃ a b c d, Text.hexDigits 4 n = [a, b, c, d] ∧ unitOfHex? a b c d = some n := by
  interval_cases n <;> exact ⟨_, _, _, _, rfl, rfl⟩

theorem readUnits_escapeUnit (opening : List Char) {n : Nat} (control : n < 0x20)
    (nonempty : rest ≠ []) :
    readUnits opening (escapeUnit n ++ rest) =
      (readUnits opening rest).map fun (units, rest) => (n :: units, rest) := by
  obtain ⟨a, b, c, d, digits, isUnit⟩ := unitOfHex?_hexDigits control
  obtain ⟨next, behind, rfl⟩ := List.exists_cons_of_ne_nil nonempty
  rw [escapeUnit, digits]
  simp only [List.cons_append, List.nil_append]
  rw [readUnits_unit, takeUnit?_cons, isUnit]
  rfl

/-- In whatever way a character is written, it is read back. -/
theorem readUnits_escapeChar (opening : List Char) (c : Char) (nonempty : rest ≠ []) :
    readUnits opening (escapeChar false c ++ rest) =
      (readUnits opening rest).map fun (units, rest) => (c.toNat :: units, rest) := by
  have ofNumber {n : Nat} (isNumber : c.toNat = n) : c = Char.ofNat n := by
    rw [← isNumber, Char.ofNat_toNat]
  simp only [escapeChar, Bool.false_and, Bool.false_eq_true, if_false]
  split_ifs with quote backslash feed ret tab back form control
  · subst quote
    exact readUnits_simple opening (by decide) rfl rest
  · subst backslash
    exact readUnits_simple opening (by decide) rfl rest
  · subst feed
    exact readUnits_simple opening (by decide) rfl rest
  · subst ret
    exact readUnits_simple opening (by decide) rfl rest
  · subst tab
    exact readUnits_simple opening (by decide) rfl rest
  · rw [ofNumber back]
    exact readUnits_simple opening (by decide) rfl rest
  · rw [ofNumber form]
    exact readUnits_simple opening (by decide) rfl rest
  · exact readUnits_escapeUnit opening control nonempty
  · rw [List.singleton_append, readUnits_cons (by simp [isUnescaped, quote, backslash]),
      if_neg (by simpa [isControl] using control)]

theorem readUnits_written (opening : List Char) (s rest : List Char) :
    readUnits opening (s.flatMap (escapeChar false) ++ '"' :: rest) =
      .ok (s.map Char.toNat, rest) := by
  induction s with
  | nil => rw [List.flatMap_nil, List.nil_append, readUnits, List.map_nil]
  | cons c s ih =>
    rw [List.flatMap_cons, List.append_assoc, readUnits_escapeChar _ _ (by simp), ih]
    rfl

theorem readQuoted_written (opening : List Char) (text : String) (rest : List Char) :
    readQuoted opening (text.toList.flatMap (escapeChar false) ++ '"' :: rest) =
      .ok (text, rest) := by
  rw [readQuoted, readUnits_written]
  simp only [Except.map, joinPairs_map_toNat, String.ofList_toList]

theorem writeText_append (text : String) (rest : List Char) :
    writeText false text ++ rest =
      '"' :: (text.toList.flatMap (escapeChar false) ++ '"' :: rest) := by
  simp [writeText]

theorem ReadsValue.text (text : String) (rest : List Char) :
    ReadsValue room (writeText false text ++ rest) (some (.text text, rest)) := by
  rw [writeText_append]
  refine .of_succ fun bound => ?_
  rw [readValue_quoted, readQuoted_written]
  rfl

/-! ### Numbers and words -/

/-- Nothing that a number could go on with. -/
def EndsNumber (rest : List Char) : Prop :=
  ∀ c ∈ rest.head?, isAsciiDigit c = false ∧ c ≠ '.' ∧ c ≠ 'e' ∧ c ≠ 'E'

theorem isAsciiDigit_eq (c : Char) : isAsciiDigit c = c.isDigit := rfl

theorem valueOfDigits_toDigits (n : Nat) : valueOfDigits (Nat.toDigits 10 n) = n := by
  have value := Nat.ofDigitChars_ten_toDigits (n := n)
  rw [Nat.ofDigitChars_eq_foldl] at value
  rw [valueOfDigits]
  simpa only [Nat.mul_comm] using value

/-- No number but zero is written with a zero in front. -/
theorem toDigits_zero {n : Nat} {digits : List Char} (isZero : Nat.toDigits 10 n = '0' :: digits) :
    digits = [] := by
  induction n using Nat.strongRecOn generalizing digits with
  | ind n ih =>
    by_cases small : n < 10
    · rw [Nat.toDigits_of_lt_base small] at isZero
      exact (List.cons.inj isZero).2.symm
    · have nonempty : Nat.toDigits 10 (n / 10) ≠ [] := Nat.toDigits_ne_nil
      rw [Nat.toDigits_of_base_le (by decide) (Nat.le_of_not_lt small)] at isZero
      obtain ⟨c, front, isFront⟩ := List.exists_cons_of_ne_nil nonempty
      rw [isFront, List.cons_append] at isZero
      obtain ⟨rfl, -⟩ := List.cons.inj isZero
      cases ih (n / 10) (by omega) isFront
      have isNone : n / 10 = 0 := by
        have value := valueOfDigits_toDigits (n / 10)
        rw [isFront] at value
        exact value.symm
      omega

theorem isDigit_of_mem_toDigits {n : Nat} {c : Char} (member : c ∈ Nat.toDigits 10 n) :
    isAsciiDigit c := by
  rw [isAsciiDigit_eq]
  exact Nat.isDigit_of_mem_toDigits (by decide) (by decide) member

theorem takeWholePart_toDigits (n : Nat) (ends : EndsNumber rest) :
    takeWholePart (Nat.toDigits 10 n ++ rest) = (Nat.toDigits 10 n, rest) := by
  obtain ⟨c, digits, isCons⟩ := List.exists_cons_of_ne_nil (Nat.toDigits_ne_nil (n := n) (b := 10))
  by_cases zero : c = '0'
  · subst zero
    rw [isCons, toDigits_zero isCons]
    rfl
  · have stops : rest.takeWhile isAsciiDigit = [] ∧ rest.dropWhile isAsciiDigit = rest := by
      cases rest with
      | nil => exact ⟨rfl, rfl⟩
      | cons d rest =>
        have noDigit := (ends d rfl).1
        simp [noDigit]
    rw [takeWholePart_of_head (by simp [isCons, zero]),
      List.takeWhile_append_of_pos fun c => isDigit_of_mem_toDigits,
      List.dropWhile_append_of_pos fun c => isDigit_of_mem_toDigits, stops.1, stops.2,
      List.append_nil]

theorem head_toDigits (n : Nat) (rest : List Char) :
    ∃ c behind, Nat.toDigits 10 n ++ rest = c :: behind ∧ isAsciiDigit c := by
  obtain ⟨c, digits, isCons⟩ := List.exists_cons_of_ne_nil (Nat.toDigits_ne_nil (n := n) (b := 10))
  refine ⟨c, digits ++ rest, by rw [isCons, List.cons_append], ?_⟩
  exact isDigit_of_mem_toDigits (isCons ▸ List.mem_cons_self)

/-- A number begins with a digit or with a sign in front of one. -/
theorem head_toString (n : Int) (rest : List Char) :
    ∃ c behind, isAsciiDigit c ∧ ((toString n).toList ++ rest = c :: behind ∨
      (toString n).toList ++ rest = '-' :: c :: behind) := by
  obtain ⟨c, behind, isCons, digit⟩ := head_toDigits n.natAbs rest
  refine ⟨c, behind, digit, ?_⟩
  rw [Number.toList_toString, List.append_assoc, isCons]
  split
  · exact .inr rfl
  · exact .inl rfl

theorem splitMinus_toString (n : Int) (rest : List Char) :
    splitMinus ((toString n).toList ++ rest) =
      (decide (n < 0), Nat.toDigits 10 n.natAbs ++ rest) := by
  rw [Number.toList_toString, List.append_assoc]
  by_cases negative : n < 0
  · rw [if_pos negative, decide_eq_true negative]
    rfl
  · obtain ⟨c, behind, isCons, digit⟩ := head_toDigits n.natAbs rest
    have noMinus : c ≠ '-' := by
      rintro rfl
      cases digit
    rw [if_neg negative, List.nil_append, decide_eq_false negative]
    exact splitMinus_of_head (by simp [isCons, noMinus])

theorem readNumber_written {n : Int} (fits : Number.isOverLimit n = false)
    (ends : EndsNumber rest) :
    readNumber ((toString n).toList ++ rest) = .ok (.int n, rest) := by
  have short : ¬ Number.digitLimit < (Nat.toDigits 10 n.natAbs).length :=
    mt (Number.isOverLimit_iff n).mpr (by simp [fits])
  have noFraction : takeFraction rest = (none, rest) :=
    takeFraction_of_head fun point => (ends _ point).2.1 rfl
  have noExponent : takeExponent rest = (none, rest) :=
    takeExponent_of_head
      ⟨fun isE => (ends _ isE).2.2.1 rfl, fun isE => (ends _ isE).2.2.2 rfl⟩
  have signed : (if decide (n < 0) then -(n.natAbs : Int) else n.natAbs) = n := by
    simp only [decide_eq_true_eq]
    omega
  rw [readNumber, splitMinus_toString]
  dsimp only
  rw [takeWholePart_toDigits _ ends]
  dsimp only
  rw [noFraction, noExponent, if_neg (by simp)]
  dsimp only
  rw [numberOf_whole _ _ short, valueOfDigits_toDigits, signed]
  rfl

/-- A word begins with a letter or with a sign in front of one. -/
theorem head_of_mem_valueWords {word : String} (isWord : (word, v) ∈ valueWords) :
    ∃ c behind, isAsciiDigit c = false ∧
      (word.toList = c :: behind ∧ c ≠ '-' ∨ word.toList = '-' :: c :: behind) := by
  simp only [valueWords, List.mem_cons, Prod.mk.injEq, List.not_mem_nil, or_false] at isWord
  rcases isWord with ⟨rfl, -⟩ | ⟨rfl, -⟩ | ⟨rfl, -⟩ | ⟨rfl, -⟩ | ⟨rfl, -⟩ | ⟨rfl, -⟩
  · exact ⟨'n', _, by decide, .inl ⟨rfl, by decide⟩⟩
  · exact ⟨'t', _, by decide, .inl ⟨rfl, by decide⟩⟩
  · exact ⟨'f', _, by decide, .inl ⟨rfl, by decide⟩⟩
  · exact ⟨'N', _, by decide, .inl ⟨rfl, by decide⟩⟩
  · exact ⟨'I', _, by decide, .inl ⟨rfl, by decide⟩⟩
  · exact ⟨'I', _, by decide, .inr rfl⟩

theorem readWord?_written (n : Int) (rest : List Char) :
    readWord? ((toString n).toList ++ rest) = none := by
  rw [Option.eq_none_iff_forall_not_mem]
  intro (v, behind) found
  obtain ⟨word, isWord, isFront⟩ := readWord?_eq_some found
  obtain ⟨letter, left, noDigit, letters⟩ := head_of_mem_valueWords isWord
  obtain ⟨c, left', digit, digits⟩ := head_toString n rest
  have noMinus : c ≠ '-' := by
    rintro rfl
    cases digit
  rw [isFront] at digits
  have apart : letter ≠ c := by
    rintro rfl
    rw [noDigit] at digit
    cases digit
  rcases letters with ⟨letters, noSign⟩ | letters <;> rcases digits with digits | digits <;>
    rw [letters] at digits
  · exact apart (List.cons.inj digits).1
  · exact noSign (List.cons.inj digits).1
  · exact noMinus (List.cons.inj digits).1.symm
  · exact apart (List.cons.inj (List.cons.inj digits).2).1

theorem ReadsValue.int {n : Int} (fits : Number.isOverLimit n = false) (ends : EndsNumber rest) :
    ReadsValue room ((toString n).toList ++ rest) (some (.int n, rest)) := by
  refine .of_succ fun bound => ?_
  rw [readValue_of_head bound room, readWord?_written]
  · exact readNumber_written fits ends
  · obtain ⟨c, left, digit, isFirst | isSecond⟩ := head_toString n rest
    · rw [isFirst]
      refine ⟨?_, ?_, ?_⟩
      all_goals
        rintro ⟨⟩
        cases digit
    · rw [isSecond]
      simp

theorem ReadsValue.null (rest : List Char) :
    ReadsValue room (['n', 'u', 'l', 'l'] ++ rest) (some (.null, rest)) :=
  .of_succ fun bound => by
    rw [readValue_of_head bound room (by simp)]
    rfl

theorem ReadsValue.bool (layout : Layout) (level : Nat) (b : Bool) (rest : List Char) :
    ReadsValue room (Json.write layout level (.bool b) ++ rest) (some (.bool b, rest)) := by
  refine .of_succ fun bound => ?_
  cases b with
  | true =>
    rw [Json.write, readValue_of_head bound room (by simp)]
    rfl
  | false =>
    rw [Json.write, readValue_of_head bound room (by simp)]
    rfl

/-! ### Values -/

/-- Data that a data text holds exactly: its numbers are whole and within the limit, and no object
has a key twice. -/
inductive Json.IsExact : Json → Prop
  | null : IsExact .null
  | bool (b : Bool) : IsExact (.bool b)
  | int {n : Int} (fits : Number.isOverLimit n = false) : IsExact (.int n)
  | text (s : String) : IsExact (.text s)
  | list {items : List Json} (each : ∀ v ∈ items, IsExact v) : IsExact (.list items)
  | object {members : List (String × Json)} (distinct : (members.map (·.1)).Nodup)
    (each : ∀ m ∈ members, IsExact m.2) : IsExact (.object members)

theorem skipSpace_lineAt (level : Nat) (s : List Char) :
    skipSpace (Layout.indented.lineAt level ++ s) = skipSpace s := by
  apply List.dropWhile_append_of_pos
  intro c member
  rcases List.mem_cons.mp member with rfl | member
  · rfl
  · rw [(List.mem_replicate.mp member).2]
    rfl

theorem ne_of_isAsciiDigit {c other : Char} (digit : isAsciiDigit c)
    (noDigit : isAsciiDigit other = false) : c ≠ other := by
  rintro rfl
  rw [noDigit] at digit
  cases digit

/-- What an exact value begins with is no blank and closes no list. -/
theorem Json.IsExact.begins (exact : v.IsExact) (level : Nat) :
    ∃ c behind, v.write .indented level = c :: behind ∧ isSpace c = false ∧ c ≠ ']' := by
  cases exact with
  | null => exact ⟨_, _, rfl, rfl, by decide⟩
  | bool b => cases b <;> exact ⟨_, _, rfl, rfl, by decide⟩
  | @int n fits =>
    obtain ⟨c, behind, digit, isFirst | isSecond⟩ := head_toString n []
    · refine ⟨c, behind, by rw [Json.write, ← isFirst, List.append_nil], ?_, ?_⟩
      · have apart (other : Char) : isAsciiDigit other = false → c ≠ other :=
          ne_of_isAsciiDigit digit
        simp [isSpace, apart ' ' rfl, apart '\t' rfl, apart '\n' rfl, apart '\r' rfl]
      · exact ne_of_isAsciiDigit digit rfl
    · exact ⟨'-', c :: behind, by rw [Json.write, ← isSecond, List.append_nil], rfl, by decide⟩
  | text s => exact ⟨_, _, rfl, rfl, by decide⟩
  | @list items each => cases items <;> exact ⟨_, _, rfl, rfl, by decide⟩
  | @object members distinct each => cases members <;> exact ⟨_, _, rfl, rfl, by decide⟩

/-- Nothing is passed over in front of an exact value. -/
theorem Json.IsExact.skipSpace_write (exact : v.IsExact) (level : Nat) (rest : List Char) :
    skipSpace (v.write .indented level ++ rest) = v.write .indented level ++ rest := by
  obtain ⟨c, behind, isCons, noSpace, -⟩ := exact.begins level
  rw [isCons, List.cons_append]
  exact List.dropWhile_cons_of_neg (by simp [noSpace])

theorem skipSpace_writeText (text : String) (rest : List Char) :
    skipSpace (writeText false text ++ rest) = writeText false text ++ rest := by
  rw [writeText_append]
  rfl

theorem asciiOnly_indented : Layout.indented.asciiOnly = false := rfl

def within {α : Type} (depth room : Nat) (found : α) : Option α :=
  if depth ≤ room then some found else none

theorem within_of_le {α : Type} {depth : Nat} (fits : depth ≤ room) (found : α) :
    within depth room found = some found := if_pos fits

theorem within_of_lt {α : Type} {depth : Nat} (tooDeep : room < depth) (found : α) :
    within depth room found = none := if_neg (Nat.not_le.mpr tooDeep)

theorem map_within {α β : Type} (depth : Nat) (found : α) (f : α → β) :
    (within depth room found).map f = within depth room (f found) := by
  unfold within
  split <;> rfl

/-- Wherever a value is written, it is read there, if there is room for it, unless what follows
would go on with a number. -/
def IsReadBack (v : Json) : Prop :=
  ∀ room level rest, EndsNumber rest →
    ReadsValue room (v.write .indented level ++ rest) (within v.depth room (v, rest))

theorem endsNumber_lineAt (level : Nat) (s : List Char) :
    EndsNumber (Layout.indented.lineAt level ++ s) := by
  rintro c ⟨⟩
  decide

theorem endsNumber_comma (s : List Char) : EndsNumber (',' :: s) := by
  rintro c ⟨⟩
  decide

theorem readsItems_written (level outer : Nat) {item : Json} {items : List Json}
    (exact : ∀ v ∈ item :: items, v.IsExact) (each : ∀ v ∈ item :: items, IsReadBack v)
    (rest : List Char) :
    ReadsItems room (item.write .indented level ++ (Json.writeItems .indented level items ++
      (Layout.indented.lineAt outer ++ ']' :: rest)))
      (within (Json.depthOfItems (item :: items)) room (item :: items, rest)) := by
  induction items generalizing item with
  | nil =>
    have first := each item List.mem_cons_self room level _ (endsNumber_lineAt outer (']' :: rest))
    rw [Json.depthOfItems, Json.depthOfItems, Nat.max_zero]
    by_cases fits : item.depth ≤ room
    · rw [within_of_le fits] at first ⊢
      exact .last first (skipSpace_lineAt outer (']' :: rest))
    · rw [within_of_lt (Nat.lt_of_not_le fits)] at first ⊢
      exact .none first
  | cons next items ih =>
    have first := each item List.mem_cons_self room level _ (endsNumber_comma
      (Layout.indented.lineAt level ++ (next.write .indented level ++
        (Json.writeItems .indented level items ++ (Layout.indented.lineAt outer ++ ']' :: rest)))))
    have onward := ih (fun v member => exact v (List.mem_cons_of_mem _ member))
      fun v member => each v (List.mem_cons_of_mem _ member)
    have second := exact next (List.mem_cons_of_mem _ List.mem_cons_self)
    rw [Json.writeItems, Json.depthOfItems]
    simp only [List.append_assoc, List.cons_append, List.nil_append]
    by_cases fits : item.depth ≤ room
    · rw [within_of_le fits] at first
      have both : within (max item.depth (Json.depthOfItems (next :: items))) room
          (item :: next :: items, rest) =
          (within (Json.depthOfItems (next :: items)) room (next :: items, rest)).map
            fun (items, rest) => (item :: items, rest) := by
        rw [map_within, within, within]
        simp only [Nat.max_le, fits, true_and]
      rw [both]
      refine .cons first rfl ?_
      rw [skipSpace_lineAt, second.skipSpace_write]
      exact onward
    · rw [within_of_lt (Nat.lt_of_not_le fits)] at first
      rw [within_of_lt (by omega)]
      exact .none first

theorem readsMember_written (level : Nat) (key : String) (exact : v.IsExact) (back : IsReadBack v)
    (ends : EndsNumber rest) :
    ReadsMember room (writeText false key ++ (Layout.indented.colon.toList ++
      (v.write .indented level ++ rest))) key (within v.depth room (v, rest)) := by
  refine ⟨_, _, ' ' :: (v.write .indented level ++ rest), writeText_append key _,
    readQuoted_written _ key _, rfl, ?_⟩
  have spaces : skipSpace (' ' :: (v.write .indented level ++ rest)) =
      v.write .indented level ++ rest := exact.skipSpace_write level rest
  rw [spaces]
  exact back room level rest ends

theorem readsMembers_written (level outer : Nat) {member : String × Json}
    {members : List (String × Json)} (exact : ∀ m ∈ member :: members, m.2.IsExact)
    (each : ∀ m ∈ member :: members, IsReadBack m.2) (rest : List Char) :
    ReadsMembers room (writeText false member.1 ++ (Layout.indented.colon.toList ++
      (member.2.write .indented level ++ (Json.writeMembers .indented level members ++
        (Layout.indented.lineAt outer ++ '}' :: rest)))))
      (within (Json.depthOfMembers (member :: members)) room (member :: members, rest)) := by
  induction members generalizing member with
  | nil =>
    have first := @readsMember_written room _ _ level member.1 (exact member List.mem_cons_self)
      (each member List.mem_cons_self) (endsNumber_lineAt outer ('}' :: rest))
    rw [Json.depthOfMembers, Json.depthOfMembers, Nat.max_zero]
    by_cases fits : member.2.depth ≤ room
    · rw [within_of_le fits] at first ⊢
      exact .last first (skipSpace_lineAt outer ('}' :: rest))
    · rw [within_of_lt (Nat.lt_of_not_le fits)] at first ⊢
      exact .none first
  | cons next members ih =>
    have onward := ih (fun m listed => exact m (List.mem_cons_of_mem _ listed))
      fun m listed => each m (List.mem_cons_of_mem _ listed)
    have first := @readsMember_written room _ _ level member.1 (exact member List.mem_cons_self)
      (each member List.mem_cons_self) (endsNumber_comma (Layout.indented.lineAt level ++
        (writeText false next.1 ++ (Layout.indented.colon.toList ++
          (next.2.write .indented level ++ (Json.writeMembers .indented level members ++
            (Layout.indented.lineAt outer ++ '}' :: rest)))))))
    rw [Json.writeMembers, Json.depthOfMembers]
    simp only [List.append_assoc, List.cons_append, List.nil_append]
    by_cases fits : member.2.depth ≤ room
    · rw [within_of_le fits] at first
      have both : within (max member.2.depth (Json.depthOfMembers (next :: members))) room
          (member :: next :: members, rest) =
          (within (Json.depthOfMembers (next :: members)) room (next :: members, rest)).map
            fun (members, rest) => (member :: members, rest) := by
        rw [map_within, within, within]
        simp only [Nat.max_le, fits, true_and]
      rw [both]
      refine .cons first rfl ?_
      rw [skipSpace_lineAt, skipSpace_writeText]
      exact onward
    · rw [within_of_lt (Nat.lt_of_not_le fits)] at first
      rw [within_of_lt (by omega)]
      exact .none first

theorem putAll_of_nodup (members : List (String × Json)) {extra : List (String × Json)}
    (distinct : ((members ++ extra).map (·.1)).Nodup) :
    Members.putAll (· == ·) members extra = members ++ extra := by
  induction extra generalizing members with
  | nil => rw [List.append_nil]; rfl
  | cons member extra ih =>
    have fresh : members.any (fun m => m.1 == member.1) = false := by
      rw [List.map_append, List.nodup_append] at distinct
      rw [List.any_eq_false]
      intro m listed same
      exact distinct.2.2 m.1 (List.mem_map_of_mem listed) member.1 List.mem_cons_self
        (eq_of_beq same)
    have once : Members.put (· == ·) members member.1 member.2 = members ++ [member] := by
      rw [Members.put, fresh]
      rfl
    rw [Members.putAll, List.foldl_cons, once, ← Members.putAll, ih]
    · simp
    · simpa using distinct

theorem ofMembers_of_nodup (distinct : (members.map (·.1)).Nodup) :
    Json.ofMembers members = .object members :=
  congrArg Json.object (putAll_of_nodup [] distinct)

theorem within_succ {α : Type} (depth : Nat) (found : α) :
    within (depth + 1) (room + 1) found = within depth room found := by
  simp only [within, Nat.add_le_add_iff_right]

theorem Json.IsExact.list_isReadBack {items : List Json} (exact : ∀ v ∈ items, v.IsExact)
    (each : ∀ v ∈ items, IsReadBack v) : IsReadBack (.list items) := by
  intro room level rest _
  rw [Json.depth]
  cases room with
  | zero =>
    rw [within_of_lt (Nat.succ_pos _)]
    cases items <;> exact .of_succ fun bound => ⟨_, _, readValue_list_zero bound _⟩
  | succ room =>
    rw [within_succ]
    cases items with
    | nil => exact .of_succ fun bound => readValue_list_nil bound room rfl
    | cons item items =>
      have first := exact item List.mem_cons_self
      have spaces (s : List Char) : skipSpace (Layout.indented.lineAt (level + 1) ++
          (item.write .indented (level + 1) ++ s)) = item.write .indented (level + 1) ++ s := by
        rw [skipSpace_lineAt, first.skipSpace_write]
      have whole : within (Json.depthOfItems (item :: items)) room (Json.list (item :: items), rest) =
          (within (Json.depthOfItems (item :: items)) room (item :: items, rest)).map
            fun (items, rest) => (Json.list items, rest) := by
        rw [map_within]
      rw [Json.write, whole]
      simp only [List.append_assoc, List.cons_append, List.nil_append]
      refine .list ?_ ?_
      · obtain ⟨c, behind, isCons, -, unclosed⟩ := first.begins (level + 1)
        rw [spaces, isCons]
        simpa using unclosed
      · rw [spaces]
        exact readsItems_written (level + 1) level exact each rest

theorem Json.IsExact.object_isReadBack {members : List (String × Json)}
    (distinct : (members.map (·.1)).Nodup) (exact : ∀ m ∈ members, m.2.IsExact)
    (each : ∀ m ∈ members, IsReadBack m.2) : IsReadBack (.object members) := by
  intro room level rest _
  rw [Json.depth]
  cases room with
  | zero =>
    rw [within_of_lt (Nat.succ_pos _)]
    cases members <;> exact .of_succ fun bound => ⟨_, _, readValue_object_zero bound _⟩
  | succ room =>
    rw [within_succ]
    cases members with
    | nil => exact .of_succ fun bound => readValue_object_nil bound room rfl
    | cons member members =>
      have spaces (s : List Char) : skipSpace (Layout.indented.lineAt (level + 1) ++
          (writeText false member.1 ++ s)) = writeText false member.1 ++ s := by
        rw [skipSpace_lineAt, skipSpace_writeText]
      have whole : within (Json.depthOfMembers (member :: members)) room
          (Json.ofMembers (member :: members), rest) =
          (within (Json.depthOfMembers (member :: members)) room (member :: members, rest)).map
            fun (members, rest) => (Json.ofMembers members, rest) := by
        rw [map_within]
      rw [Json.write, ← ofMembers_of_nodup distinct, whole]
      simp only [List.append_assoc, List.cons_append, List.nil_append]
      refine .object ?_ ?_
      · rw [asciiOnly_indented, spaces, writeText_append]
        simp
      · rw [asciiOnly_indented, spaces]
        exact readsMembers_written (level + 1) level exact each rest

theorem Json.IsExact.isReadBack (exact : v.IsExact) : IsReadBack v := by
  induction exact with
  | null => exact fun room level rest _ => .null rest
  | bool b => exact fun room level rest _ => .bool .indented level b rest
  | int fits => exact fun room level rest ends => .int fits ends
  | text s => exact fun room level rest _ => .text s rest
  | list each ih => exact list_isReadBack each ih
  | object distinct each ih => exact object_isReadBack distinct each ih

/-! ### Whole texts -/

theorem Json.IsExact.readRoot_write [Room] (exact : v.IsExact) :
    Finds (readRoot (v.write .indented 0)) (within v.depth Room.reading v) := by
  have unspaced := exact.skipSpace_write 0 []
  have reads := exact.isReadBack Room.reading 0 [] nofun
  rw [List.append_nil] at unspaced reads
  have finds := reads _ (Nat.lt_succ_self _)
  rw [readRoot, unspaced]
  by_cases fits : v.depth ≤ Room.reading
  · rw [within_of_le fits] at finds ⊢
    have isRead : readValue (2 * (v.write .indented 0).length + 1) Room.reading
        (v.write .indented 0) = .ok (v, []) := finds
    rw [isRead]
    rfl
  · rw [within_of_lt (Nat.lt_of_not_le fits)] at finds ⊢
    obtain ⟨kind, rest, failed⟩ := finds
    rw [failed]
    exact ⟨kind, rest, rfl⟩

/-- The text of a value is loaded as the value, if there is room for it. -/
theorem root_text_indentedText [Room] (exact : v.IsExact)
    (noMark : (v.write .indented 0).head? ≠ some (Char.ofNat 0xFEFF)) :
    (v.depth ≤ Room.reading → (Source.text v.indentedText).root = .ok v) ∧
      (Room.reading < v.depth →
        ∃ words, (Source.text v.indentedText).root = .error (.tooDeep words)) := by
  have finds := exact.readRoot_write
  rw [Source.root, Json.indentedText, String.toList_ofList, loadChars, loadBy, readChars,
    if_neg noMark]
  refine ⟨fun fits => ?_, fun tooDeep => ?_⟩
  · rw [within_of_le fits] at finds
    have isRead : readRoot (v.write .indented 0) = .ok v := finds
    rw [isRead]
    rfl
  · rw [within_of_lt tooDeep] at finds
    obtain ⟨kind, rest, failed⟩ := finds
    rw [failed]
    exact ⟨_, rfl⟩

/-- A value stands somewhere in a value, or is it. -/
inductive Json.IsIn : Json → Json → Prop
  | here (v : Json) : IsIn v v
  | item {v item : Json} {items : List Json} (listed : item ∈ items) (inside : IsIn v item) :
    IsIn v (.list items)
  | member {v : Json} {m : String × Json} {members : List (String × Json)} (listed : m ∈ members)
    (inside : IsIn v m.2) : IsIn v (.object members)

/-- All parts of exact data are exact. -/
theorem Json.IsExact.of_isIn {v w : Json} (inside : v.IsIn w) (exact : w.IsExact) :
    v.IsExact := by
  induction inside with
  | here => exact exact
  | item listed _ ih =>
    cases exact with
    | list each => exact ih (each _ listed)
  | member listed _ ih =>
    cases exact with
    | object distinct each => exact ih (each _ listed)

end TemplateFill.Data

namespace TemplateFill

open Data (Json Source)

namespace Datum

variable {onReference : Except Obstacle Json}

theorem toJsonItems_ofJson (room : Nat) {items : List Json}
    (each : ∀ v ∈ items, (ofJson v).toJson onReference room =
      if v.depth ≤ room then .ok v else .error .tooDeep) :
    toJsonItems onReference room (ofJsonItems items) =
      if Json.depthOfItems items ≤ room then .ok items else .error .tooDeep := by
  induction items with
  | nil => rfl
  | cons v items ih =>
    rw [ofJsonItems, toJsonItems, each v List.mem_cons_self,
      ih fun w member => each w (List.mem_cons_of_mem _ member), Json.depthOfItems]
    by_cases here : v.depth ≤ room <;> by_cases onward : Json.depthOfItems items ≤ room <;>
      simp only [here, onward, Nat.max_le, and_true, and_false, if_true, if_false] <;> rfl

theorem toJsonMembers_ofJson (room : Nat) {members : List (String × Json)}
    (each : ∀ m ∈ members, (ofJson m.2).toJson onReference room =
      if m.2.depth ≤ room then .ok m.2 else .error .tooDeep) :
    toJsonMembers onReference room (ofJsonMembers members) =
      if Json.depthOfMembers members ≤ room then .ok members else .error .tooDeep := by
  induction members with
  | nil => rfl
  | cons m members ih =>
    rw [ofJsonMembers, toJsonMembers, each m List.mem_cons_self,
      ih fun n member => each n (List.mem_cons_of_mem _ member), Json.depthOfMembers]
    by_cases here : m.2.depth ≤ room <;> by_cases onward : Json.depthOfMembers members ≤ room <;>
      simp only [here, onward, Nat.max_le, and_true, and_false, if_true, if_false] <;> rfl

/-- Exact data is the same as plain data again, if there is room for it. -/
theorem toJson_ofJson (onReference : Except Obstacle Json) {v : Json} (exact : v.IsExact)
    (room : Nat) : (ofJson v).toJson onReference room =
      if v.depth ≤ room then .ok v else .error .tooDeep := by
  induction exact generalizing room with
  | null => rfl
  | bool b => rfl
  | int fits =>
    rw [ofJson, toJson, plainAtom, fits]
    rfl
  | text s => rfl
  | list each ih =>
    rw [ofJson, Json.depth]
    cases room with
    | zero => rfl
    | succ room =>
      rw [toJson, toJsonItems_ofJson room fun v member => ih v member room]
      simp only [Nat.add_le_add_iff_right]
      split <;> rfl
  | object distinct each ih =>
    rw [ofJson, Json.depth]
    cases room with
    | zero => rfl
    | succ room =>
      rw [toJson, toJsonMembers_ofJson room fun m member => ih m member room]
      simp only [Nat.add_le_add_iff_right]
      split <;> rfl

end Datum

namespace Scope

theorem stringify_list [Room] {items : List Json} (exact : (Json.list items).IsExact) :
    stringify (.ofJson (.list items)) =
      if (Json.list items).depth ≤ Room.writing then .ok (Json.list items).indentedText
      else .error (.obstacle .tooDeep) := by
  have same := Datum.toJson_ofJson (.error .reference) exact Room.writing
  rw [Datum.ofJson] at same ⊢
  simp only [stringify, same]
  split <;> rfl

theorem stringify_object [Room] {members : List (String × Json)}
    (exact : (Json.object members).IsExact) :
    stringify (.ofJson (.object members)) =
      if (Json.object members).depth ≤ Room.writing then .ok (Json.object members).indentedText
      else .error (.obstacle .tooDeep) := by
  have same := Datum.toJson_ofJson (.error .reference) exact Room.writing
  rw [Datum.ofJson] at same ⊢
  simp only [stringify, same]
  split <;> rfl

/-- A value is written as a text, and reading that gives the value back, where there is room for it.
Without room for writing there is no text, and without room for reading the text is not read. -/
def IsRestored [Room] (read : String → Except Data.LoadFault Json) (v : Json) : Prop :=
  (v.depth ≤ Room.writing → ∃ text, stringify (.ofJson v) = .ok text ∧
    (v.depth ≤ Room.reading → read text = .ok v) ∧
    (Room.reading < v.depth → ∃ words, read text = .error (.tooDeep words))) ∧
  (Room.writing < v.depth → stringify (.ofJson v) = .error (.obstacle .tooDeep))

/-- The text of an object of exact data is loaded as the object, with its members in their order.
The text of a list in it is read as the list, although a list is no object to be loaded. Both are
only limited by the room for nesting. -/
theorem stringify_loads [Room] {members : List (String × Json)}
    (exact : (Json.object members).IsExact) :
    IsRestored (fun text => (Source.text text).load) (.object members) ∧
    ∀ items, (Json.list items).IsIn (.object members) →
      IsRestored (fun text => (Source.text text).root) (.list items) := by
  constructor
  · have written := stringify_object exact
    obtain ⟨read, unread⟩ := Data.root_text_indentedText exact (by cases members <;> nofun)
    refine ⟨fun fits => ⟨_, by rw [written, if_pos fits], fun fits => ?_, fun tooDeep => ?_⟩,
      fun tooDeep => by rw [written, if_neg (Nat.not_le.mpr tooDeep)]⟩
    · dsimp only
      rw [Source.load, read fits]
      rfl
    · obtain ⟨words, failed⟩ := unread tooDeep
      dsimp only
      rw [Source.load, failed]
      exact ⟨words, rfl⟩
  · intro items inside
    have exact' := exact.of_isIn inside
    have written := stringify_list exact'
    obtain ⟨read, unread⟩ := Data.root_text_indentedText exact' (by cases items <;> nofun)
    exact ⟨fun fits => ⟨_, by rw [written, if_pos fits], read, unread⟩,
      fun tooDeep => by rw [written, if_neg (Nat.not_le.mpr tooDeep)]⟩

/-- An object with an object in a list, and with escapes in a key and in a text. -/
theorem stringify_loads_nested :
    let inner : List Json :=
      [.int 1, .int (-20), .bool true, .object [("", .null), ("a", .list [])]]
    let members : List (String × Json) := [("é\n\"", .list inner), ("b", .text "\t\\")]
    (Json.object members).IsExact ∧
    (∃ text, stringify (.ofJson (.object members)) = .ok text ∧
      (Source.text text).load = .ok (.object members)) ∧
    ∃ text, stringify (.ofJson (.list inner)) = .ok text ∧
      (Source.text text).root = .ok (.list inner) := by
  intro inner members
  have innermost : (Json.object [("", .null), ("a", .list [])]).IsExact :=
    .object (by decide) (by simpa using ⟨.null, .list (by simp)⟩)
  have fits (n : Int) (short : ¬ Number.digitLimit < (Nat.toDigits 10 n.natAbs).length) :
      (Json.int n).IsExact :=
    .int (Bool.eq_false_iff.mpr (mt (Number.isOverLimit_iff n).mp short))
  have listed : (Json.list inner).IsExact :=
    .list (by
      simpa [inner] using ⟨fits 1 (by decide), fits (-20) (by decide), .bool true, innermost⟩)
  have exact : (Json.object members).IsExact :=
    .object (by decide) (by simpa [members] using ⟨listed, .text _⟩)
  obtain ⟨⟨whole, -⟩, parts⟩ := stringify_loads exact
  obtain ⟨text, written, read, -⟩ := whole (by decide)
  obtain ⟨text', written', read', -⟩ :=
    (parts inner (.member List.mem_cons_self (.here _))).1 (by decide)
  exact ⟨exact, ⟨text, written, read (by decide)⟩, text', written', read' (by decide)⟩

/-- So many lists inside each other, and one in the innermost. -/
def nested : Nat → Json
  | 0 => .list []
  | n + 1 => .list [nested n]

theorem depth_nested (n : Nat) : (nested n).depth = n + 1 := by
  induction n with
  | zero => rfl
  | succ n ih => rw [nested, Json.depth, Json.depthOfItems, Json.depthOfItems, ih, Nat.max_zero]

theorem isExact_nested (n : Nat) : (nested n).IsExact := by
  induction n with
  | zero => exact .list (List.forall_mem_nil _)
  | succ n ih => exact .list (by simpa using ih)

/-- A thousand lists inside each other are not written, and a text of them is not read. -/
theorem nestedObject_lost :
    (Json.object [("a", nested 1000)]).IsExact ∧
    stringify (.ofJson (.object [("a", nested 1000)])) = .error (.obstacle .tooDeep) ∧
    ∃ words, (Source.text (Json.object [("a", nested 1000)]).indentedText).load =
      .error (.tooDeep words) := by
  have exact : (Json.object [("a", nested 1000)]).IsExact :=
    .object (by decide) (by simpa using isExact_nested 1000)
  have deep : (Json.object [("a", nested 1000)]).depth = 1002 := by
    rw [Json.depth, Json.depthOfMembers, Json.depthOfMembers, depth_nested, Nat.max_zero]
  have tooDeep : Room.usual.writing < (Json.object [("a", nested 1000)]).depth := by
    rw [deep]
    decide
  refine ⟨exact, ?_, ?_⟩
  · rw [stringify_object exact]
    exact if_neg (Nat.not_le.mpr tooDeep)
  · obtain ⟨words, failed⟩ := (Data.root_text_indentedText exact nofun).2 tooDeep
    rw [Source.load, failed]
    exact ⟨words, rfl⟩

end Scope

end TemplateFill
