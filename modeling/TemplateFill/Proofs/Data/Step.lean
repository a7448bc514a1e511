import TemplateFill.Data.Reader

/-!
# Steps of the readers

What a reader does at the front of a text, for each way in which the text can begin.
-/

namespace TemplateFill.Data

/-! ### Texts -/

/-- The value of a hexadecimal digit at the front. -/
def takeHex? : List Char → Option (Nat × List Char)
  | [] => none
  | c :: rest => (hexValue? c).map (·, rest)

def unlessEmpty? (n : Nat) (s : List Char) : Option (Nat × List Char) :=
  if s = [] then none else some (n, s)

/-- A unit of four hexadecimal digits that something follows. -/
def takeUnit? (s : List Char) : Option (Nat × List Char) := do
  let (a, s) ← takeHex? s
  let (b, s) ← takeHex? s
  let (c, s) ← takeHex? s
  let (d, s) ← takeHex? s
  unlessEmpty? ((a * 16 + b) * 256 + c * 16 + d) s

theorem takeUnit?_cons (a b c d next : Char) (rest : List Char) :
    takeUnit? (a :: b :: c :: d :: next :: rest) =
      (unitOfHex? a b c d).map (·, next :: rest) := by
  cases isA : hexValue? a <;> cases isB : hexValue? b <;> cases isC : hexValue? c <;>
    cases isD : hexValue? d <;>
      simp [takeUnit?, takeHex?, unlessEmpty?, unitOfHex?, isA, isB, isC, isD]

theorem length_takeHex? {s : List Char} {read : Nat × List Char}
    (taken : takeHex? s = some read) : s.length = read.2.length + 1 := by
  cases s with
  | nil => cases taken
  | cons c rest =>
    obtain ⟨n, -, rfl⟩ := Option.map_eq_some_iff.mp taken
    rfl

/-- A unit takes four characters, and there is a fifth. -/
theorem length_takeUnit? {s : List Char} {read : Nat × List Char}
    (taken : takeUnit? s = some read) : s.length = read.2.length + 4 ∧ read.2 ≠ [] := by
  obtain ⟨⟨a, s₁⟩, first, taken⟩ := Option.bind_eq_some_iff.mp taken
  obtain ⟨⟨b, s₂⟩, second, taken⟩ := Option.bind_eq_some_iff.mp taken
  obtain ⟨⟨c, s₃⟩, third, taken⟩ := Option.bind_eq_some_iff.mp taken
  obtain ⟨⟨d, s₄⟩, fourth, taken⟩ := Option.bind_eq_some_iff.mp taken
  have lengths := And.intro (length_takeHex? first) (length_takeHex? second)
  have lengths' := And.intro (length_takeHex? third) (length_takeHex? fourth)
  dsimp only at lengths lengths' taken
  unfold unlessEmpty? at taken
  split at taken
  · cases taken
  · next nonempty =>
    cases taken
    refine ⟨?_, nonempty⟩
    dsimp only
    omega

theorem takeUnit?_short {s : List Char} (short : s.length < 5) : takeUnit? s = none := by
  cases taken : takeUnit? s with
  | none => rfl
  | some read =>
    obtain ⟨lengths, nonempty⟩ := length_takeUnit? taken
    have := List.length_pos_iff.mpr nonempty
    omega

theorem readUnits_unit (opening s : List Char) :
    readUnits opening ('\\' :: 'u' :: s) = match takeUnit? s with
      | none => .error ⟨.invalidCodePoint, 'u' :: s⟩
      | some (n, rest) =>
        (readUnits opening rest).map fun (units, rest) => (n :: units, rest) := by
  by_cases short : s.length < 5
  · rw [takeUnit?_short short, readUnits]
    rintro a b c d next rest rfl
    simp at short
    omega
  · match s with
    | a :: b :: c :: d :: next :: rest =>
      rw [readUnits, takeUnit?_cons]
      cases unitOfHex? a b c d <;> rfl
    | [] | [a] | [a, b] | [a, b, c] | [a, b, c, d] => simp at short

theorem readUnits_escape (opening : List Char) {c : Char} (s : List Char) (noUnit : c ≠ 'u') :
    readUnits opening ('\\' :: c :: s) = match simpleEscape? c with
      | none => .error ⟨.invalidEscape, '\\' :: c :: s⟩
      | some e =>
        (readUnits opening s).map fun (units, rest) => (e.toNat :: units, rest) :=
  -- the sixth row of the definition; no unit begins here
  readUnits.eq_6 opening c s (fun _ _ _ _ _ _ isUnit _ => noUnit isUnit) noUnit

/-! ### Numbers -/

theorem takeFraction_of_head {s : List Char} (noPoint : s.head? ≠ some '.') :
    takeFraction s = (none, s) := by
  rw [takeFraction]
  rintro rest rfl
  exact noPoint rfl

theorem takeExponent_of_head {s : List Char}
    (noExponent : s.head? ≠ some 'e' ∧ s.head? ≠ some 'E') : takeExponent s = (none, s) := by
  match s with
  | [] => rfl
  | c :: rest =>
    rw [takeExponent, if_neg]
    simpa using noExponent

theorem splitSign_of_head {s : List Char} (noSign : s.head? ≠ some '-' ∧ s.head? ≠ some '+') :
    Number.splitSign s = (false, s) := by
  unfold Number.splitSign
  split
  · exact absurd rfl noSign.1
  · exact absurd rfl noSign.2
  · rfl

theorem takeWholePart_of_head {s : List Char} (noZero : s.head? ≠ some '0') :
    takeWholePart s = (s.takeWhile isAsciiDigit, s.dropWhile isAsciiDigit) := by
  rw [takeWholePart]
  rintro rest rfl
  exact noZero rfl

theorem splitMinus_of_head {s : List Char} (noSign : s.head? ≠ some '-') :
    splitMinus s = (false, s) := by
  unfold splitMinus
  split
  · exact absurd rfl noSign
  · rfl

theorem numberOf_whole (s : List Char) (negative : Bool) {whole : List Char}
    (short : ¬ Number.digitLimit < whole.length) :
    numberOf s negative whole none none =
      .ok (.int (if negative then -valueOfDigits whole else valueOfDigits whole)) := by
  simp only [numberOf, Option.isNone_none, Bool.and_self, if_true, if_neg short]

/-! ### Words -/

theorem afterWord?_eq_some_iff {word : String} {s rest : List Char} :
    afterWord? word s = some rest ↔ s = word.toList ++ rest := by
  rw [afterWord?]
  constructor
  · intro found
    split at found
    · rename_i isPrefix
      obtain ⟨behind, rfl⟩ := List.isPrefixOf_iff_prefix.mp isPrefix
      rw [← String.length_toList, List.drop_left] at found
      rw [Option.some.inj found]
    · cases found
  · rintro rfl
    rw [if_pos (by simp), ← String.length_toList, List.drop_left]

theorem ne_nil_of_mem_valueWords {word : String} {v : Json} (isWord : (word, v) ∈ valueWords) :
    word.toList ≠ [] := by
  simp only [valueWords, List.mem_cons, Prod.mk.injEq, List.not_mem_nil, or_false] at isWord
  rcases isWord with ⟨rfl, -⟩ | ⟨rfl, -⟩ | ⟨rfl, -⟩ | ⟨rfl, -⟩ | ⟨rfl, -⟩ | ⟨rfl, -⟩ <;> decide

/-- A word that is read stands in front of the rest. -/
theorem readWord?_eq_some {v : Json} {s rest : List Char} (found : readWord? s = some (v, rest)) :
    ∃ word, (word, v) ∈ valueWords ∧ s = word.toList ++ rest := by
  obtain ⟨⟨word, value⟩, isWord, found⟩ := List.exists_of_findSome?_eq_some found
  obtain ⟨rest', after, same⟩ := Option.map_eq_some_iff.mp found
  cases same
  exact ⟨word, isWord, afterWord?_eq_some_iff.mp after⟩

/-! ### Values -/

section Values

variable (bound room : Nat) {rest rest' : List Char}

theorem readValue_quoted (rest : List Char) :
    readValue (bound + 1) room ('"' :: rest) =
      (readQuoted ('"' :: rest) rest).map fun (text, rest) => (.text text, rest) := by
  rw [readValue]

theorem readValue_list_zero (rest : List Char) :
    readValue (bound + 1) 0 ('[' :: rest) = .error ⟨.tooDeep "array", '[' :: rest⟩ := by
  rw [readValue]

theorem readValue_list_nil (closed : skipSpace rest = ']' :: rest') :
    readValue (bound + 1) (room + 1) ('[' :: rest) = .ok (.list [], rest') := by
  simp only [readValue, closed]

theorem readValue_list (unclosed : (skipSpace rest).head? ≠ some ']') :
    readValue (bound + 1) (room + 1) ('[' :: rest) =
      (readItems bound room (skipSpace rest)).map fun (items, rest) => (.list items, rest) := by
  rw [readValue]
  dsimp only
  split
  · rename_i closed
    exact absurd (congrArg List.head? closed) unclosed
  · rfl

theorem readValue_object_zero (rest : List Char) :
    readValue (bound + 1) 0 ('{' :: rest) = .error ⟨.tooDeep "object", '{' :: rest⟩ := by
  rw [readValue]

theorem readValue_object_nil (closed : skipSpace rest = '}' :: rest') :
    readValue (bound + 1) (room + 1) ('{' :: rest) = .ok (.object [], rest') := by
  simp only [readValue, closed]

theorem readValue_object (unclosed : (skipSpace rest).head? ≠ some '}') :
    readValue (bound + 1) (room + 1) ('{' :: rest) = (readMembers bound room (skipSpace rest)).map
      fun (members, rest) => (.ofMembers members, rest) := by
  rw [readValue]
  dsimp only
  split
  · rename_i closed
    exact absurd (congrArg List.head? closed) unclosed
  · rfl

/-- What begins neither as a text nor as a list nor as an object is a word or a number. -/
theorem readValue_of_head {s : List Char}
    (other : s.head? ≠ some '"' ∧ s.head? ≠ some '[' ∧ s.head? ≠ some '{') :
    readValue (bound + 1) room s = match readWord? s with
      | some reading => .ok reading
      | none => readNumber s := by
  unfold readValue
  split
  · exact absurd rfl other.1
  · exact absurd rfl other.2.1
  · exact absurd rfl other.2.2
  · rfl

end Values

end TemplateFill.Data
