import TemplateFill.Proofs.Data.Progress
import TemplateFill.Proofs.Data.Quoted
import TemplateFill.Text.Line

/-!
# Line breaks of data texts

A break is a blank between the parts of a data text and nothing inside of them, so it does not
matter how it is written: a text with its breaks written as line feeds is read as the same value, or
fails as well, and for want of room if that is why the text with its own breaks fails.
-/

namespace TemplateFill.Data

open Text (unifyBreaks)

/-! ### Results alone -/

section Results

variable {α β : Type}

/-- Whether a fault is a want of room. -/
def ReadFault.isTooDeep : ReadFault → Bool
  | .tooDeep _ => true
  | _ => false

/-- What is read, and of a failure no more than whether there was no room. -/
def outline (reading : Reading α) : Except Bool α := reading.mapError (·.fault.isTooDeep)

theorem outline_map (reading : Reading α) (f : α → β) :
    outline (reading.map f) = (outline reading).map f := by
  cases reading <;> rfl

theorem outline_bind (reading : Reading α) (f : α → Reading β) :
    outline (reading >>= f) = outline reading >>= fun a => outline (f a) := by
  cases reading <;> rfl

theorem map_map (x : Except Bool α) {γ : Type} (f : α → β) (g : β → γ) :
    (x.map f).map g = x.map (g ∘ f) := by
  cases x <;> rfl

end Results

/-! ### Unified texts -/

theorem unifyBreaks_cons {c : Char} (rest : List Char) (noReturn : c ≠ '\r') :
    unifyBreaks (c :: rest) = c :: unifyBreaks rest := by
  rw [unifyBreaks, if_neg noReturn]
  exact fun _ isReturn _ => noReturn isReturn

/-- A text begins with a character that stays, or with a break, or not at all. -/
theorem unifyBreaks_cases (s : List Char) :
    s = [] ∨
    (∃ c rest, s = c :: rest ∧ c ≠ '\r' ∧ unifyBreaks s = c :: unifyBreaks rest) ∨
    ∃ rest rest', s = '\r' :: rest ∧ unifyBreaks s = '\n' :: rest' := by
  match s with
  | [] => exact .inl rfl
  | c :: rest =>
    by_cases isReturn : c = '\r'
    · subst isReturn
      refine .inr (.inr ⟨rest, ?_⟩)
      match rest with
      | [] => exact ⟨_, rfl, rfl⟩
      | d :: rest =>
        by_cases isFeed : d = '\n'
        · subst isFeed
          exact ⟨_, rfl, rfl⟩
        · refine ⟨unifyBreaks (d :: rest), rfl, ?_⟩
          rw [unifyBreaks, if_pos rfl]
          exact fun _ _ same => isFeed (List.cons.inj same).1
    · exact .inr (.inl ⟨c, rest, rfl, isReturn, unifyBreaks_cons rest isReturn⟩)

theorem unifyBreaks_eq_nil_iff (s : List Char) : unifyBreaks s = [] ↔ s = [] := by
  rcases unifyBreaks_cases s with rfl | ⟨c, rest, rfl, -, isUnified⟩ | ⟨rest, rest', rfl, isUnified⟩
  · simp [unifyBreaks]
  · simp [isUnified]
  · simp [isUnified]

/-- A character that is no break stands in front of both texts or of neither. -/
theorem unifyBreaks_front (c : Char) (noBreak : c ≠ '\r' ∧ c ≠ '\n') (s : List Char) :
    (∃ rest, s = c :: rest ∧ unifyBreaks s = c :: unifyBreaks rest) ∨
      s.head? ≠ some c ∧ (unifyBreaks s).head? ≠ some c := by
  rcases unifyBreaks_cases s with rfl | ⟨d, rest, rfl, -, isUnified⟩ | ⟨rest, rest', rfl, isUnified⟩
  · exact .inr ⟨nofun, nofun⟩
  · by_cases same : d = c
    · subst same
      exact .inl ⟨rest, rfl, isUnified⟩
    · exact .inr (by simp [isUnified, same])
  · exact .inr (by simp [isUnified, Ne.symm noBreak.1, Ne.symm noBreak.2])

theorem length_unifyBreaks_le (s : List Char) : (unifyBreaks s).length ≤ s.length := by
  fun_induction unifyBreaks s with
  | case1 => exact Nat.le_refl _
  | case2 rest ih => simp; omega
  | case3 c rest _ ih => simpa using ih

theorem skipSpace_unifyBreaks (s : List Char) :
    skipSpace (unifyBreaks s) = unifyBreaks (skipSpace s) := by
  unfold skipSpace
  fun_induction unifyBreaks s with
  | case1 => rfl
  | case2 rest ih => simpa [isSpace] using ih
  | case3 c rest apart ih =>
    by_cases isReturn : c = '\r'
    · simpa [isReturn, isSpace] using ih
    · rw [if_neg isReturn]
      by_cases space : isSpace c
      · rw [List.dropWhile_cons_of_pos space, List.dropWhile_cons_of_pos space, ih]
      · rw [List.dropWhile_cons_of_neg space, List.dropWhile_cons_of_neg space,
          unifyBreaks_cons rest isReturn]

/-- What stands in front of a break or of anything else stays as it is. -/
theorem eq_append_of_unifyBreaks {s run rest : List Char} (noFeed : '\n' ∉ run)
    (isUnified : unifyBreaks s = run ++ rest) :
    ∃ rest', s = run ++ rest' ∧ rest = unifyBreaks rest' := by
  induction run generalizing s with
  | nil => exact ⟨s, rfl, isUnified.symm⟩
  | cons c run ih =>
    rw [List.mem_cons, not_or] at noFeed
    rcases unifyBreaks_cases s with rfl | ⟨d, t, rfl, -, same⟩ | ⟨t, t', rfl, same⟩
    · cases isUnified
    · obtain ⟨rfl, onward⟩ := List.cons.inj (same.symm.trans isUnified)
      obtain ⟨rest', rfl, isRest⟩ := ih noFeed.2 onward
      exact ⟨rest', rfl, isRest⟩
    · exact absurd (List.cons.inj (same.symm.trans isUnified)).1 noFeed.1

theorem unifyBreaks_append {run : List Char} (rest : List Char) (noReturn : '\r' ∉ run) :
    unifyBreaks (run ++ rest) = run ++ unifyBreaks rest := by
  induction run with
  | nil => rfl
  | cons c run ih =>
    rw [List.mem_cons, not_or] at noReturn
    rw [List.cons_append, unifyBreaks_cons _ (Ne.symm noReturn.1), ih noReturn.2]
    rfl

/-! ### Readers of parts -/

/-- What is read does not depend on how breaks are written, and neither does what is left. -/
def IgnoresBreaks {α : Type} (read : List Char → Option (α × List Char)) : Prop :=
  ∀ s, read (unifyBreaks s) = (read s).map (Prod.map id unifyBreaks)

namespace IgnoresBreaks

variable {α β : Type} {first : List Char → Option (α × List Char)}

theorem bind {next : α → List Char → Option (β × List Char)} (ignores : IgnoresBreaks first)
    (onward : ∀ a, IgnoresBreaks (next a)) :
    IgnoresBreaks fun s => (first s).bind fun (a, rest) => next a rest := by
  intro s
  dsimp only
  rw [ignores s]
  cases first s with
  | none => rfl
  | some read => exact onward read.1 read.2

end IgnoresBreaks

/-! ### Units -/

theorem takeHex?_ignoresBreaks : IgnoresBreaks takeHex? := by
  intro s
  rcases unifyBreaks_cases s with rfl | ⟨c, rest, rfl, -, isUnified⟩ | ⟨rest, rest', rfl, isUnified⟩
  · rfl
  · rw [isUnified, takeHex?, takeHex?, Option.map_map]
    rfl
  · rw [isUnified]
    rfl

theorem unlessEmpty?_ignoresBreaks (n : Nat) : IgnoresBreaks (unlessEmpty? n) := by
  intro s
  simp only [unlessEmpty?, unifyBreaks_eq_nil_iff]
  split <;> rfl

theorem takeUnit?_ignoresBreaks : IgnoresBreaks takeUnit? :=
  takeHex?_ignoresBreaks.bind fun a => takeHex?_ignoresBreaks.bind fun b =>
    takeHex?_ignoresBreaks.bind fun c => takeHex?_ignoresBreaks.bind fun d =>
      unlessEmpty?_ignoresBreaks ((a * 16 + b) * 256 + c * 16 + d)

/-! ### Texts -/

/-- Two readings find the same, and the second one leaves what the first one does with its breaks
unified, or both fail, for want of room or otherwise. -/
def SameReading {α : Type} (first second : Reading (α × List Char)) : Prop :=
  outline second = (outline first).map (Prod.map id unifyBreaks)

namespace SameReading

variable {α β : Type} {first second : Reading (α × List Char)}

theorem error {failure failure' : ReadFailure}
    (same : failure.fault.isTooDeep = failure'.fault.isTooDeep) :
    SameReading (.error failure : Reading (α × List Char)) (.error failure') :=
  congrArg Except.error same.symm

theorem ok (found : α) (rest : List Char) :
    SameReading (.ok (found, rest)) (.ok (found, unifyBreaks rest)) := rfl

theorem map (f : α → β) (same : SameReading first second) :
    SameReading (first.map fun (found, rest) => (f found, rest))
      (second.map fun (found, rest) => (f found, rest)) := by
  rw [SameReading, outline_map, outline_map, same, map_map, map_map]
  rfl

theorem bind {next next' : α × List Char → Reading (β × List Char)}
    (same : SameReading first second)
    (onward : ∀ found rest, SameReading (next (found, rest)) (next' (found, unifyBreaks rest))) :
    SameReading (first >>= next) (second >>= next') := by
  rw [SameReading, outline_bind, outline_bind, same]
  cases first with
  | error failure => rfl
  | ok read => exact onward read.1 read.2

end SameReading

theorem readUnits_same (opening opening' s : List Char) :
    SameReading (readUnits opening s) (readUnits opening' (unifyBreaks s)) := by
  induction isLength : s.length using Nat.strongRecOn generalizing s with
  | ind length ih =>
    subst isLength
    rcases unifyBreaks_cases s with rfl | ⟨c, rest, rfl, -, isUnified⟩ |
      ⟨rest, rest', rfl, isUnified⟩
    · exact .error rfl
    · rw [isUnified]
      by_cases quote : c = '"'
      · subst quote
        rw [readUnits, readUnits]
        exact .ok [] rest
      by_cases backslash : c = '\\'
      · subst backslash
        rcases unifyBreaks_cases rest with rfl | ⟨d, rest, rfl, -, isUnified⟩ |
          ⟨rest, rest', rfl, isUnified⟩
        · exact .error rfl
        · rw [isUnified]
          by_cases unit : d = 'u'
          · subst unit
            rw [readUnits_unit, readUnits_unit, takeUnit?_ignoresBreaks]
            cases taken : takeUnit? rest with
            | none => exact .error rfl
            | some read =>
              have shorter := (length_takeUnit? taken).1
              exact (ih _ (by simp only [List.length_cons]; omega) read.2 rfl).map _
          · rw [readUnits_escape _ _ unit, readUnits_escape _ _ unit]
            cases simpleEscape? d with
            | none => exact .error rfl
            | some e => exact (ih _ (by simp only [List.length_cons]; omega) rest rfl).map _
        · have noUnit : '\r' ≠ 'u' ∧ '\n' ≠ 'u' := by decide
          rw [isUnified, readUnits_escape _ _ noUnit.1, readUnits_escape _ _ noUnit.2]
          exact .error rfl
      · have unescaped : isUnescaped c := by simp [isUnescaped, quote, backslash]
        rw [readUnits_cons unescaped, readUnits_cons unescaped]
        split
        · exact .error rfl
        · exact (ih _ (by simp) rest rfl).map _
    · rw [isUnified, readUnits_cons rfl, readUnits_cons rfl]
      exact .error rfl

theorem readQuoted_same (opening opening' s : List Char) :
    SameReading (readQuoted opening s) (readQuoted opening' (unifyBreaks s)) :=
  (readUnits_same opening opening' s).map fun units => String.ofList (joinPairs units)

/-! ### Numbers and words -/

theorem takeWhile_unifyBreaks {p : Char → Bool} (noBreak : p '\r' = false ∧ p '\n' = false)
    (s : List Char) : (unifyBreaks s).takeWhile p = s.takeWhile p ∧
      (unifyBreaks s).dropWhile p = unifyBreaks (s.dropWhile p) := by
  induction s with
  | nil => exact ⟨rfl, rfl⟩
  | cons c rest ih =>
    by_cases isReturn : c = '\r'
    · subst isReturn
      rcases unifyBreaks_cases ('\r' :: rest) with none | ⟨_, _, isCons, noReturn, -⟩ |
        ⟨_, rest', -, isUnified⟩
      · cases none
      · exact absurd (List.cons.inj isCons).1.symm noReturn
      · simp [isUnified, noBreak]
    · rw [unifyBreaks_cons rest isReturn]
      by_cases digit : p c
      · simp [digit, ih]
      · simp [digit, unifyBreaks_cons rest isReturn]

theorem takeFraction_unifyBreaks (s : List Char) :
    takeFraction (unifyBreaks s) = Prod.map id unifyBreaks (takeFraction s) := by
  rcases unifyBreaks_cases s with rfl | ⟨c, rest, rfl, noReturn, isUnified⟩ |
    ⟨rest, rest', rfl, isUnified⟩
  · rfl
  · by_cases point : c = '.'
    · subst point
      obtain ⟨digits, behind⟩ := takeWhile_unifyBreaks (p := isAsciiDigit) (by decide) rest
      simp only [isUnified, takeFraction, digits, behind]
      split
      · exact Prod.ext rfl isUnified.symm
      · rfl
    · rw [takeFraction_of_head (by simp [isUnified, point]), takeFraction_of_head (by simp [point])]
      rfl
  · rw [takeFraction_of_head (by simp [isUnified]), takeFraction_of_head (by simp)]
    rfl

theorem splitSign_unifyBreaks (s : List Char) :
    Number.splitSign (unifyBreaks s) = Prod.map id unifyBreaks (Number.splitSign s) := by
  rcases unifyBreaks_cases s with rfl | ⟨c, rest, rfl, -, isUnified⟩ | ⟨rest, rest', rfl, isUnified⟩
  · rfl
  · by_cases minus : c = '-'
    · rw [isUnified, minus]
      rfl
    by_cases plus : c = '+'
    · rw [isUnified, plus]
      rfl
    · rw [splitSign_of_head (by simp [isUnified, minus, plus]),
        splitSign_of_head (by simp [minus, plus])]
      rfl
  · rw [splitSign_of_head (by simp [isUnified]), splitSign_of_head (by simp)]
    rfl

theorem takeExponent_unifyBreaks (s : List Char) :
    takeExponent (unifyBreaks s) = Prod.map id unifyBreaks (takeExponent s) := by
  rcases unifyBreaks_cases s with rfl | ⟨c, rest, rfl, noReturn, isUnified⟩ |
    ⟨rest, rest', rfl, isUnified⟩
  · rfl
  · obtain ⟨digits, behind⟩ :=
      takeWhile_unifyBreaks (p := isAsciiDigit) (by decide) (Number.splitSign rest).2
    rw [isUnified, takeExponent, takeExponent, splitSign_unifyBreaks]
    simp only [Prod.map_fst, Prod.map_snd, digits, behind]
    split
    · split
      · exact Prod.ext rfl isUnified.symm
      · rfl
    · exact Prod.ext rfl isUnified.symm
  · rw [takeExponent_of_head (by simp [isUnified]), takeExponent_of_head (by simp)]
    rfl

theorem takeWholePart_unifyBreaks (s : List Char) :
    takeWholePart (unifyBreaks s) = Prod.map id unifyBreaks (takeWholePart s) := by
  obtain ⟨digits, behind⟩ := takeWhile_unifyBreaks (p := isAsciiDigit) (by decide) s
  rcases unifyBreaks_cases s with rfl | ⟨c, rest, rfl, -, isUnified⟩ | ⟨rest, rest', rfl, isUnified⟩
  · rfl
  · by_cases zero : c = '0'
    · rw [isUnified, zero]
      rfl
    · rw [takeWholePart_of_head (by simp [isUnified, zero]),
        takeWholePart_of_head (by simp [zero]), digits, behind]
      rfl
  · rw [takeWholePart_of_head (by simp [isUnified]), takeWholePart_of_head (by simp), digits,
      behind]
    rfl

theorem splitMinus_unifyBreaks (s : List Char) :
    splitMinus (unifyBreaks s) = Prod.map id unifyBreaks (splitMinus s) := by
  rcases unifyBreaks_cases s with rfl | ⟨c, rest, rfl, -, isUnified⟩ | ⟨rest, rest', rfl, isUnified⟩
  · rfl
  · by_cases minus : c = '-'
    · rw [isUnified, minus]
      rfl
    · rw [splitMinus_of_head (by simp [isUnified, minus]), splitMinus_of_head (by simp [minus])]
      rfl
  · rw [splitMinus_of_head (by simp [isUnified]), splitMinus_of_head (by simp)]
    rfl

theorem numberOf_found (s s' : List Char) (negative : Bool) (whole : List Char)
    (fraction : Option (List Char)) (exponent : Option Int) :
    outline (numberOf s negative whole fraction exponent) =
      outline (numberOf s' negative whole fraction exponent) := by
  unfold numberOf
  split
  · split <;> rfl
  · rfl

theorem readNumber_same (s : List Char) :
    SameReading (readNumber s) (readNumber (unifyBreaks s)) := by
  unfold readNumber
  simp only [splitMinus_unifyBreaks, takeWholePart_unifyBreaks, takeFraction_unifyBreaks,
    takeExponent_unifyBreaks, Prod.map_fst, Prod.map_snd, id_eq]
  split
  · exact .error rfl
  · rw [SameReading, outline_map, outline_map, numberOf_found _ s, map_map]
    rfl

theorem afterWord?_unifyBreaks {word : String} (noBreak : '\r' ∉ word.toList ∧ '\n' ∉ word.toList)
    (s : List Char) : afterWord? word (unifyBreaks s) = (afterWord? word s).map unifyBreaks := by
  apply Option.ext
  intro rest
  rw [Option.map_eq_some_iff, afterWord?_eq_some_iff]
  constructor
  · intro stands
    obtain ⟨rest', rfl, rfl⟩ := eq_append_of_unifyBreaks noBreak.2 stands
    exact ⟨rest', afterWord?_eq_some_iff.mpr rfl, rfl⟩
  · rintro ⟨rest', found, rfl⟩
    rw [afterWord?_eq_some_iff.mp found, unifyBreaks_append _ noBreak.1]

theorem noBreak_of_mem_valueWords {word : String} {v : Json} (isWord : (word, v) ∈ valueWords) :
    '\r' ∉ word.toList ∧ '\n' ∉ word.toList := by
  simp only [valueWords, List.mem_cons, Prod.mk.injEq, List.not_mem_nil, or_false] at isWord
  rcases isWord with ⟨rfl, -⟩ | ⟨rfl, -⟩ | ⟨rfl, -⟩ | ⟨rfl, -⟩ | ⟨rfl, -⟩ | ⟨rfl, -⟩ <;> decide

theorem readWord?_ignoresBreaks : IgnoresBreaks readWord? := by
  intro s
  rw [readWord?, readWord?, List.map_findSome?, ← List.head?_filterMap, ← List.head?_filterMap]
  refine congrArg List.head? (List.filterMap_congr fun (word, v) isWord => ?_)
  dsimp only [Function.comp_apply]
  rw [afterWord?_unifyBreaks (noBreak_of_mem_valueWords isWord), Option.map_map, Option.map_map]
  rfl

/-! ### Values -/

/-- All readers of values find the same within a bound. -/
structure SameWithin (bound : Nat) : Prop where
  value (room : Nat) (s : List Char) :
    SameReading (readValue bound room s) (readValue bound room (unifyBreaks s))
  items (room : Nat) (s : List Char) :
    SameReading (readItems bound room s) (readItems bound room (unifyBreaks s))
  members (room : Nat) (s : List Char) :
    SameReading (readMembers bound room s) (readMembers bound room (unifyBreaks s))

variable {bound : Nat}

theorem SameWithin.list_succ (same : SameWithin bound) (room : Nat) (rest : List Char) :
    SameReading (readValue (bound + 1) room ('[' :: rest))
      (readValue (bound + 1) room ('[' :: unifyBreaks rest)) := by
  have spaces := skipSpace_unifyBreaks rest
  cases room with
  | zero =>
    rw [readValue_list_zero, readValue_list_zero]
    exact .error rfl
  | succ room =>
    rcases unifyBreaks_front ']' (by decide) (skipSpace rest) with ⟨t, closed, isUnified⟩ | unclosed
    · rw [readValue_list_nil bound room closed,
        readValue_list_nil bound room (spaces.trans isUnified)]
      exact .ok _ t
    · rw [readValue_list bound room unclosed.1, readValue_list bound room (spaces ▸ unclosed.2),
        spaces]
      exact (same.items room _).map Json.list

theorem SameWithin.object_succ (same : SameWithin bound) (room : Nat) (rest : List Char) :
    SameReading (readValue (bound + 1) room ('{' :: rest))
      (readValue (bound + 1) room ('{' :: unifyBreaks rest)) := by
  have spaces := skipSpace_unifyBreaks rest
  cases room with
  | zero =>
    rw [readValue_object_zero, readValue_object_zero]
    exact .error rfl
  | succ room =>
    rcases unifyBreaks_front '}' (by decide) (skipSpace rest) with ⟨t, closed, isUnified⟩ | unclosed
    · rw [readValue_object_nil bound room closed,
        readValue_object_nil bound room (spaces.trans isUnified)]
      exact .ok _ t
    · rw [readValue_object bound room unclosed.1,
        readValue_object bound room (spaces ▸ unclosed.2), spaces]
      exact (same.members room _).map Json.ofMembers

theorem SameWithin.value_succ (same : SameWithin bound) (room : Nat) (s : List Char) :
    SameReading (readValue (bound + 1) room s) (readValue (bound + 1) room (unifyBreaks s)) := by
  rcases unifyBreaks_front '"' (by decide) s with ⟨rest, rfl, isUnified⟩ | noQuote
  · rw [isUnified, readValue_quoted, readValue_quoted]
    exact (readQuoted_same _ _ rest).map Json.text
  rcases unifyBreaks_front '[' (by decide) s with ⟨rest, rfl, isUnified⟩ | noList
  · rw [isUnified]
    exact same.list_succ room rest
  rcases unifyBreaks_front '{' (by decide) s with ⟨rest, rfl, isUnified⟩ | noObject
  · rw [isUnified]
    exact same.object_succ room rest
  · rw [readValue_of_head bound room ⟨noQuote.1, noList.1, noObject.1⟩,
      readValue_of_head bound room ⟨noQuote.2, noList.2, noObject.2⟩, readWord?_ignoresBreaks s]
    cases readWord? s with
    | some reading => exact .ok reading.1 reading.2
    | none => exact readNumber_same s

theorem SameWithin.items_succ (same : SameWithin bound) (room : Nat) (s : List Char) :
    SameReading (readItems (bound + 1) room s) (readItems (bound + 1) room (unifyBreaks s)) := by
  unfold readItems
  refine (same.value room s).bind fun item rest => ?_
  dsimp only
  rw [skipSpace_unifyBreaks]
  generalize skipSpace rest = s
  rcases unifyBreaks_front ']' (by decide) s with ⟨rest, rfl, isUnified⟩ | noEnd
  · rw [isUnified]
    exact .ok _ rest
  rcases unifyBreaks_front ',' (by decide) s with ⟨rest, rfl, isUnified⟩ | noComma
  · simp only [isUnified, skipSpace_unifyBreaks]
    exact (same.items room _).bind fun items rest => .ok _ rest
  · split
    · exact absurd rfl noEnd.1
    · exact absurd rfl noComma.1
    · split
      · rename_i front
        exact absurd (congrArg List.head? front) noEnd.2
      · rename_i front
        exact absurd (congrArg List.head? front) noComma.2
      · exact .error rfl

theorem SameWithin.members_succ (same : SameWithin bound) (room : Nat) (s : List Char) :
    SameReading (readMembers (bound + 1) room s)
      (readMembers (bound + 1) room (unifyBreaks s)) := by
  rcases unifyBreaks_front '"' (by decide) s with ⟨rest, rfl, isUnified⟩ | noQuote
  · rw [isUnified, readMembers, readMembers]
    refine (readQuoted_same _ _ rest).bind fun key rest => ?_
    dsimp only
    rw [skipSpace_unifyBreaks]
    generalize skipSpace rest = s
    rcases unifyBreaks_front ':' (by decide) s with ⟨rest, rfl, isUnified⟩ | noColon
    · simp only [isUnified, skipSpace_unifyBreaks]
      refine (same.value room _).bind fun v rest => ?_
      dsimp only
      rw [skipSpace_unifyBreaks]
      generalize skipSpace rest = s
      rcases unifyBreaks_front '}' (by decide) s with ⟨rest, rfl, isUnified⟩ | noEnd
      · rw [isUnified]
        exact .ok _ rest
      rcases unifyBreaks_front ',' (by decide) s with ⟨rest, rfl, isUnified⟩ | noComma
      · simp only [isUnified, skipSpace_unifyBreaks]
        exact (same.members room _).bind fun members rest => .ok _ rest
      · split
        · exact absurd rfl noEnd.1
        · exact absurd rfl noComma.1
        · split
          · rename_i front
            exact absurd (congrArg List.head? front) noEnd.2
          · rename_i front
            exact absurd (congrArg List.head? front) noComma.2
          · exact .error rfl
    · split
      · exact absurd rfl noColon.1
      · split
        · rename_i front
          exact absurd (congrArg List.head? front) noColon.2
        · exact .error rfl
  · unfold readMembers
    split
    · exact absurd rfl noQuote.1
    · split
      · rename_i front
        exact absurd (congrArg List.head? front) noQuote.2
      · exact .error rfl

theorem sameWithin (bound : Nat) : SameWithin bound := by
  induction bound with
  | zero => exact ⟨fun _ _ => .error rfl, fun _ _ => .error rfl, fun _ _ => .error rfl⟩
  | succ bound ih => exact ⟨ih.value_succ, ih.items_succ, ih.members_succ⟩

theorem outline_readRoot [Room] {s : List Char} (bound : Nat) (enough : 2 * s.length < bound) :
    outline (readRoot s) = outline (readValue bound Room.reading (skipSpace s)) >>=
      fun read => if skipSpace read.2 = [] then Except.ok read.1 else Except.error false := by
  rw [readRoot_eq bound enough]
  cases readValue bound Room.reading (skipSpace s) with
  | error failure => rfl
  | ok read =>
    dsimp only
    change _ = if skipSpace read.2 = [] then Except.ok read.1 else .error false
    generalize skipSpace read.2 = left
    cases left with
    | nil => rfl
    | cons c rest => rfl

/-- How the breaks of a data text are written does not matter for its value, nor for whether it has
one. -/
theorem readRoot_unifyBreaks [Room] (s : List Char) :
    outline (readRoot (unifyBreaks s)) = outline (readRoot s) := by
  have shorter := length_unifyBreaks_le s
  have same := (sameWithin (2 * s.length + 1)).value Room.reading (skipSpace s)
  rw [outline_readRoot (2 * s.length + 1) (by omega),
    outline_readRoot (s := s) (2 * s.length + 1) (by omega), skipSpace_unifyBreaks, same]
  cases outline (readValue (2 * s.length + 1) Room.reading (skipSpace s)) with
  | error isTooDeep => rfl
  | ok read =>
    change (if skipSpace (unifyBreaks read.2) = [] then _ else _) =
      if skipSpace read.2 = [] then _ else _
    simp only [skipSpace_unifyBreaks, unifyBreaks_eq_nil_iff]
    rfl

theorem readChars_unifyBreaks [Room] (s : List Char) :
    outline (readChars (unifyBreaks s)) = outline (readChars s) := by
  have mark : (unifyBreaks s).head? = some (Char.ofNat 0xFEFF) ↔
      s.head? = some (Char.ofNat 0xFEFF) := by
    rcases unifyBreaks_front (Char.ofNat 0xFEFF) (by decide) s with ⟨rest, rfl, isUnified⟩ | other
    · simp [isUnified]
    · simp [other]
  rw [readChars, readChars]
  simp only [mark]
  split
  · rfl
  · exact readRoot_unifyBreaks s

end TemplateFill.Data
