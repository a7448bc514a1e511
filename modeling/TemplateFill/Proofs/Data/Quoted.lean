import TemplateFill.Data.Reader

/-!
# Quoted texts without escapes

Between the quotes of a data text most characters stand for themselves. A text made of such
characters alone is read as it is, and one that holds a control character is not read at all.
-/

namespace TemplateFill.Data

/-- Neither a quote nor a backslash. -/
def isUnescaped (c : Char) : Bool := c ≠ '"' && c ≠ '\\'

/-- A control character, which must not stand between quotes. -/
def isControl (c : Char) : Bool := c.toNat < 0x20

variable {c : Char} {s opening rest : List Char}

/-- One character that stands for itself. -/
theorem readUnits_cons (unescaped : isUnescaped c) :
    readUnits opening (c :: rest) =
      if isControl c then .error ⟨.controlCharacter, c :: rest⟩
      else (readUnits opening rest).map fun (units, rest) => (c.toNat :: units, rest) := by
  obtain ⟨noQuote, noBackslash⟩ : c ≠ '"' ∧ c ≠ '\\' := by simpa [isUnescaped] using unescaped
  rw [readUnits]
  · simp only [isControl, decide_eq_true_eq]
  · exact noQuote
  · exact fun same _ => noBackslash same
  · exact fun _ _ _ _ _ _ same _ => noBackslash same
  · exact fun _ same _ => noBackslash same
  · exact fun _ _ same _ => noBackslash same

/-- Characters are read up to the closing quote. -/
theorem readUnits_append (unescaped : ∀ c ∈ s, isUnescaped c)
    (noControl : s.any isControl = false) :
    readUnits opening (s ++ '"' :: rest) = .ok (s.map Char.toNat, rest) := by
  induction s with
  | nil => rw [List.nil_append, readUnits, List.map_nil]
  | cons c s ih =>
    rw [List.any_cons, Bool.or_eq_false_iff] at noControl
    rw [List.cons_append, readUnits_cons (unescaped c List.mem_cons_self), noControl.1,
      ih (fun d member => unescaped d (List.mem_cons_of_mem _ member)) noControl.2]
    rfl

/-- Reading fails at the first control character. -/
theorem readUnits_control (opening rest : List Char) (unescaped : ∀ c ∈ s, isUnescaped c)
    (control : s.any isControl) : ∃ failure,
      readUnits opening (s ++ rest) = .error failure := by
  induction s with
  | nil => cases control
  | cons c s ih =>
    rw [List.cons_append, readUnits_cons (unescaped c List.mem_cons_self)]
    cases here : isControl c with
    | true => exact ⟨_, rfl⟩
    | false =>
      rw [List.any_cons, here, Bool.false_or] at control
      obtain ⟨failure, failed⟩ :=
        ih (fun d member => unescaped d (List.mem_cons_of_mem _ member)) control
      rw [failed]
      exact ⟨failure, rfl⟩

/-! ### Units of characters -/

theorem not_surrogate (c : Char) : ¬ (0xD800 ≤ c.toNat ∧ c.toNat < 0xE000) := by
  have valid : c.toNat.isValidChar := c.valid
  unfold Nat.isValidChar at valid
  omega

theorem charOfUnit_toNat (c : Char) : charOfUnit c.toNat = c := by
  have apart := not_surrogate c
  rw [charOfUnit, if_neg (by simpa using apart), Char.ofNat_toNat]

theorem charOfPair?_toNat (c : Char) (low : Nat) : charOfPair? c.toNat low = none := by
  have apart := not_surrogate c
  rw [charOfPair?, if_neg]
  simp only [Bool.and_eq_true, decide_eq_true_eq]
  omega

/-- The units of characters are no halves of pairs. -/
theorem joinPairs_map_toNat (s : List Char) : joinPairs (s.map Char.toNat) = s := by
  induction s with
  | nil => rfl
  | cons c s ih =>
    cases s with
    | nil => rw [List.map_singleton, joinPairs, charOfUnit_toNat]
    | cons d s =>
      rw [List.map_cons, List.map_cons, joinPairs, charOfPair?_toNat]
      dsimp only
      rw [charOfUnit_toNat]
      exact congrArg (c :: ·) ih

/-! ### Whole texts -/

theorem readChars_quote [Room] (s : List Char) :
    readChars ('"' :: s) = match readQuoted ('"' :: s) s with
      | .error failure => .error failure
      | .ok (text, rest) =>
        match skipSpace rest with
        | [] => .ok (.text text)
        | rest => .error ⟨.extraData, rest⟩ := by
  have noMark : ('"' :: s).head? ≠ some (Char.ofNat 0xFEFF) := by
    rw [List.head?_cons]
    decide
  have noSpace : skipSpace ('"' :: s) = '"' :: s := List.dropWhile_cons_of_neg (by decide)
  rw [readChars, if_neg noMark, readRoot, noSpace, List.length_cons, readValue]
  cases readQuoted ('"' :: s) s with
  | error failure => rfl
  | ok read => rfl

/-- A text in quotes is read as it stands there. -/
theorem readChars_quoted [Room] (unescaped : ∀ c ∈ s, isUnescaped c)
    (noControl : s.any isControl = false) :
    readChars ('"' :: (s ++ ['"'])) = .ok (.text (String.ofList s)) := by
  rw [readChars_quote, readQuoted, readUnits_append unescaped noControl]
  simp only [Except.map, joinPairs_map_toNat]
  rfl

/-- A text with a control character in it is not read. -/
theorem readChars_control [Room] (unescaped : ∀ c ∈ s, isUnescaped c) (control : s.any isControl) :
    ∃ failure, readChars ('"' :: (s ++ ['"'])) = .error failure := by
  obtain ⟨failure, failed⟩ :=
    readUnits_control ('"' :: (s ++ ['"'])) ['"'] unescaped control
  rw [readChars_quote, readQuoted, failed]
  exact ⟨failure, rfl⟩

end TemplateFill.Data
