import Mathlib.Data.List.TakeWhile
import TemplateFill.Proofs.Query.Literal
import TemplateFill.Query.Token

/-!
# Tokens that can be shown

The value of a token can be shown if the text is short, and a short text holds neither a number with
too many digits nor a literal that is nested too deeply.
-/

namespace TemplateFill.Query

open Data (Json)

/-! ### Lengths -/

theorem openings_le_length (s : List Char) : Data.openings s ≤ s.length := List.countP_le_length

theorem openings_quoted (s : List Char) : Data.openings (['"'] ++ s ++ ['"']) = Data.openings s := by
  simp [Data.openings]

theorem length_unescape_le (delimiter : Char) (s : List Char) :
    (unescape delimiter s).length ≤ s.length := by
  fun_induction unescape delimiter s with
  | case1 => exact Nat.le_refl _
  | case2 => exact Nat.le_refl _
  | case3 c d rest _ ih => exact Nat.le_succ_of_le (Nat.succ_le_succ ih)
  | case4 c d rest _ ih => exact Nat.succ_le_succ ih

theorem takeDelimited?_length {delimiter : Char} {s inside rest : List Char}
    (taken : takeDelimited? delimiter s = some (inside, rest)) :
    inside.length + rest.length < s.length := by
  induction s using takeDelimited?.induct delimiter generalizing inside with
  | case1 => cases taken
  | case2 => cases taken
  | case3 c s ih =>
    rw [takeDelimited?] at taken
    obtain ⟨⟨_, _⟩, found, same⟩ := Option.map_eq_some_iff.mp taken
    cases same
    have := ih found
    simp only [List.length_cons]
    omega
  | case4 s _ _ =>
    rw [takeDelimited?, if_pos rfl] at taken
    · cases taken
      simp
    all_goals assumption
  | case5 c s _ _ other ih =>
    rw [takeDelimited?, if_neg other] at taken
    · obtain ⟨⟨_, _⟩, found, same⟩ := Option.map_eq_some_iff.mp taken
      cases same
      have := ih found
      simp only [List.length_cons]
      omega
    all_goals assumption

theorem isNamePart_of_isNameStart {c : Char} (starts : isNameStart c) : isNamePart c := by
  rw [isNameStart, Bool.or_eq_true] at starts
  rw [isNamePart, Bool.or_eq_true, Char.isAlphanum, Bool.or_eq_true]
  exact starts.imp_left .inl

/-! ### Tokens -/

/-- The fault of a token is about its text, unless digits or nesting are not bounded. -/
def TokenFault.IsCalm (bounded : Bool) : TokenFault → Prop
  | .numeral fault => bounded = false ∧ ∃ digits, fault = .tooLong digits
  | .tooDeep _ => bounded = false
  | _ => True

variable [Room]

/-- A token can be shown if that is bounded. -/
def Token.IsShown (bounded : Bool) (token : Token) : Prop :=
  bounded → token.value.IsShown Room.viewing

/-- A text is short enough for its numbers and literals if they are bounded. -/
def IsShort (bounded : Bool) (length : Nat) : Prop :=
  bounded → length ≤ Number.digitLimit ∧ length ≤ Room.reading ∧ length ≤ Room.viewing

variable {bounded : Bool} {s inside rest : List Char}

theorem IsShort.mono {length shorter : Nat} (short : IsShort bounded length)
    (le : shorter ≤ length) : IsShort bounded shorter := by
  intro bounds
  obtain ⟨digits, reading, viewing⟩ := short bounds
  exact ⟨by omega, by omega, by omega⟩

/-- The value of a token can be shown, or its fault is calm. -/
def MadeCalm (bounded : Bool) : Except TokenFault Json → Prop
  | .ok value => bounded → value.IsShown Room.viewing
  | .error fault => fault.IsCalm bounded

/-- What a token leaves is shorter than the text, its value can be shown, and its faults are calm. -/
def LexemeCalm (bounded : Bool) (length : Nat) : Except TokenFailure Lexeme → Prop
  | .ok found => found.rest.length < length ∧ (bounded → found.value.IsShown Room.viewing)
  | .error failure => failure.fault.IsCalm bounded

theorem readName_calm (short : IsShort bounded inside.length) :
    MadeCalm bounded (readName inside) := by
  rw [readName]
  cases isRead : Data.readChars (['"'] ++ inside ++ ['"']) with
  | ok value =>
    refine fun bounds => Data.readChars_isShown (.inl ?_) isRead
    rw [openings_quoted]
    exact Nat.le_trans (openings_le_length inside) (short bounds).2.2
  | error failure => exact trivial

theorem readLiteral_calm (short : IsShort bounded inside.length) :
    MadeCalm bounded (readLiteral inside) := by
  have shorter := length_unescape_le '\x60' inside
  have few := openings_le_length (unescape '\x60' inside)
  unfold readLiteral
  dsimp only
  split
  · rename_i value isRead
    exact fun bounds => Data.readChars_isShown (.inl (by have := short bounds; omega)) isRead
  · rename_i kind rest isDeep
    refine Bool.eq_false_iff.mpr fun bounds => ?_
    exact Data.readChars_hasRoom (by have := short bounds; omega) kind rest isDeep
  · split
    · rename_i value isRead
      refine fun bounds => Data.readChars_isShown (.inl ?_) isRead
      have spaces : (Text.trimStart (unescape '\x60' inside)).length ≤ _ :=
        List.length_dropWhile_le _ _
      have few := openings_le_length (Text.trimStart (unescape '\x60' inside))
      have := short bounds
      rw [openings_quoted]
      omega
    · exact trivial

theorem delimited_calm {kind : TokenKind} {delimiter : Char}
    {make : List Char → Except TokenFault Json} {opening rest : List Char}
    (makes : ∀ inside, inside.length ≤ rest.length → MadeCalm bounded (make inside)) :
    LexemeCalm bounded (rest.length + 1) (delimited kind delimiter make opening rest) := by
  rw [delimited]
  cases taken : takeDelimited? delimiter rest with
  | none => exact trivial
  | some parts =>
    have shorter := takeDelimited?_length taken
    have calm := makes parts.1 (by omega)
    cases made : make parts.1 with
    | ok value =>
      rw [made] at calm
      simp only [made]
      exact ⟨by dsimp only; omega, calm⟩
    | error cause =>
      rw [made] at calm
      simp only [made]
      exact calm

theorem numberLexeme_calm (short : IsShort bounded s.length) :
    LexemeCalm bounded s.length (numberLexeme s) := by
  have digitsCalm (body : List Char) (le : body.length ≤ s.length) (negative : Bool) :
      LexemeCalm bounded s.length (
        let digits := body.takeWhile Data.isAsciiDigit
        if digits.isEmpty then .error ⟨.unknown "'-'", s⟩
        else if Number.digitLimit < digits.length then .error ⟨.numeral (.tooLong digits.length), s⟩
        else .ok ⟨.number, .int (if negative then -Data.valueOfDigits digits
          else Data.valueOfDigits digits), body.dropWhile Data.isAsciiDigit⟩) := by
    have areDigits : ∀ c ∈ body.takeWhile Data.isAsciiDigit, Data.isAsciiDigit c :=
      fun c member => List.all_eq_true.mp List.all_takeWhile c member
    have lengths := congrArg List.length
      (List.takeWhile_append_dropWhile (p := Data.isAsciiDigit) (l := body))
    rw [List.length_append] at lengths
    dsimp only
    split
    · exact trivial
    · rename_i some
      have some := List.length_pos_of_ne_nil (mt List.isEmpty_iff.mpr some)
      split
      · refine ⟨Bool.eq_false_iff.mpr fun bounds => ?_, _, rfl⟩
        have := (short bounds).1
        omega
      · rename_i few
        refine ⟨by dsimp only; omega, fun _ => Datum.obstacle?_int_eq_none.mpr
          (Data.isOverLimit_valueOfDigits areDigits (Nat.not_lt.mp few) ?_)⟩
        split
        · rw [Int.natAbs_neg, Int.natAbs_natCast]
        · rw [Int.natAbs_natCast]
  unfold numberLexeme
  split
  rename_i negative body isBody
  refine digitsCalm body ?_ negative
  split at isBody
  · cases isBody
    exact Nat.le_succ _
  · cases isBody
    exact Nat.le_refl _

theorem lexeme_calm (c : Char) (short : IsShort bounded (rest.length + 1)) :
    LexemeCalm bounded (rest.length + 1) (lexeme c rest) := by
  have inside {inside : List Char} (le : inside.length ≤ rest.length) :
      IsShort bounded inside.length := short.mono (Nat.le_succ_of_le le)
  unfold lexeme
  dsimp only
  split
  · exact ⟨Nat.lt_succ_self _, fun _ => rfl⟩
  · split
    · split
      · split
        · exact ⟨by simp only [List.length_cons]; omega, fun _ => rfl⟩
        · exact ⟨Nat.lt_succ_self _, fun _ => rfl⟩
      · exact ⟨Nat.succ_pos _, fun _ => rfl⟩
    · split
      · rename_i isStart
        refine ⟨?_, fun _ => rfl⟩
        rw [List.dropWhile_cons_of_pos (isNamePart_of_isNameStart isStart)]
        exact Nat.lt_succ_of_le (List.length_dropWhile_le _ _)
      · split
        · split
          · exact ⟨by simp only [List.length_cons]; omega, fun _ => rfl⟩
          · exact ⟨by simp only [List.length_cons]; omega, fun _ => rfl⟩
          · exact ⟨Nat.lt_succ_self _, fun _ => rfl⟩
        · split
          · exact delimited_calm fun _ _ _ => rfl
          · split
            · exact delimited_calm fun _ le => readLiteral_calm (inside le)
            · split
              · exact delimited_calm fun _ le => readName_calm (inside le)
              · split
                · exact numberLexeme_calm short
                · split
                  · split
                    · exact ⟨by simp only [List.length_cons]; omega, fun _ => rfl⟩
                    · exact trivial
                  · exact trivial

/-- The last token is the end token, and all tokens can be shown. -/
structure AreWhole (bounded : Bool) (tokens : List Token) : Prop where
  ends : tokens.getLast?.map (·.kind) = some .eof
  shown : ∀ token ∈ tokens, token.IsShown bounded

/-- The tokens of a text are whole and at most one more than its characters, or a fault of one is
calm. -/
def TokensCalm (bounded : Bool) (length : Nat) : Except TokenFailure (List Token) → Prop
  | .ok tokens => tokens.length ≤ length + 1 ∧ AreWhole bounded tokens
  | .error failure => failure.fault.IsCalm bounded

theorem tokensFrom_calm (total : Nat) {bound : Nat} (short : IsShort bounded s.length)
    (enough : s.length < bound) : TokensCalm bounded s.length (tokensFrom total bound s) := by
  induction bound generalizing s with
  | zero => cases enough
  | succ bound ih =>
    cases s with
    | nil => exact ⟨Nat.le_refl _, rfl, fun token member => by
        rw [List.mem_singleton.mp member]; exact fun _ => rfl⟩
    | cons c rest =>
      rw [List.length_cons] at short enough
      rw [tokensFrom]
      split
      · have calm := ih (short.mono (Nat.le_succ _)) (Nat.lt_of_succ_lt_succ enough)
        cases following : tokensFrom total bound rest with
        | error cause =>
          rw [following] at calm
          exact calm
        | ok tokens =>
          rw [following] at calm
          exact ⟨Nat.le_succ_of_le calm.1, calm.2⟩
      · have calm := lexeme_calm c short
        cases isLexeme : lexeme c rest with
        | error cause =>
          rw [isLexeme] at calm
          exact calm
        | ok found =>
          rw [isLexeme] at calm
          obtain ⟨shorter, shown⟩ := calm
          have calm := ih (short.mono (Nat.le_of_lt shorter)) (by omega)
          change TokensCalm _ _ (tokensFrom total bound found.rest >>= _)
          cases following : tokensFrom total bound found.rest with
          | error cause =>
            rw [following] at calm
            exact calm
          | ok tokens =>
            rw [following] at calm
            obtain ⟨few, ends, areShown⟩ := calm
            refine ⟨?_, ?_, List.forall_mem_cons.mpr ⟨shown, areShown⟩⟩
            · simp only [List.length_cons]
              omega
            · cases tokens with
              | nil => cases ends
              | cons token tokens => rwa [List.getLast?_cons_cons]

end TemplateFill.Query
