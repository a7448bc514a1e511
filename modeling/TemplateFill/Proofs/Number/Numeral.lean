import Mathlib.Data.List.Basic
import Mathlib.Data.List.Infix
import Mathlib.Data.List.TakeWhile
import TemplateFill.Numbering.Allocator

/-!
# Numerals that were written

The decimal numeral of a number is read as this number, unless it has more digits than are
read. It also looks like an id, so that nothing that was written escapes those who look for
ids.
-/

namespace TemplateFill.Number

/-! ### Digits -/

theorem toNat_of_isDigit {c : Char} (digit : c.isDigit) : 48 ≤ c.toNat ∧ c.toNat ≤ 57 := by
  rw [Char.isDigit, Bool.and_eq_true, decide_eq_true_eq, decide_eq_true_eq] at digit
  exact ⟨digit.1, digit.2⟩

theorem digitValue?_of_isDigit {c : Char} (digit : c.isDigit) :
    Text.digitValue? c = some (c.toNat - '0'.toNat) := by
  have bounds := toNat_of_isDigit digit
  have first : (decide (0x30 ≤ c.toNat) && decide (c.toNat < 0x30 + 10)) = true := by
    rw [Bool.and_eq_true, decide_eq_true_eq, decide_eq_true_eq]
    omega
  rw [Text.digitValue?, Text.digitZeros, List.find?_cons, first]
  rfl

theorem digitIn?_of_isDigit {c : Char} (digit : c.isDigit) :
    digitIn? 10 c = some (c.toNat - '0'.toNat) := by
  have bounds := toNat_of_isDigit digit
  rw [digitIn?, digitValue?_of_isDigit digit]
  have below : decide (c.toNat - '0'.toNat < 10) = true := by
    rw [decide_eq_true_eq]
    change c.toNat - 48 < 10
    omega
  simp only [Option.filter_some, below, if_true]

theorem isDigitLike_of_isDigit {c : Char} (digit : c.isDigit) : Text.isDigitLike c := by
  rw [Text.isDigitLike, Text.isDecimalDigit, digitValue?_of_isDigit digit]
  rfl

theorem isPadding_of_isDigit {c : Char} (digit : c.isDigit) : isPadding c = false := by
  have bounds := toNat_of_isDigit digit
  have noBlank : Text.isBlank c = false := by
    simp only [Text.isBlank, Bool.or_eq_false_iff, Bool.and_eq_false_iff, decide_eq_false_iff_not,
      beq_eq_false_iff_ne]
    omega
  rw [isPadding, noBlank]
  rfl

theorem ne_of_isDigit {c other : Char} (digit : c.isDigit) (noDigit : other.isDigit = false) :
    c ≠ other := by
  rintro rfl
  rw [digit] at noDigit
  cases noDigit

/-! ### Reading digits -/

theorem digitIn?_underscore (base : Nat) : digitIn? base '_' = none := rfl

/-- Digits are taken up to a character that is neither a digit nor groups digits. -/
theorem takeDigits?_append {base : Nat} {s rest : List Char} (nonempty : s ≠ [])
    (digits : ∀ c ∈ s, (digitIn? base c).isSome)
    (ends : ∀ c ∈ rest.head?, digitIn? base c = none ∧ c ≠ '_') :
    takeDigits? base (s ++ rest) = some (s.filterMap (digitIn? base), rest) := by
  have run : ((s ++ rest).takeWhile fun c => (digitIn? base c).isSome || c = '_') = s := by
    rw [List.takeWhile_append_of_pos fun c member => by rw [digits c member]; rfl]
    cases rest with
    | nil => simp
    | cons c rest => simp [ends c rfl]
  have noUnderscore {c : Char} (member : c ∈ s) : c ≠ '_' := by
    rintro rfl
    have isDigit := digits _ member
    rw [digitIn?_underscore] at isDigit
    cases isDigit
  have first : (s.head? != some '_') = true := by
    rw [bne_iff_ne]
    exact fun h => noUnderscore (List.mem_of_head? h) rfl
  have last : (s.getLast? != some '_') = true := by
    rw [bne_iff_ne]
    exact fun h => noUnderscore (List.mem_of_getLast? h) rfl
  have pairs : (s.zip (s.drop 1)).contains ('_', '_') = false := by
    rw [List.contains_eq_mem, decide_eq_false_iff_not]
    exact fun member => noUnderscore (List.of_mem_zip member).1 rfl
  simp only [takeDigits?, run, first, last, pairs, List.drop_left]
  simp [nonempty]

/-- Where all characters are digits, all of them are taken. -/
theorem takeDigits?_of_all {base : Nat} {s : List Char} (nonempty : s ≠ [])
    (digits : ∀ c ∈ s, (digitIn? base c).isSome) :
    takeDigits? base s = some (s.filterMap (digitIn? base), []) := by
  have taken : takeDigits? base (s ++ []) = _ := takeDigits?_append nonempty digits nofun
  rwa [List.append_nil] at taken

theorem takeDigits?_of_digits {s : List Char} (nonempty : s ≠ []) (digits : ∀ c ∈ s, c.isDigit) :
    takeDigits? 10 s = some (s.map fun c => c.toNat - '0'.toNat, []) := by
  have values : s.filterMap (digitIn? 10) = s.map fun c => c.toNat - '0'.toNat :=
    List.filterMap_eq_map_iff_forall_eq_some.mpr fun c member =>
      digitIn?_of_isDigit (digits c member)
  rw [takeDigits?_of_all nonempty, values]
  intro c member
  rw [digitIn?_of_isDigit (digits c member)]
  rfl

theorem ofDigits_map (s : List Char) :
    ofDigits 10 (s.map fun c => c.toNat - '0'.toNat) = Nat.ofDigitChars 10 s 0 := by
  rw [ofDigits, List.foldl_map, Nat.ofDigitChars_eq_foldl]
  simp only [Nat.mul_comm]

@[simp] theorem skipBaseMark_ten (s : List Char) : skipBaseMark 10 s = s := by
  unfold skipBaseMark
  split
  · simp
  · rfl

/-- What is read off the digits of a number behind a sign or none. -/
theorem readNumeral_of_digits {text : String} {negative : Bool} {n : Nat}
    (split : splitSign (text.toList.dropWhile isPadding) = (negative, Nat.toDigits 10 n)) :
    readNumeral 10 text =
      if digitLimit < (Nat.toDigits 10 n).length then
        .error (.tooLong (Nat.toDigits 10 n).length)
      else .ok (if negative then -n else n) := by
  have taken := takeDigits?_of_digits (Nat.toDigits_ne_nil (n := n) (b := 10))
    fun c member => Nat.isDigit_of_mem_toDigits (by omega) (by omega) member
  rw [readNumeral]
  simp only [split, skipBaseMark_ten, taken, ofDigits_map, Nat.ofDigitChars_ten_toDigits,
    List.length_map, List.all_nil]
  simp

/-! ### Digits of every script -/

/-- In base ten the digits are those with a value, for the letters stand for more. -/
theorem digitIn?_ten (c : Char) : digitIn? 10 c = Text.digitValue? c := by
  rw [digitIn?]
  cases found : Text.digitValue? c with
  | some value =>
    obtain ⟨first, isFirst, rfl⟩ := Option.map_eq_some_iff.mp found
    have inBlock := List.find?_some isFirst
    rw [Bool.and_eq_true, decide_eq_true_eq, decide_eq_true_eq] at inBlock
    exact Option.filter_some_pos (decide_eq_true (by omega))
  | none =>
    simp only
    split
    · exact Option.filter_some_neg (by simp)
    · split
      · exact Option.filter_some_neg (by simp)
      · rfl

def digitRuns : List (Nat × Nat) :=
  Text.digitZeros.map (fun first => (first, first + 9)) ++ Text.digitLikeRanges

def blankRuns : List (Nat × Nat) :=
  [(0x9, 0xD), (0x1C, 0x20), (0x85, 0x85), (0xA0, 0xA0), (0x1680, 0x1680), (0x2000, 0x200A),
    (0x2028, 0x2029), (0x202F, 0x202F), (0x205F, 0x205F), (0x3000, 0x3000)]

theorem isAmong_digitRuns {c : Char} (digitLike : Text.isDigitLike c) :
    Text.isAmong digitRuns c := by
  rw [Text.isAmong, digitRuns, List.any_append, Bool.or_eq_true]
  rcases Bool.or_eq_true_iff.mp digitLike with decimal | other
  · left
    obtain ⟨value, found⟩ := Option.isSome_iff_exists.mp decimal
    obtain ⟨first, isFirst, -⟩ := Option.map_eq_some_iff.mp found
    have inBlock := List.find?_some isFirst
    rw [Bool.and_eq_true, decide_eq_true_eq, decide_eq_true_eq] at inBlock
    refine List.any_eq_true.mpr ⟨_, List.mem_map_of_mem (List.mem_of_find?_eq_some isFirst), ?_⟩
    rw [Bool.and_eq_true, decide_eq_true_eq, decide_eq_true_eq]
    omega
  · exact .inr other

theorem isAmong_blankRuns {c : Char} (blank : Text.isBlank c) : Text.isAmong blankRuns c := by
  simp only [Text.isBlank, Bool.or_eq_true, Bool.and_eq_true, decide_eq_true_eq,
    beq_iff_eq] at blank
  simp only [Text.isAmong, blankRuns, List.any_cons, List.any_nil, Bool.or_eq_true,
    Bool.and_eq_true, decide_eq_true_eq]
  omega

/-- No run of digits meets a run of blanks. -/
theorem isPadding_of_isDigitLike {c : Char} (digitLike : Text.isDigitLike c) :
    isPadding c = false := by
  have apart : ∀ digits ∈ digitRuns, ∀ blanks ∈ blankRuns,
      digits.2 < blanks.1 ∨ blanks.2 < digits.1 := by decide
  have noBlank : Text.isBlank c = false := by
    rw [Bool.eq_false_iff]
    intro blank
    obtain ⟨digits, isDigits, inDigits⟩ := List.any_eq_true.mp (isAmong_digitRuns digitLike)
    obtain ⟨blanks, isBlanks, inBlanks⟩ := List.any_eq_true.mp (isAmong_blankRuns blank)
    rw [Bool.and_eq_true, decide_eq_true_eq, decide_eq_true_eq] at inDigits inBlanks
    have := apart digits isDigits blanks isBlanks
    omega
  rw [isPadding, noBlank]
  rfl

theorem splitSign_of_isDigitLike {s : List Char} (digitLike : ∀ c ∈ s, Text.isDigitLike c) :
    splitSign s = (false, s) := by
  unfold splitSign
  split
  · exact absurd (digitLike '-' List.mem_cons_self) (by decide)
  · exact absurd (digitLike '+' List.mem_cons_self) (by decide)
  · rfl

/-- What is taken is the front of a text and holds nothing but digits and underscores. -/
theorem takeDigits?_eq_some {base : Nat} {s rest : List Char} {digits : List Nat}
    (taken : takeDigits? base s = some (digits, rest)) :
    ∃ run, s = run ++ rest ∧ digits = run.filterMap (digitIn? base) ∧
      ∀ c ∈ run, (digitIn? base c).isSome ∨ c = '_' := by
  unfold takeDigits? at taken
  simp only at taken
  split at taken
  · cases taken
  · cases taken
    refine ⟨_, ?_, rfl, fun c member => ?_⟩
    · exact List.prefix_append_drop (List.takeWhile_prefix _)
    · have inRun := List.all_eq_true.mp List.all_takeWhile c member
      rwa [Bool.or_eq_true, decide_eq_true_eq] at inRun

/-- The number that decimal digits of any script stand for. -/
def valueOf (digits : List Char) : Nat := ofDigits 10 (digits.filterMap Text.digitValue?)

theorem filterMap_digitIn (digits : List Char) :
    digits.filterMap (digitIn? 10) = digits.filterMap Text.digitValue? :=
  congrArg (List.filterMap · digits) (funext digitIn?_ten)

/-- Digit-like characters behind a sign or none are a numeral if all of them are decimal digits and
there are not too many. -/
theorem readNumeral_eq_ok_iff {text : String} {negative : Bool} {s : List Char} {n : Int}
    (split : splitSign (text.toList.dropWhile isPadding) = (negative, s)) (nonempty : s ≠ [])
    (digitLike : ∀ c ∈ s, Text.isDigitLike c) :
    readNumeral 10 text = .ok n ↔
      (∀ c ∈ s, Text.isDecimalDigit c) ∧ s.length ≤ digitLimit ∧
        n = if negative then -(valueOf s : Int) else valueOf s := by
  rw [readNumeral]
  simp only [split, skipBaseMark_ten]
  constructor
  · intro isRead
    split at isRead
    · cases isRead
    · rename_i digits rest taken
      obtain ⟨run, whole, rfl, inRun⟩ := takeDigits?_eq_some taken
      split at isRead
      · cases isRead
      · rename_i fits
        split at isRead
        · rename_i padded
          -- a digit-like character is no padding, so there is nothing behind the digits
          have nothing : rest = [] := by
            refine List.eq_nil_iff_forall_not_mem.mpr fun c member => ?_
            have isPadded := List.all_eq_true.mp padded c member
            rw [isPadding_of_isDigitLike (digitLike c (whole ▸ List.mem_append_right _ member))]
              at isPadded
            cases isPadded
          rw [nothing, List.append_nil] at whole
          have decimal : ∀ c ∈ run, (digitIn? 10 c).isSome := by
            intro c member
            rcases inRun c member with isDigit | rfl
            · exact isDigit
            · exact absurd (digitLike '_' (whole ▸ member)) (by decide)
          rw [List.filterMap_length_eq_length.mpr decimal] at fits
          rw [whole]
          refine ⟨fun c member => ?_, by simpa using fits, ?_⟩
          · rw [Text.isDecimalDigit, ← digitIn?_ten]
            exact decimal c member
          · rw [valueOf, ← filterMap_digitIn]
            exact (Except.ok.inj isRead).symm
        · cases isRead
  · rintro ⟨decimal, fits, rfl⟩
    have isDigit : ∀ c ∈ s, (digitIn? 10 c).isSome := by
      intro c member
      rw [digitIn?_ten]
      exact decimal c member
    have short : ¬ digitLimit < (s.filterMap (digitIn? 10)).length := by
      rw [List.filterMap_length_eq_length.mpr isDigit]
      omega
    simp only [takeDigits?_of_all nonempty isDigit, short, decide_false, Bool.and_false]
    rw [filterMap_digitIn, ← valueOf]
    rfl

theorem dropWhile_isPadding_of_isDigitLike {s : List Char}
    (digitLike : ∀ c ∈ s, Text.isDigitLike c) : s.dropWhile isPadding = s := by
  refine List.dropWhile_eq_self_iff.mpr fun h padded => ?_
  rw [isPadding_of_isDigitLike (digitLike _ (List.getElem_mem _))] at padded
  cases padded

/-- A text of digit-like characters is a numeral if all of them are decimal digits and there
are not too many. -/
theorem readNumeral_returns_iff {text : String} (nonempty : text.toList ≠ [])
    (digitLike : ∀ c ∈ text.toList, Text.isDigitLike c) :
    (∃ n, readNumeral 10 text = .ok n) ↔
      (∀ c ∈ text.toList, Text.isDecimalDigit c) ∧ text.toList.length ≤ digitLimit := by
  have split : splitSign (text.toList.dropWhile isPadding) = (false, text.toList) := by
    rw [dropWhile_isPadding_of_isDigitLike digitLike, splitSign_of_isDigitLike digitLike]
  simp only [readNumeral_eq_ok_iff split nonempty digitLike]
  exact ⟨fun ⟨_, decimal, fits, _⟩ => ⟨decimal, fits⟩,
    fun ⟨decimal, fits⟩ => ⟨_, decimal, fits, rfl⟩⟩

/-! ### Reading what was written -/

theorem dropWhile_isPadding {c : Char} (s : List Char) (noPadding : isPadding c = false) :
    (c :: s).dropWhile isPadding = c :: s := by
  rw [List.dropWhile_cons_of_neg]
  simp [noPadding]

theorem toList_toString (n : Int) :
    (toString n).toList = (if n < 0 then ['-'] else []) ++ Nat.toDigits 10 n.natAbs := by
  cases n with
  | ofNat n =>
    change n.repr.toList = _
    have noSign : ¬ Int.ofNat n < 0 := Int.not_lt.mpr (Int.natCast_nonneg n)
    rw [Nat.toList_repr, if_neg noSign]
    rfl
  | negSucc n =>
    change ("-" ++ (n + 1).repr).toList = _
    rw [String.toList_append, Nat.toList_repr, if_pos (by omega)]
    rfl

/-- Behind its sign a numeral consists of the digits of the number. -/
theorem splitSign_toString (n : Int) :
    splitSign ((toString n).toList.dropWhile isPadding) =
      (decide (n < 0), Nat.toDigits 10 n.natAbs) := by
  rw [toList_toString]
  by_cases negative : n < 0
  · rw [if_pos negative, List.singleton_append, dropWhile_isPadding _ rfl, decide_eq_true negative]
    rfl
  · rw [if_neg negative, List.nil_append, decide_eq_false negative]
    have digits (c : Char) (member : c ∈ Nat.toDigits 10 n.natAbs) : c.isDigit :=
      Nat.isDigit_of_mem_toDigits (by omega) (by omega) member
    cases h : Nat.toDigits 10 n.natAbs with
    | nil => exact absurd h Nat.toDigits_ne_nil
    | cons c rest =>
      have digit := digits c (h ▸ List.mem_cons_self)
      rw [dropWhile_isPadding _ (isPadding_of_isDigit digit)]
      unfold splitSign
      split
      · exact absurd (List.cons.inj ‹_›).1 (ne_of_isDigit digit rfl)
      · exact absurd (List.cons.inj ‹_›).1 (ne_of_isDigit digit rfl)
      · rfl

/-- The numeral of a number is that of no other number. -/
theorem toString_injective {m n : Int} (same : toString m = toString n) : m = n := by
  have parts := splitSign_toString m
  rw [same, splitSign_toString n, Prod.mk.injEq] at parts
  have digits := congrArg (fun digits => Nat.ofDigitChars 10 digits 0) parts.2
  simp only [Nat.ofDigitChars_ten_toDigits] at digits
  have sign := decide_eq_decide.mp parts.1
  omega

theorem tenTo_succ (n : Nat) : tenTo (n + 1) = tenTo n * 10 := rfl

theorem tenTo_mono {m n : Nat} (le : m ≤ n) : tenTo m ≤ tenTo n :=
  Nat.pow_le_pow_right (by decide) le

theorem length_toDigits_le_iff (n k : Nat) : 0 < k →
    ((Nat.toDigits 10 n).length ≤ k ↔ n < tenTo k) :=
  Nat.length_toDigits_le_iff (by decide)

theorem isOverLimit_iff (n : Int) :
    isOverLimit n ↔ digitLimit < (Nat.toDigits 10 n.natAbs).length := by
  have fits := length_toDigits_le_iff n.natAbs digitLimit (by decide)
  rw [isOverLimit, decide_eq_true_eq, ← Nat.not_lt, ← fits, Nat.not_le]

/-- The numeral of a number is read as the number, unless it has too many digits to be read. -/
theorem readNumeral_toString (n : Int) :
    readNumeral 10 (toString n) =
      if isOverLimit n then .error (.tooLong (Nat.toDigits 10 n.natAbs).length) else .ok n := by
  rw [readNumeral_of_digits (splitSign_toString n)]
  by_cases tooLong : isOverLimit n
  · rw [if_pos tooLong, if_pos ((isOverLimit_iff n).mp tooLong)]
  · rw [if_neg tooLong, if_neg (fun h => tooLong ((isOverLimit_iff n).mpr h))]
    congr 1
    by_cases negative : n < 0
    · rw [decide_eq_true negative, if_pos rfl]
      omega
    · rw [decide_eq_false negative, if_neg (by simp)]
      omega

/-- What is written is the decimal numeral, and it is read as what was written. -/
theorem writeNumeral_eq_ok {n : Int} {text : String} (written : writeNumeral n = .ok text) :
    text = toString n ∧ readNumeral 10 text = .ok n := by
  unfold writeNumeral at written
  split at written
  · cases written
  · rename_i fits
    cases written
    rw [readNumeral_toString, if_neg fits]
    exact ⟨rfl, rfl⟩

end TemplateFill.Number

namespace TemplateFill.Numbering.Allocator

/-- Every numeral that was written looks like an id. -/
theorem looksLikeId_toString (n : Int) : looksLikeId (toString n) := by
  have digits (c : Char) (member : c ∈ Nat.toDigits 10 n.natAbs) : c.isDigit :=
    Nat.isDigit_of_mem_toDigits (by omega) (by omega) member
  have noSign : (Nat.toDigits 10 n.natAbs).dropWhile (· = '-') = Nat.toDigits 10 n.natAbs := by
    cases h : Nat.toDigits 10 n.natAbs with
    | nil => rfl
    | cons c rest =>
      have digit := digits c (h ▸ List.mem_cons_self)
      have noMinus : c ≠ '-' := Number.ne_of_isDigit digit rfl
      rw [List.dropWhile_cons_of_neg (by simpa using noMinus)]
  have dropped : (toString n).toList.dropWhile (· = '-') = Nat.toDigits 10 n.natAbs := by
    rw [Number.toList_toString]
    split
    · rw [List.singleton_append, List.dropWhile_cons_of_pos (by simp), noSign]
    · rw [List.nil_append, noSign]
  rw [looksLikeId, dropped, Bool.and_eq_true]
  refine ⟨by simp, ?_⟩
  rw [List.all_eq_true]
  exact fun c member => Number.isDigitLike_of_isDigit (digits c member)

end TemplateFill.Numbering.Allocator
