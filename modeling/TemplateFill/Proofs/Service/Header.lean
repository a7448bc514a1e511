import TemplateFill.Data.Reader
import TemplateFill.Proofs.Data.Utf8
import TemplateFill.Text.Percent

/-!
# Headers with parameters

The value of a header is a word and parameters behind it, each after a semicolon. The value of a
parameter is a word, or it is quoted, with a backslash in front of what would otherwise end the
quotation, or, where an asterisk ends the name of the parameter, it is percent encoded UTF-8.

Readers differ in the characters that they let stand for themselves in quotes and in an encoded
value. Both are parameters here, so that what is shown of all readers holds of the most lenient one
as well as of the strictest.
-/

namespace TemplateFill.Header

/-- What stands for itself to a reader: in quotes, besides a quotation mark and a backslash, which
never do, and in an encoded value, besides what ends it and the percent sign. -/
structure Reader where
  isQuotable : Char → Bool
  isEncodable : Char → Bool

def isWordChar (c : Char) : Bool :=
  c.isAlphanum || c ∈ ['!', '#', '$', '%', '&', '\'', '*', '+', '-', '.', '^', '_', '\x60', '|', '~']

/-- What may stand on both sides of a semicolon. -/
def isGap (c : Char) : Bool := c = ' ' || c = '\t'

def lenient : Reader := ⟨fun _ => true, fun _ => true⟩

/-- The reader that keeps to the letter of the rules: no controls in quotes, and in an encoded value
only those characters of a word that have no other meaning there. -/
def strict : Reader where
  isQuotable c := c = '\t' || 0x20 ≤ c.toNat && c.toNat ≠ 0x7F
  isEncodable c := isWordChar c && !(c ∈ ['%', '\'', '*'])

structure Parameter where
  name : String
  value : String
  deriving Repr, DecidableEq

structure Value where
  word : String
  parameters : List Parameter
  deriving Repr, DecidableEq

namespace Reader

variable (reader : Reader)

/-- Take a quoted value behind its first quotation mark. -/
def takeQuoted? : List Char → Option (List Char × List Char)
  | [] => none
  | '"' :: rest => some ([], rest)
  | '\\' :: c :: rest =>
    if c = '"' || c = '\\' || reader.isQuotable c then
      (takeQuoted? rest).map fun (value, rest) => (c :: value, rest)
    else none
  | c :: rest =>
    if c ≠ '\\' && reader.isQuotable c then
      (takeQuoted? rest).map fun (value, rest) => (c :: value, rest)
    else none

def takeOctets? : List Char → Option (List UInt8 × List Char)
  | [] => some ([], [])
  | '%' :: high :: low :: rest => do
    let octet := (← Data.hexValue? high) * 16 + (← Data.hexValue? low)
    let (octets, rest) ← takeOctets? rest
    return (.ofNat octet :: octets, rest)
  | c :: rest =>
    if c = ';' || isGap c then some ([], c :: rest)
    else if c ≠ '%' && reader.isEncodable c then
      (takeOctets? rest).map fun (octets, rest) => (String.utf8EncodeChar c ++ octets, rest)
    else none

/-- Take an encoded value. The name of the encoding and that of a language stand in front of it, each
with an apostrophe behind it. -/
def takeEncoded? (s : List Char) : Option (List Char × List Char) :=
  let encoding := s.takeWhile (· ≠ '\'')
  let language := (s.drop (encoding.length + 1)).takeWhile (· ≠ '\'')
  let encoded := (s.drop (encoding.length + 1)).drop (language.length + 1)
  if encoding.map Char.toUpper = ['U', 'T', 'F', '-', '8'] then
    (reader.takeOctets? encoded).bind fun (octets, rest) =>
      (Data.decodeUtf8 false octets).toOption.map (·, rest)
  else none

def takeValue? (isEncoded : Bool) (s : List Char) : Option (List Char × List Char) :=
  if isEncoded then reader.takeEncoded? s
  else
    match s with
    | '"' :: rest => reader.takeQuoted? rest
    | _ =>
      let word := s.takeWhile isWordChar
      if word.isEmpty then none else some (word, s.drop word.length)

def takeParameter? (s : List Char) : Option (Parameter × List Char) :=
  let name := s.takeWhile isWordChar
  match s.drop name.length with
  | '=' :: rest =>
    let isEncoded := name.getLast? = some '*'
    let name := if isEncoded then name.dropLast else name
    (reader.takeValue? isEncoded rest).map fun (value, rest) =>
      (⟨String.ofList name, String.ofList value⟩, rest)
  | _ => none

variable {reader} {s rest value : List Char} {octets : List UInt8}

/-! ### Quoted values -/

/-- A character that stands for itself in quotes. -/
structure IsPlain (reader : Reader) (c : Char) : Prop where
  noQuote : c ≠ '"'
  noEscape : c ≠ '\\'
  quotable : reader.isQuotable c

theorem takeQuoted?_plain {c : Char} (plain : reader.IsPlain c) :
    reader.takeQuoted? (c :: rest) =
      (reader.takeQuoted? rest).map fun (value, rest) => (c :: value, rest) := by
  rw [takeQuoted?.eq_def]
  split
  · next same => cases same
  · next same => exact absurd (List.cons.inj same).1 plain.noQuote
  · next same => exact absurd (List.cons.inj same).1 plain.noEscape
  · next same =>
    cases same
    simp [plain.noEscape, plain.quotable]

/-- Plain characters are taken as they are. -/
theorem takeQuoted?_append (plain : ∀ c ∈ value, reader.IsPlain c) :
    reader.takeQuoted? (value ++ '"' :: rest) = some (value, rest) := by
  induction value with
  | nil => rfl
  | cons c value ih =>
    obtain ⟨first, others⟩ := List.forall_mem_cons.mp plain
    rw [List.cons_append, takeQuoted?_plain first, ih others]
    rfl

/-- What is taken stood there as it is, all of it plain, or it is shorter than what stood there. -/
theorem takeQuoted?_eq_some (taken : reader.takeQuoted? s = some (value, rest)) :
    (s = value ++ '"' :: rest ∧ ∀ c ∈ value, reader.IsPlain c) ∨
      value.length + 1 + rest.length < s.length := by
  fun_induction takeQuoted? reader s generalizing value with
  | case1 => cases taken
  | case2 after =>
    cases taken
    exact .inl ⟨rfl, List.forall_mem_nil _⟩
  | case3 c after quotable ih =>
    obtain ⟨⟨inner, left⟩, onward, same⟩ := Option.map_eq_some_iff.mp taken
    cases same
    right
    -- the backslash is not part of the value
    rcases ih onward with ⟨rfl, -⟩ | shorter
    · simp
      omega
    · simp only [List.length_cons] at shorter ⊢
      omega
  | case4 => cases taken
  | case5 c after noQuote noEscape quotable ih =>
    obtain ⟨⟨inner, left⟩, onward, same⟩ := Option.map_eq_some_iff.mp taken
    cases same
    rw [Bool.and_eq_true, decide_eq_true_eq] at quotable
    rcases ih onward with ⟨rfl, plain⟩ | shorter
    · left
      refine ⟨rfl, List.forall_mem_cons.mpr ⟨⟨?_, quotable.1, quotable.2⟩, plain⟩⟩
      rintro rfl
      exact noQuote rfl
    · right
      simp only [List.length_cons] at shorter ⊢
      omega
  | case6 => cases taken

/-! ### Encoded values -/

theorem length_takeOctets? (taken : reader.takeOctets? s = some (octets, rest)) :
    rest.length ≤ s.length := by
  fun_induction takeOctets? reader s generalizing octets with
  | case1 =>
    cases taken
    exact Nat.le_refl _
  | case2 high low after ih =>
    obtain ⟨_, -, taken⟩ := Option.bind_eq_some_iff.mp taken
    obtain ⟨_, -, taken⟩ := Option.bind_eq_some_iff.mp taken
    obtain ⟨⟨inner, left⟩, onward, same⟩ := Option.bind_eq_some_iff.mp taken
    cases same
    have shorter := ih onward
    simp only [List.length_cons]
    omega
  | case3 c after =>
    cases taken
    exact Nat.le_refl _
  | case4 c after _ _ _ ih =>
    obtain ⟨⟨inner, left⟩, onward, same⟩ := Option.map_eq_some_iff.mp taken
    cases same
    exact Nat.le_succ_of_le (ih onward)
  | case5 => cases taken

theorem hexValue?_hexCapital {n : Nat} (digit : n < 16) :
    Data.hexValue? (Text.hexCapital n) = some n := by
  have each : ∀ n < 16, Data.hexValue? (Text.hexCapital n) = some n := by decide
  exact each n digit

/-- An octet behind a percent sign is taken as this octet. -/
theorem takeOctets?_percentOctet (octet : UInt8) (rest : List Char) :
    reader.takeOctets? (Text.percentOctet octet ++ rest) =
      (reader.takeOctets? rest).map fun (octets, rest) => (octet :: octets, rest) := by
  have small := octet.toNat_lt
  have parts : octet.toNat / 16 * 16 + octet.toNat % 16 = octet.toNat := by omega
  change reader.takeOctets? ('%' :: _ :: _ :: rest) = _
  rw [takeOctets?, hexValue?_hexCapital (by omega), hexValue?_hexCapital (by omega)]
  simp only [Option.bind_eq_bind, Option.bind_some, parts, UInt8.ofNat_toNat]
  cases reader.takeOctets? rest <;> rfl

theorem takeOctets?_percentOctets (own : List UInt8) (rest : List Char) :
    reader.takeOctets? (own.flatMap Text.percentOctet ++ rest) =
      (reader.takeOctets? rest).map fun (octets, rest) => (own ++ octets, rest) := by
  induction own with
  | nil => simp
  | cons octet own ih =>
    rw [List.flatMap_cons, List.append_assoc, takeOctets?_percentOctet, ih, Option.map_map]
    rfl

/-- Which characters have a meaning of their own in an encoded value. -/
theorem ne_of_isUnreserved {c : Char} (unreserved : Text.isUnreserved c) :
    c ≠ ';' ∧ isGap c = false ∧ c ≠ '%' := by
  refine ⟨?_, Bool.eq_false_iff.mpr fun gap => ?_, ?_⟩
  · rintro rfl
    exact absurd unreserved (by decide)
  · rcases Bool.or_eq_true_iff.mp gap with isSpace | isTab
    · rw [of_decide_eq_true isSpace] at unreserved
      exact absurd unreserved (by decide)
    · rw [of_decide_eq_true isTab] at unreserved
      exact absurd unreserved (by decide)
  · rintro rfl
    exact absurd unreserved (by decide)

theorem takeOctets?_unreserved {c : Char} (unreserved : Text.isUnreserved c) (rest : List Char) :
    reader.takeOctets? (c :: rest) =
      if reader.isEncodable c then
        (reader.takeOctets? rest).map fun (octets, rest) => (String.utf8EncodeChar c ++ octets, rest)
      else none := by
  obtain ⟨noEnd, noGap, noPercent⟩ := ne_of_isUnreserved unreserved
  rw [takeOctets?]
  · simp [noEnd, noGap, noPercent]
  · intro high low after isPercent _
    exact noPercent isPercent

/-- A reader that lets the characters of a text stand for themselves that stand as they are in its
percent encoding takes the octets of the text. Another one takes nothing. -/
theorem takeOctets?_encoded (s : List Char) :
    reader.takeOctets? (s.flatMap Text.percentChar) =
      if s.all fun c => !Text.isUnreserved c || reader.isEncodable c then some (Data.octetsOf s, [])
      else none := by
  induction s with
  | nil => rfl
  | cons c s ih =>
    rw [List.flatMap_cons, Data.octetsOf_cons, Text.percentChar, List.all_cons]
    split
    · next unreserved =>
      rw [List.singleton_append, takeOctets?_unreserved unreserved, ih, unreserved, Bool.not_true,
        Bool.false_or]
      cases reader.isEncodable c with
      | false => rfl
      | true =>
        rw [if_pos rfl, Bool.true_and]
        split <;> rfl
    · next reserved =>
      rw [takeOctets?_percentOctets, ih, Bool.eq_false_iff.mpr reserved, Bool.not_false, Bool.true_or,
        Bool.true_and]
      split <;> rfl

/-! ### Parameters -/

theorem length_takeEncoded? (taken : reader.takeEncoded? s = some (value, rest)) :
    rest.length ≤ s.length := by
  unfold takeEncoded? at taken
  simp only at taken
  split at taken
  · obtain ⟨⟨octets, left⟩, isTaken, taken⟩ := Option.bind_eq_some_iff.mp taken
    obtain ⟨_, -, same⟩ := Option.map_eq_some_iff.mp taken
    cases same
    have shorter : left.length ≤ _ := length_takeOctets? isTaken
    rw [List.length_drop, List.length_drop] at shorter
    change left.length ≤ s.length
    omega
  · cases taken

theorem length_takeValue? {isEncoded : Bool}
    (taken : reader.takeValue? isEncoded s = some (value, rest)) : rest.length ≤ s.length := by
  unfold takeValue? at taken
  split at taken
  · exact length_takeEncoded? taken
  · split at taken
    · rcases takeQuoted?_eq_some taken with ⟨rfl, -⟩ | shorter
      · simp
        omega
      · simp only [List.length_cons]
        omega
    · simp only at taken
      split at taken
      · cases taken
      · cases taken
        simp

theorem length_takeParameter? {parameter : Parameter}
    (taken : reader.takeParameter? s = some (parameter, rest)) : rest.length < s.length := by
  unfold takeParameter? at taken
  simp only at taken
  split at taken
  · next after isAfter =>
    obtain ⟨⟨value, left⟩, isTaken, same⟩ := Option.map_eq_some_iff.mp taken
    cases same
    have shorter : left.length ≤ _ := length_takeValue? isTaken
    have lengths := congrArg List.length isAfter
    rw [List.length_drop, List.length_cons] at lengths
    change left.length < s.length
    omega
  · cases taken

variable (reader)

/-- Read parameters to the end, each behind a semicolon. -/
def readParameters? (s : List Char) : Option (List Parameter) :=
  match _ : s.dropWhile isGap with
  | [] => some []
  | ';' :: rest =>
    match _ : reader.takeParameter? (rest.dropWhile isGap) with
    | none => none
    | some (parameter, left) => (readParameters? left).map (parameter :: ·)
  | _ => none
termination_by s.length
decreasing_by
  have first := (List.dropWhile_suffix isGap (l := s)).length_le
  have second := (List.dropWhile_suffix isGap (l := rest)).length_le
  have third := length_takeParameter? ‹_ = some (parameter, left)›
  rw [‹s.dropWhile isGap = _›, List.length_cons] at first
  omega

def read? (text : String) : Option Value :=
  let word := text.toList.takeWhile isWordChar
  if word.isEmpty then none
  else (reader.readParameters? (text.toList.drop word.length)).map (⟨String.ofList word, ·⟩)

theorem readParameters?_nil : reader.readParameters? [] = some [] := by
  rw [readParameters?]
  rfl

theorem readParameters?_cons (rest : List Char) :
    reader.readParameters? (';' :: rest) =
      (reader.takeParameter? (rest.dropWhile isGap)).bind fun (parameter, left) =>
        (reader.readParameters? left).map (parameter :: ·) := by
  rw [readParameters?]
  split
  · next h => cases h
  · next h =>
    cases h
    split
    · next taken => rw [taken]; rfl
    · next taken => rw [taken]; rfl
  · next other => exact absurd rfl (other rest)

end Reader

end TemplateFill.Header
