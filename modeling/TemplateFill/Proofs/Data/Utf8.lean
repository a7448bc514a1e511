import TemplateFill.Data.Encoding
import TemplateFill.Proofs.Traversal

/-!
# Decoding UTF-8

Octets are decoded exactly if they are those of some characters, which are then what is found. A
lenient decoder finds nothing else in them.
-/

namespace TemplateFill.Data

def octetsOf (s : List Char) : List UInt8 := s.flatMap String.utf8EncodeChar

theorem octetsOf_cons (c : Char) (s : List Char) :
    octetsOf (c :: s) = String.utf8EncodeChar c ++ octetsOf s := rfl

/-! ### First octets -/

section Leads

variable {b : Nat}

theorem leadOf?_zero (range : b < 0x80) : leadOf? b = some ⟨0, b, 0x80, 0xBF⟩ := by
  rw [leadOf?, if_pos range]

theorem leadOf?_one (range : 0xC2 ≤ b ∧ b < 0xE0) :
    leadOf? b = some ⟨1, b % 0x20, 0x80, 0xBF⟩ := by
  rw [leadOf?, if_neg (by omega), if_neg (by omega), if_pos (by omega)]

theorem leadOf?_two (range : 0xE0 ≤ b ∧ b < 0xF0) :
    leadOf? b = some ⟨2, b % 0x10, if b = 0xE0 then 0xA0 else 0x80,
      if b = 0xED then 0x9F else 0xBF⟩ := by
  rw [leadOf?, if_neg (by omega), if_neg (by omega), if_neg (by omega)]
  split
  · next isFirst => simp [isFirst]
  · split
    · next isHalf => simp [isHalf]
    · rw [if_pos (by omega)]

theorem leadOf?_three (range : 0xF0 ≤ b ∧ b < 0xF5) :
    leadOf? b = some ⟨3, b % 8, if b = 0xF0 then 0x90 else 0x80,
      if b = 0xF4 then 0x8F else 0xBF⟩ := by
  rw [leadOf?, if_neg (by omega), if_neg (by omega), if_neg (by omega), if_neg (by omega),
    if_neg (by omega), if_neg (by omega)]
  split
  · next isFirst => simp [isFirst]
  · split
    · rw [if_neg (by omega)]
    · rw [if_pos (by omega), if_pos (by omega)]
      simp [show b = 0xF4 by omega]

theorem leadOf?_none (range : 0x80 ≤ b ∧ b < 0xC2 ∨ 0xF5 ≤ b) : leadOf? b = none := by
  rw [leadOf?, if_neg (by omega)]
  rcases range with owed | beyond
  · rw [if_pos owed.2]
  · rw [if_neg (by omega), if_neg (by omega), if_neg (by omega), if_neg (by omega),
      if_neg (by omega), if_neg (by omega), if_neg (by omega), if_neg (by omega)]

end Leads

/-! ### Further octets -/

section Tails

variable {low high n point : Nat} {s : List UInt8} {read : Nat × List UInt8}

theorem takeTails_zero_iff : takeTails low high 0 point s = .ok read ↔ read = (point, s) := by
  rw [takeTails, Except.ok.injEq, eq_comm]

theorem takeTails_succ_iff :
    takeTails low high (n + 1) point s = .ok read ↔
      ∃ b rest, s = b :: rest ∧ (low ≤ b.toNat ∧ b.toNat ≤ high) ∧
        takeTails 0x80 0xBF n (point * 0x40 + b.toNat % 0x40) rest = .ok read := by
  cases s with
  | nil => simp [takeTails]
  | cons b rest =>
    rw [takeTails]
    simp only [Bool.and_eq_true, decide_eq_true_eq]
    constructor
    · intro taken
      split at taken
      · next inside => exact ⟨b, rest, rfl, inside, mapError_eq_ok taken⟩
      · cases taken
    · rintro ⟨_, _, ⟨⟩, inside, taken⟩
      rw [if_pos inside, taken]
      rfl

end Tails

/-! ### The octets of a character -/

section Octets

variable {c : Char}

theorem utf8EncodeChar_eq (c : Char) :
    String.utf8EncodeChar c =
      if c.toNat ≤ 0x7F then [.ofNat c.toNat]
      else if c.toNat ≤ 0x7FF then
        [.ofNat (c.toNat / 0x40 % 0x20 + 0xC0), .ofNat (c.toNat % 0x40 + 0x80)]
      else if c.toNat ≤ 0xFFFF then
        [.ofNat (c.toNat / 0x1000 % 0x10 + 0xE0), .ofNat (c.toNat / 0x40 % 0x40 + 0x80),
          .ofNat (c.toNat % 0x40 + 0x80)]
      else
        [.ofNat (c.toNat / 0x40000 % 8 + 0xF0), .ofNat (c.toNat / 0x1000 % 0x40 + 0x80),
          .ofNat (c.toNat / 0x40 % 0x40 + 0x80), .ofNat (c.toNat % 0x40 + 0x80)] := rfl

theorem utf8EncodeChar_one (range : c.toNat < 0x80) :
    String.utf8EncodeChar c = [.ofNat c.toNat] := by
  rw [utf8EncodeChar_eq, if_pos (by omega)]

theorem utf8EncodeChar_two (range : 0x80 ≤ c.toNat ∧ c.toNat < 0x800) :
    String.utf8EncodeChar c =
      [.ofNat (c.toNat / 0x40 % 0x20 + 0xC0), .ofNat (c.toNat % 0x40 + 0x80)] := by
  rw [utf8EncodeChar_eq, if_neg (by omega), if_pos (by omega)]

theorem utf8EncodeChar_three (range : 0x800 ≤ c.toNat ∧ c.toNat < 0x10000) :
    String.utf8EncodeChar c =
      [.ofNat (c.toNat / 0x1000 % 0x10 + 0xE0), .ofNat (c.toNat / 0x40 % 0x40 + 0x80),
        .ofNat (c.toNat % 0x40 + 0x80)] := by
  rw [utf8EncodeChar_eq, if_neg (by omega), if_neg (by omega), if_pos (by omega)]

theorem utf8EncodeChar_four (range : 0x10000 ≤ c.toNat) :
    String.utf8EncodeChar c =
      [.ofNat (c.toNat / 0x40000 % 8 + 0xF0), .ofNat (c.toNat / 0x1000 % 0x40 + 0x80),
        .ofNat (c.toNat / 0x40 % 0x40 + 0x80), .ofNat (c.toNat % 0x40 + 0x80)] := by
  rw [utf8EncodeChar_eq, if_neg (by omega), if_neg (by omega), if_neg (by omega)]

/-- The numbers of characters. -/
theorem toNat_range (c : Char) : c.toNat < 0xD800 ∨ 0xDFFF < c.toNat ∧ c.toNat < 0x110000 :=
  c.valid

theorem exists_char {n : Nat} (range : n < 0xD800 ∨ 0xDFFF < n ∧ n < 0x110000) :
    ∃ c : Char, c.toNat = n := by
  refine ⟨Char.ofNat n, ?_⟩
  rw [Char.ofNat, dif_pos range]
  rfl

end Octets

/-- The octets of a character are taken as a whole, whatever follows them. -/
theorem takeTails_encoded (c : Char) (rest : List UInt8) :
    ∃ b behind lead, String.utf8EncodeChar c ++ rest = b :: behind ∧
      leadOf? b.toNat = some lead ∧
      takeTails lead.low lead.high lead.tails lead.bits behind = .ok (c.toNat, rest) := by
  have valid := toNat_range c
  by_cases one : c.toNat < 0x80
  · rw [utf8EncodeChar_one one]
    refine ⟨_, _, _, rfl, leadOf?_zero ?_, ?_⟩
    · simp
      omega
    · simp [takeTails]
      omega
  by_cases two : c.toNat < 0x800
  · rw [utf8EncodeChar_two (by omega)]
    refine ⟨_, _, _, rfl, leadOf?_one ?_, ?_⟩
    · simp
      omega
    · simp [takeTails_succ_iff, takeTails_zero_iff]
      omega
  by_cases three : c.toNat < 0x10000
  · rw [utf8EncodeChar_three (by omega)]
    refine ⟨_, _, _, rfl, leadOf?_two ?_, ?_⟩
    · simp
      omega
    · simp [takeTails_succ_iff, takeTails_zero_iff]
      split_ifs <;> omega
  · rw [utf8EncodeChar_four (by omega)]
    refine ⟨_, _, _, rfl, leadOf?_three ?_, ?_⟩
    · simp
      omega
    · simp [takeTails_succ_iff, takeTails_zero_iff]
      split_ifs <;> omega

theorem leadOf?_cases (b : Nat) :
    b < 0x80 ∨ (0xC2 ≤ b ∧ b < 0xE0) ∨ (0xE0 ≤ b ∧ b < 0xF0) ∨ (0xF0 ≤ b ∧ b < 0xF5) ∨
      leadOf? b = none := by
  by_cases undefined : 0x80 ≤ b ∧ b < 0xC2 ∨ 0xF5 ≤ b
  · exact .inr (.inr (.inr (.inr (leadOf?_none undefined))))
  · omega

/-- What is taken is the octets of a character. -/
theorem encoded_of_takeTails {b : UInt8} {behind rest : List UInt8} {lead : Lead} {point : Nat}
    (isLead : leadOf? b.toNat = some lead)
    (taken : takeTails lead.low lead.high lead.tails lead.bits behind = .ok (point, rest)) :
    ∃ c : Char, c.toNat = point ∧ b :: behind = String.utf8EncodeChar c ++ rest := by
  rcases leadOf?_cases b.toNat with range | range | range | range | isNone
  · cases (leadOf?_zero range).symm.trans isLead
    rw [takeTails_zero_iff, Prod.mk.injEq] at taken
    obtain ⟨rfl, rfl⟩ := taken
    obtain ⟨c, isPoint⟩ := exists_char (n := b.toNat) (by omega)
    refine ⟨c, isPoint, ?_⟩
    rw [utf8EncodeChar_one (by omega), isPoint, UInt8.ofNat_toNat]
    rfl
  · cases (leadOf?_one range).symm.trans isLead
    obtain ⟨b₁, behind, rfl, tail₁, taken⟩ := takeTails_succ_iff.mp taken
    rw [takeTails_zero_iff, Prod.mk.injEq] at taken
    obtain ⟨isPoint', rfl⟩ := taken
    dsimp only at isPoint' tail₁
    obtain ⟨c, isPoint⟩ := exists_char (n := point) (by omega)
    refine ⟨c, isPoint, ?_⟩
    rw [utf8EncodeChar_two (by omega)]
    simp [← UInt8.toNat_inj]
    omega
  · cases (leadOf?_two range).symm.trans isLead
    obtain ⟨b₁, behind, rfl, tail₁, taken⟩ := takeTails_succ_iff.mp taken
    obtain ⟨b₂, behind, rfl, tail₂, taken⟩ := takeTails_succ_iff.mp taken
    rw [takeTails_zero_iff, Prod.mk.injEq] at taken
    obtain ⟨isPoint', rfl⟩ := taken
    dsimp only at isPoint' tail₁
    have bounds : (b.toNat = 0xE0 → 0xA0 ≤ b₁.toNat) ∧ (b.toNat = 0xED → b₁.toNat ≤ 0x9F) ∧
        0x80 ≤ b₁.toNat ∧ b₁.toNat ≤ 0xBF := by
      split_ifs at tail₁ <;> omega
    obtain ⟨c, isPoint⟩ := exists_char (n := point) (by omega)
    refine ⟨c, isPoint, ?_⟩
    rw [utf8EncodeChar_three (by omega)]
    simp [← UInt8.toNat_inj]
    omega
  · cases (leadOf?_three range).symm.trans isLead
    obtain ⟨b₁, behind, rfl, tail₁, taken⟩ := takeTails_succ_iff.mp taken
    obtain ⟨b₂, behind, rfl, tail₂, taken⟩ := takeTails_succ_iff.mp taken
    obtain ⟨b₃, behind, rfl, tail₃, taken⟩ := takeTails_succ_iff.mp taken
    rw [takeTails_zero_iff, Prod.mk.injEq] at taken
    obtain ⟨isPoint', rfl⟩ := taken
    dsimp only at isPoint' tail₁
    have bounds : (b.toNat = 0xF0 → 0x90 ≤ b₁.toNat) ∧ (b.toNat = 0xF4 → b₁.toNat ≤ 0x8F) ∧
        0x80 ≤ b₁.toNat ∧ b₁.toNat ≤ 0xBF := by
      split_ifs at tail₁ <;> omega
    obtain ⟨c, isPoint⟩ := exists_char (n := point) (by omega)
    refine ⟨c, isPoint, ?_⟩
    rw [utf8EncodeChar_four (by omega)]
    simp [← UInt8.toNat_inj]
    omega
  · rw [isNone] at isLead
    cases isLead

/-! ### Whole texts -/

theorem charOfPoint_toNat (c : Char) : charOfPoint c.toNat = c := by
  have valid := toNat_range c
  rw [charOfPoint, if_neg (by simp; omega), Char.ofNat_toNat]

theorem decodeUtf8From_octetsOf (lenient : Bool) (s : List Char) {bound : Nat}
    (enough : (octetsOf s).length < bound) (offset : Nat) :
    decodeUtf8From lenient bound offset (octetsOf s) = .ok s := by
  induction s generalizing bound offset with
  | nil => cases bound <;> rfl
  | cons c s ih =>
    obtain ⟨b, behind, lead, isFirst, isLead, taken⟩ := takeTails_encoded c (octetsOf s)
    have lengths := congrArg List.length isFirst
    have nonempty := c.utf8Size_pos
    rw [List.length_append, String.length_utf8EncodeChar, List.length_cons] at lengths
    rw [octetsOf_cons, isFirst] at enough ⊢
    rw [List.length_cons] at enough
    match bound with
    | bound + 1 =>
      rw [decodeUtf8From]
      simp only [isLead, taken]
      rw [ih (by omega), charOfPoint_toNat]
      rfl

/-- The octets of a text are decoded to it. -/
theorem decodeUtf8_octetsOf (lenient : Bool) (s : List Char) :
    decodeUtf8 lenient (octetsOf s) = .ok s :=
  decodeUtf8From_octetsOf lenient s (Nat.lt_succ_self _) 0

theorem octetsOf_of_decodeUtf8From {bound offset : Nat} {octets : List UInt8} {s : List Char}
    (enough : octets.length < bound)
    (decoded : decodeUtf8From false bound offset octets = .ok s) : octets = octetsOf s := by
  induction bound generalizing offset octets s with
  | zero => cases enough
  | succ bound ih =>
    cases octets with
    | nil =>
      cases decoded
      rfl
    | cons b behind =>
      rw [decodeUtf8From] at decoded
      cases isLead : leadOf? b.toNat with
      | none => simp [isLead] at decoded
      | some lead =>
        simp only [isLead] at decoded
        cases taken : takeTails lead.low lead.high lead.tails lead.bits behind with
        | error found => simp [taken] at decoded
        | ok found =>
          obtain ⟨point, rest⟩ := found
          simp only [taken] at decoded
          obtain ⟨cs, onward, same⟩ := bind_eq_ok decoded
          cases same
          obtain ⟨c, rfl, isFirst⟩ := encoded_of_takeTails isLead taken
          have lengths := congrArg List.length isFirst
          have nonempty := c.utf8Size_pos
          rw [List.length_append, String.length_utf8EncodeChar] at lengths
          rw [List.length_cons] at lengths enough
          rw [isFirst, octetsOf_cons, charOfPoint_toNat, ← ih (by omega) onward]

/-- Octets that are decoded to a text are its own. -/
theorem decodeUtf8_eq_ok_iff {octets : List UInt8} {s : List Char} :
    decodeUtf8 false octets = .ok s ↔ octets = octetsOf s := by
  constructor
  · exact octetsOf_of_decodeUtf8From (Nat.lt_succ_self _)
  · rintro rfl
    exact decodeUtf8_octetsOf false s

end TemplateFill.Data
