import TemplateFill.Data.Source
import TemplateFill.Proofs.Data.Progress
import TemplateFill.Proofs.Number.Numeral
import TemplateFill.Proofs.Query.Plain

/-!
# Data that was read

Data that was read can be shown: its whole numbers have no more digits than are read, and its lists
and objects are inside each other only as often as the text has opening brackets.
-/

namespace TemplateFill

namespace Data

/-! ### Numbers -/

theorem foldl_digits_lt {digits : List Char} (areDigits : ∀ c ∈ digits, isAsciiDigit c)
    (total : Nat) :
    digits.foldl (fun total c => total * 10 + (c.toNat - '0'.toNat)) total <
      (total + 1) * Number.tenTo digits.length := by
  induction digits generalizing total with
  | nil => simp [Number.tenTo]
  | cons c digits ih =>
    obtain ⟨isDigit, areDigits⟩ := List.forall_mem_cons.mp areDigits
    have most : c.toNat - '0'.toNat ≤ 9 := by
      rw [isAsciiDigit, Bool.and_eq_true, decide_eq_true_eq, decide_eq_true_eq] at isDigit
      have upper : c.toNat ≤ '9'.toNat := isDigit.2
      change c.toNat ≤ 57 at upper
      change c.toNat - 48 ≤ 9
      omega
    rw [List.foldl_cons, List.length_cons]
    calc _ < (total * 10 + (c.toNat - '0'.toNat) + 1) * Number.tenTo digits.length := ih areDigits _
      _ ≤ ((total + 1) * 10) * Number.tenTo digits.length := Nat.mul_le_mul_right _ (by omega)
      _ = (total + 1) * Number.tenTo (digits.length + 1) := by
        rw [Number.tenTo_succ, Nat.mul_assoc, Nat.mul_comm 10]

/-- A number with no more digits than are read is not over the limit. -/
theorem isOverLimit_valueOfDigits {digits : List Char} (areDigits : ∀ c ∈ digits, isAsciiDigit c)
    (short : digits.length ≤ Number.digitLimit) {n : Int}
    (isValue : n.natAbs = valueOfDigits digits) : Number.isOverLimit n = false := by
  have less := foldl_digits_lt areDigits 0
  have room := Number.tenTo_mono short
  rw [Nat.zero_add, Nat.one_mul] at less
  refine decide_eq_false (Nat.not_le.mpr ?_)
  rw [isValue]
  exact Nat.lt_of_lt_of_le less room

theorem takeWholePart_isAsciiDigit (s : List Char) :
    ∀ c ∈ (takeWholePart s).1, isAsciiDigit c := by
  unfold takeWholePart
  split
  · intro c isZero
    rw [List.mem_singleton.mp isZero]
    rfl
  · exact fun c member => List.all_eq_true.mp List.all_takeWhile c member

/-! ### Values -/

/-- Whatever is read satisfies `holds`. -/
def Yields {α : Type} (holds : α → Prop) (reading : Reading (α × List Char)) : Prop :=
  ∀ found rest, reading = .ok (found, rest) → holds found

namespace Yields

variable {α β : Type} {holds : α → Prop} {holds' : β → Prop} {reading : Reading (α × List Char)}

theorem any (reading : Reading (α × List Char)) : Yields (fun _ => True) reading :=
  fun _ _ _ => trivial

theorem error (failure : ReadFailure) :
    Yields holds (.error failure : Reading (α × List Char)) := nofun

theorem ok {found : α} {rest : List Char} (h : holds found) : Yields holds (.ok (found, rest)) := by
  rintro _ _ ⟨⟩
  exact h

theorem map (f : α → β) (yields : Yields holds reading) (all : ∀ found, holds found → holds' (f found)) :
    Yields holds' (reading.map fun (found, rest) => (f found, rest)) := by
  intro found rest isRead
  obtain ⟨⟨first, rest⟩, isRead, same⟩ := map_eq_ok isRead
  cases same
  exact all first (yields first rest isRead)

theorem bind {next : α × List Char → Reading (β × List Char)} (first : Yields holds reading)
    (second : ∀ found rest, reading = .ok (found, rest) → holds found →
      Yields holds' (next (found, rest))) : Yields holds' (reading >>= next) := by
  intro found rest isRead
  obtain ⟨⟨found', rest'⟩, begun, isRead⟩ := bind_eq_ok isRead
  exact second found' rest' begun (first found' rest' begun) found rest isRead

end Yields

/-- Plain data that can be shown in some room. -/
def Json.IsShown (room : Nat) (v : Json) : Prop := (Datum.ofJson v).obstacle? room = none

variable {room level : Nat} {s : List Char}

theorem readNumber_isShown (level : Nat) (s : List Char) :
    Yields (Json.IsShown level) (readNumber s) := by
  have digits := takeWholePart_isAsciiDigit (splitMinus s).2
  unfold readNumber
  dsimp only
  split
  · exact .error _
  · intro found rest isRead
    obtain ⟨number, isNumber, same⟩ := map_eq_ok isRead
    cases same
    unfold numberOf at isNumber
    split at isNumber
    · split at isNumber
      · cases isNumber
      · rename_i short
        cases isNumber
        refine Datum.obstacle?_int_eq_none.mpr
          (isOverLimit_valueOfDigits digits (Nat.not_lt.mp short) ?_)
        split
        · rw [Int.natAbs_neg, Int.natAbs_natCast]
        · rw [Int.natAbs_natCast]
    · cases isNumber
      rfl

theorem readWord?_isShown {v : Json} {rest : List Char} (found : readWord? s = some (v, rest)) :
    v.IsShown level := by
  obtain ⟨word, isWord, -⟩ := readWord?_eq_some found
  simp only [valueWords, List.mem_cons, Prod.mk.injEq, List.not_mem_nil, or_false] at isWord
  rcases isWord with ⟨-, rfl⟩ | ⟨-, rfl⟩ | ⟨-, rfl⟩ | ⟨-, rfl⟩ | ⟨-, rfl⟩ | ⟨-, rfl⟩ <;> rfl

theorem isShown_list {items : List Json} (each : ∀ v ∈ items, v.IsShown level) :
    (Json.list items).IsShown (level + 1) := by
  rw [Json.IsShown, Datum.ofJson, Datum.ofJsonItems_eq_map, Datum.obstacle?_list_eq_none]
  exact ⟨Nat.succ_pos _, List.forall_mem_map.mpr each⟩

theorem isShown_object {members : List (String × Json)} (each : ∀ m ∈ members, m.2.IsShown level) :
    (Json.object members).IsShown (level + 1) := by
  rw [Json.IsShown, Datum.ofJson, Datum.ofJsonMembers_eq_map, Datum.obstacle?_object_eq_none]
  exact ⟨Nat.succ_pos _, List.forall_mem_map.mpr fun m member => ⟨rfl, each m member⟩⟩

/-- There is room for what is read from a text: for its opening brackets or for as many of them as
there was room to read. -/
def IsEnough (room level : Nat) (s : List Char) : Prop := openings s ≤ level ∨ room ≤ level

theorem IsEnough.of_suffix {rest : List Char} (enough : IsEnough room level s)
    (suffix : rest <:+ s) : IsEnough room level rest :=
  enough.imp_left (Nat.le_trans (openings_le_of_suffix suffix))

/-- An opening bracket needs room itself. -/
theorem IsEnough.inside {c : Char} {rest : List Char} (isOpening : c = '[' ∨ c = '{')
    (enough : IsEnough (room + 1) level (c :: rest)) :
    ∃ less, level = less + 1 ∧ IsEnough room less (skipSpace rest) := by
  rcases enough with few | less
  · obtain ⟨less, isLess, behind⟩ := openings_inside isOpening few
    exact ⟨less, isLess, .inl behind⟩
  · exact ⟨level - 1, by omega, .inr (by omega)⟩

/-- All readers of values yield what can be shown where there is room for it. -/
structure ShownWithin (bound : Nat) : Prop where
  value (room level : Nat) (s : List Char) : IsEnough room level s →
    Yields (Json.IsShown level) (readValue bound room s)
  items (room level : Nat) (s : List Char) : IsEnough room level s →
    Yields (fun items => ∀ v ∈ items, v.IsShown level) (readItems bound room s)
  members (room level : Nat) (s : List Char) : IsEnough room level s →
    Yields (fun members => ∀ m ∈ members, m.2.IsShown level) (readMembers bound room s)

variable {bound : Nat}

theorem ShownWithin.value_succ (ih : ShownWithin bound) (room level : Nat) (s : List Char)
    (enough : IsEnough room level s) :
    Yields (Json.IsShown level) (readValue (bound + 1) room s) := by
  unfold readValue
  split
  · exact (Yields.any _).map _ fun _ _ => rfl
  · cases room with
    | zero => exact .error _
    | succ room =>
      obtain ⟨level, rfl, behind⟩ := enough.inside (.inl rfl)
      dsimp only
      split
      · exact .ok (isShown_list (List.forall_mem_nil _))
      · exact (ih.items room level _ behind).map _ fun _ each => isShown_list each
  · cases room with
    | zero => exact .error _
    | succ room =>
      obtain ⟨level, rfl, behind⟩ := enough.inside (.inr rfl)
      dsimp only
      split
      · exact .ok (isShown_object (List.forall_mem_nil _))
      · refine (ih.members room level _ behind).map _ fun members each => isShown_object ?_
        have put : ∀ m ∈ Members.putAll (· == ·) [] members, True ∧ m.2.IsShown level :=
          Members.forall_putAll (fun _ => True) (Json.IsShown level) (List.forall_mem_nil _)
            fun m member => ⟨trivial, each m member⟩
        exact fun m member => (put m member).2
  · split
    · rename_i reading found
      exact .ok (readWord?_isShown found)
    · exact readNumber_isShown level s

theorem ShownWithin.items_succ (ih : ShownWithin bound) (room level : Nat) (s : List Char)
    (enough : IsEnough room level s) :
    Yields (fun items => ∀ v ∈ items, v.IsShown level) (readItems (bound + 1) room s) := by
  unfold readItems
  refine (ih.value room level s enough).bind fun item rest isRead isShown => ?_
  have behind := (advanceWithin bound).value room s item rest isRead
  dsimp only
  split
  · exact .ok (by simpa using isShown)
  · rename_i rest' comma
    have onward := (isEnd_of_skipSpace comma).trans behind
    have enough := enough.of_suffix ((skipSpace_suffix rest').trans onward.suffix)
    exact (ih.items room level _ enough).bind fun items rest _ each =>
      .ok (List.forall_mem_cons.mpr ⟨isShown, each⟩)
  · exact .error _

theorem ShownWithin.members_succ (ih : ShownWithin bound) (room level : Nat) (s : List Char)
    (enough : IsEnough room level s) :
    Yields (fun members => ∀ m ∈ members, m.2.IsShown level) (readMembers (bound + 1) room s) := by
  unfold readMembers
  split
  · rename_i inside
    refine (Yields.any _).bind fun key rest isRead _ => ?_
    have behind : IsEnd rest ('"' :: inside) :=
      (readQuoted_advances _ inside key rest isRead).mono (List.suffix_cons _ inside)
    dsimp only
    split
    · rename_i rest' colon
      have onward := (isEnd_of_skipSpace colon).trans behind
      have suffix := (skipSpace_suffix rest').trans onward.suffix
      refine (ih.value room level _ (enough.of_suffix suffix)).bind fun v rest isRead isShown => ?_
      have behind := ((advanceWithin bound).value room _ v rest isRead).mono suffix
      dsimp only
      split
      · exact .ok (by simpa using isShown)
      · rename_i rest' comma
        have onward := (isEnd_of_skipSpace comma).trans behind
        have enough := enough.of_suffix ((skipSpace_suffix rest').trans onward.suffix)
        exact (ih.members room level _ enough).bind fun members rest _ each =>
          .ok (List.forall_mem_cons.mpr ⟨isShown, each⟩)
      · exact .error _
    · exact .error _
  · exact .error _

theorem shownWithin (bound : Nat) : ShownWithin bound := by
  induction bound with
  | zero =>
    exact ⟨fun _ _ _ _ => .error _, fun _ _ _ _ => .error _, fun _ _ _ _ => .error _⟩
  | succ bound ih => exact ⟨ih.value_succ, ih.items_succ, ih.members_succ⟩

/-- What is read from a text can be shown where there is room for its opening brackets, and where
there is as much room as for reading it. -/
theorem readRoot_isShown [Room] (enough : IsEnough Room.reading level s) {v : Json}
    (isRead : readRoot s = .ok v) : v.IsShown level := by
  have shown := (shownWithin (2 * s.length + 1)).value Room.reading level _
    (enough.of_suffix (skipSpace_suffix s))
  unfold readRoot at isRead
  split at isRead
  · cases isRead
  · rename_i found rest isValue
    split at isRead
    · cases isRead
      exact shown _ _ isValue
    · cases isRead

theorem readChars_isShown [Room] (enough : IsEnough Room.reading level s) {v : Json}
    (isRead : readChars s = .ok v) : v.IsShown level := by
  rw [readChars] at isRead
  split at isRead
  · cases isRead
  · exact readRoot_isShown enough isRead

theorem loadChars_isShown [Room] {v : Json} (loaded : loadChars s = .ok v) :
    v.IsShown Room.reading :=
  readChars_isShown (.inr (Nat.le_refl _)) (mapError_eq_ok loaded)

/-- Whatever a source holds can be shown with the room for reading, unless it was no text. -/
theorem Source.root_isShown [Room] {source : Source} (isText : ∀ v, source ≠ .value v) {v : Json}
    (isRoot : source.root = .ok v) : v.IsShown Room.reading := by
  cases source with
  | value v => exact absurd rfl (isText v)
  | text s => exact loadChars_isShown isRoot
  | octets octets =>
    rw [Source.root] at isRoot
    split at isRoot
    · exact readRoot_isShown (.inr (Nat.le_refl _)) (mapError_eq_ok isRoot)
    · cases isRoot
  | file path octets =>
    cases octets with
    | none => cases isRoot
    | some octets =>
      rw [Source.root] at isRoot
      split at isRoot
      · exact loadChars_isShown isRoot
      · cases isRoot

end Data

end TemplateFill
