import TemplateFill.Proofs.Data.Step
import TemplateFill.Proofs.Traversal

/-!
# Readers move on

What a reader leaves of a text is an end of it and never the whole. Since every step into a value
or on to the next one costs at least a character, a bound of more than twice the length is never
reached, and all such bounds give the same reading. Room is only missed by a text with more opening
brackets than there is room for.
-/

namespace TemplateFill.Data

/-- An end of a text that is not the whole text. -/
structure IsEnd (rest s : List Char) : Prop where
  suffix : rest <:+ s
  shorter : rest.length < s.length

namespace IsEnd

variable {c : Char} {s t rest : List Char}

theorem of_cons (suffix : rest <:+ s) : IsEnd rest (c :: s) :=
  ⟨suffix.trans (List.suffix_cons c s), Nat.lt_succ_of_le suffix.length_le⟩

theorem mono (ends : IsEnd rest s) (suffix : s <:+ t) : IsEnd rest t :=
  ⟨ends.suffix.trans suffix, Nat.lt_of_lt_of_le ends.shorter suffix.length_le⟩

theorem of_suffix (suffix : rest <:+ s) (ends : IsEnd s t) : IsEnd rest t :=
  ⟨suffix.trans ends.suffix, Nat.lt_of_le_of_lt suffix.length_le ends.shorter⟩

theorem trans (first : IsEnd rest s) (second : IsEnd s t) : IsEnd rest t :=
  first.mono second.suffix

end IsEnd

/-- Whatever is read, an end of the text is left. -/
def Advances {α : Type} (s : List Char) (reading : Reading (α × List Char)) : Prop :=
  ∀ found rest, reading = .ok (found, rest) → IsEnd rest s

namespace Advances

variable {α β : Type} {s t : List Char} {reading : Reading (α × List Char)}

theorem error (failure : ReadFailure) : Advances s (.error failure : Reading (α × List Char)) :=
  nofun

theorem ok {found : α} (ends : IsEnd t s) : Advances s (.ok (found, t)) := by
  rintro found rest ⟨⟩
  exact ends

theorem map (f : α → β) (advances : Advances s reading) :
    Advances s (reading.map fun (found, rest) => (f found, rest)) := by
  intro found rest isRead
  obtain ⟨⟨first, rest⟩, isRead, same⟩ := map_eq_ok isRead
  cases same
  exact advances first rest isRead

theorem mono (advances : Advances s reading) (suffix : s <:+ t) : Advances t reading :=
  fun found rest isRead => (advances found rest isRead).mono suffix

theorem bind {next : α × List Char → Reading (β × List Char)} (first : Advances s reading)
    (onward : ∀ found rest, IsEnd rest s → Advances s (next (found, rest))) :
    Advances s (reading >>= next) := by
  intro found rest isRead
  obtain ⟨⟨found', rest'⟩, begun, isRead⟩ := bind_eq_ok isRead
  exact onward found' rest' (first found' rest' begun) found rest isRead

end Advances

variable {s : List Char}

theorem skipSpace_suffix (s : List Char) : skipSpace s <:+ s := List.dropWhile_suffix _

theorem length_skipSpace_le (s : List Char) : (skipSpace s).length ≤ s.length :=
  (skipSpace_suffix s).length_le

/-! ### Texts and numbers -/

theorem readUnits_advances (opening s : List Char) : Advances s (readUnits opening s) := by
  fun_induction readUnits opening s with
  | case1 => exact .error _
  | case2 rest => exact .ok (.of_cons (List.suffix_refl rest))
  | case3 => exact .error _
  | case4 => exact .error _
  | case5 a b c d next rest n isUnit ih =>
    exact (ih.map _).mono ⟨['\\', 'u', a, b, c, d], rfl⟩
  | case6 => exact .error _
  | case7 => exact .error _
  | case8 c rest _ _ e isEscape ih => exact (ih.map _).mono ⟨['\\', c], rfl⟩
  | case9 => exact .error _
  | case10 c rest _ _ _ _ _ _ ih => exact (ih.map _).mono (List.suffix_cons c rest)

theorem readQuoted_advances (opening s : List Char) : Advances s (readQuoted opening s) :=
  (readUnits_advances opening s).map fun units => String.ofList (joinPairs units)

theorem takeFraction_suffix (s : List Char) : (takeFraction s).2 <:+ s := by
  unfold takeFraction
  split
  · rename_i rest
    dsimp only
    split
    · exact List.suffix_refl _
    · exact (List.dropWhile_suffix _).trans (List.suffix_cons _ rest)
  · exact List.suffix_refl _

theorem splitSign_suffix (s : List Char) : (Number.splitSign s).2 <:+ s := by
  unfold Number.splitSign
  split
  · exact List.suffix_cons _ _
  · exact List.suffix_cons _ _
  · exact List.suffix_refl _

theorem takeExponent_suffix (s : List Char) : (takeExponent s).2 <:+ s := by
  unfold takeExponent
  split
  · rename_i e rest
    split
    · dsimp only
      split
      · exact List.suffix_refl _
      · exact (List.dropWhile_suffix _).trans
          ((splitSign_suffix rest).trans (List.suffix_cons e rest))
    · exact List.suffix_refl _
  · exact List.suffix_refl _

theorem takeWholePart_append (s : List Char) : (takeWholePart s).1 ++ (takeWholePart s).2 = s := by
  unfold takeWholePart
  split
  · rfl
  · exact List.takeWhile_append_dropWhile

theorem splitMinus_suffix (s : List Char) : (splitMinus s).2 <:+ s := by
  unfold splitMinus
  split
  · exact List.suffix_cons _ _
  · exact List.suffix_refl _

theorem readNumber_advances (s : List Char) : Advances s (readNumber s) := by
  have minus := splitMinus_suffix s
  have whole := takeWholePart_append (splitMinus s).2
  have fraction := takeFraction_suffix (takeWholePart (splitMinus s).2).2
  have exponent := takeExponent_suffix (takeFraction (takeWholePart (splitMinus s).2).2).2
  unfold readNumber
  dsimp only
  split
  · exact .error _
  · rename_i nonempty
    have digits := List.length_pos_of_ne_nil (by simpa using nonempty)
    have lengths := congrArg List.length whole
    rw [List.length_append] at lengths
    have behind : IsEnd (takeWholePart (splitMinus s).2).2 (splitMinus s).2 :=
      ⟨⟨_, whole⟩, by omega⟩
    intro found rest isRead
    obtain ⟨number, -, same⟩ := map_eq_ok isRead
    cases same
    exact (behind.mono minus).of_suffix (exponent.trans fraction)

/-! ### Words -/

theorem readWord?_advances {v : Json} {s rest : List Char} (found : readWord? s = some (v, rest)) :
    IsEnd rest s := by
  obtain ⟨word, isWord, rfl⟩ := readWord?_eq_some found
  obtain ⟨c, letters, isLetters⟩ := List.exists_cons_of_ne_nil (ne_nil_of_mem_valueWords isWord)
  rw [isLetters]
  exact .of_cons (List.suffix_append letters rest)

/-! ### Values -/

theorem isEnd_of_skipSpace {c : Char} {s rest : List Char} (front : skipSpace s = c :: rest) :
    IsEnd rest s := by
  have suffix := skipSpace_suffix s
  rw [front] at suffix
  exact IsEnd.mono (.of_cons (List.suffix_refl rest)) suffix

/-- All readers of values move on within a bound. -/
structure AdvanceWithin (bound : Nat) : Prop where
  value (room : Nat) (s : List Char) : Advances s (readValue bound room s)
  items (room : Nat) (s : List Char) : Advances s (readItems bound room s)
  members (room : Nat) (s : List Char) : Advances s (readMembers bound room s)

variable {bound : Nat}

theorem AdvanceWithin.value_succ (ih : AdvanceWithin bound) (room : Nat) (s : List Char) :
    Advances s (readValue (bound + 1) room s) := by
  unfold readValue
  split
  · rename_i rest
    exact ((readQuoted_advances _ rest).map _).mono (List.suffix_cons _ rest)
  · rename_i rest
    cases room with
    | zero => exact .error _
    | succ room =>
      dsimp only
      split
      · rename_i rest' closed
        exact .ok (.of_cons (isEnd_of_skipSpace closed).suffix)
      · exact ((ih.items room _).map _).mono
          ((skipSpace_suffix rest).trans (List.suffix_cons _ rest))
  · rename_i rest
    cases room with
    | zero => exact .error _
    | succ room =>
      dsimp only
      split
      · rename_i rest' closed
        exact .ok (.of_cons (isEnd_of_skipSpace closed).suffix)
      · exact ((ih.members room _).map _).mono
          ((skipSpace_suffix rest).trans (List.suffix_cons _ rest))
  · split
    · rename_i reading found
      exact .ok (readWord?_advances found)
    · exact readNumber_advances s

theorem AdvanceWithin.items_succ (ih : AdvanceWithin bound) (room : Nat) (s : List Char) :
    Advances s (readItems (bound + 1) room s) := by
  unfold readItems
  refine (ih.value room s).bind fun item rest shorter => ?_
  dsimp only
  split
  · rename_i rest' closed
    exact .ok ((isEnd_of_skipSpace closed).trans shorter)
  · rename_i rest' comma
    have onward := (isEnd_of_skipSpace comma).trans shorter
    refine ((ih.items room _).mono (skipSpace_suffix rest')).bind ?_ |>.mono onward.suffix
    exact fun items rest shorter => .ok shorter
  · exact .error _

theorem AdvanceWithin.members_succ (ih : AdvanceWithin bound) (room : Nat) (s : List Char) :
    Advances s (readMembers (bound + 1) room s) := by
  unfold readMembers
  split
  · refine .bind ((readQuoted_advances _ _).mono (List.suffix_cons _ _))
      fun key rest shorter => ?_
    dsimp only
    split
    · rename_i rest' colon
      have onward := (isEnd_of_skipSpace colon).trans shorter
      refine (((ih.value room _).mono (skipSpace_suffix rest')).bind fun v rest shorter => ?_)
        |>.mono onward.suffix
      dsimp only
      split
      · rename_i rest' closed
        exact .ok ((isEnd_of_skipSpace closed).trans shorter)
      · rename_i rest' comma
        have onward := (isEnd_of_skipSpace comma).trans shorter
        refine ((ih.members room _).mono (skipSpace_suffix rest')).bind ?_ |>.mono onward.suffix
        exact fun members rest shorter => .ok shorter
      · exact .error _
    · exact .error _
  · exact .error _

theorem advanceWithin (bound : Nat) : AdvanceWithin bound := by
  induction bound with
  | zero => exact ⟨fun _ _ => .error _, fun _ _ => .error _, fun _ _ => .error _⟩
  | succ bound ih => exact ⟨ih.value_succ, ih.items_succ, ih.members_succ⟩

/-! ### Bounds -/

theorem Advances.bind_congr {α β : Type} {s : List Char}
    {reading reading' : Reading (α × List Char)} {next next' : α × List Char → Reading β}
    (advances : Advances s reading) (same : reading = reading')
    (onward : ∀ found rest, IsEnd rest s → next (found, rest) = next' (found, rest)) :
    (reading >>= next) = reading' >>= next' := by
  rw [← same]
  cases isRead : reading with
  | error failure => rfl
  | ok read => exact onward read.1 read.2 (advances read.1 read.2 isRead)

/-- Two bounds give the same readings of all texts that are short enough for both. -/
structure AgreeWithin (first second : Nat) : Prop where
  value (room : Nat) (s : List Char) : 2 * s.length < first → 2 * s.length < second →
    readValue first room s = readValue second room s
  items (room : Nat) (s : List Char) : 2 * s.length + 1 < first → 2 * s.length + 1 < second →
    readItems first room s = readItems second room s
  members (room : Nat) (s : List Char) : 2 * s.length + 1 < first → 2 * s.length + 1 < second →
    readMembers first room s = readMembers second room s

variable {first second : Nat}

theorem AgreeWithin.value_succ (ih : AgreeWithin first second) (room : Nat) (s : List Char)
    (one : 2 * s.length < first + 1) (two : 2 * s.length < second + 1) :
    readValue (first + 1) room s = readValue (second + 1) room s := by
  unfold readValue
  split
  · rfl
  · rename_i rest
    have shorter := length_skipSpace_le rest
    rw [List.length_cons] at one two
    cases room with
    | zero => rfl
    | succ room =>
      dsimp only
      split
      · rfl
      · rw [ih.items room _ (by omega) (by omega)]
  · rename_i rest
    have shorter := length_skipSpace_le rest
    rw [List.length_cons] at one two
    cases room with
    | zero => rfl
    | succ room =>
      dsimp only
      split
      · rfl
      · rw [ih.members room _ (by omega) (by omega)]
  · rfl

theorem AgreeWithin.items_succ (ih : AgreeWithin first second) (room : Nat) (s : List Char)
    (one : 2 * s.length + 1 < first + 1) (two : 2 * s.length + 1 < second + 1) :
    readItems (first + 1) room s = readItems (second + 1) room s := by
  unfold readItems
  refine ((advanceWithin first).value room s).bind_congr
    (ih.value room s (by omega) (by omega)) fun item rest behind => ?_
  dsimp only
  split
  · rfl
  · rename_i rest' comma
    have onward := ((isEnd_of_skipSpace comma).trans behind).shorter
    have shorter := length_skipSpace_le rest'
    rw [ih.items room _ (by omega) (by omega)]
  · rfl

theorem AgreeWithin.members_succ (ih : AgreeWithin first second) (room : Nat) (s : List Char)
    (one : 2 * s.length + 1 < first + 1) (two : 2 * s.length + 1 < second + 1) :
    readMembers (first + 1) room s = readMembers (second + 1) room s := by
  unfold readMembers
  split
  · rename_i rest
    rw [List.length_cons] at one two
    refine (readQuoted_advances _ rest).bind_congr rfl fun key rest behind => ?_
    dsimp only
    split
    · rename_i rest' colon
      have onward := ((isEnd_of_skipSpace colon).trans behind).shorter
      have spaces := length_skipSpace_le rest'
      refine ((advanceWithin first).value room _).bind_congr
        (ih.value room _ (by omega) (by omega)) fun v rest behind => ?_
      dsimp only
      split
      · rfl
      · rename_i rest' comma
        have onward := ((isEnd_of_skipSpace comma).trans behind).shorter
        have spaces := length_skipSpace_le rest'
        rw [ih.members room _ (by omega) (by omega)]
      · rfl
    · rfl
  · rfl

theorem agreeWithin (first second : Nat) : AgreeWithin first second := by
  induction first generalizing second with
  | zero => exact ⟨fun _ _ => nofun, fun _ _ => nofun, fun _ _ => nofun⟩
  | succ first ih =>
    cases second with
    | zero => exact ⟨fun _ _ _ => nofun, fun _ _ _ => nofun, fun _ _ _ => nofun⟩
    | succ second =>
      exact ⟨(ih second).value_succ, (ih second).items_succ, (ih second).members_succ⟩

/-- Any bound of more than twice the length gives the same reading of a whole text. -/
theorem readRoot_eq [Room] (bound : Nat) (enough : 2 * s.length < bound) :
    readRoot s = match readValue bound Room.reading (skipSpace s) with
      | .error failure => .error failure
      | .ok (value, rest) =>
        match skipSpace rest with
        | [] => .ok value
        | rest => .error ⟨.extraData, rest⟩ := by
  have shorter := length_skipSpace_le s
  rw [← (agreeWithin (2 * s.length + 1) bound).value Room.reading _ (by omega) (by omega)]
  rfl

/-! ### Room -/

/-- There is room for what is read. -/
def HasRoom {α : Type} (reading : Reading α) : Prop :=
  ∀ kind rest, reading ≠ .error ⟨.tooDeep kind, rest⟩

namespace HasRoom

variable {α β : Type} {reading : Reading α}

theorem ok (found : α) : HasRoom (.ok found) := nofun

theorem error {failure : ReadFailure} (other : ∀ kind, failure.fault ≠ .tooDeep kind) :
    HasRoom (.error failure : Reading α) := by
  rintro kind rest ⟨⟩
  exact other kind rfl

theorem map (f : α → β) (hasRoom : HasRoom reading) : HasRoom (reading.map f) := by
  cases reading with
  | ok found => exact .ok _
  | error failure =>
    rintro kind rest ⟨⟩
    exact hasRoom kind rest rfl

theorem bind {next : α → Reading β} (first : HasRoom reading)
    (second : ∀ found, reading = .ok found → HasRoom (next found)) :
    HasRoom (reading >>= next) := by
  cases reading with
  | ok found => exact second found rfl
  | error failure =>
    rintro kind rest ⟨⟩
    exact first kind rest rfl

end HasRoom

theorem readUnits_hasRoom (opening s : List Char) : HasRoom (readUnits opening s) := by
  fun_induction readUnits opening s with
  | case2 rest => exact .ok _
  | case5 a b c d next rest n isUnit ih => exact ih.map _
  | case8 c rest _ _ e isEscape ih => exact ih.map _
  | case10 c rest _ _ _ _ _ _ ih => exact ih.map _
  | _ => exact .error nofun

theorem readQuoted_hasRoom (opening s : List Char) : HasRoom (readQuoted opening s) :=
  (readUnits_hasRoom opening s).map _

theorem readNumber_hasRoom (s : List Char) : HasRoom (readNumber s) := by
  unfold readNumber
  dsimp only
  split
  · exact .error nofun
  · refine .map _ ?_
    unfold numberOf
    split
    · split
      · exact .error nofun
      · exact .ok _
    · exact .ok _

/-- The opening brackets and braces in a text, inside of quotes or not. -/
def openings (s : List Char) : Nat := s.countP fun c => c = '[' || c = '{'

theorem openings_le_of_suffix {rest s : List Char} (suffix : rest <:+ s) :
    openings rest ≤ openings s := suffix.sublist.countP_le

/-- Behind an opening bracket there is one less of them. -/
theorem openings_inside {c : Char} {rest : List Char} {room : Nat} (isOpening : c = '[' ∨ c = '{')
    (enough : openings (c :: rest) ≤ room) :
    ∃ less, room = less + 1 ∧ openings (skipSpace rest) ≤ less := by
  have behind := openings_le_of_suffix (skipSpace_suffix rest)
  have here : openings (c :: rest) = openings rest + 1 := by
    rw [openings, List.countP_cons_of_pos (by simpa using isOpening)]
    rfl
  exact ⟨room - 1, by omega, by omega⟩

/-- All readers of values have room for texts with no more opening brackets. -/
structure RoomWithin (bound : Nat) : Prop where
  value (room : Nat) (s : List Char) : openings s ≤ room → HasRoom (readValue bound room s)
  items (room : Nat) (s : List Char) : openings s ≤ room → HasRoom (readItems bound room s)
  members (room : Nat) (s : List Char) : openings s ≤ room → HasRoom (readMembers bound room s)

theorem RoomWithin.value_succ (ih : RoomWithin bound) (room : Nat) (s : List Char)
    (enough : openings s ≤ room) : HasRoom (readValue (bound + 1) room s) := by
  unfold readValue
  split
  · exact (readQuoted_hasRoom _ _).map _
  · obtain ⟨room, rfl, behind⟩ := openings_inside (.inl rfl) enough
    dsimp only
    split
    · exact .ok _
    · exact (ih.items room _ behind).map _
  · obtain ⟨room, rfl, behind⟩ := openings_inside (.inr rfl) enough
    dsimp only
    split
    · exact .ok _
    · exact (ih.members room _ behind).map _
  · split
    · exact .ok _
    · exact readNumber_hasRoom s

theorem RoomWithin.items_succ (ih : RoomWithin bound) (room : Nat) (s : List Char)
    (enough : openings s ≤ room) : HasRoom (readItems (bound + 1) room s) := by
  unfold readItems
  refine (ih.value room s enough).bind fun (item, rest) isRead => ?_
  have behind := (advanceWithin bound).value room s item rest isRead
  dsimp only
  split
  · exact .ok _
  · rename_i rest' comma
    have onward := (isEnd_of_skipSpace comma).trans behind
    have fewer := openings_le_of_suffix ((skipSpace_suffix rest').trans onward.suffix)
    exact (ih.items room _ (by omega)).bind fun _ _ => .ok _
  · exact .error nofun

theorem RoomWithin.members_succ (ih : RoomWithin bound) (room : Nat) (s : List Char)
    (enough : openings s ≤ room) : HasRoom (readMembers (bound + 1) room s) := by
  unfold readMembers
  split
  · rename_i inside
    refine (readQuoted_hasRoom _ _).bind fun (key, rest) isRead => ?_
    have behind : IsEnd rest ('"' :: inside) :=
      (readQuoted_advances _ inside key rest isRead).mono (List.suffix_cons _ inside)
    dsimp only
    split
    · rename_i rest' colon
      have onward := (isEnd_of_skipSpace colon).trans behind
      have suffix := (skipSpace_suffix rest').trans onward.suffix
      have fewer := openings_le_of_suffix suffix
      refine (ih.value room _ (by omega)).bind fun (v, rest) isRead => ?_
      have behind := ((advanceWithin bound).value room _ v rest isRead).mono suffix
      dsimp only
      split
      · exact .ok _
      · rename_i rest' comma
        have onward := (isEnd_of_skipSpace comma).trans behind
        have fewer := openings_le_of_suffix ((skipSpace_suffix rest').trans onward.suffix)
        exact (ih.members room _ (by omega)).bind fun _ _ => .ok _
      · exact .error nofun
    · exact .error nofun
  · exact .error nofun

theorem roomWithin (bound : Nat) : RoomWithin bound := by
  induction bound with
  | zero => exact ⟨fun _ _ _ => .error nofun, fun _ _ _ => .error nofun, fun _ _ _ => .error nofun⟩
  | succ bound ih => exact ⟨ih.value_succ, ih.items_succ, ih.members_succ⟩

/-- A text with no more opening brackets than there is room for is not nested too deeply. -/
theorem readRoot_hasRoom [Room] (enough : openings s ≤ Room.reading) : HasRoom (readRoot s) := by
  have fewer := openings_le_of_suffix (skipSpace_suffix s)
  have inside := (roomWithin (2 * s.length + 1)).value Room.reading _ (Nat.le_trans fewer enough)
  unfold readRoot
  split
  · rename_i failure isFailure
    exact .error fun kind isDeep => inside kind failure.rest (by rw [isFailure, ← isDeep])
  · split
    · exact .ok _
    · exact .error nofun

theorem readChars_hasRoom [Room] (enough : openings s ≤ Room.reading) : HasRoom (readChars s) := by
  rw [readChars]
  split
  · exact .error nofun
  · exact readRoot_hasRoom enough

end TemplateFill.Data
