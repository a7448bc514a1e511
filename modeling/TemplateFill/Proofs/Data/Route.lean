import TemplateFill.Population
import TemplateFill.Proofs.Data.LineBreak
import TemplateFill.Proofs.Data.Utf8

/-!
# Data from files and from octets

A file is decoded as UTF-8 before its text is read, while octets are decoded in the encoding that
they show. On UTF-8 that shows no other encoding the two routes end in the same way. Octets with a
byte order mark, or in a wider encoding, can be loaded by one route alone. A file that is no UTF-8
fails without being refused, and so does, by either route, a text that is nested too deeply.
-/

namespace TemplateFill.Data

open Text (unifyBreaks)
open Population (Failure)

/-- Octets that are those of a text. -/
def IsUtf8 (octets : List UInt8) : Prop := ∃ s, octets = octetsOf s

/-- Octets that begin neither with the byte order mark of UTF-8 nor, within the first two, with a
zero, from which a wider encoding would be inferred. -/
def BeginsPlainly (octets : List UInt8) : Prop :=
  ¬ [0xEF, 0xBB, 0xBF] <+: octets ∧ 0 ∉ octets.take 2

/-- Two attempts to load data end in the same way: with the same object, or both refused. -/
def SameOutcome : Except LoadFault Json → Except LoadFault Json → Prop
  | .ok v, .ok w => v = w
  | .error fault, .error fault' => (Failure.data fault).isRefusal ∧ (Failure.data fault').isRefusal
  | .ok _, .error _ => False
  | .error _, .ok _ => False

/-- A route that is blocked by nothing but refusals. -/
def OnlyRefuses (loaded : Except LoadFault Json) : Prop :=
  ∀ fault, loaded = .error fault → (Failure.data fault).isRefusal

/-- A route that is blocked by a refusal. -/
def IsRefused (loaded : Except LoadFault Json) : Prop :=
  ∃ fault, loaded = .error fault ∧ (Failure.data fault).isRefusal

/-- A route that is blocked for want of room. -/
def IsTooDeep (loaded : Except LoadFault Json) : Prop :=
  ∃ words, loaded = .error (.tooDeep words)

/-! ### Texts that are never read -/

section Null

theorem toOption_map {α β ε : Type} (x : Except ε α) (f : α → β) :
    (x.map f).toOption = x.toOption.map f := by
  cases x <;> rfl

theorem toOption_bind {α β ε : Type} (x : Except ε α) (f : α → Except ε β) :
    (x >>= f).toOption = x.toOption.bind fun a => (f a).toOption := by
  cases x <;> rfl

/-- The character of number zero, which begins no part of a data text and stands in none. -/
def null : Char := Char.ofNat 0

theorem skipSpace_null (rest : List Char) : skipSpace (null :: rest) = null :: rest := rfl

theorem readWord?_null {s : List Char} (held : null ∈ s.take 2) : readWord? s = none := by
  rw [Option.eq_none_iff_forall_not_mem]
  intro (v, rest) found
  obtain ⟨word, isWord, rfl⟩ := readWord?_eq_some found
  simp only [valueWords, List.mem_cons, Prod.mk.injEq, List.not_mem_nil, or_false] at isWord
  rcases isWord with ⟨rfl, -⟩ | ⟨rfl, -⟩ | ⟨rfl, -⟩ | ⟨rfl, -⟩ | ⟨rfl, -⟩ | ⟨rfl, -⟩
  all_goals
    rw [List.take_append_of_le_length (by decide)] at held
    exact absurd held (by decide)

theorem readValue_null (bound room : Nat) (rest : List Char) :
    (readValue bound room (null :: rest)).toOption = none := by
  cases bound with
  | zero => rfl
  | succ bound =>
    rw [readValue_of_head bound room (by simp [null]), readWord?_null List.mem_cons_self]
    rfl

theorem readItems_null (bound room : Nat) (rest : List Char) :
    (readItems bound room (null :: rest)).toOption = none := by
  cases bound with
  | zero => rfl
  | succ bound =>
    rw [readItems, toOption_bind, readValue_null]
    rfl

theorem readMembers_null (bound room : Nat) (rest : List Char) :
    (readMembers bound room (null :: rest)).toOption = none := by
  cases bound with
  | zero => rfl
  | succ bound =>
    unfold readMembers
    rfl

theorem takeWholePart_null (c : Char) (rest : List Char) :
    (takeWholePart (c :: null :: rest)).1 = [] ∨
      (takeWholePart (c :: null :: rest)).2 = null :: rest := by
  by_cases zero : c = '0'
  · subst zero
    exact .inr rfl
  · rw [takeWholePart_of_head (by simp [zero])]
    by_cases digit : isAsciiDigit c
    · rw [List.dropWhile_cons_of_pos digit]
      exact .inr rfl
    · rw [List.takeWhile_cons_of_neg digit]
      exact .inl rfl

/-- A number ends at a null. -/
theorem readNumber_null (c : Char) (rest : List Char) :
    (readNumber (c :: null :: rest)).toOption = none ∨
      ∃ v, (readNumber (c :: null :: rest)).toOption = some (v, null :: rest) := by
  by_cases minus : c = '-'
  · subst minus
    exact .inl rfl
  rw [readNumber, splitMinus_of_head (by simp [minus])]
  dsimp only
  split
  · exact .inl rfl
  · rename_i nonempty
    have behind := (takeWholePart_null c rest).resolve_left (by simpa using nonempty)
    have fraction : takeFraction (null :: rest) = (none, null :: rest) := rfl
    have exponent : takeExponent (null :: rest) = (none, null :: rest) := rfl
    rw [behind, fraction, exponent, toOption_map]
    cases (numberOf _ _ _ _ _).toOption with
    | none => exact .inl rfl
    | some v => exact .inr ⟨v, rfl⟩

theorem readValue_before_null (bound room : Nat) (c : Char) (rest : List Char) :
    (readValue (bound + 1) room (c :: null :: rest)).toOption = none ∨
      ∃ v, (readValue (bound + 1) room (c :: null :: rest)).toOption = some (v, null :: rest) := by
  by_cases quote : c = '"'
  · subst quote
    exact .inl rfl
  by_cases list : c = '['
  · subst list
    left
    cases room with
    | zero => rfl
    | succ room =>
      rw [readValue_list bound room (by rw [skipSpace_null, List.head?_cons]; decide),
        skipSpace_null, toOption_map, readItems_null]
      rfl
  by_cases object : c = '{'
  · subst object
    left
    cases room with
    | zero => rfl
    | succ room =>
      rw [readValue_object bound room (by rw [skipSpace_null, List.head?_cons]; decide),
        skipSpace_null, toOption_map, readMembers_null]
      rfl
  · rw [readValue_of_head bound room (by simp [quote, list, object]), readWord?_null (by simp)]
    exact readNumber_null c rest

theorem toOption_readRoot [Room] (s : List Char) :
    (readRoot s).toOption =
      (readValue (2 * s.length + 1) Room.reading (skipSpace s)).toOption.bind fun (v, rest) =>
        if skipSpace rest = [] then some v else none := by
  rw [readRoot]
  cases readValue (2 * s.length + 1) Room.reading (skipSpace s) with
  | error failure => rfl
  | ok read =>
    dsimp only
    change _ = if skipSpace read.2 = [] then some read.1 else none
    generalize skipSpace read.2 = left
    cases left with
    | nil => rfl
    | cons c rest => rfl

/-- A text with a null among its first two characters is not read. -/
theorem readRoot_null [Room] {s : List Char} (held : null ∈ s.take 2) :
    (readRoot s).toOption = none := by
  rw [toOption_readRoot]
  match s with
  | [] => cases held
  | [c] =>
    cases List.mem_singleton.mp held
    rfl
  | c :: d :: rest =>
    by_cases first : c = null
    · rw [first, skipSpace_null, readValue_null]
      rfl
    have second : d = null := by simpa [Ne.symm first, eq_comm] using held
    subst second
    by_cases space : isSpace c
    · rw [skipSpace, List.dropWhile_cons_of_pos space, ← skipSpace, skipSpace_null,
        readValue_null]
      rfl
    · rw [skipSpace, List.dropWhile_cons_of_neg space]
      rcases readValue_before_null (2 * (c :: null :: rest).length) Room.reading c rest with
        none | ⟨v, found⟩
      · rw [none]
        rfl
      · rw [found]
        rfl

end Null

/-! ### Octets that show UTF-8 -/

theorem head_of_byteOrderMark {s : List Char} (marked : [0xEF, 0xBB, 0xBF] <+: octetsOf s) :
    s.head? = some (Char.ofNat 0xFEFF) := by
  obtain ⟨rest, isMarked⟩ := marked
  match s with
  | [] => cases isMarked
  | c :: s =>
    obtain ⟨b, behind, lead, isFirst, isLead, taken⟩ := takeTails_encoded c (octetsOf s)
    rw [octetsOf_cons, isFirst] at isMarked
    cases isMarked
    cases isLead
    have point : 0xFEFF = c.toNat := congrArg Prod.fst (Except.ok.inj taken)
    rw [List.head?_cons, point, Char.ofNat_toNat]

theorem octetsOf_byteOrderMark (s : List Char) :
    octetsOf (Char.ofNat 0xFEFF :: s) = [0xEF, 0xBB, 0xBF] ++ octetsOf s := rfl

theorem eq_null_of_mem {c : Char} (held : 0 ∈ String.utf8EncodeChar c) : c = null := by
  have valid := toNat_range c
  have zero : UInt8.toNat 0 = 0 := rfl
  have isZero : c.toNat = 0 := by
    rw [utf8EncodeChar_eq] at held
    split_ifs at held
    all_goals
      simp only [List.mem_cons, List.not_mem_nil, or_false, ← UInt8.toNat_inj,
        UInt8.toNat_ofNat'] at held
      omega
  rw [null, ← isZero, Char.ofNat_toNat]

theorem head_of_null {s : List Char} {rest : List UInt8} (isCons : octetsOf s = 0 :: rest) :
    s.head? = some null := by
  match s with
  | [] => cases isCons
  | c :: s =>
    obtain ⟨b, behind, lead, isFirst, isLead, taken⟩ := takeTails_encoded c (octetsOf s)
    cases (octetsOf_cons c s ▸ isCons).symm.trans isFirst
    cases isLead
    have point : 0 = c.toNat := congrArg Prod.fst (Except.ok.inj taken)
    rw [List.head?_cons, null, point, Char.ofNat_toNat]

theorem null_mem_take {s : List Char} (held : 0 ∈ (octetsOf s).take 2) : null ∈ s.take 2 := by
  match s with
  | [] => cases held
  | c :: s =>
    by_cases ascii : c.toNat < 0x80
    · have octets := utf8EncodeChar_one ascii
      rw [octetsOf_cons, octets] at held
      rcases List.mem_cons.mp held with first | second
      · have isNull := eq_null_of_mem (c := c) (by rw [octets, ← first]; exact List.mem_cons_self)
        rw [isNull]
        exact List.mem_cons_self
      · cases isCons : octetsOf s with
        | nil => simp [isCons] at second
        | cons b rest =>
          have isZero : b = 0 := by simpa [isCons, eq_comm] using second
          obtain ⟨s, rfl⟩ := List.head?_eq_some_iff.mp (head_of_null (isZero ▸ isCons))
          simp
    · have long : 2 ≤ (String.utf8EncodeChar c).length := by
        rw [utf8EncodeChar_eq, if_neg (by omega)]
        split_ifs <;> simp
      rw [octetsOf_cons, List.take_append_of_le_length long] at held
      rw [eq_null_of_mem (List.mem_of_mem_take held)]
      exact List.mem_cons_self

theorem lt_of_octetsOf {s : List Char} {b : UInt8} {rest : List UInt8}
    (isCons : octetsOf s = b :: rest) : b.toNat < 0xF5 := by
  match s with
  | [] => cases isCons
  | c :: s =>
    obtain ⟨b', behind, lead, isFirst, isLead, -⟩ := takeTails_encoded c (octetsOf s)
    cases (octetsOf_cons c s ▸ isCons).symm.trans isFirst
    by_contra beyond
    rw [leadOf?_none (.inr (Nat.le_of_not_lt beyond))] at isLead
    cases isLead

theorem detectEncoding_plain {octets : List UInt8} (plain : BeginsPlainly octets)
    (below : ∀ b rest, octets = b :: rest → b.toNat < 0xF5) :
    detectEncoding octets = (.utf8, 0) := by
  have noMark : ¬ [0xEF, 0xBB, 0xBF] <+: octets.map (·.toNat) := fun marked =>
    plain.1 ((List.prefix_map_iff_of_injective fun _ _ => UInt8.toNat_inj.mp).mp marked)
  have noZero : 0 ∉ (octets.map (·.toNat)).take 2 := by
    rw [← List.map_take]
    intro held
    obtain ⟨b, held, isZero⟩ := List.mem_map.mp held
    rw [UInt8.toNat_inj (b := 0) |>.mp isZero] at held
    exact plain.2 held
  have first : ∀ n ∈ (octets.map (·.toNat)).head?, n < 0xF5 := by
    cases octets with
    | nil => nofun
    | cons b rest =>
      rintro n ⟨⟩
      exact below b rest rfl
  unfold detectEncoding
  split
  · next isMap => simp [isMap] at noZero
  · next isMap => simp [isMap] at first
  · next isMap => simp [isMap] at first
  · next isMap => simp [isMap] at first
  · next isMap => simp [isMap] at noMark
  · next isMap =>
    rw [isMap] at noZero
    simp only [List.take_succ_cons, List.take_zero, List.mem_cons, List.not_mem_nil, or_false,
      not_or, eq_comm] at noZero
    rw [if_neg noZero.1, if_neg noZero.2]
  · next isMap =>
    rw [isMap] at noZero
    simp only [List.take_succ_cons, List.take_zero, List.mem_cons, List.not_mem_nil, or_false,
      not_or, eq_comm] at noZero
    rw [if_neg noZero.1, if_neg noZero.2]
  · rfl

theorem detectEncoding_octetsOf {s : List Char} (plain : BeginsPlainly (octetsOf s)) :
    detectEncoding (octetsOf s) = (.utf8, 0) :=
  detectEncoding_plain plain fun _ _ => lt_of_octetsOf

/-! ### The two routes -/

section Routes

variable {s : List Char} {octets : List UInt8} {source : Source} {loaded loaded' : Except LoadFault Json}
  {outcome : Except Bool Json} (path : Path)

/-- What is loaded is what is read. A failure is one for want of room if that of reading is, and a
refusal otherwise. -/
def Follows (loaded : Except LoadFault Json) : Except Bool Json → Prop
  | .ok v => loaded = .ok v
  | .error true => IsTooDeep loaded
  | .error false => IsRefused loaded

theorem Follows.onlyRefuses_iff (follows : Follows loaded outcome) :
    OnlyRefuses loaded ↔ ¬ IsTooDeep loaded := by
  constructor
  · rintro refuses ⟨words, failed⟩
    cases refuses _ failed
  · intro hasRoom fault failed
    match outcome with
    | .ok v => cases failed.symm.trans follows
    | .error true => exact absurd follows hasRoom
    | .error false =>
      obtain ⟨fault', failed', refuses⟩ := follows
      cases failed.symm.trans failed'
      exact refuses

/-- Two routes that follow one reading end in the same way if there is room. -/
theorem Follows.sameOutcome_iff (first : Follows loaded outcome)
    (second : Follows loaded' outcome) : SameOutcome loaded loaded' ↔ ¬ IsTooDeep loaded := by
  match outcome with
  | .ok v =>
    cases first
    cases second
    exact iff_of_true rfl nofun
  | .error true =>
    obtain ⟨words, rfl⟩ := first
    obtain ⟨words', rfl⟩ := second
    exact iff_of_false (fun same => nomatch same.1) fun hasRoom => hasRoom ⟨words, rfl⟩
  | .error false =>
    obtain ⟨fault, rfl, refuses⟩ := first
    obtain ⟨fault', rfl, refuses'⟩ := second
    refine iff_of_true ⟨refuses, refuses'⟩ ?_
    rintro ⟨words, ⟨⟩⟩
    cases refuses

theorem loadBy_follows (read : List Char → Reading Json) (s : List Char) :
    Follows (loadBy read s) (outline (read s)) := by
  rw [loadBy]
  cases read s with
  | ok v => rfl
  | error failure =>
    obtain ⟨fault, rest⟩ := failure
    cases fault with
    | tooDeep kind => exact ⟨_, rfl⟩
    | _ => exact ⟨_, rfl, rfl⟩

/-- An object, and nothing else. -/
def objectOnly : Json → Except Bool Json
  | .object members => .ok (.object members)
  | _ => .error false

/-- That the root is no object is a refusal as well. -/
theorem load_follows [Room] (root : Follows source.root outcome) :
    Follows source.load (outcome >>= objectOnly) := by
  rw [Source.load]
  match outcome with
  | .ok v =>
    have isRoot : source.root = .ok v := root
    rw [isRoot]
    cases v with
    | object members => rfl
    | _ => exact ⟨_, rfl, rfl⟩
  | .error true =>
    obtain ⟨words, failed⟩ := root
    rw [failed]
    exact ⟨words, rfl⟩
  | .error false =>
    obtain ⟨fault, failed, refuses⟩ := root
    rw [failed]
    exact ⟨fault, rfl, refuses⟩

theorem octets_follows [Room] (octets : List UInt8) :
    ∃ outcome, Follows (Source.octets octets).load outcome := by
  have root : ∃ outcome, Follows (Source.octets octets).root outcome := by
    rw [Source.root]
    cases decodeDataText octets with
    | ok s => exact ⟨_, loadBy_follows readRoot s⟩
    | error fault => exact ⟨.error false, _, rfl, rfl⟩
  exact ⟨_, load_follows root.choose_spec⟩

theorem octets_follows_readRoot [Room] (plain : BeginsPlainly (octetsOf s)) :
    Follows (Source.octets (octetsOf s)).load (outline (readRoot s) >>= objectOnly) := by
  apply load_follows
  rw [Source.root, decodeDataText, detectEncoding_octetsOf plain]
  dsimp only
  rw [List.drop_zero, decodeUtf8_octetsOf]
  exact loadBy_follows readRoot s

theorem file_follows [Room] (s : List Char) :
    Follows (Source.file path (some (octetsOf s))).load (outline (readChars s) >>= objectOnly) := by
  apply load_follows
  rw [Source.root, decodeUtf8_octetsOf, ← readChars_unifyBreaks]
  exact loadBy_follows readChars (unifyBreaks s)

theorem file_undecodable [Room] (notUtf8 : ¬ IsUtf8 octets) :
    ∃ fault, (Source.file path (some octets)).load = .error (.undecodable fault) := by
  cases decoded : decodeUtf8 false octets with
  | ok s => exact absurd ⟨s, decodeUtf8_eq_ok_iff.mp decoded⟩ notUtf8
  | error fault =>
    refine ⟨fault, ?_⟩
    rw [Source.load, Source.root, decoded]
    rfl

theorem routes_same_iff [Room] (plain : BeginsPlainly (octetsOf s)) :
    SameOutcome (Source.file path (some (octetsOf s))).load (Source.octets (octetsOf s)).load ↔
      ¬ IsTooDeep (Source.file path (some (octetsOf s))).load := by
  have noMark : s.head? ≠ some (Char.ofNat 0xFEFF) := by
    intro marked
    obtain ⟨rest, rfl⟩ := List.head?_eq_some_iff.mp marked
    exact plain.1 ⟨octetsOf rest, (octetsOf_byteOrderMark rest).symm⟩
  have file := file_follows path s
  rw [readChars, if_neg noMark] at file
  exact file.sameOutcome_iff (octets_follows_readRoot plain)

/-- A file that begins otherwise is not loaded. -/
theorem file_unread [Room] (unplain : ¬ BeginsPlainly (octetsOf s)) :
    ∃ fault, (Source.file path (some (octetsOf s))).load = .error fault := by
  have unread : (readChars s).toOption = none := by
    rw [readChars]
    split
    · rfl
    · next noMark =>
      apply readRoot_null
      by_contra noNull
      exact unplain ⟨mt head_of_byteOrderMark noMark, mt null_mem_take noNull⟩
  have follows := file_follows path s
  cases isRead : readChars s with
  | ok v =>
    rw [isRead] at unread
    cases unread
  | error failure =>
    rw [isRead] at follows
    change Follows _ (.error failure.fault.isTooDeep) at follows
    cases isDeep : failure.fault.isTooDeep with
    | true =>
      rw [isDeep] at follows
      exact ⟨_, follows.choose_spec⟩
    | false =>
      rw [isDeep] at follows
      exact ⟨_, follows.choose_spec.1⟩

/-- A reading for which there is room is not too deep when it is loaded. -/
theorem not_isTooDeep_load [Room] {read : List Char → Reading Json}
    (root : source.root = loadBy read s) (hasRoom : HasRoom (read s)) :
    ¬ IsTooDeep source.load := by
  rw [Source.load, root, loadBy]
  cases isRead : read s with
  | ok v => cases v <;> nofun
  | error failure =>
    obtain ⟨fault, rest⟩ := failure
    cases fault with
    | tooDeep kind => exact absurd isRead (hasRoom kind rest)
    | _ => nofun

theorem openings_unifyBreaks (s : List Char) : openings (unifyBreaks s) = openings s := by
  unfold openings
  fun_induction unifyBreaks s with
  | case1 => rfl
  | case2 rest ih => simpa using ih
  | case3 c rest _ ih =>
    by_cases isReturn : c = '\r'
    · simpa [isReturn] using ih
    · simp [isReturn, List.countP_cons, ih]

theorem octets_not_isTooDeep [Room] (isText : decodeDataText octets = .ok s)
    (enough : openings s ≤ Room.reading) : ¬ IsTooDeep (Source.octets octets).load := by
  have root : (Source.octets octets).root = loadBy readRoot s := by rw [Source.root, isText]
  exact not_isTooDeep_load root (readRoot_hasRoom enough)

theorem file_not_isTooDeep [Room] (enough : openings s ≤ Room.reading) :
    ¬ IsTooDeep (Source.file path (some (octetsOf s))).load := by
  have root : (Source.file path (some (octetsOf s))).root = loadBy readChars (unifyBreaks s) := by
    rw [Source.root, decodeUtf8_octetsOf]
    rfl
  exact not_isTooDeep_load root (readChars_hasRoom (by rwa [openings_unifyBreaks]))

theorem file_onlyRefuses_iff [Room] (octets : List UInt8) :
    OnlyRefuses (Source.file path (some octets)).load ↔
      IsUtf8 octets ∧ ¬ IsTooDeep (Source.file path (some octets)).load := by
  by_cases isUtf8 : IsUtf8 octets
  · obtain ⟨s, rfl⟩ := isUtf8
    rw [(file_follows path s).onlyRefuses_iff]
    exact ⟨fun hasRoom => ⟨⟨s, rfl⟩, hasRoom⟩, And.right⟩
  · obtain ⟨fault, failed⟩ := file_undecodable path isUtf8
    rw [failed]
    exact iff_of_false (fun refuses => nomatch refuses _ rfl) fun both => isUtf8 both.1

theorem sameOutcome_error_iff {fault : LoadFault} :
    SameOutcome (.error fault) loaded ↔ (Failure.data fault).isRefusal ∧ IsRefused loaded := by
  constructor
  · intro same
    cases loaded with
    | ok v => exact same.elim
    | error fault' => exact ⟨same.1, fault', rfl, same.2⟩
  · rintro ⟨refuses, fault', rfl, refuses'⟩
    exact ⟨refuses, refuses'⟩

/-- Where a file shows another encoding than UTF-8, the two routes can only be refused alike. -/
theorem unplain_routes_same_iff [Room] (unplain : ¬ BeginsPlainly (octetsOf s)) :
    SameOutcome (Source.file path (some (octetsOf s))).load (Source.octets (octetsOf s)).load ↔
      ¬ IsTooDeep (Source.file path (some (octetsOf s))).load ∧
        IsRefused (Source.octets (octetsOf s)).load := by
  obtain ⟨fault, failed⟩ := file_unread path unplain
  have refuses : (Failure.data fault).isRefusal ↔ OnlyRefuses (.error fault) :=
    ⟨fun refuses => by rintro _ ⟨⟩; exact refuses, fun only => only fault rfl⟩
  rw [← (file_follows path s).onlyRefuses_iff, failed, sameOutcome_error_iff, refuses]

theorem routes_sameOutcome_iff [Room] (octets : List UInt8) :
    SameOutcome (Source.file path (some octets)).load (Source.octets octets).load ↔
      IsUtf8 octets ∧ ¬ IsTooDeep (Source.file path (some octets)).load ∧
        (BeginsPlainly octets ∨ IsRefused (Source.octets octets).load) := by
  by_cases isUtf8 : IsUtf8 octets
  · obtain ⟨s, rfl⟩ := isUtf8
    by_cases plain : BeginsPlainly (octetsOf s)
    · rw [routes_same_iff path plain]
      exact ⟨fun hasRoom => ⟨⟨s, rfl⟩, hasRoom, .inl plain⟩, fun both => both.2.1⟩
    · rw [unplain_routes_same_iff path plain]
      exact ⟨fun both => ⟨⟨s, rfl⟩, both.1, .inr both.2⟩,
        fun both => ⟨both.2.1, both.2.2.resolve_left plain⟩⟩
  · obtain ⟨fault, failed⟩ := file_undecodable path isUtf8
    rw [failed, sameOutcome_error_iff]
    exact iff_of_false (fun same => nomatch same.1) fun both => isUtf8 both.1

/-- Octets that cannot be loaded are refused, unless they are nested too deeply. So are those of a
file if they are UTF-8. The two routes end in the same way exactly for UTF-8 that is not nested too
deeply and shows no other encoding, or is refused as octets as well. Nothing is nested too deeply
that has no more opening brackets than there is room for. -/
theorem routes_agree_iff [Room] (octets : List UInt8) :
    (OnlyRefuses (Source.octets octets).load ↔ ¬ IsTooDeep (Source.octets octets).load) ∧
    (OnlyRefuses (Source.file path (some octets)).load ↔
      IsUtf8 octets ∧ ¬ IsTooDeep (Source.file path (some octets)).load) ∧
    (SameOutcome (Source.file path (some octets)).load (Source.octets octets).load ↔
      IsUtf8 octets ∧ ¬ IsTooDeep (Source.file path (some octets)).load ∧
        (BeginsPlainly octets ∨ IsRefused (Source.octets octets).load)) ∧
    (∀ s, decodeDataText octets = .ok s → openings s ≤ Room.reading →
      ¬ IsTooDeep (Source.octets octets).load) ∧
    ∀ s, octets = octetsOf s → openings s ≤ Room.reading →
      ¬ IsTooDeep (Source.file path (some octets)).load := by
  obtain ⟨_, asOctets⟩ := octets_follows octets
  refine ⟨asOctets.onlyRefuses_iff, file_onlyRefuses_iff path octets,
    routes_sameOutcome_iff path octets, fun s isText enough => octets_not_isTooDeep isText enough, ?_⟩
  rintro s rfl enough
  exact file_not_isTooDeep path enough

/-- Each opening bracket takes room. -/
theorem readValue_openings {bound room n : Nat} (enough : 2 * room < bound) (more : room < n) :
    ∃ rest, readValue bound room (List.replicate n '[') = .error ⟨.tooDeep "array", rest⟩ := by
  induction room generalizing bound n with
  | zero =>
    obtain ⟨bound, rfl⟩ := Nat.exists_eq_add_one_of_ne_zero (Nat.ne_of_gt enough)
    obtain ⟨n, rfl⟩ := Nat.exists_eq_add_one_of_ne_zero (Nat.ne_of_gt more)
    exact ⟨_, readValue_list_zero bound _⟩
  | succ room ih =>
    obtain ⟨bound, rfl⟩ : ∃ less, bound = less + 2 := ⟨bound - 2, by omega⟩
    obtain ⟨n, rfl⟩ : ∃ less, n = less + 2 := ⟨n - 2, by omega⟩
    obtain ⟨rest, failed⟩ := @ih bound (n + 1) (by omega) (by omega)
    have spaces : skipSpace (List.replicate (n + 1) '[') = List.replicate (n + 1) '[' := rfl
    refine ⟨rest, ?_⟩
    rw [List.replicate_succ, readValue_list (bound + 1) room (by rw [spaces]; exact nofun), spaces,
      readItems, failed]
    rfl

/-- A text of more opening brackets than there is room for is nested too deeply by either route. -/
theorem openings_isTooDeep [Room] {n : Nat} (more : Room.reading < n) :
    IsTooDeep (Source.octets (octetsOf (List.replicate n '['))).load ∧
      IsTooDeep (Source.file path (some (octetsOf (List.replicate n '[')))).load := by
  obtain ⟨n, rfl⟩ := Nat.exists_eq_add_one_of_ne_zero (Nat.ne_zero_of_lt more)
  have plain : BeginsPlainly (octetsOf (List.replicate (n + 1) '[')) := by
    constructor
    · rintro ⟨rest, ⟨⟩⟩
    · intro held
      cases null_mem_take held with
      | tail _ held => cases List.eq_of_mem_replicate (List.mem_of_mem_take held)
  have noMark : (List.replicate (n + 1) '[').head? ≠ some (Char.ofNat 0xFEFF) := by
    rw [List.replicate_succ, List.head?_cons]
    decide
  have failed : outline (readRoot (List.replicate (n + 1) '[')) = .error true := by
    have spaces : skipSpace (List.replicate (n + 1) '[') = List.replicate (n + 1) '[' := rfl
    obtain ⟨rest, failed⟩ := @readValue_openings (2 * (n + 1) + 1) Room.reading (n + 1)
      (by omega) more
    rw [readRoot, spaces, List.length_replicate, failed]
    rfl
  have asOctets := octets_follows_readRoot plain
  have asFile := file_follows path (List.replicate (n + 1) '[')
  rw [readChars, if_neg noMark, failed] at asFile
  rw [failed] at asOctets
  exact ⟨asOctets, asFile⟩

/-- An octet that begins no character is refused by itself, but not in a file. -/
theorem loneOctet_differs :
    (Source.octets [0xFF]).load =
      .error (.invalid "'utf-8' codec can't decode byte 0xff in position 0: invalid start byte") ∧
    (Source.file ⟨"", ["data.json"]⟩ (some [0xFF])).load =
      .error (.undecodable ⟨.utf8, 0, 1, 0xFF, .invalidStart⟩) ∧
    ¬ OnlyRefuses (Source.file ⟨"", ["data.json"]⟩ (some [0xFF])).load ∧
    ¬ SameOutcome (Source.file ⟨"", ["data.json"]⟩ (some [0xFF])).load
      (Source.octets [0xFF]).load := by
  refine ⟨rfl, rfl, fun refuses => ?_, fun same => ?_⟩
  · cases refuses _ rfl
  · cases same.1

example : (Source.octets [0xEF, 0xBB, 0xBF, 0x7B, 0x7D]).load = .ok (.object []) ∧
    ∃ fault, (Source.file ⟨"", ["data.json"]⟩ (some [0xEF, 0xBB, 0xBF, 0x7B, 0x7D])).load =
      .error fault :=
  ⟨rfl, _, rfl⟩

end Routes

end TemplateFill.Data
