import TemplateFill.Proofs.Number.Numeral
import TemplateFill.Proofs.Numbering.Written
import TemplateFill.Proofs.Traversal

/-!
# Seeding an allocator

An allocator is seeded with the numbers among the ids of a document, and starts one above the largest
of each kind. A number is written with decimal digits of any script, behind a minus sign or none. Other
ids are passed over, as long as they do not look like numbers: digits of any kind behind minus signs
are taken for a number, and where they are none, as with a superscript, the seeding comes to an end.
-/

namespace TemplateFill.Numbering.Allocator

open Xml Number

/-- The minus signs that an id begins with. -/
def signsOf (id : String) : List Char := id.toList.takeWhile (· = '-')

/-- What stands behind the minus signs of an id. -/
def digitsOf (id : String) : List Char := id.toList.dropWhile (· = '-')

/-- An id that is a number of a length that can be read, if it looks like one. -/
def IsReadable (id : String) : Prop :=
  looksLikeId id → (signsOf id).length ≤ 1 ∧ (∀ c ∈ digitsOf id, Text.isDecimalDigit c) ∧
    (digitsOf id).length ≤ digitLimit

def unsigned? (digits : List Char) : Option Int :=
  if digits ≠ [] ∧ digits.all Text.isDecimalDigit then some (valueOf digits) else none

/-- The number that an id states, if it consists of decimal digits behind a minus sign or none. -/
def number? (id : String) : Option Int :=
  match id.toList with
  | '-' :: digits => (unsigned? digits).map (-·)
  | digits => unsigned? digits

/-- One above the largest of some numbers, or a default if there is none. -/
def above (default : Int) (numbers : List Int) : Int := (numbers.max?.map (· + 1)).getD default

/-! ### A single id -/

section Single

variable {id : String} {digits : List Char} {n : Int}

theorem signsOf_append (id : String) : id.toList = signsOf id ++ digitsOf id :=
  List.takeWhile_append_dropWhile.symm

theorem eq_minus_of_mem_signsOf {c : Char} (member : c ∈ signsOf id) : c = '-' :=
  of_decide_eq_true (List.all_eq_true.mp List.all_takeWhile c member)

theorem looksLikeId_iff :
    looksLikeId id ↔ digitsOf id ≠ [] ∧ ∀ c ∈ digitsOf id, Text.isDigitLike c := by
  rw [looksLikeId, ← digitsOf, Bool.and_eq_true, Bool.not_eq_true', List.all_eq_true]
  simp

theorem unsigned?_eq_some_iff :
    unsigned? digits = some n ↔
      digits ≠ [] ∧ (∀ c ∈ digits, Text.isDecimalDigit c) ∧ n = valueOf digits := by
  rw [unsigned?]
  split
  · next decimal =>
    rw [List.all_eq_true] at decimal
    rw [Option.some.injEq]
    exact ⟨fun same => ⟨decimal.1, decimal.2, same.symm⟩, fun whole => whole.2.2.symm⟩
  · next other =>
    rw [List.all_eq_true] at other
    exact ⟨nofun, fun whole => absurd ⟨whole.1, whole.2.1⟩ other⟩

theorem isDigitLike_of_isDecimalDigit {c : Char} (decimal : Text.isDecimalDigit c) :
    Text.isDigitLike c := by
  rw [Text.isDigitLike, decimal]
  rfl

/-- No minus sign is among characters that look like digits. -/
theorem dropWhile_minus (digitLike : ∀ c ∈ digits, Text.isDigitLike c) :
    digits.dropWhile (· = '-') = digits := by
  refine List.dropWhile_eq_self_iff.mpr fun h isMinus => ?_
  have first := digitLike _ (List.getElem_mem h)
  rw [of_decide_eq_true isMinus] at first
  exact absurd first (by decide)

/-- What states a number looks like an id. -/
theorem looksLikeId_of_number? (states : number? id = some n) : looksLikeId id := by
  rw [looksLikeId_iff, digitsOf]
  unfold number? at states
  split at states
  · next digits whole =>
    obtain ⟨m, isNumber, -⟩ := Option.map_eq_some_iff.mp states
    obtain ⟨nonempty, decimal, -⟩ := unsigned?_eq_some_iff.mp isNumber
    have digitLike := fun c member => isDigitLike_of_isDecimalDigit (decimal c member)
    rw [whole, List.dropWhile_cons_of_pos (by simp), dropWhile_minus digitLike]
    exact ⟨nonempty, digitLike⟩
  · obtain ⟨nonempty, decimal, -⟩ := unsigned?_eq_some_iff.mp states
    have digitLike := fun c member => isDigitLike_of_isDecimalDigit (decimal c member)
    rw [dropWhile_minus digitLike]
    exact ⟨nonempty, digitLike⟩

theorem number?_of_unsigned (noSign : signsOf id = []) : number? id = unsigned? (digitsOf id) := by
  have whole := signsOf_append id
  rw [noSign, List.nil_append] at whole
  rw [number?, ← whole]
  split
  · next digits isMinus =>
    rw [signsOf, isMinus, List.takeWhile_cons_of_pos (by simp)] at noSign
    cases noSign
  · rfl

theorem toList_of_minus {c : Char} (minus : signsOf id = [c]) : id.toList = '-' :: digitsOf id := by
  have isMinus : c = '-' := eq_minus_of_mem_signsOf (minus ▸ List.mem_singleton_self c)
  have whole := signsOf_append id
  rwa [minus, isMinus] at whole

theorem number?_of_minus {c : Char} (minus : signsOf id = [c]) :
    number? id = (unsigned? (digitsOf id)).map (-·) := by
  rw [number?, toList_of_minus minus]
  rfl

theorem exists_number? (looks : looksLikeId id) (readable : IsReadable id) :
    ∃ n, number? id = some n := by
  obtain ⟨single, decimal, -⟩ := readable looks
  have isNumber : unsigned? (digitsOf id) = some (valueOf (digitsOf id) : Int) :=
    unsigned?_eq_some_iff.mpr ⟨(looksLikeId_iff.mp looks).1, decimal, rfl⟩
  match signs : signsOf id with
  | [] => exact ⟨_, (number?_of_unsigned signs).trans isNumber⟩
  | [c] => exact ⟨_, (number?_of_minus signs).trans (by rw [isNumber]; rfl)⟩
  | _ :: _ :: rest =>
    rw [signs] at single
    exact absurd single (by simp)

/-- Two minus signs are no sign of a number. -/
theorem readNumeral_of_minuses {s : List Char} (minuses : id.toList = '-' :: '-' :: s) :
    readNumeral 10 id = .error (.malformed 10 id) := by
  have split : splitSign (id.toList.dropWhile isPadding) = (true, '-' :: s) := by
    rw [minuses, dropWhile_isPadding _ (by decide)]
    rfl
  have nothing : takeDigits? 10 ('-' :: s) = none := by
    rw [takeDigits?, List.takeWhile_cons_of_neg (by decide)]
    rfl
  rw [readNumeral]
  simp only [split, skipBaseMark_ten, nothing]

/-- An id that looks like a number is read if it is one, and not too long. -/
theorem readNumeral_of_looksLikeId (looks : looksLikeId id) :
    readNumeral 10 id = .ok n ↔ IsReadable id ∧ number? id = some n := by
  obtain ⟨nonempty, digitLike⟩ := looksLikeId_iff.mp looks
  have whole := signsOf_append id
  match signs : signsOf id with
  | [] =>
    have split : splitSign (id.toList.dropWhile isPadding) = (false, digitsOf id) := by
      rw [whole, signs, List.nil_append, dropWhile_isPadding_of_isDigitLike digitLike,
        splitSign_of_isDigitLike digitLike]
    rw [readNumeral_eq_ok_iff split nonempty digitLike, number?_of_unsigned signs,
      unsigned?_eq_some_iff, IsReadable, signs]
    constructor
    · rintro ⟨decimal, fits, isValue⟩
      exact ⟨fun _ => ⟨Nat.zero_le 1, decimal, fits⟩, nonempty, decimal, isValue⟩
    · rintro ⟨readable, -, decimal, isValue⟩
      exact ⟨decimal, (readable looks).2.2, isValue⟩
  | [c] =>
    have split : splitSign (id.toList.dropWhile isPadding) = (true, digitsOf id) := by
      rw [toList_of_minus signs, dropWhile_isPadding _ (by decide)]
      rfl
    rw [readNumeral_eq_ok_iff split nonempty digitLike, number?_of_minus signs,
      Option.map_eq_some_iff, IsReadable, signs]
    constructor
    · rintro ⟨decimal, fits, isValue⟩
      exact ⟨fun _ => ⟨Nat.le_refl 1, decimal, fits⟩, _,
        unsigned?_eq_some_iff.mpr ⟨nonempty, decimal, rfl⟩, isValue.symm⟩
    · rintro ⟨readable, m, isNumber, isValue⟩
      obtain ⟨-, decimal, rfl⟩ := unsigned?_eq_some_iff.mp isNumber
      exact ⟨decimal, (readable looks).2.2, isValue.symm⟩
  | c :: d :: rest =>
    have first : c = '-' := eq_minus_of_mem_signsOf (signs ▸ List.mem_cons_self)
    have second : d = '-' :=
      eq_minus_of_mem_signsOf (signs ▸ List.mem_cons_of_mem _ List.mem_cons_self)
    have minuses : id.toList = '-' :: '-' :: (rest ++ digitsOf id) := by
      rw [whole, signs, first, second]
      rfl
    rw [readNumeral_of_minuses minuses]
    refine ⟨nofun, fun ⟨readable, _⟩ => ?_⟩
    have one := (readable looks).1
    rw [signs] at one
    exact absurd one (by simp)

end Single

/-! ### All ids -/

/-- A missing id looks like no number. -/
theorem filter_looksLikeId (name : Name) (nodes : List Node) :
    (nodes.map fun node => (node.attribute? name).getD "").filter looksLikeId =
      (nodes.filterMap (·.attribute? name)).filter looksLikeId := by
  induction nodes with
  | nil => rfl
  | cons node rest ih =>
    rw [List.map_cons, List.filter_cons, ih, List.filterMap_cons]
    cases node.attribute? name with
    | none => rfl
    | some id => rw [Option.getD_some, List.filter_cons]

theorem mapM_readNumeral {ids : List String} {numbers : List Int} :
    (ids.filter looksLikeId).mapM (readNumeral 10) = .ok numbers ↔
      (∀ id ∈ ids, IsReadable id) ∧ numbers = ids.filterMap number? := by
  induction ids generalizing numbers with
  | nil =>
    constructor
    · rintro ⟨⟩
      exact ⟨List.forall_mem_nil _, rfl⟩
    · rintro ⟨-, rfl⟩
      rfl
  | cons id rest ih =>
    rw [List.forall_mem_cons]
    by_cases looks : looksLikeId id
    · rw [List.filter_cons_of_pos looks, List.mapM_cons]
      constructor
      · intro made
        obtain ⟨n, isRead, made⟩ := bind_eq_ok made
        obtain ⟨others, areRead, made⟩ := bind_eq_ok made
        obtain ⟨readable, states⟩ := (readNumeral_of_looksLikeId looks).mp isRead
        obtain ⟨allReadable, rfl⟩ := ih.mp areRead
        rw [List.filterMap_cons_some states]
        exact ⟨⟨readable, allReadable⟩, (Except.ok.inj made).symm⟩
      · rintro ⟨⟨readable, allReadable⟩, rfl⟩
        obtain ⟨n, states⟩ := exists_number? looks readable
        rw [(readNumeral_of_looksLikeId looks).mpr ⟨readable, states⟩, ih.mpr ⟨allReadable, rfl⟩,
          List.filterMap_cons_some states]
        rfl
    · rw [List.filter_cons_of_neg looks, ih]
      have statesNothing : number? id = none := by
        rw [Option.eq_none_iff_forall_ne_some]
        exact fun n states => looks (looksLikeId_of_number? states)
      rw [List.filterMap_cons_none statesNothing]
      exact and_congr_left fun _ => (and_iff_right fun h => absurd h looks).symm

theorem idsIn_singleton (element id : Name) (root : Node) :
    idsIn element id [root] = (root.named element).filterMap (·.attribute? id) := by
  rw [idsIn, Node.elementsOf_singleton, ← Node.named]

theorem readIds_eq_ok_iff {element id : Name} {root : Node} {numbers : List Int} :
    readIds id (root.named element) = .ok numbers ↔
      (∀ text ∈ idsIn element id [root], IsReadable text) ∧
        numbers = (idsIn element id [root]).filterMap number? := by
  rw [readIds, filter_looksLikeId, mapM_readNumeral, idsIn_singleton]

theorem largest_add_one (default : Int) (numbers : List Int) :
    largest default numbers + 1 = above (default + 1) numbers := by
  cases numbers <;> rfl

/-- An allocator is seeded if and only if every id below the root that looks like a number is one
that can be read. Then it starts one above the largest number of each kind, whatever the other ids
are, and has handed out nothing. -/
theorem ofNumbering_eq_ok_iff (root : Node) (start : Allocator) :
    ofNumbering (some root) = .ok start ↔
      ((∀ id ∈ idsIn Word.abstractList Word.abstractListId [root], IsReadable id) ∧
        ∀ id ∈ idsIn Word.listInstance Word.listInstanceId [root], IsReadable id) ∧
      start = .fresh
        (above 0 ((idsIn Word.abstractList Word.abstractListId [root]).filterMap number?))
        (above 1 ((idsIn Word.listInstance Word.listInstanceId [root]).filterMap number?)) := by
  rw [ofNumbering]
  constructor
  · intro seeded
    obtain ⟨abstracts, areAbstracts, seeded⟩ := bind_eq_ok seeded
    obtain ⟨instances, areInstances, seeded⟩ := bind_eq_ok seeded
    obtain ⟨readableAbstracts, rfl⟩ := readIds_eq_ok_iff.mp areAbstracts
    obtain ⟨readableInstances, rfl⟩ := readIds_eq_ok_iff.mp areInstances
    refine ⟨⟨readableAbstracts, readableInstances⟩, ?_⟩
    rw [← Except.ok.inj seeded, largest_add_one, largest_add_one]
    rfl
  · rintro ⟨⟨readableAbstracts, readableInstances⟩, rfl⟩
    rw [readIds_eq_ok_iff.mpr ⟨readableAbstracts, rfl⟩,
      readIds_eq_ok_iff.mpr ⟨readableInstances, rfl⟩]
    change Except.ok (fresh (largest (-1) _ + 1) (largest 0 _ + 1)) = _
    rw [largest_add_one, largest_add_one]
    rfl

-- the Arabic digit counts, the plus sign keeps the other id from being a number
example : ofNumbering (some (.plain Word.numbering []
    [.plain Word.listInstance [(Word.listInstanceId, "٣")] [],
      .plain Word.listInstance [(Word.listInstanceId, "+9")] []])) = .ok (.fresh 0 4) := rfl

/-- Definitions with one instance, whose id is a superscript. -/
def superscriptNumbering : Node :=
  .plain Word.numbering [] [.plain Word.listInstance [(Word.listInstanceId, "²")] []]

/-- The only id states no number, and yet it is not passed over. -/
theorem superscript_stops_seeding :
    (idsIn Word.listInstance Word.listInstanceId [superscriptNumbering]).filterMap number? = [] ∧
    ofNumbering (some superscriptNumbering) = .error (.malformed 10 "²") := by
  constructor
  · decide +kernel
  · rfl

end TemplateFill.Numbering.Allocator
