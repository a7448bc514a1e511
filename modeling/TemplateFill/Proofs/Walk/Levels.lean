import TemplateFill.Proofs.Walk.Leftover
import TemplateFill.Proofs.Walk.RichText

/-!
# Levels of list paragraphs

A list paragraph is on the level that the number of lists around it says, however large that is,
and the abstract list that it leads to declares nine levels, however deep the lists of its page
are. So the level of a paragraph exists if and only if no more than nine lists are around it.
-/

namespace TemplateFill.Walk

open Xml
open TemplateFill.Numbering (Format Allocator definitionsOf levelCount levelNumbers levelFormats)

def itemLevels (paragraph : Node) : List String :=
  (paragraph.named Word.listLevel).filterMap (·.attribute? Word.value)

/-- Each level that a paragraph is on is declared by an abstract list that the paragraph leads
to. -/
def LevelsDeclared (numbering : Option Node) (paragraph : Node) : Prop :=
  ∀ level ∈ itemLevels paragraph, ∃ id ∈ numberIds paragraph,
    ∃ definition ∈ definitionsOf numbering id, level ∈ levelNumbers definition

instance (numbering : Option Node) (paragraph : Node) :
    Decidable (LevelsDeclared numbering paragraph) :=
  inferInstanceAs (Decidable (∀ level ∈ itemLevels paragraph, ∃ id ∈ numberIds paragraph,
    ∃ definition ∈ definitionsOf numbering id, level ∈ levelNumbers definition))

/-- An id leads to one abstract list, which declares nine levels of a format. -/
def DeclaresLevels (numbering : Option Node) (id : String) (format : Format) : Prop :=
  ∃ definition, definitionsOf numbering id = [definition] ∧
    levelNumbers definition = (List.range levelCount).map toString ∧
    levelFormats definition = List.replicate levelCount format.name

/-- A paragraph is an item of the innermost of some lists: its level is one less than their
number, and it leads to an abstract list that declares nine levels of the format of the outermost
one. -/
structure IsItemOf (numbering : Option Node) (enclosure : Block.Enclosure) (paragraph : Node) :
    Prop where
  depth_pos : 0 < enclosure.depth
  level : itemLevels paragraph = [toString (enclosure.depth - 1)]
  list : ∃ id, numberIds paragraph = [id] ∧ DeclaresLevels numbering id enclosure.format

/-- What a piece of a page has become: a paragraph in no list, or an item whose level is declared
unless more than nine lists are around it. -/
inductive IsLevelled (numbering : Option Node) (piece : Block.Piece) (paragraph : Node) : Prop where
  | plain (outside : piece.enclosure = none) (noLevel : itemLevels paragraph = [])
    (noList : numberIds paragraph = [])
  | item (enclosure : Block.Enclosure) (encloses : piece.enclosure = some enclosure)
    (isItem : IsItemOf numbering enclosure paragraph)
    (declared : LevelsDeclared numbering paragraph ↔ enclosure.depth ≤ levelCount)

variable {numbering : Option Node} {piece : Block.Piece} {paragraph : Node}

/-! ### Paragraphs on levels -/

theorem itemLevels_of_toParagraph {block : Block} (made : block.toParagraph = .ok paragraph) :
    itemLevels paragraph = block.place.toList.map fun place => toString place.level := by
  obtain ⟨text, place⟩ := block
  obtain ⟨properties, isMade, made⟩ := bind_eq_ok made
  obtain ⟨run, isRun, made⟩ := bind_eq_ok made
  cases made
  obtain rfl := Block.textRun_eq_ok isRun
  rw [itemLevels, Block.named_textParagraph (by decide)]
  cases place with
  | none =>
    cases isMade
    rfl
  | some place =>
    have one := mapError_eq_ok isMade
    rw [Option.mapM_some] at one
    obtain ⟨node, isNode, rfl⟩ := map_eq_ok one
    obtain ⟨level, isLevel, isNode⟩ := bind_eq_ok isNode
    obtain ⟨list, isList, isNode⟩ := bind_eq_ok isNode
    cases isNode
    obtain ⟨levelText, written, rfl⟩ := map_eq_ok isLevel
    obtain ⟨listText, -, rfl⟩ := map_eq_ok isList
    obtain ⟨rfl, -⟩ := Number.writeNumeral_eq_ok written
    rfl

/-- Inside a paragraph nothing is on a level. -/
theorem itemLevels_of_toRuns {blocks : List Block} {rendered : List Node}
    (made : Block.toRuns blocks = .ok rendered) {node : Node} (member : node ∈ rendered) :
    itemLevels node = [] := by
  rcases run_of_mem_toRuns made member with ⟨text, isText⟩ | rfl
  · obtain rfl := Block.textRun_eq_ok isText
    rfl
  · rfl

theorem mem_numbers_iff (level : Nat) :
    toString level ∈ (List.range levelCount).map toString ↔ level < levelCount := by
  constructor
  · intro member
    obtain ⟨number, among, same⟩ := List.mem_map.mp member
    have isNumber : (number : Int) = level := Number.toString_injective same
    have below := List.mem_range.mp among
    omega
  · intro below
    exact List.mem_map_of_mem (List.mem_range.mpr below)

/-- The level of an item is declared as far as the nine levels go. -/
theorem IsItemOf.levelsDeclared_iff {enclosure : Block.Enclosure}
    (isItem : IsItemOf numbering enclosure paragraph) :
    LevelsDeclared numbering paragraph ↔ enclosure.depth ≤ levelCount := by
  obtain ⟨id, ids, definition, definitions, numbers, -⟩ := isItem.list
  have positive := isItem.depth_pos
  rw [LevelsDeclared, isItem.level, ids]
  simp only [List.mem_singleton, forall_eq, exists_eq_left, definitions, numbers, mem_numbers_iff]
  omega

/-! ### Rendering for a document -/

/-- If the lists of a page are kept without a fault, nine levels of its format are declared for the
id of each. -/
theorem keep_declares {start : Allocator} (formats : List Format) {kept : ListStore}
    (rooted : (ListStore.document numbering).IsRooted)
    (seeded : Allocator.ofNumbering numbering = .ok start)
    (isKept : (ListStore.document numbering).keep (start.allocateAll formats) = (kept, none)) :
    ∃ after, kept = .document after ∧ ∀ (i : Nat) format, formats[i]? = some format →
      DeclaresLevels after (toString (start.nextInstance + i)) format := by
  have isSeeded := Allocator.isSeeded_of_ofNumbering seeded
  unfold ListStore.keep at isKept
  simp only [Allocator.allocateAll, isSeeded.abstracts, isSeeded.instances, List.nil_append]
    at isKept
  split at isKept
  · rename_i nothing
    cases isKept
    refine ⟨numbering, rfl, fun i format isFormat => ?_⟩
    cases formats with
    | nil => cases isFormat
    | cons first rest => cases nothing
  · obtain ⟨rfl, faultless⟩ := Prod.mk.inj isKept
    refine ⟨_, rfl, fun i format isFormat => ?_⟩
    have isElement : (Numbering.rootOf numbering).name?.isSome := by
      cases numbering with
      | none => rfl
      | some root => exact rooted root rfl
    obtain ⟨definition, only, isWritten⟩ :=
      Numbering.definitionsOf_merge formats isElement isSeeded.rootOf faultless isFormat
    exact ⟨definition, only, isWritten.levels, isWritten.formats⟩

/-- A piece of a page becomes a paragraph on its level. -/
theorem isLevelled_of_toParagraph {start : Allocator} {forest : List Html.Tree}
    {kept : Option Node}
    (declared : ∀ (i : Nat) format, (Block.outermostListsOf forest)[i]? = some format →
      DeclaresLevels kept (toString (start.nextInstance + i)) format)
    (among : piece ∈ Block.pieces forest) (made : (piece.block start).toParagraph = .ok paragraph) :
    IsLevelled kept piece paragraph := by
  have levels := itemLevels_of_toParagraph made
  have ids := numberIds_of_toParagraph made
  cases encloses : piece.enclosure with
  | none =>
    rw [Block.Piece.block, encloses] at levels ids
    exact .plain encloses levels ids
  | some enclosure =>
    rw [Block.Piece.block, encloses] at levels ids
    have positive := Block.depth_pos_of_enclosure among encloses
    have isFormat := Block.format_of_enclosure among encloses
    have isLevel : (enclosure.place start).level = ((enclosure.depth - 1 : Nat) : Int) := by
      change (enclosure.depth : Int) - 1 = _
      omega
    have isItem : IsItemOf kept enclosure paragraph := by
      refine ⟨positive, ?_, _, ids, declared enclosure.list enclosure.format isFormat⟩
      rw [levels, Option.map_some, Option.toList_some, List.map_singleton, isLevel]
      rfl
    exact .item enclosure encloses isItem isItem.levelsDeclared_iff

/-- What a page text becomes outside of paragraphs is on the levels of its pieces. Inside of a
paragraph nothing is on a level. -/
theorem rendering_levelled {inParagraph : Bool} {value : Datum} {rendered : List Node}
    (rooted : (ListStore.document numbering).IsRooted)
    (made : (rendering inParagraph value (.document numbering)).1 = .ok rendered) :
    ∃ text forest kept, Scope.stringify value = .ok text ∧ Html.readForest text = .ok forest ∧
      (rendering inParagraph value (.document numbering)).2 = .document kept ∧
      (inParagraph = true → ∀ run ∈ rendered, itemLevels run = [] ∧ numberIds run = []) ∧
      (inParagraph = false → List.Forall₂ (IsLevelled kept) (Block.spoken forest) rendered) := by
  obtain ⟨blocks, allocator, kept, converted, isKept, isRendered, isStore⟩ := rendering_eq_ok made
  obtain ⟨start, text, forest, seeded, isText, isForest, rfl, rfl⟩ :=
    convert_document_eq_ok converted
  obtain ⟨after, rfl, declared⟩ := keep_declares _ rooted seeded isKept
  refine ⟨text, forest, after, isText, isForest, isStore, ?_, ?_⟩
  · rintro rfl run member
    exact ⟨itemLevels_of_toRuns isRendered member, numberIds_of_toRuns isRendered member⟩
  · rintro rfl
    have each := List.forall₂_map_left_iff.mp (forall₂_of_mapM isRendered)
    have among : ∀ piece ∈ Block.spoken forest, piece ∈ Block.pieces forest :=
      fun piece member => List.mem_of_mem_filter member
    have both := (List.forall₂_and_left _ _).mpr ⟨among, each⟩
    exact both.imp fun piece paragraph made => isLevelled_of_toParagraph declared made.1 made.2

/-! ### Rich text controls -/

/-- Paragraphs are on the levels of their pieces. -/
theorem map_itemLevels {pieces : List Block.Piece} {rendered : List Node}
    (each : List.Forall₂ (IsLevelled numbering) pieces rendered) :
    rendered.map itemLevels = pieces.map fun piece =>
      piece.enclosure.toList.map fun enclosure => toString (enclosure.depth - 1) := by
  induction each with
  | nil => rfl
  | cons levelled _ ih =>
    rw [List.map_cons, List.map_cons, ih]
    congr 1
    cases levelled with
    | plain outside noLevel noList => rw [noLevel, outside, Option.toList_none, List.map_nil]
    | item enclosure encloses isItem declared =>
      rw [isItem.level, encloses, Option.toList_some, List.map_singleton]

/-- All levels of some paragraphs are declared if and only if no piece is in too many lists. -/
theorem levelsDeclared_iff_of_levelled {pieces : List Block.Piece} {rendered : List Node}
    (each : List.Forall₂ (IsLevelled numbering) pieces rendered) :
    (∀ paragraph ∈ rendered, LevelsDeclared numbering paragraph) ↔
      ∀ piece ∈ pieces, ∀ enclosure ∈ piece.enclosure, enclosure.depth ≤ levelCount := by
  induction each with
  | nil => simp
  | cons levelled _ ih =>
    rw [List.forall_mem_cons, List.forall_mem_cons, ih]
    refine and_congr_left fun _ => ?_
    cases levelled with
    | plain outside noLevel noList => simp [LevelsDeclared, outside, noLevel]
    | item enclosure encloses isItem declared => simp [encloses, declared]

/-- A rich text control without a problem has got a value. -/
theorem exists_value_of_success {options : Options} {place : Place} {scope : Datum}
    {lists : ListStore} {node : Node} (isRich : (Control.read node).kind = .richText)
    (unconditional : (Control.read node).condition? = none)
    (success : (effect (populateControl options place scope node) lists).findings = []) :
    ∃ value, writtenValue? scope node = some value := by
  cases isValue : writtenValue? scope node with
  | none =>
    obtain ⟨problem, isAfter⟩ := effect_of_no_value options place lists isRich unconditional isValue
    rw [isAfter] at success
    cases success
  | some value => exact ⟨value, rfl⟩

/-- Each list paragraph that a rich text control gets is on the level below the number of lists
around it, and the instance that it belongs to leads to one abstract list among the definitions
that were kept, which declares nine levels. So the levels are declared if and only if no list is
nested deeper than that. -/
theorem populateControl_levels_items (options : Options) (place : Place) (scope : Datum)
    {node : Node} (rooted : (ListStore.document numbering).IsRooted)
    (isRich : (Control.read node).kind = .richText)
    (unconditional : (Control.read node).condition? = none)
    (success : (effect (populateControl options place scope node)
      (.document numbering)).findings = []) :
    let after := effect (populateControl options place scope node) (.document numbering)
    ∃ value text forest content rendered kept,
      writtenValue? scope node = some value ∧
      Scope.stringify value = .ok text ∧ Html.readForest text = .ok forest ∧
      Control.content? node = some content ∧
      after.value = [Control.fillRichText place.inParagraph rendered content node] ∧
      after.lists = .document kept ∧
      (place.inParagraph = true → ∀ run ∈ rendered, itemLevels run = [] ∧ numberIds run = []) ∧
      (place.inParagraph = false →
        List.Forall₂ (IsLevelled kept) (Block.spoken forest) rendered ∧
        ((∀ paragraph ∈ rendered, LevelsDeclared kept paragraph) ↔
          ∀ piece ∈ Block.spoken forest, ∀ enclosure ∈ piece.enclosure,
            enclosure.depth ≤ levelCount)) := by
  intro after
  obtain ⟨value, isValue⟩ := exists_value_of_success isRich unconditional success
  obtain ⟨-, -, selected⟩ := writtenValue?_eq_some isValue
  obtain ⟨content, rendered, isContent, made, isAfter⟩ :=
    effect_of_rendered isRich unconditional selected success
  obtain ⟨text, forest, kept, isText, isForest, isKept, inside, outside⟩ :=
    rendering_levelled rooted made
  refine ⟨value, text, forest, content, rendered, kept, isValue, isText, isForest, isContent, ?_, ?_,
    inside, ?_⟩
  · exact congrArg Effect.value isAfter
  · exact (congrArg Effect.lists isAfter).trans isKept
  · intro isOutside
    have each := outside isOutside
    exact ⟨each, levelsDeclared_iff_of_levelled each⟩

theorem findings_of_isWritten {options : Options} {place : Place} {scope : Datum}
    {lists : ListStore} {node : Node}
    (isWritten : (course options place scope lists node).isWritten) :
    (effect (populateControl options place scope node) lists).findings = [] := by
  rw [effect_populateControl]
  unfold Course.isWritten at isWritten
  split at isWritten
  · rename_i left kept items isCourse
    rw [isCourse]
    rfl
  · cases isWritten

/-- A list in a list gets paragraphs on two levels, and both are declared. -/
theorem populateControl_levels_items_nested :
    let scope := Datum.object [(.text "a", .text "<ul>x<ol>y")]
    let after := effect (populateControl .standard .outside scope sampleControl) (.document none)
    ∃ content rendered kept,
      Control.content? sampleControl = some content ∧
      after.value = [Control.fillRichText false rendered content sampleControl] ∧
      after.lists = .document kept ∧ rendered.map itemLevels = [["0"], ["1"]] ∧
      ∀ paragraph ∈ rendered, LevelsDeclared kept paragraph := by
  intro scope after
  have isRich : (Control.read sampleControl).kind = .richText := by decide
  have unconditional : (Control.read sampleControl).condition? = none := by decide
  have rooted : (ListStore.document none).IsRooted := nofun
  have success : after.findings = [] := findings_of_isWritten (by decide +kernel)
  have isNested : Html.readForest "<ul>x<ol>y" =
      .ok [.element "ul" [.string "x", .element "ol" [.string "y"]]] := by
    have scanned : Html.Event.scan "<ul>x<ol>y" =
        .ok [.startTag "ul", .text ['x'], .startTag "ol", .text ['y']] := by decide +kernel
    rw [Html.readForest, scanned]
    rfl
  obtain ⟨value, text, forest, content, rendered, kept, isValue, isText, isForest, isContent, filled,
    isKept, -, outside⟩ :=
    populateControl_levels_items .standard .outside scope rooted isRich unconditional success
  have label : (Control.read sampleControl).label = "a" := by decide
  have isSelected : Scope.resolve scope (Control.read sampleControl).label =
      .ok (some (.text "<ul>x<ol>y")) := by
    rw [label]
    rfl
  obtain ⟨-, -, isFound⟩ := writtenValue?_eq_some isValue
  obtain rfl := Option.some.inj (Except.ok.inj (isFound.symm.trans isSelected))
  obtain rfl : text = "<ul>x<ol>y" := (Except.ok.inj isText).symm
  obtain rfl := Except.ok.inj (isForest.symm.trans isNested)
  obtain ⟨each, declared⟩ := outside rfl
  have pieces : Block.spoken [.element "ul" [.string "x", .element "ol" [.string "y"]]] =
      [[⟨"x", some ⟨0, .bullet, 1⟩⟩], [⟨"y", some ⟨0, .bullet, 2⟩⟩]] := by
    decide +kernel
  rw [pieces] at each declared
  exact ⟨content, rendered, kept, isContent, filled, isKept, map_itemLevels each,
    declared.mpr (by decide)⟩

/-- Whether a control takes a paragraph on the level below nine lists, which is not declared. -/
def Course.missesLevel : Course → Bool
  | .written left none (.document numbering) _ =>
    left.elements.any fun paragraph => paragraph.isNamed Word.paragraph &&
      itemLevels paragraph == [toString levelCount] && !decide (LevelsDeclared numbering paragraph)
  | _ => false

/-- Ten nested lists: the item is on the tenth level, but its definition declares nine. -/
theorem tenLists_miss_level :
    let scope := Datum.object [(.text "a", .text "<ul><ul><ul><ul><ul><ul><ul><ul><ul><ul>x")]
    let after := effect (populateControl .standard .outside scope sampleControl) (.document none)
    after.findings = [] ∧ ∃ kept, after.lists = .document kept ∧
      ∃ paragraph ∈ Node.elementsOf after.value, paragraph.isNamed Word.paragraph ∧
        itemLevels paragraph = ["9"] ∧ ¬ LevelsDeclared kept paragraph := by
  intro scope after
  have misses : (course .standard .outside scope (.document none) sampleControl).missesLevel := by
    decide +kernel
  unfold Course.missesLevel at misses
  split at misses
  · rename_i left kept items isCourse
    obtain ⟨paragraph, among, isMissed⟩ := List.any_eq_true.mp misses
    rw [Bool.and_eq_true, Bool.and_eq_true, beq_iff_eq, Bool.not_eq_true', decide_eq_false_iff_not]
      at isMissed
    obtain ⟨⟨named, levels⟩, undeclared⟩ := isMissed
    have isAfter : after = ⟨[left], .document kept, []⟩ := by
      change effect _ _ = _
      rw [effect_populateControl, isCourse]
      rfl
    rw [isAfter]
    refine ⟨rfl, kept, rfl, paragraph, ?_, named, levels, undeclared⟩
    rw [Node.elementsOf_singleton]
    exact among
  · cases misses

end TemplateFill.Walk
