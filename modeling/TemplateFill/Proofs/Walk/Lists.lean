import TemplateFill.Proofs.Block.Conversion
import TemplateFill.Proofs.Numbering.Freshness
import TemplateFill.Proofs.Walk.Account

/-!
# The lists of a walk

Every rich text seeds an allocator from the definitions that all texts before it have left, and
merges its own lists into them. A walk therefore keeps the definitions well numbered, and every
list paragraph that it makes leads to a definition of its format, then and after all that
follows.
-/

namespace TemplateFill.Walk

open Xml
open TemplateFill.Numbering (Format Allocator WellNumbered Extends Defines)

/-! ### List paragraphs -/

/-- The instances that a paragraph says it belongs to. -/
def numberIds (paragraph : Node) : List String :=
  (paragraph.named Word.listInstanceId).filterMap (·.attribute? Word.value)

theorem numberIds_of_textRun {text : String} {run : Node} (made : Block.textRun text = .ok run) :
    run.elements.filter (·.isNamed Word.listInstanceId) = [] := by
  unfold Block.textRun at made
  split at made
  · cases made
    rfl
  · cases made

theorem numberIds_of_itemProperties {place : Block.Place} {properties : Node}
    (made : Block.itemProperties place = .ok properties) :
    (properties.elements.filter (·.isNamed Word.listInstanceId)).filterMap
      (·.attribute? Word.value) = [toString place.list] := by
  obtain ⟨level, isLevel, made⟩ := bind_eq_ok made
  obtain ⟨list, isList, made⟩ := bind_eq_ok made
  obtain ⟨levelText, -, rfl⟩ := map_eq_ok isLevel
  obtain ⟨listText, written, rfl⟩ := map_eq_ok isList
  cases made
  obtain ⟨rfl, -⟩ := Number.writeNumeral_eq_ok written
  rfl

/-- A paragraph belongs to the list of its block, and to no list if its block has none. -/
theorem numberIds_of_toParagraph {block : Block} {paragraph : Node}
    (made : block.toParagraph = .ok paragraph) :
    numberIds paragraph = block.place.toList.map fun place => toString place.list := by
  obtain ⟨text, place⟩ := block
  obtain ⟨properties, isMade, made⟩ := bind_eq_ok made
  obtain ⟨run, isRun, made⟩ := bind_eq_ok made
  cases made
  have noId := numberIds_of_textRun isRun
  have ids : numberIds (Word.makeParagraph (properties.toList ++ [run])) =
      (properties.toList.flatMap fun node =>
        node.elements.filter (·.isNamed Word.listInstanceId)).filterMap
          (·.attribute? Word.value) := by
    change (List.filter _ (_ :: Node.elementsOf (properties.toList ++ [run]))).filterMap _ = _
    rw [List.filter_cons_of_neg (by simp [Node.isNamed, Node.name?]),
      Node.elementsOf_eq_flatMap, List.filter_flatMap, List.flatMap_append]
    simp [noId]
  rw [ids]
  cases place with
  | none =>
    cases isMade
    rfl
  | some place =>
    have one := mapError_eq_ok isMade
    rw [Option.mapM_some] at one
    obtain ⟨node, isNode, rfl⟩ := map_eq_ok one
    simp [numberIds_of_itemProperties isNode]

/-! ### Keeping lists -/

variable {numbering : Option Node}

/-- Keeping what was allocated for a document adds to its definitions, and unless there is a
fault it defines all of it. -/
theorem keep_allocated {start : Allocator} (formats : List Format)
    (wellNumbered : WellNumbered numbering)
    (seeded : Allocator.ofNumbering numbering = .ok start) :
    ∃ after fault,
      (ListStore.document numbering).keep (start.allocateAll formats) = (.document after, fault) ∧
      WellNumbered after ∧ Extends numbering after ∧
      (fault = none → ∀ (i : Nat) format, formats[i]? = some format →
        Defines after (toString (start.nextInstance + i)) format) := by
  have isSeeded := Allocator.isSeeded_of_ofNumbering seeded
  unfold ListStore.keep
  simp only [Allocator.allocateAll, isSeeded.abstracts, isSeeded.instances, List.nil_append]
  split
  · rename_i nothing
    refine ⟨numbering, none, rfl, wellNumbered, .refl _, fun _ i format isFormat => ?_⟩
    cases formats with
    | nil => cases isFormat
    | cons first rest => cases nothing
  · exact ⟨_, _, rfl, Numbering.wellNumbered_merge formats wellNumbered.rootOf isSeeded.rootOf,
      Numbering.extends_merge formats numbering,
      fun faultless i format isFormat => Numbering.defines_merge formats
        (wellNumbered.rootOf.isElement _ rfl) faultless isFormat⟩

/-! ### Rendering for a document -/

/-- A list paragraph belongs to one list, which is defined with its format. -/
def ListItem.LeadsTo (numbering : Option Node) (item : ListItem) : Prop :=
  ∃ id, numberIds item.paragraph = [id] ∧ Defines numbering id item.format

/-- What a value is converted to. -/
theorem convert_eq_ok {lists : ListStore} {value : Datum} {blocks : List Block}
    {allocator : Allocator} (converted : lists.convert value = .ok (blocks, allocator)) :
    ∃ start text forest, lists.allocator? = .ok start ∧
      Scope.stringify value = .ok text ∧ Html.readForest text = .ok forest ∧
      blocks = (Block.spoken forest).map (Block.Piece.block start) ∧
      allocator = start.allocateAll (Block.outermostListsOf forest) := by
  obtain ⟨start, isStart, converted⟩ := bind_eq_ok converted
  obtain ⟨text, isText, converted⟩ := bind_eq_ok converted
  rw [Block.convert_eq] at converted
  obtain ⟨forest, isForest, made⟩ := map_eq_ok (mapError_eq_ok converted)
  cases made
  exact ⟨start, text, forest, isStart, isText, isForest, rfl, rfl⟩

/-- What a value is converted to for a document. -/
theorem convert_document_eq_ok {value : Datum} {blocks : List Block} {allocator : Allocator}
    (converted : (ListStore.document numbering).convert value = .ok (blocks, allocator)) :
    ∃ start text forest, Allocator.ofNumbering numbering = .ok start ∧
      Scope.stringify value = .ok text ∧ Html.readForest text = .ok forest ∧
      blocks = (Block.spoken forest).map (Block.Piece.block start) ∧
      allocator = start.allocateAll (Block.outermostListsOf forest) := by
  obtain ⟨start, text, forest, isSeeded, made⟩ := convert_eq_ok converted
  exact ⟨start, text, forest, mapError_eq_ok isSeeded, made⟩

/-- A list paragraph comes from a piece in a list, and belongs to the list of that piece. -/
theorem numberIds_of_mem_listItems {pieces : List Block.Piece} {start : Allocator}
    {rendered : List Node}
    (made : Block.toParagraphs (pieces.map (Block.Piece.block start)) = .ok rendered)
    {item : ListItem} (member : item ∈ listItems pieces rendered) :
    ∃ piece ∈ pieces, ∃ enclosure, piece.enclosure = some enclosure ∧
      item.format = enclosure.format ∧
      numberIds item.paragraph = [toString (start.nextInstance + enclosure.list)] := by
  obtain ⟨⟨piece, paragraph⟩, among, isItem⟩ := List.mem_filterMap.mp member
  obtain ⟨enclosure, encloses, rfl⟩ := Option.map_eq_some_iff.mp isItem
  have isParagraph : (piece.block start).toParagraph = .ok paragraph :=
    List.forall₂_zip (List.forall₂_map_left_iff.mp (forall₂_of_mapM made)) among
  refine ⟨piece, (List.of_mem_zip among).1, enclosure, encloses, rfl, ?_⟩
  rw [numberIds_of_toParagraph isParagraph, Block.Piece.block, encloses]
  rfl

/-- No other paragraph belongs to a list. -/
theorem exists_listItem_of_numberIds {pieces : List Block.Piece} {start : Allocator}
    {rendered : List Node}
    (made : Block.toParagraphs (pieces.map (Block.Piece.block start)) = .ok rendered)
    {paragraph : Node} (member : paragraph ∈ rendered) (belongs : numberIds paragraph ≠ []) :
    ∃ item ∈ listItems pieces rendered, item.paragraph = paragraph := by
  have each := List.forall₂_map_left_iff.mp (forall₂_of_mapM made)
  have pairs : List.Forall₂ (fun piece paragraph => (piece, paragraph) ∈ pieces.zip rendered)
      pieces rendered :=
    List.forall₂_iff_zip.mpr ⟨each.length_eq, id⟩
  obtain ⟨piece, -, among⟩ := exists_left_of_mem pairs member
  have ids := numberIds_of_toParagraph (List.forall₂_zip each among)
  cases encloses : piece.enclosure with
  | none =>
    rw [Block.Piece.block, encloses] at ids
    exact absurd ids belongs
  | some enclosure =>
    refine ⟨⟨paragraph, enclosure.format⟩, List.mem_filterMap.mpr ⟨_, among, ?_⟩, rfl⟩
    simp only [encloses, Option.map_some]

/-- Inside a paragraph there are runs with texts and runs with breaks. -/
theorem run_of_mem_toRuns {blocks : List Block} {rendered : List Node}
    (made : Block.toRuns blocks = .ok rendered) {node : Node} (member : node ∈ rendered) :
    (∃ text, Block.textRun text = .ok node) ∨ node = Word.makeRun [Word.makeBreak] := by
  obtain ⟨runs, isRuns, made⟩ := bind_eq_ok made
  cases made
  obtain ⟨i, isAt⟩ := List.mem_iff_getElem?.mp member
  rw [List.getElem?_intersperse] at isAt
  split at isAt
  · obtain ⟨block, -, isText⟩ :=
      exists_left_of_mem (forall₂_of_mapM isRuns) (List.mem_of_getElem? isAt)
    exact .inl ⟨block.text, isText⟩
  · split at isAt
    · exact .inr (Option.some.inj isAt).symm
    · cases isAt

/-- Inside a paragraph nothing belongs to a list. -/
theorem numberIds_of_toRuns {blocks : List Block} {rendered : List Node}
    (made : Block.toRuns blocks = .ok rendered) {node : Node} (member : node ∈ rendered) :
    numberIds node = [] := by
  rcases run_of_mem_toRuns made member with ⟨text, isText⟩ | rfl
  · rw [numberIds, Node.named, numberIds_of_textRun isText]
    rfl
  · rfl

/-- A rich text keeps the definitions of a document well numbered, and its list paragraphs lead
to definitions. -/
theorem rendering_document (inParagraph : Bool) (value : Datum)
    (wellNumbered : WellNumbered numbering) :
    ∃ after, (rendering inParagraph value (.document numbering)).2 = .document after ∧
      WellNumbered after ∧ Extends numbering after ∧
      ∀ rendered, (rendering inParagraph value (.document numbering)).1 = .ok rendered →
        ∀ item ∈ itemsMade inParagraph value rendered, item.LeadsTo after := by
  unfold rendering
  cases converted : (ListStore.document numbering).convert value with
  | error cause => exact ⟨numbering, rfl, wellNumbered, .refl _, fun _ made => nomatch made⟩
  | ok result =>
    obtain ⟨blocks, allocator⟩ := result
    obtain ⟨start, text, forest, seeded, isText, isForest, rfl, rfl⟩ :=
      convert_document_eq_ok converted
    obtain ⟨after, fault, isKept, wellKept, extended, defined⟩ :=
      keep_allocated (Block.outermostListsOf forest) wellNumbered seeded
    simp only [isKept]
    cases fault with
    | some cause => exact ⟨after, rfl, wellKept, extended, fun _ made => nomatch made⟩
    | none =>
      refine ⟨after, rfl, wellKept, extended, fun rendered made item member => ?_⟩
      cases inParagraph with
      | true => cases member
      | false =>
        have isItem : item ∈ listItems (Block.spoken forest) rendered := by
          simpa [itemsMade, isText, isForest, Except.bind, Except.mapError] using member
        obtain ⟨piece, among, enclosure, encloses, isFormat, ids⟩ :=
          numberIds_of_mem_listItems made isItem
        refine ⟨_, ids, isFormat ▸ defined rfl enclosure.list enclosure.format ?_⟩
        exact Block.format_of_enclosure (List.mem_of_mem_filter among) encloses

/-- The list paragraphs that are told about are all that a rich text puts into a list. -/
theorem exists_item_of_numberIds {inParagraph : Bool} {value : Datum} {rendered : List Node}
    (made : (rendering inParagraph value (.document numbering)).1 = .ok rendered)
    {node : Node} (member : node ∈ rendered) (belongs : numberIds node ≠ []) :
    ∃ item ∈ itemsMade inParagraph value rendered, item.paragraph = node := by
  obtain ⟨blocks, allocator, kept, converted, -, isRendered, -⟩ := rendering_eq_ok made
  obtain ⟨start, text, forest, -, isText, isForest, rfl, -⟩ := convert_document_eq_ok converted
  cases inParagraph with
  | true => exact absurd (numberIds_of_toRuns isRendered member) belongs
  | false =>
    obtain ⟨item, isItem, isNode⟩ := exists_listItem_of_numberIds isRendered member belongs
    refine ⟨item, ?_, isNode⟩
    simpa [itemsMade, isText, isForest, Except.bind, Except.mapError] using isItem

/-! ### Values without lists -/

/-- Whether a value is a page text with a list in it, and so with an outermost one. -/
def holdsList (value : Datum) : Bool :=
  match Scope.stringify value with
  | .error _ => false
  | .ok text =>
    match Html.readForest text with
    | .error _ => false
    | .ok forest => !(Block.outermostListsOf forest).isEmpty

/-- An allocator that has not handed out anything leaves no trace. -/
theorem keep_start {lists : ListStore} {start : Allocator}
    (isStart : lists.allocator? = .ok start) : lists.keep start = (lists, none) := by
  cases lists with
  | document numbering =>
    have isSeeded := Allocator.isSeeded_of_ofNumbering (mapError_eq_ok isStart)
    simp [ListStore.keep, isSeeded.abstracts, isSeeded.instances]
  | free allocator =>
    cases isStart
    rfl

/-- Without lists a rich text leaves those of the walk as they are. -/
theorem rendering_of_no_list {value : Datum} (none : holdsList value = false)
    (inParagraph : Bool) (lists : ListStore) : (rendering inParagraph value lists).2 = lists := by
  unfold rendering
  cases converted : lists.convert value with
  | error cause => rfl
  | ok result =>
    obtain ⟨blocks, allocator⟩ := result
    obtain ⟨start, text, forest, isStart, isText, isForest, -, rfl⟩ := convert_eq_ok converted
    have nothing : Block.outermostListsOf forest = [] := by
      simpa [holdsList, isText, isForest] using none
    simp only [nothing, Allocator.allocateAll_nil, keep_start isStart]

end TemplateFill.Walk
