import Mathlib.Data.List.TakeDrop
import Mathlib.Data.List.TakeWhile
import TemplateFill.Proofs.Control.PlainText
import TemplateFill.Proofs.Traversal
import TemplateFill.Proofs.Walk.Clearing
import TemplateFill.Proofs.Walk.Course
import TemplateFill.Proofs.Xml.First

/-!
# Writers only pare

A text is written into a control by removing what was there, by changing texts and attributes,
and by putting in runs or paragraphs. Each of the operations that this is made of pares the tree
that it is given, and so do the writers. A plain text does not even remove what it likes, it only
clears.
-/

namespace TemplateFill.Walk

open Xml

def pieceNames : List Name := [Word.runText, Word.lineBreak]

/-- The elements that texts in a paragraph are made of. -/
def runNames : List Name := Word.run :: pieceNames

/-- The elements that say to which list a paragraph belongs. -/
def itemNames : List Name :=
  [Word.paragraphProperties, .word "numPr", Word.listLevel, Word.listInstanceId]

/-- The elements that a text is made of, inside a paragraph or elsewhere. -/
def textNames (inParagraph : Bool) : List Name :=
  if inParagraph then runNames else Word.paragraph :: (itemNames ++ runNames)

theorem runNames_subset (inParagraph : Bool) : runNames ⊆ textNames inParagraph := by
  intro name member
  cases inParagraph with
  | true => exact member
  | false => exact List.mem_cons_of_mem _ (List.mem_append_right _ member)

variable {written : List Name} {place : Place} {node old new : Node} {nodes left : List Node}
  {name own : Name}

/-- Paring may remove anything. -/
theorem Pared.prune (p : Node → Bool) (node : Node) (place : Place) :
    Pared written place [node] [node.prune p] :=
  Edited.prune (fun _ _ => trivial) node place

/-! ### What is put in -/

/-- Whatever is no paragraph and holds none may stand everywhere. -/
theorem admits_of_no_paragraph (node : Node) :
    (∀ x ∈ node.elements, ¬ x.isNamed Word.paragraph) → ∀ place : Place, place.Admits node := by
  induction node using Node.induction with
  | element name lineage traits children ih =>
    intro free place
    refine ⟨?_, Place.admitsAll_iff.mpr fun child member => ih child member (fun x inside => ?_) _⟩
    · rintro ⟨-, rfl⟩
      exact free _ List.mem_cons_self rfl
    · exact free x (List.mem_cons_of_mem _ (Node.mem_elementsOf member inside))
  | aside content tail => exact fun free place => trivial

/-- What is made of no paragraph is taken everywhere. -/
theorem IsMadeOf.takes (h : IsMadeOf written node) (free : Word.paragraph ∉ written)
    (place : Place) : place.Takes written node :=
  ⟨admits_of_no_paragraph node (h.none_named free) place, h⟩

theorem IsMadeOf.takes_run (h : IsMadeOf runNames node) (place : Place) :
    place.Takes runNames node := h.takes (by decide) place

theorem IsMadeOf.takes_piece (h : IsMadeOf pieceNames node) (place : Place) :
    place.Takes pieceNames node := h.takes (by decide) place

theorem isMadeOf_element {lineage : Lineage} {traits : Traits} {children : List Node} :
    IsMadeOf written (.element name lineage traits children) ↔
      (lineage = [] ∧ name ∈ written) ∧ ∀ child ∈ children, IsMadeOf written child := by
  constructor
  · intro h
    obtain ⟨unnamed, other, isWritten, named⟩ := h _ List.mem_cons_self
    obtain rfl := Option.some.inj (Node.isNamed_iff.mp named)
    refine ⟨⟨unnamed, isWritten⟩, fun child member x inside => ?_⟩
    exact h x (List.mem_cons_of_mem _ (Node.mem_elementsOf member inside))
  · rintro ⟨⟨rfl, isWritten⟩, below⟩ x member
    rcases Node.mem_elements_element.mp member with rfl | inside
    · exact ⟨rfl, name, isWritten, beq_self_eq_true _⟩
    · obtain ⟨child, among, within⟩ := Node.mem_elementsOf_iff.mp inside
      exact below child among x within

theorem isMadeOf_plain {attributes : List (Name × String)} {children : List Node} :
    IsMadeOf written (.plain name attributes children) ↔
      name ∈ written ∧ ∀ child ∈ children, IsMadeOf written child := by
  rw [Node.plain, isMadeOf_element, and_iff_right rfl]

theorem isMadeOf_makeText (content : String) : IsMadeOf pieceNames (Word.makeText content) := by
  rw [Word.makeText, Node.plain, Node.setText]
  exact isMadeOf_element.mpr ⟨⟨rfl, by decide⟩, List.forall_mem_nil _⟩

theorem isMadeOf_makeBreak : IsMadeOf pieceNames Word.makeBreak :=
  isMadeOf_plain.mpr ⟨by decide, fun _ member => nomatch member⟩

theorem isMadeOf_makeRun (pieces : ∀ piece ∈ nodes, IsMadeOf pieceNames piece) :
    IsMadeOf runNames (Word.makeRun nodes) :=
  isMadeOf_plain.mpr ⟨by decide, fun piece member => (pieces piece member).mono (by decide)⟩

theorem isMadeOf_textRun {text : String} {run : Node} (made : Block.textRun text = .ok run) :
    IsMadeOf runNames run := by
  unfold Block.textRun at made
  split at made
  · cases made
    refine isMadeOf_makeRun fun piece member => ?_
    rw [List.mem_singleton.mp member]
    exact isMadeOf_makeText text
  · cases made

/-! ### Lines -/

theorem isMadeOf_furtherLines (lines : List String) :
    ∀ piece ∈ (Control.furtherLines lines).1, IsMadeOf pieceNames piece := by
  induction lines with
  | nil => exact fun _ member => nomatch member
  | cons line rest ih =>
    intro piece member
    rw [Control.furtherLines] at member
    split at member
    · rcases List.mem_cons.mp member with rfl | member
      · exact isMadeOf_makeBreak
      · rcases List.mem_cons.mp member with rfl | member
        · exact isMadeOf_makeText line
        · exact ih piece member
    · rw [List.mem_singleton.mp member]
      exact isMadeOf_makeBreak

theorem cleared_writeInto {piece : Node} (named : piece.isNamed Word.runText) (first : String)
    (rest : List String) (place : Place) :
    Cleared pieceNames place [piece] (Control.writeInto piece first rest).1 := by
  have isWritten : Word.runText ∈ pieceNames := by decide
  have changed (line : String) : Cleared pieceNames place [piece] [piece.setText line] :=
    .setText line named isWritten
  rw [Control.writeInto]
  split
  · have still : (piece.setText first).isNamed Word.runText := by
      rwa [Node.isNamed, Node.name?_setText]
    have text := (changed first).again
      (Edited.setAttribute Word.spaceMode "preserve" still isWritten)
    exact text.putBehind fun node member => (isMadeOf_furtherLines rest node member).takes_piece place
  · exact changed ""

theorem isSpent_of_isPiece (isPiece : Control.isPiece node) : IsSpent node := by
  simp only [Control.isPiece, Bool.or_eq_true] at isPiece
  rcases isPiece with (isText | isBreak) | isReturn
  · exact isSpent_of_isNamed (by decide) isText
  · exact isSpent_of_isNamed (by decide) isBreak
  · exact isSpent_of_isNamed (by decide) isReturn

/-- Writing into the content of a run removes pieces and puts in others. -/
theorem cleared_writeContent (first : String) (rest : List String) (content : List Node)
    (place : Place) :
    Cleared pieceNames place content (Control.writeContent first rest content).1 := by
  have others (nodes : List Node) :
      Cleared pieceNames place nodes (nodes.filter (!Control.isPiece ·)) :=
    .filter fun x _ gone => isSpent_of_isPiece (by simpa using gone)
  have whole := List.takeWhile_append_dropWhile (p := fun node => !node.isNamed Word.runText)
    (l := content)
  rw [Control.writeContent, List.span_eq_takeWhile_dropWhile]
  generalize content.takeWhile (fun node => !node.isNamed Word.runText) = before at whole ⊢
  cases isBehind : content.dropWhile fun node => !node.isNamed Word.runText with
  | cons piece after =>
    have named : piece.isNamed Word.runText := by
      have stops := List.head?_dropWhile_not (fun node => !node.isNamed Word.runText) content
      simpa [isBehind] using stops
    rw [isBehind] at whole
    have pieces := cleared_writeInto named first rest place
    rw [← whole, ← List.singleton_append, ← List.append_assoc]
    exact ((others _).append pieces).append (others after)
  | nil =>
    rw [isBehind, List.append_nil] at whole
    rw [← whole]
    dsimp only
    split
    · refine (others before).putBehind fun node member => ?_
      rcases List.mem_cons.mp member with rfl | member
      · exact (isMadeOf_makeText first).takes_piece place
      · exact (isMadeOf_furtherLines rest node member).takes_piece place
    · exact others before

theorem cleared_writeRun {run : Node} (named : run.isNamed Word.run) (lines : List String)
    (place : Place) : Cleared pieceNames place [run] [(Control.writeRun lines run).1] := by
  cases lines with
  | nil => exact .refl run place
  | cons first rest => exact .withChildren named (cleared_writeContent first rest run.children _)

/-! ### Plain text -/

theorem isControl_replaceChild (child : Node) :
    Control.isControl (node.replaceChild name child) = Control.isControl node := by
  rw [Control.isControl, Node.isNamed, Node.replaceChild, Node.name?_withChildren]
  rfl

theorem cleared_unmark (isControl : Control.isControl node) (place : Place) :
    Cleared written place [node] [Control.unmark node] := by
  unfold Control.unmark
  split
  · exact .refl node place
  · rename_i properties isProperties
    have isMark : ∀ x : Node, x.isNamed Word.placeholderMark → IsSpent x := fun x named =>
      isSpent_of_isNamed (by decide) named
    exact .replaceChild isControl isProperties
      (Cleared.removeChildren isMark (List.find?_some isProperties))

variable {content : Node}

theorem cleared_finishPlainText (isControl : Control.isControl node)
    (isContent : Control.content? node = some content) {after : Node} (fault : Option Fault)
    (below : Cleared written (place.enter Word.control) [content] [after]) :
    Cleared written place [node] [(Control.finishPlainText node after fault).1] := by
  cases fault with
  | some fault => exact .replaceChild isControl isContent below
  | none =>
    have isStyle : ∀ x, Control.isPlaceholderStyle x → IsSpent x := fun x styled =>
      isSpent_of_isNamed (by decide) ((Bool.and_eq_true _ _).mp styled).1
    have pruned := below.again (Edited.prune isStyle after _)
    have replaced := Edited.replaceChild isControl isContent pruned
    exact Cleared.again replaced (cleared_unmark (by rwa [isControl_replaceChild]) place)

theorem not_isNamed_run_of_area (isArea : content.isNamed Word.controlContent) :
    content.isNamed Word.run = false := by
  rw [Node.isNamed, Node.isNamed_iff.mp isArea]
  rfl

/-- Writing into an area clears it. -/
theorem cleared_writeArea (isArea : content.isNamed Word.controlContent) {lines : List String}
    {area : Node} {fault : Option Fault}
    (isWritten : Control.writeArea lines content = some (area, fault)) (place : Place) :
    Cleared runNames place [content] [area] := by
  have isRunName : Word.run ∈ spentNames := by decide
  have pruned : Cleared runNames place [content] _ := .keepFirst isRunName false content place
  unfold Control.writeArea at isWritten
  simp only at isWritten
  split at isWritten
  · rename_i run rest isFirst
    cases isWritten
    refine pruned.again (.mapNamed _ (fun x inside named place _ _ => ?_) _)
    obtain rfl : x = run :=
      Node.eq_of_named_keepFirst (not_isNamed_run_of_area isArea) isFirst inside named
    exact (cleared_writeRun named lines place).mono (by decide)
  · split at isWritten
    · cases isWritten
    · cases isWritten
      refine pruned.again (.mapNamed _ (fun x inside named place content below => ?_) _)
      have fresh : IsMadeOf runNames (Word.makeRun []) :=
        isMadeOf_makeRun fun _ member => nomatch member
      have isRun : (Word.makeRun []).isNamed Word.run := rfl
      have written : Cleared runNames (place.enter Word.paragraph) [Word.makeRun []] _ :=
        (cleared_writeRun isRun lines _).mono (by decide)
      obtain ⟨lineage, traits, children, rfl⟩ := Node.exists_of_isNamed named
      exact .keep (.inl rfl) (below.putBehind (written.pared.takes_of_takes (fresh.takes_run _)))
        .nil

/-- Whatever a plain text does to its control, it clears it. -/
theorem cleared_fillPlainText (isControl : Control.isControl node) (tag : String)
    (replaceLineBreaks : Bool) (value : String) (place : Place) :
    Cleared runNames place [node]
      [(Control.fillPlainText tag replaceLineBreaks value node).1] := by
  rw [Control.fillPlainText_eq]
  split
  · exact .refl node place
  · rename_i content isContent
    split
    · exact .refl node place
    · split
      · exact .refl node place
      · rename_i area fault isWritten
        exact cleared_finishPlainText isControl isContent fault
          (cleared_writeArea (List.find?_some isContent) isWritten _)

/-! ### Rich text -/

theorem isMadeOf_toRuns {blocks : List Block} {rendered : List Node}
    (made : Block.toRuns blocks = .ok rendered) : ∀ node ∈ rendered, IsMadeOf runNames node := by
  obtain ⟨runs, isRuns, made⟩ := bind_eq_ok made
  cases made
  intro node member
  obtain ⟨i, isAt⟩ := List.mem_iff_getElem?.mp member
  rw [List.getElem?_intersperse] at isAt
  split at isAt
  · obtain ⟨block, -, isText⟩ :=
      exists_left_of_mem (forall₂_of_mapM isRuns) (List.mem_of_getElem? isAt)
    exact isMadeOf_textRun isText
  · split at isAt
    · cases isAt
      refine isMadeOf_makeRun fun piece member => ?_
      rw [List.mem_singleton.mp member]
      exact isMadeOf_makeBreak
    · cases isAt

theorem isMadeOf_numberSetting {setting : Node} {n : Int} (isItem : name ∈ itemNames)
    (made : Word.makeNumberSetting name n = .ok setting) : IsMadeOf itemNames setting := by
  obtain ⟨text, -, rfl⟩ := map_eq_ok made
  exact isMadeOf_plain.mpr ⟨isItem, fun _ member => nomatch member⟩

theorem isMadeOf_itemProperties {place : Block.Place} {properties : Node}
    (made : Block.itemProperties place = .ok properties) : IsMadeOf itemNames properties := by
  obtain ⟨level, isLevel, made⟩ := bind_eq_ok made
  obtain ⟨list, isList, made⟩ := bind_eq_ok made
  cases made
  have levelMade := isMadeOf_numberSetting (by decide) isLevel
  have listMade := isMadeOf_numberSetting (by decide) isList
  refine isMadeOf_plain.mpr ⟨by decide, fun child member => ?_⟩
  rw [List.mem_singleton.mp member]
  refine isMadeOf_plain.mpr ⟨by decide, fun setting member => ?_⟩
  rcases List.mem_cons.mp member with rfl | member
  · exact levelMade
  · rw [List.mem_singleton.mp member]
    exact listMade

/-- A paragraph of text is taken wherever no paragraph is around. -/
theorem takes_makeParagraph (outside : place.inParagraph = false)
    (content : ∀ node ∈ nodes, IsMadeOf (itemNames ++ runNames) node) :
    place.Takes (textNames false) (Word.makeParagraph nodes) := by
  constructor
  · refine ⟨fun inside => by simp [outside] at inside, Place.admitsAll_iff.mpr ?_⟩
    intro node member
    exact ((content node member).takes (by decide) _).admits
  · refine isMadeOf_plain.mpr ⟨List.mem_cons_self, fun node member => ?_⟩
    exact (content node member).mono (List.subset_cons_self _ _)

theorem takes_toParagraph {block : Block} {paragraph : Node} (outside : place.inParagraph = false)
    (made : block.toParagraph = .ok paragraph) : place.Takes (textNames false) paragraph := by
  obtain ⟨properties, isMade, made⟩ := bind_eq_ok made
  obtain ⟨run, isRun, made⟩ := bind_eq_ok made
  cases made
  refine takes_makeParagraph outside fun node member => ?_
  rcases List.mem_append.mp member with inside | inside
  · obtain ⟨text, place⟩ := block
    cases place with
    | none =>
      cases isMade
      cases inside
    | some place =>
      have one := mapError_eq_ok isMade
      rw [Option.mapM_some] at one
      obtain ⟨item, isItem, rfl⟩ := map_eq_ok one
      rw [Option.mem_toList.mp inside |> Option.some.inj |>.symm]
      exact (isMadeOf_itemProperties isItem).mono (List.subset_append_left _ _)
  · rw [List.mem_singleton.mp inside]
    exact (isMadeOf_textRun isRun).mono (List.subset_append_right _ _)

/-- What blocks have become is taken where it was made for. -/
theorem takes_render {inParagraph : Bool} {blocks : List Block} {rendered : List Node}
    (made : Block.render inParagraph blocks = .ok rendered) (place : Place)
    (here : place.inParagraph = inParagraph) : ∀ node ∈ rendered,
      place.Takes (textNames inParagraph) node := by
  intro node member
  cases inParagraph with
  | true => exact (isMadeOf_toRuns made node member).takes_run place
  | false =>
    obtain ⟨block, -, isMade⟩ := exists_left_of_mem (forall₂_of_mapM made) member
    exact takes_toParagraph here isMade

theorem pared_replaceContent (named : node.isNamed own)
    (taken : ∀ x ∈ nodes, (place.enter own).Takes written x) :
    Pared written place [node] [Control.replaceContent nodes node] := by
  have kept : (node.childrenNamed Word.cellProperties).Sublist node.children := List.filter_sublist
  exact .withChildren named ((Pared.of_sublist kept).putBehind taken)

theorem pared_ensureParagraph (named : node.isNamed Word.cell) (place : Place) :
    Pared (textNames false) place [node] [Control.ensureParagraph node] := by
  unfold Control.ensureParagraph
  split
  · exact .refl node place
  · refine .withChildren named ((Edited.reflAll _).putBehind fun child member => ?_)
    rw [List.mem_singleton.mp member]
    exact takes_makeParagraph rfl fun _ member => nomatch member

theorem pared_placeRendered {inParagraph : Bool} {blocks : List Block} {rendered : List Node}
    (made : Block.render inParagraph blocks = .ok rendered) (place : Place)
    (here : place.inParagraph = inParagraph) (named : node.isNamed Word.controlContent) :
    Pared (textNames inParagraph) place [node] [Control.placeRendered inParagraph rendered node] := by
  have inside := pared_replaceContent named (takes_render made (place.enter Word.controlContent) here)
  unfold Control.placeRendered
  cases inParagraph with
  | true => exact inside
  | false =>
    rw [if_neg Bool.false_ne_true]
    split
    · rename_i children isUpdated
      refine .withChildren named (.updateFirstOf? (fun cell isCell place => ?_) _ isUpdated _)
      have filled := pared_replaceContent isCell (takes_render made (place.enter Word.cell) rfl)
      refine filled.again (pared_ensureParagraph ?_ place)
      rwa [Node.isNamed, Control.replaceContent, Node.name?_withChildren]
    · exact inside

/-- Whatever a rich text does to its control, it pares it, and inside a paragraph it puts in
nothing but runs. -/
theorem pared_fillRichText (isControl : Control.isControl node)
    (isContent : Control.content? node = some content) {blocks : List Block} {rendered : List Node}
    (made : Block.render place.inParagraph blocks = .ok rendered) :
    Pared (textNames place.inParagraph) place [node]
      [Control.fillRichText place.inParagraph rendered content node] := by
  have area := pared_placeRendered made (place.enter Word.control) rfl (List.find?_some isContent)
  have replaced := Edited.replaceChild isControl isContent area
  exact Pared.again replaced (cleared_unmark (by rwa [isControl_replaceChild]) place).pared

/-! ### Every course -/

/-- What a control on its course leaves, if it is written into. -/
def Course.Leaves (P : Node → Prop) : Course → Prop
  | .written left _ _ _ => P left
  | _ => True

section Leaves

variable {options : Options} {scope value : Datum} {lists : ListStore} {P : Node → Prop}
  {tag : String}

theorem render_of_rendering {inParagraph : Bool} {rendered : List Node} {kept : ListStore}
    (made : rendering inParagraph value lists = (.ok rendered, kept)) :
    ∃ blocks, Block.render inParagraph blocks = .ok rendered := by
  unfold rendering at made
  split at made
  · cases made
  · split at made
    · cases made
    · exact ⟨_, (Prod.mk.inj made).1⟩

theorem plainTextCourse_leaves (same : P node)
    (plain : ∀ text, P (Control.fillPlainText tag options.replaceLineBreaks text node).1) :
    (plainTextCourse options tag value lists node).Leaves P := by
  unfold plainTextCourse
  split
  · exact same
  · exact plain _

theorem richTextCourse_leaves (same : P node)
    (rich : ∀ content blocks rendered, Control.content? node = some content →
      Block.render place.inParagraph blocks = .ok rendered →
        P (Control.fillRichText place.inParagraph rendered content node)) :
    (richTextCourse place tag value lists node).Leaves P := by
  unfold richTextCourse
  split
  · trivial
  · split
    · trivial
    · rename_i content isContent
      split
      · exact same
      · rename_i rendered kept made
        obtain ⟨blocks, isRendered⟩ := render_of_rendering made
        exact rich content blocks rendered isContent isRendered

theorem conditionCourse_leaves {condition : String} (verdict : Except Fault Condition.Verdict) :
    (conditionCourse condition tag verdict).Leaves P := by
  unfold conditionCourse
  split
  · trivial
  · split
    · trivial
    · split <;> trivial

theorem sectionCourse_leaves : (sectionCourse tag value node).Leaves P := by
  unfold sectionCourse
  split
  · split <;> trivial
  · trivial

/-- A control is left as it was, or was written into by one of the two writers. -/
theorem course_leaves (same : P node)
    (plain : ∀ tag text, P (Control.fillPlainText tag options.replaceLineBreaks text node).1)
    (rich : ∀ content blocks rendered, Control.content? node = some content →
      Block.render place.inParagraph blocks = .ok rendered →
        P (Control.fillRichText place.inParagraph rendered content node)) :
    (course options place scope lists node).Leaves P := by
  unfold course
  dsimp only
  split
  · trivial
  · split
    · split
      · trivial
      · exact conditionCourse_leaves _
    · unfold lookupCourse
      split
      · trivial
      · trivial
      · trivial
      · split
        · exact plainTextCourse_leaves same (plain _)
        · exact richTextCourse_leaves same rich
        · exact sectionCourse_leaves

/-- A control that is written into is pared. -/
theorem pared_written (isControl : Control.isControl node) {problem : Option Problem}
    {left : Node} {kept : ListStore} {items : List ListItem}
    (h : course options place scope lists node = .written left problem kept items) :
    Pared (textNames place.inParagraph) place [node] [left] := by
  have leaves : (course options place scope lists node).Leaves
      fun left => Pared (textNames place.inParagraph) place [node] [left] :=
    course_leaves (.refl node place)
      (fun tag text =>
        (cleared_fillPlainText isControl tag _ text place).pared.mono (runNames_subset _))
      fun content blocks rendered isContent made => pared_fillRichText isControl isContent made
  rwa [h] at leaves

end Leaves

end TemplateFill.Walk
