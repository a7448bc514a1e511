import TemplateFill.Proofs.Walk.Placement
import TemplateFill.Proofs.Walk.Settlement
import TemplateFill.Proofs.Walk.Writing

/-!
# Paragraphs stay apart

Paragraphs are put in by rich texts and for hidden controls in cells. Neither happens inside of a
paragraph: whatever may stand at a place is settled into nodes that may stand there. What is
repeated by a section is settled at the place where its copies will stand.
-/

namespace TemplateFill.Walk

open Xml

/-! ### Nodes at their places -/

namespace Place

variable {place : Place} {node new : Node} {nodes : List Node} {name : Name}

/-- The place of what stands in nested elements of some names, the outermost first. -/
def within (names : List Name) : Place := names.foldl (fun place name => place.enter name) outside

/-- Inside a paragraph, until something that holds paragraphs is entered. -/
theorem inParagraph_within (outer : List Name) {inner : List Name}
    (isOpen : ∀ name ∈ inner, name ∉ blockContainers) :
    (within (outer ++ Word.paragraph :: inner)).inParagraph := by
  have onward (place : Place) (inside : place.inParagraph) :
      (inner.foldl (fun place name => place.enter name) place).inParagraph := by
    induction inner generalizing place with
    | nil => exact inside
    | cons name rest ih =>
      have here := isOpen name List.mem_cons_self
      exact ih (fun other member => isOpen other (List.mem_cons_of_mem _ member)) _
        (inParagraph_enter.mpr (.inr ⟨inside, here⟩))
  rw [within, List.foldl_append]
  exact onward _ (inParagraph_enter.mpr (.inl rfl))

/-- A place that is in a cell is in no paragraph. -/
def IsSound (place : Place) : Prop := place.parent = some Word.cell → place.inParagraph = false

theorem isSound_enter (place : Place) (name : Name) : (place.enter name).IsSound := by
  intro inCell
  have isCell : name = Word.cell := Option.some.inj inCell
  rw [enter, isCell]
  rfl

theorem isSound_ofRoot (root : Node) : (ofRoot root).IsSound := by
  cases root with
  | element name => exact isSound_enter outside name
  | aside content tail => exact fun _ => rfl

theorem Admits.children (named : node.isNamed name) (admitted : place.Admits node) :
    (place.enter name).AdmitsAll node.children := by
  obtain ⟨lineage, traits, children, rfl⟩ := Node.exists_of_isNamed named
  exact admitted.2

theorem Admits.withChildren (named : node.isNamed name) (admitted : place.Admits node)
    (below : (place.enter name).AdmitsAll nodes) : place.Admits (node.withChildren nodes) := by
  obtain ⟨lineage, traits, children, rfl⟩ := Node.exists_of_isNamed named
  exact ⟨admitted.1, below⟩

theorem AdmitsAll.mem (admitted : place.AdmitsAll nodes) (member : node ∈ nodes) :
    place.Admits node := admitsAll_iff.mp admitted node member

theorem AdmitsAll.replaceFirst {p : Node → Bool} (admitted : place.AdmitsAll nodes)
    (isAdmitted : place.Admits new) : place.AdmitsAll (Node.replaceFirst p new nodes) := by
  have all : place.AdmitsAll (new :: nodes) := ⟨isAdmitted, admitted⟩
  exact all.subset (Node.replaceFirst_subset p new nodes)

theorem admits_prune (p : Node → Bool) (node : Node) (admitted : place.Admits node) :
    place.Admits (node.prune p) := by
  have pruned : Pared [] place [node] [node.prune p] := .prune p node place
  exact pruned.admits admitted

/-- A copy stands wherever its model may. -/
theorem admits_copy (index : Nat) (node : Node) :
    ∀ place : Place, place.Admits node → place.Admits (node.copy index) := by
  induction node using Node.induction with
  | element name lineage traits children ih =>
    rintro place ⟨here, below⟩
    refine ⟨here, ?_⟩
    rw [Node.mapAllElements_eq, admitsAll_iff]
    intro copied member
    obtain ⟨child, among, rfl⟩ := List.mem_map.mp member
    exact ih child among _ (below.mem among)
  | aside content tail => exact fun place _ => trivial

end Place

/-! ### The walk -/

theorem admits_emptyParagraph {place : Place} (sound : place.IsSound)
    (inCell : place.parent = some Word.cell) : place.Admits (Word.makeParagraph []) := by
  refine ⟨fun inside => ?_, trivial⟩
  rw [sound inCell] at inside
  exact Bool.false_ne_true inside.1

/-- What a section repeats may stand in its content area. -/
theorem admits_sectionItem {place : Place} {tag : String} {node item : Node}
    (isItem : sectionItem tag node = .ok item) (isControl : Control.isControl node)
    (admitted : place.Admits node) :
    ((place.enter Word.control).enter Word.controlContent).Admits item := by
  obtain ⟨content, child, isContent, member, -, rfl⟩ := sectionItem_eq_ok isItem
  have area := (admitted.children isControl).mem (List.mem_of_find?_eq_some isContent)
  have here := (area.children (List.find?_some isContent)).mem member
  exact Place.admits_prune _ child here

theorem admits_withItems {place : Place} {node : Node} {items : List Node}
    (isControl : Control.isControl node) (admitted : place.Admits node)
    (fresh : ((place.enter Word.control).enter Word.controlContent).AdmitsAll items) :
    place.Admits (withItems items node) := by
  unfold withItems
  split
  · exact admitted
  · rename_i content isContent
    have isArea : content.isNamed Word.controlContent := List.find?_some isContent
    have inside := admitted.children isControl
    have area := inside.mem (List.mem_of_find?_eq_some isContent)
    exact admitted.withChildren isControl (inside.replaceFirst (area.withChildren isArea fresh))

mutual

theorem Settles.admitsAll {options : Options} {place : Place} {scope : Datum}
    {lists kept : ListStore} {node : Node} {account : Account} {left : List Node}
    (isControl : Control.isControl node) (sound : place.IsSound) (admitted : place.Admits node) :
    Settles options place scope lists node account left kept → place.AdmitsAll left
  | .refused _ => ⟨admitted, trivial⟩
  | .broken h => ⟨(pared_written isControl h).admits admitted, trivial⟩
  | .filled h => ⟨(pared_written isControl h).admits admitted, trivial⟩
  | .removed _ isParent => by
    split
    · rename_i isCell
      exact ⟨admits_emptyParagraph sound (isCell ▸ isParent), trivial⟩
    · exact trivial
  | .shown _ below => by
    have inside := below.admitsAll (Place.isSound_enter _ _) (admitted.children isControl)
    exact ⟨admitted.withChildren isControl inside, trivial⟩
  | .repeated h below => by
    have isItem := course_holds h
    have item := admits_sectionItem isItem isControl admitted
    have copies := below.admitsAll rfl (isControl_of_sectionItem isItem).1 item
    exact ⟨admits_withItems isControl admitted copies, trivial⟩

/-- What may stand at a place is settled into what may stand there. -/
theorem SettlesAll.admitsAll {options : Options} {place : Place} {scope : Datum}
    {lists kept : ListStore} {nodes left : List Node} {accounts : List Account}
    (sound : place.IsSound) (admitted : place.AdmitsAll nodes) :
    SettlesAll options place scope lists nodes accounts left kept → place.AdmitsAll left
  | .nil => trivial
  | .control isControl first onward => by
    have here := first.admitsAll isControl sound admitted.1
    exact Place.admitsAll_append.mpr ⟨here, onward.admitsAll sound admitted.2⟩
  | .element _ first onward => by
    have inside := first.admitsAll (Place.isSound_enter _ _) admitted.1.2
    exact ⟨⟨admitted.1.1, inside⟩, onward.admitsAll sound admitted.2⟩
  | .leaf isLeaf onward => ⟨Place.admits_leaf isLeaf, onward.admitsAll sound admitted.2⟩

theorem SettlesItems.admitsAll {options : Options} {place around : Place} {tag : String}
    {item : Node} {index : Nat} {lists kept : ListStore} {values : List Datum}
    {entries : List Entry} {copies : List Node} {fault : Option Fault}
    (isInside : place = around.enter Word.control) (isControl : Control.isControl item)
    (admitted : around.Admits item) :
    SettlesItems options place tag item index lists values entries copies fault kept →
      around.AdmitsAll copies
  | .done => trivial
  | .copied first onward => by
    have isCopy : Control.isControl (item.copy index) := by
      rwa [Control.isControl, Node.isNamed, Node.name?_copy]
    have copied := Place.admits_copy index item around admitted
    have inside := first.admitsAll (by rw [isInside]; exact Place.isSound_enter _ _)
      (by rw [isInside]; exact copied.children isCopy)
    rw [isInside] at inside
    exact ⟨copied.withChildren isCopy inside, onward.admitsAll isInside isControl admitted⟩
  | .rejected _ _ onward => onward.admitsAll isInside isControl admitted
  | .stopped _ _ => trivial

end

/-! ### A whole run -/

theorem left_populate (options : Options) (root : Node) (scope : Datum) (lists : ListStore) :
    ∃ accounts left kept,
      SettlesAll options (.ofRoot root) scope lists root.children accounts left kept ∧
        (populate options root scope (.start lists)).1 = root.withChildren left := by
  obtain ⟨accounts, only, -⟩ := settledOn_populate options root scope lists
  exact ⟨accounts, _, _, (only _ _ _).mpr ⟨rfl, rfl, rfl⟩, rfl⟩

/-- A control for rich text stays as it is or is written into, unless it is conditional. -/
theorem course_richText (options : Options) (place : Place) (scope : Datum) (lists : ListStore)
    {node : Node} (isRich : (Control.read node).kind = .richText)
    (unconditional : (Control.read node).condition? = none) :
    (∃ problem, course options place scope lists node = .refused problem) ∨
      ∃ left problem kept items,
        course options place scope lists node = .written left problem kept items := by
  rw [course, isRich, unconditional]
  simp only [lookupCourse, richTextCourse]
  split
  · exact .inl ⟨_, rfl⟩
  · exact .inl ⟨_, rfl⟩
  · exact .inl ⟨_, rfl⟩
  · split
    · exact .inl ⟨_, rfl⟩
    · split
      · exact .inl ⟨_, rfl⟩
      · split
        · exact .inr ⟨_, _, _, _, rfl⟩
        · exact .inr ⟨_, _, _, _, rfl⟩

/-- In a paragraph a rich text brings no paragraphs. -/
theorem tally_richText {options : Options} {place : Place} {scope : Datum} {lists : ListStore}
    {node : Node} (inside : place.inParagraph) (isControl : Control.isControl node)
    (isRich : (Control.read node).kind = .richText)
    (unconditional : (Control.read node).condition? = none) :
    Node.tally Word.paragraph (effect (populateControl options place scope node) lists).value ≤
      Node.tally Word.paragraph [node] := by
  rw [effect_populateControl]
  rcases course_richText options place scope lists isRich unconditional with
    ⟨problem, refused⟩ | ⟨left, problem, kept, items, written⟩
  · rw [refused]
    exact Nat.le_refl _
  · have pared := pared_written isControl written
    rw [written]
    rw [inside] at pared
    exact pared.tally_le (by decide)

/-- Paragraphs that are apart stay apart, whatever a walk does. A control for rich text gets no
paragraph inside of a paragraph, however deep in other elements it is, unless one of those holds
paragraphs. -/
theorem populate_keeps_paragraphs_apart (options : Options) (root : Node) (scope : Datum)
    (lists : ListStore) (apart : ParagraphsApart root) :
    ParagraphsApart (populate options root scope (.start lists)).1 ∧
      ∀ (outer inner : List Name) (node : Node) (scope : Datum) (progress : Progress),
        (∀ name ∈ inner, name ∉ Place.blockContainers) → Control.isControl node →
        (Control.read node).kind = .richText → (Control.read node).condition? = none →
        Node.tally Word.paragraph (populateControl options
            (.within (outer ++ Word.paragraph :: inner)) scope node progress).1 ≤
          Node.tally Word.paragraph [node] := by
  constructor
  · obtain ⟨accounts, left, kept, settled, isLeft⟩ := left_populate options root scope lists
    rw [isLeft]
    cases root with
    | element name lineage traits children =>
      rw [paragraphsApart_iff] at apart ⊢
      exact settled.admitsAll (Place.isSound_ofRoot _) apart
    | aside content tail => exact apart
  · intro outer inner node scope progress isOpen isControl isRich unconditional
    have walked := (incremental_walk options).2.2.1
      (.within (outer ++ Word.paragraph :: inner)) scope node
    rw [walked.value_eq]
    exact tally_richText (Place.inParagraph_within outer isOpen) isControl isRich unconditional

def inlineControl : Node :=
  .element Word.control [0] (.ofList [])
    [.plain Word.controlProperties [] [.plain Word.controlTag [(Word.value, "a")] []],
      .plain Word.controlContent [] []]

def inlineBody : Node := .plain Word.body [] [Word.makeParagraph [inlineControl]]

/-- A page text goes into the paragraph of that body, and the control gets no paragraph. -/
theorem populate_keeps_inline_paragraphs_apart :
    let scope := Datum.object [(.text "a", .text "<ul><li>b</li></ul><p>c</p>")]
    let place := Place.within ([Word.body] ++ Word.paragraph :: [])
    ParagraphsApart inlineBody ∧
      ParagraphsApart (populate .standard inlineBody scope (.start (.document none))).1 ∧
      Node.tally Word.paragraph
          (populateControl .standard place scope inlineControl (.start (.document none))).1 ≤
        Node.tally Word.paragraph [inlineControl] := by
  intro scope place
  have apart : ParagraphsApart inlineBody := by decide +kernel
  have kept := populate_keeps_paragraphs_apart .standard inlineBody scope (.document none) apart
  have isRich : (Control.read inlineControl).kind = .richText := by decide +kernel
  have unconditional : (Control.read inlineControl).condition? = none := by decide +kernel
  refine ⟨apart, kept.1, ?_⟩
  exact kept.2 [Word.body] [] inlineControl scope _ (List.forall_mem_nil _) rfl isRich unconditional

end TemplateFill.Walk
