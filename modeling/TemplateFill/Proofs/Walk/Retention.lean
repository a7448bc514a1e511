import TemplateFill.Proofs.Walk.Cells

/-!
# Cells keep their paragraphs

A walk leaves a paragraph in every cell from which a way leads down to one that no data can cut
off. A cell whose paragraphs are only below controls that may be hidden, emptied or overwritten can
lose all of them: nothing puts a paragraph back, unless the control stood right in the cell.
-/

namespace TemplateFill.Walk

open Xml

variable {options : Options} {place : Place} {scope : Datum} {lists kept : ListStore}
  {node content : Node} {nodes left rendered : List Node} {parent name : Name} {account : Account}
  {accounts : List Account}

/-! ### Plain texts -/

/-- A text leaves a paragraph where a way leads down to one. -/
theorem Cleared.holdParagraph {written : List Name} (cleared : Cleared written place nodes left) :
    (∃ node ∈ nodes, Secures parent node) → HoldParagraph left := by
  induction cleared generalizing parent with
  | nil =>
    rintro ⟨_, member, -⟩
    cases member
  | drop dropped _ ih =>
    intro secured
    rcases (List.exists_mem_cons_iff _ _ _).mp secured with here | later
    · exact absurd dropped here.not_isSpent
    · exact ih later
  | keep _ _ _ ihBelow ih =>
    intro secured
    rcases (List.exists_mem_cons_iff _ _ _).mp secured with here | later
    · refine HoldParagraph.of_mem (.element ?_) List.mem_cons_self
      exact here.of_element.imp_right ihBelow
    · exact (ih later).subset (List.subset_cons_self _ _)
  | leaf isLeaf _ ih =>
    intro secured
    rcases (List.exists_mem_cons_iff _ _ _).mp secured with here | later
    · exact absurd isLeaf (Option.isSome_iff_ne_none.mp here.isElement)
    · exact (ih later).subset (List.subset_cons_self _ _)
  | add _ _ ih => exact fun secured => (ih secured).subset (List.subset_cons_self _ _)

/-- A text leaves a paragraph in every cell that is secured. -/
theorem Cleared.cellsHold {written : List Name} (cleared : Cleared written place nodes left)
    (noCells : Word.cell ∉ written) : CellsSecured nodes → CellsHold left := by
  induction cleared with
  | nil => exact fun _ => .nil
  | drop _ _ ih => exact fun secured => ih (secured.subset (List.subset_cons_self _ _))
  | @keep place name lineage before after children inside rest left _ below _ ihBelow ih =>
    intro secured
    have here := secured.of_mem List.mem_cons_self
    refine .cons (.element (fun isCell => ?_) (ihBelow here.content))
      (ih (secured.subset (List.subset_cons_self _ _)))
    have named : (Node.element name lineage before children).isNamed Word.cell := by
      rw [isCell]
      exact beq_self_eq_true _
    exact Cleared.holdParagraph below (here.here named)
  | leaf isLeaf _ ih =>
    exact fun secured => .cons (.leaf isLeaf) (ih (secured.subset (List.subset_cons_self _ _)))
  | @add _ node _ _ added _ ih =>
    intro secured
    refine .cons (.of_none fun x inside => ?_) (ih secured)
    rw [Node.elementsOf_singleton] at inside
    exact added.isMadeOf.none_named noCells x inside

/-! ### Rich texts -/

/-- A cell that was filled holds a paragraph. -/
theorem holdParagraph_fillCell (rendered : List Node) (isCell : node.isNamed Word.cell) :
    HoldParagraph (Control.ensureParagraph (Control.replaceContent rendered node)).children := by
  obtain ⟨lineage, traits, children, rfl⟩ := Node.exists_of_isNamed isCell
  rw [Control.ensureParagraph]
  split
  · rename_i present
    obtain ⟨paragraph, isChild⟩ := Option.isSome_iff_exists.mp present
    exact HoldParagraph.of_mem (.of_named (List.find?_some isChild))
      (List.mem_of_find?_eq_some isChild)
  · exact HoldParagraph.of_mem (.of_named rfl) (List.mem_append_right _ (List.mem_singleton_self _))

section RichText

variable {inParagraph : Bool} {blocks : List Block}
  (made : Block.render inParagraph blocks = .ok rendered)
include made

/-- What replaces the content of an element has no cells. -/
theorem cellsHold_replaceContent (held : CellsHold node.children) :
    CellsHold (node.childrenNamed Word.cellProperties ++ rendered) :=
  (held.subset List.filter_sublist.subset).append
    (.of_none (Control.not_isNamed_cell_of_render made))

theorem cellsHold_fillCell (isCell : node.isNamed Word.cell) (held : CellsHold [node]) :
    CellsHold [Control.ensureParagraph (Control.replaceContent rendered node)] := by
  have filled := holdParagraph_fillCell rendered isCell
  obtain ⟨lineage, traits, children, rfl⟩ := Node.exists_of_isNamed isCell
  have inside := cellsHold_replaceContent made held.content
  rw [Control.ensureParagraph] at filled ⊢
  split
  · rename_i present
    rw [if_pos present] at filled
    exact .element (fun _ => filled) inside
  · rename_i absent
    rw [if_neg absent] at filled
    refine .element (fun _ => filled) (inside.append (.of_none fun x member isCell => ?_))
    rw [Node.elementsOf_singleton] at member
    rw [List.mem_singleton.mp member] at isCell
    cases isCell

end RichText

mutual

/-- Rebuilding the first cell leaves a paragraph in every cell, if it leaves one in that. -/
theorem cellsHold_updateFirst? {f : Node → Node}
    (each : ∀ cell, cell.isNamed Word.cell → CellsHold [cell] → CellsHold [f cell]) :
    (node : Node) → {updated : Node} → node.updateFirst? Word.cell f = some updated →
      CellsHold [node] → CellsHold [updated]
  | .element own lineage traits children, updated, isUpdated, held => by
    rw [Node.updateFirst?] at isUpdated
    split at isUpdated
    · rename_i named
      cases isUpdated
      exact each _ (by rw [named]; exact beq_self_eq_true _) held
    · rename_i other
      obtain ⟨inside, isInside, rfl⟩ := Option.map_eq_some_iff.mp isUpdated
      exact .element (fun isCell => absurd isCell other)
        (cellsHold_updateFirstOf? each children isInside held.content)

theorem cellsHold_updateFirstOf? {f : Node → Node}
    (each : ∀ cell, cell.isNamed Word.cell → CellsHold [cell] → CellsHold [f cell]) :
    (nodes : List Node) → {updated : List Node} →
      Node.updateFirstOf? Word.cell f nodes = some updated → CellsHold nodes → CellsHold updated
  | node :: rest, updated, isUpdated, held => by
    have here := held.of_mem List.mem_cons_self
    have behind := held.subset (List.subset_cons_self node rest)
    rw [Node.updateFirstOf?] at isUpdated
    split at isUpdated
    · rename_i first isFirst
      cases isUpdated
      exact .cons (cellsHold_updateFirst? each node isFirst here) behind
    · obtain ⟨others, isOthers, rfl⟩ := Option.map_eq_some_iff.mp isUpdated
      exact .cons here (cellsHold_updateFirstOf? each rest isOthers behind)

end

theorem cellsHold_placeRendered {inParagraph : Bool} {blocks : List Block}
    (made : Block.render inParagraph blocks = .ok rendered)
    (isArea : content.isNamed Word.controlContent) (held : CellsHold [content]) :
    CellsHold [Control.placeRendered inParagraph rendered content] := by
  have other : Word.controlContent ≠ Word.cell := by decide
  have replaced : CellsHold [Control.replaceContent rendered content] :=
    .withChildren isArea other (cellsHold_replaceContent made held.content)
  unfold Control.placeRendered
  split
  · exact replaced
  · split
    · rename_i children isUpdated
      refine .withChildren isArea other (cellsHold_updateFirstOf? (fun cell isCell => ?_) _ isUpdated
        held.content)
      exact cellsHold_fillCell made isCell
    · exact replaced

theorem cellsHold_unmark (isControl : Control.isControl node) (held : CellsHold [node]) :
    CellsHold [Control.unmark node] := by
  have noControl : Word.control ≠ Word.cell := by decide
  have noProperties : Word.controlProperties ≠ Word.cell := by decide
  unfold Control.unmark
  split
  · exact held
  · rename_i properties isProperties
    have below := held.content.of_mem (List.mem_of_find?_eq_some isProperties)
    have cleaned : CellsHold [properties.removeChildren (·.isNamed Word.placeholderMark)] :=
      .withChildren (List.find?_some isProperties) noProperties
        (below.content.subset List.filter_sublist.subset)
    exact .withChildren isControl noControl (held.content.replaceFirst cleaned)

/-- A rich text leaves a paragraph in every cell that held one, and in the one it is put into. -/
theorem cellsHold_fillRichText {inParagraph : Bool} {blocks : List Block}
    (made : Block.render inParagraph blocks = .ok rendered) (isControl : Control.isControl node)
    (isContent : Control.content? node = some content) (held : CellsHold [node]) :
    CellsHold [Control.fillRichText inParagraph rendered content node] := by
  have noControl : Word.control ≠ Word.cell := by decide
  have below := held.content.of_mem (List.mem_of_find?_eq_some isContent)
  have placed := cellsHold_placeRendered made (List.find?_some isContent) below
  have replaced : CellsHold
      [node.replaceChild Word.controlContent (Control.placeRendered inParagraph rendered content)] :=
    .withChildren isControl noControl (held.content.replaceFirst placed)
  exact cellsHold_unmark (by rwa [isControl_replaceChild]) replaced

/-! ### Controls -/

/-- What a course does to a control that retains what is in it. -/
def Course.Spares (parent : Name) (place : Place) (node : Node) : Course → Prop
  | .written left _ _ _ => Cleared runNames place [node] [left]
  | .hidden => parent = Word.cell
  | .repeated _ _ => False
  | _ => True

theorem conditionCourse_spares {condition tag : String} {verdict : Except Fault Condition.Verdict}
    (mayHide : parent = Word.cell) :
    (conditionCourse condition tag verdict).Spares parent place node := by
  unfold conditionCourse
  split
  · trivial
  · split
    · trivial
    · split
      · trivial
      · exact mayHide

/-- A control that retains what is in it is cleared at most, or hidden right in a cell. -/
theorem course_spares {taken : Course} (h : course options place scope lists node = taken)
    (isControl : Control.isControl node) (retains : Retains parent (Control.read node)) :
    taken.Spares parent place node := by
  subst h
  rw [Retains] at retains
  rw [course]
  cases isKind : (Control.read node).kind with
  | unsupported obstacle => trivial
  | repeatingSection =>
    cases isConditional : (Control.read node).condition? with
    | some condition => trivial
    | none =>
      rw [isKind, isConditional] at retains
      cases retains
  | richText =>
    cases isConditional : (Control.read node).condition? with
    | some condition =>
      rw [isKind, isConditional] at retains
      exact conditionCourse_spares retains
    | none =>
      rw [isKind, isConditional] at retains
      cases retains
  | plainText =>
    cases isConditional : (Control.read node).condition? with
    | some condition =>
      rw [isKind, isConditional] at retains
      exact conditionCourse_spares retains
    | none =>
      simp only [lookupCourse]
      split
      · trivial
      · trivial
      · trivial
      · rw [plainTextCourse]
        split
        · exact .refl node place
        · exact cleared_fillPlainText isControl _ _ _ place

/-- A control that is written into leaves a paragraph in every cell. -/
theorem cellsHold_written (isControl : Control.isControl node) {problem : Option Problem}
    {result : Node} {items : List ListItem}
    (h : course options place scope lists node = .written result problem kept items)
    (secured : CellsSecured [node]) : CellsHold [result] := by
  have leaves : (course options place scope lists node).Leaves fun left => CellsHold [left] :=
    course_leaves secured.cellsHold
      (fun tag text => (cleared_fillPlainText isControl tag _ text place).cellsHold (by decide)
        secured)
      fun content blocks rendered isContent made =>
        cellsHold_fillRichText made isControl isContent secured.cellsHold
  rwa [h] at leaves

/-! ### The walk -/

mutual

theorem Settles.holdParagraph {options : Options} {place : Place} {scope : Datum}
    {lists kept : ListStore} {node : Node} {account : Account} {left : List Node} {parent : Name}
    (isParent : place.parent = some parent) (isControl : Control.isControl node)
    (secures : Secures parent node) :
    Settles options place scope lists node account left kept → HoldParagraph left
  | .refused _ => secures.holdParagraph
  | .broken h => by
    have spared := course_spares h isControl (secures.of_isControl isControl).1
    exact Cleared.holdParagraph spared ⟨node, List.mem_singleton_self _, secures⟩
  | .filled h => by
    have spared := course_spares h isControl (secures.of_isControl isControl).1
    exact Cleared.holdParagraph spared ⟨node, List.mem_singleton_self _, secures⟩
  | .removed h isAround => by
    have isCell := course_spares h isControl (secures.of_isControl isControl).1
    rw [isParent] at isAround
    rw [if_pos ((Option.some.inj isAround).symm.trans isCell)]
    exact .of_named rfl
  | .shown _ below => by
    have inside := below.holdParagraph rfl (secures.of_isControl isControl).2
    exact inside.withChildren (Node.isElement_of_isNamed isControl)
  | .repeated h _ => (course_spares h isControl (secures.of_isControl isControl).1).elim

/-- A walk leaves a paragraph where a way leads down to one. -/
theorem SettlesAll.holdParagraph {options : Options} {place : Place} {scope : Datum}
    {lists kept : ListStore} {nodes left : List Node} {accounts : List Account} {parent : Name}
    (isParent : place.parent = some parent) (secured : ∃ node ∈ nodes, Secures parent node) :
    SettlesAll options place scope lists nodes accounts left kept → HoldParagraph left
  | .nil => by
    obtain ⟨_, member, -⟩ := secured
    cases member
  | .control isControl first onward => by
    rcases (List.exists_mem_cons_iff _ _ _).mp secured with here | later
    · exact (first.holdParagraph isParent isControl here).subset (List.subset_append_left _ _)
    · exact (onward.holdParagraph isParent later).subset (List.subset_append_right _ _)
  | .element _ first onward => by
    rcases (List.exists_mem_cons_iff _ _ _).mp secured with here | later
    · refine HoldParagraph.of_mem (.element ?_) List.mem_cons_self
      exact here.of_element.imp_right fun below => first.holdParagraph rfl below
    · exact (onward.holdParagraph isParent later).subset (List.subset_cons_self _ _)
  | .leaf isLeaf onward => by
    rcases (List.exists_mem_cons_iff _ _ _).mp secured with here | later
    · exact absurd isLeaf (Option.isSome_iff_ne_none.mp here.isElement)
    · exact (onward.holdParagraph isParent later).subset (List.subset_cons_self _ _)

end

theorem cellsHold_withItems {items : List Node} (held : CellsHold items)
    (isControl : Control.isControl node) (around : CellsHold [node]) :
    CellsHold [withItems items node] := by
  have noControl : Word.control ≠ Word.cell := by decide
  have noContent : Word.controlContent ≠ Word.cell := by decide
  unfold withItems
  split
  · exact around
  · rename_i content isContent
    have area := around.content.of_mem (List.mem_of_find?_eq_some isContent)
    have filled : CellsHold [content.withChildren items] :=
      .withChildren (List.find?_some isContent) noContent held
    exact .withChildren isControl noControl (around.content.replaceFirst filled)

/-- What a section repeats is secured if the section is. -/
theorem cellsSecured_sectionItem {tag : String} {item : Node}
    (isItem : sectionItem tag node = .ok item) (secured : CellsSecured [node]) :
    CellsSecured [item] := by
  obtain ⟨content, child, isContent, isChild, -, rfl⟩ := sectionItem_eq_ok isItem
  have area := secured.content.of_mem (List.mem_of_find?_eq_some isContent)
  exact (area.content.of_mem isChild).repeatable

mutual

theorem Settles.cellsHold {options : Options} {place : Place} {scope : Datum}
    {lists kept : ListStore} {node : Node} {account : Account} {left : List Node}
    (isControl : Control.isControl node) (secured : CellsSecured [node]) :
    Settles options place scope lists node account left kept → CellsHold left
  | .refused _ => secured.cellsHold
  | .broken h => cellsHold_written isControl h secured
  | .filled h => cellsHold_written isControl h secured
  | .removed _ _ => by
    split
    · exact .of_none (by decide)
    · exact .nil
  | .shown _ below => by
    have noControl : Word.control ≠ Word.cell := by decide
    exact .withChildren isControl noControl (below.cellsHold secured.content)
  | .repeated h below => by
    have isItem := course_holds h
    have items := below.cellsHold (isControl_of_sectionItem isItem).1
      (cellsSecured_sectionItem isItem secured)
    exact cellsHold_withItems items isControl secured.cellsHold

/-- A walk leaves a paragraph in every cell that is secured. -/
theorem SettlesAll.cellsHold {options : Options} {place : Place} {scope : Datum}
    {lists kept : ListStore} {nodes left : List Node} {accounts : List Account}
    (secured : CellsSecured nodes) :
    SettlesAll options place scope lists nodes accounts left kept → CellsHold left
  | .nil => .nil
  | .control isControl first onward => by
    have here := first.cellsHold isControl (secured.of_mem List.mem_cons_self)
    exact here.append (onward.cellsHold (secured.subset (List.subset_cons_self _ _)))
  | .element _ first onward => by
    have here := secured.of_mem List.mem_cons_self
    have others := onward.cellsHold (secured.subset (List.subset_cons_self _ _))
    refine .cons (.element (fun isCell => ?_) (first.cellsHold here.content)) others
    subst isCell
    exact first.holdParagraph rfl (here.here rfl)
  | .leaf isLeaf onward =>
    .cons (.leaf isLeaf) (onward.cellsHold (secured.subset (List.subset_cons_self _ _)))

theorem SettlesItems.cellsHold {options : Options} {place : Place} {tag : String} {item : Node}
    {index : Nat} {lists kept : ListStore} {values : List Datum} {entries : List Entry}
    {copies : List Node} {fault : Option Fault} (isControl : Control.isControl item)
    (secured : CellsSecured [item]) :
    SettlesItems options place tag item index lists values entries copies fault kept →
      CellsHold copies
  | .done => .nil
  | .copied first onward => by
    have noControl : Word.control ≠ Word.cell := by decide
    have isCopy : (item.copy index).isNamed Word.control := by
      rwa [Node.isNamed, Node.name?_copy]
    have inside := first.cellsHold (secured.copy index).content
    exact .cons (.withChildren isCopy noControl inside) (onward.cellsHold isControl secured)
  | .rejected _ _ onward => onward.cellsHold isControl secured
  | .stopped _ _ => .nil

end

/-- A walk below a root leaves a paragraph in every cell that is secured, whatever the data are. -/
theorem populate_keeps_paragraphs (options : Options) (root : Node) (scope : Datum)
    (progress : Progress) (secured : CellsSecured [root]) :
    CellsHold [(populate options root scope progress).1] := by
  obtain ⟨accounts, only, -⟩ := settledOn_populate options root scope progress.lists
  have settled := (only _ _ _).mpr ⟨rfl, rfl, rfl⟩
  rw [(incremental_populate options root scope).value_eq, effect_populate]
  cases root with
  | element name lineage traits children =>
    refine .element (fun isCell => ?_) (settled.cellsHold secured.content)
    subst isCell
    exact settled.holdParagraph rfl (secured.here rfl)
  | aside content tail => exact .leaf rfl

def tagged (lineage : Lineage) (tag : String) (content : List Node) : Node :=
  .element Word.control lineage (.ofList [])
    [.plain Word.controlProperties [] [.plain Word.controlTag [(Word.value, tag)] []],
      .plain Word.controlContent [] content]

def tableAround (content : List Node) : Node :=
  .plain Word.body []
    [.plain (.word "tbl") [] [.plain (.word "tr") [] [.plain Word.cell [] content]]]

/-- A cell around a control that is only there if `b` holds has a paragraph, also if `b` does not
hold. -/
theorem populate_keeps_paragraph_of_hidden :
    let table := tableAround [tagged [0] "visible:b" [Word.makeParagraph []]]
    CellsSecured [table] ∧
      CellsHold [(populate .standard table (.object []) (.start (.document none))).1] := by
  intro table
  have secured : CellsSecured [table] := by
    intro cell inside isCell
    have cells : (Node.elementsOf [table]).filter (·.isNamed Word.cell) =
        [.plain Word.cell [] [tagged [0] "visible:b" [Word.makeParagraph []]]] := rfl
    have among := List.mem_filter.mpr ⟨inside, isCell⟩
    rw [cells] at among
    obtain rfl := List.mem_singleton.mp among
    have retains : Retains Word.cell
        (Control.read (tagged [0] "visible:b" [Word.makeParagraph []])) := by
      have isText : (Control.read (tagged [0] "visible:b" [Word.makeParagraph []])).kind =
          .richText := by decide +kernel
      have isConditional :
          (Control.read (tagged [0] "visible:b" [Word.makeParagraph []])).condition? = some "b" := by
        decide +kernel
      rw [Retains, isText, isConditional]
    have isChild : Node.plain Word.controlContent [] [Word.makeParagraph []] ∈
        (tagged [0] "visible:b" [Word.makeParagraph []]).children :=
      List.mem_cons_of_mem _ (List.mem_singleton_self _)
    have way : Secures Word.control (.plain Word.controlContent [] [Word.makeParagraph []]) :=
      .element (by decide) (by decide) List.mem_cons_self (.paragraph rfl)
    exact ⟨_, List.mem_cons_self, .control rfl retains retains isChild way⟩
  exact ⟨secured, populate_keeps_paragraphs _ _ _ _ secured⟩

/-! ### A cell that loses its paragraph

The control that is hidden does not stand right in the cell, but in another one that is shown.
-/

/-- A control that is only there if `a` holds, around one that is only there if `b` holds. -/
def enclosing (outer inner : Lineage) : Node :=
  tagged outer "visible:a" [tagged inner "visible:b" [Word.makeParagraph []]]

theorem course_enclosing (place : Place) (lists : ListStore) :
    course .standard place guidedScope lists (enclosing [0] [1]) = .shown none := by
  have kind : (Control.read (enclosing [0] [1])).kind = .richText := by decide +kernel
  have isConditional : (Control.read (enclosing [0] [1])).condition? = some "a" := by
    decide +kernel
  have evaluated : Condition.evaluate "a" guidedScope = .ok ⟨true, none⟩ := by rfl
  rw [course, kind, isConditional]
  simp only [evaluated]
  rfl

theorem course_enclosed (place : Place) (lists : ListStore) :
    course .standard place guidedScope lists (tagged [1] "visible:b" [Word.makeParagraph []]) =
      .hidden := by
  have kind : (Control.read (tagged [1] "visible:b" [Word.makeParagraph []])).kind = .richText := by
    decide +kernel
  have isConditional :
      (Control.read (tagged [1] "visible:b" [Word.makeParagraph []])).condition? = some "b" := by
    decide +kernel
  have evaluated : Condition.evaluate "b" guidedScope = .ok ⟨false, none⟩ := by
    with_unfolding_all rfl
  rw [course, kind, isConditional]
  simp only [evaluated]
  rfl

/-- The inner control goes, and nothing comes in its place. -/
theorem effect_enclosing (place : Place) (lists : ListStore) :
    (effect (populateAll .standard place guidedScope [enclosing [0] [1]]) lists).value =
      [tagged [0] "visible:a" []] := by
  have noProperties : Word.controlProperties ≠ Word.control := by decide
  have noTag : Word.controlTag ≠ Word.control := by decide
  have noContent : Word.controlContent ≠ Word.control := by decide
  have properties (place : Place) (lists : ListStore) :
      effect (populateNode .standard place guidedScope (.plain Word.controlProperties []
          [.plain Word.controlTag [(Word.value, "visible:a")] []])) lists =
        ⟨[.plain Word.controlProperties [] [.plain Word.controlTag [(Word.value, "visible:a")] []]],
          lists, []⟩ := by
    rw [Node.plain, Node.plain, effect_populateNode_element noProperties,
      effect_populateAll_element noTag, effect_populateAll_nil]
  have area (place : Place) (lists : ListStore) :
      effect (populateAll .standard place guidedScope [.plain Word.controlContent []
          [tagged [1] "visible:b" [Word.makeParagraph []]]]) lists =
        ⟨[.plain Word.controlContent [] []], lists, []⟩ := by
    rw [Node.plain, effect_populateAll_element noContent,
      effect_populateAll_control rfl (course_enclosed _ _)]
    rfl
  rw [effect_populateAll_control rfl (course_enclosing place lists), follow, enclosing, tagged,
    Node.children, effect_populateAll_cons, properties]
  dsimp only
  rw [area]
  rfl

/-- Every cell holds a paragraph, and after the walk there is one that does not. -/
theorem nestedCell_loses_paragraph :
    let body := tableAround [enclosing [] []]
    let left := (populate .standard (Control.enroll 0 body).1 guidedScope
      (.start (.document none))).1
    CellsHold [body] ∧ ¬ CellsHold [left] := by
  have noTable : Name.word "tbl" ≠ Word.control := by decide
  have noRow : Name.word "tr" ≠ Word.control := by decide
  have noCell : Word.cell ≠ Word.control := by decide
  have numbered : (Control.enroll 0 (tableAround [enclosing [] []])).1 =
      tableAround [enclosing [0] [1]] := rfl
  have emptied : (effect (populate .standard (tableAround [enclosing [0] [1]]) guidedScope)
      (.document none)).value = tableAround [tagged [0] "visible:a" []] := by
    rw [effect_populate, tableAround, Node.plain, Node.plain, Node.plain, Node.plain, Node.children,
      effect_populateAll_element noTable, effect_populateAll_element noRow,
      effect_populateAll_element noCell]
    dsimp only
    rw [effect_enclosing]
    rfl
  refine ⟨by decide, ?_⟩
  rw [numbered]
  change ¬ CellsHold [(effect (populate .standard (tableAround [enclosing [0] [1]]) guidedScope)
    (.document none)).value]
  rw [emptied]
  decide

end TemplateFill.Walk
