import TemplateFill.Proofs.Block.Reading
import TemplateFill.Proofs.Control.RichText
import TemplateFill.Proofs.Walk.Position

/-!
# Rich texts in their positions

A value that was written into a rich text control is read back from it, block by block: inside a
paragraph from the runs of the content area, elsewhere from the paragraphs of its first cell, or of
the content area itself if there is no cell. Nothing else changes, neither in the control nor
around it.
-/

namespace TemplateFill.Control

open Xml

variable {content cell area : Node} {rendered : List Node} {blocks : List Block}

/-- The content of an area reads like some blocks in a line. -/
structure HoldsRuns (blocks : List Block) (content area : Node) : Prop where
  runs : ∃ runs : List Node, (∀ run ∈ runs, run.isNamed Word.run) ∧
    runs.length = 2 * blocks.length - 1 ∧
    Word.pieces runs = Word.linePieces (blocks.map (·.text)) ∧
    area = content.withChildren
      (content.childrenNamed Word.cellProperties ++ runs)

/-- The first cell of an area holds a paragraph for each of some blocks, or an empty one if there
is no block. If there is no cell the area itself holds the paragraphs. -/
inductive HoldsParagraphs (blocks : List Block) (content area : Node) : Prop where
  | cell (context : Context) (cell : Node) (paragraphs : List Node)
    (isCell : cell.isNamed Word.cell) (isFirst : context.IsFirst (·.isNamed Word.cell))
    (each : List.Forall₂ Block.IsParagraphOf blocks paragraphs)
    (before : [content] = context.plug [cell])
    (after : [area] = context.plug [cell.withChildren
      (cell.childrenNamed Word.cellProperties ++
        if blocks.isEmpty then [Word.makeParagraph []] else paragraphs)])
  | area (paragraphs : List Node) (noCell : content.named Word.cell = [])
    (each : List.Forall₂ Block.IsParagraphOf blocks paragraphs)
    (after : area = content.withChildren
      (content.childrenNamed Word.cellProperties ++ paragraphs))

theorem holdsRuns_placeRendered (made : Block.render true blocks = .ok rendered) (content : Node) :
    HoldsRuns blocks content (placeRendered true rendered content) := by
  obtain ⟨length, isRead⟩ := Block.pieces_of_toRuns made
  exact ⟨rendered, isNamed_of_render made, length, isRead, rfl⟩

/-- A cell gets a paragraph of its own if there is none for it. -/
theorem ensureParagraph_replaceContent (paragraphs : ∀ x ∈ rendered, x.isNamed Word.paragraph)
    (isCell : cell.isNamed Word.cell) :
    ensureParagraph (replaceContent rendered cell) = replaceContent
      (if rendered.isEmpty then [Word.makeParagraph []] else rendered) cell := by
  obtain ⟨lineage, traits, children, rfl⟩ := Node.exists_of_isNamed isCell
  have apart : ∀ x ∈ children.filter (·.isNamed Word.cellProperties),
      x.isNamed Word.paragraph = false :=
    fun x member => Node.isNamed_apart (by decide) x (List.mem_filter.mp member).2
  cases rendered with
  | nil =>
    have none : Node.child? Word.paragraph (replaceContent []
        (.element Word.cell lineage traits children)) = none := by
      rw [Node.child?, replaceContent, List.append_nil]
      exact List.find?_eq_none.mpr fun x member => Bool.eq_false_iff.mp (apart x member)
    rw [ensureParagraph, none]
    simp [replaceContent, Node.append, Node.withChildren, Node.children]
  | cons first rest =>
    have some : (Node.child? Word.paragraph (replaceContent (first :: rest)
        (.element Word.cell lineage traits children))).isSome := by
      rw [Node.child?, List.find?_isSome]
      exact ⟨first, List.mem_append_right _ List.mem_cons_self, paragraphs first List.mem_cons_self⟩
    rw [ensureParagraph, if_pos some]
    rfl

/-- Paragraphs go to the first cell, if there is one. -/
theorem holdsParagraphs_placeRendered (made : Block.render false blocks = .ok rendered)
    (isArea : content.isNamed Word.controlContent) :
    HoldsParagraphs blocks content (placeRendered false rendered content) := by
  have each := Block.forall₂_of_toParagraphs made
  have paragraphs := isNamed_of_render made
  obtain ⟨lineage, traits, children, rfl⟩ := Node.exists_of_isNamed isArea
  let fill (cell : Node) : Node := ensureParagraph (replaceContent rendered cell)
  cases cells : (Node.element Word.controlContent lineage traits children).named Word.cell with
  | nil =>
    have none : Node.updateFirstOf? Word.cell fill children = none := by
      rw [Node.updateFirstOf?_eq_none_iff, Node.tally_eq_zero_iff]
      exact fun x inside => List.filter_eq_nil_iff.mp cells x (List.mem_cons_of_mem _ inside)
    refine .area rendered cells each ?_
    simp only [placeRendered, Bool.false_eq_true, if_false, Node.children, fill, none]
    rfl
  | cons cell rest =>
    obtain ⟨context, isPlugged, isFirst⟩ := Context.exists_of_first _ ⟨rest, cells⟩
    have isCell : cell.isNamed Word.cell := (List.mem_filter.mp (cells ▸ List.mem_cons_self)).2
    have found : Node.updateFirstOf? Word.cell fill [cell] = some [fill cell] := by
      rw [Node.updateFirstOf?, Node.updateFirst?_of_isNamed fill isCell]
    have updated := isFirst.updateFirstOf?_plug fill found
    rw [← isPlugged, Node.updateFirstOf?, Node.updateFirst?, if_neg (by decide)] at updated
    cases isUpdated : Node.updateFirstOf? Word.cell fill children with
    | none =>
      rw [isUpdated] at updated
      cases updated
    | some filled =>
      rw [isUpdated] at updated
      have empty : rendered.isEmpty = blocks.isEmpty := by
        cases each with
        | nil => rfl
        | cons => rfl
      refine .cell context cell rendered isCell isFirst each isPlugged ?_
      simp only [placeRendered, Bool.false_eq_true, if_false, Node.children, fill] at isUpdated ⊢
      rw [isUpdated, ← empty]
      exact (Option.some.inj updated).trans
        (congrArg (fun cell => context.plug [cell]) (ensureParagraph_replaceContent paragraphs isCell))

end TemplateFill.Control

namespace TemplateFill.Walk

open Xml

variable {options : Options} {place : Place} {scope value : Datum} {lists : ListStore}
  {context : Context} {node body : Node} {progress : Progress}

/-- A rich text control without a problem holds what its value was rendered to. -/
theorem effect_of_rendered (isRich : (Control.read node).kind = .richText)
    (unconditional : (Control.read node).condition? = none)
    (selected : Scope.resolve scope (Control.read node).label = .ok (some value))
    (success : (effect (populateControl options place scope node) lists).findings = []) :
    ∃ content rendered, Control.content? node = some content ∧
      (rendering place.inParagraph value lists).1 = .ok rendered ∧
      effect (populateControl options place scope node) lists =
        ⟨[Control.fillRichText place.inParagraph rendered content node],
          (rendering place.inParagraph value lists).2, []⟩ := by
  rw [effect_populateControl, course, isRich, unconditional] at success ⊢
  simp only [selected, lookupCourse, richTextCourse] at success ⊢
  cases plain : Control.isPlainTextOnly node with
  | true =>
    rw [plain] at success
    cases success
  | false =>
    rw [plain] at success
    cases isContent : Control.content? node with
    | none =>
      rw [isContent] at success
      cases success
    | some content =>
      rw [isContent] at success
      simp only [Bool.false_eq_true, if_false] at success ⊢
      cases isRendered : rendering place.inParagraph value lists with
      | mk result kept =>
        rw [isRendered] at success
        cases result with
        | error cause => cases success
        | ok rendered => exact ⟨content, rendered, rfl, rfl, rfl⟩

/-- A rich text control without a problem got what its value has become. -/
theorem effect_of_success (isRich : (Control.read node).kind = .richText)
    (unconditional : (Control.read node).condition? = none)
    (selected : Scope.resolve scope (Control.read node).label = .ok (some value))
    (success : (effect (populateControl options place scope node) lists).findings = []) :
    ∃ content blocks allocator rendered, Control.content? node = some content ∧
      lists.convert value = .ok (blocks, allocator) ∧
      Block.render place.inParagraph blocks = .ok rendered ∧
      (effect (populateControl options place scope node) lists).value =
        [Control.fillRichText place.inParagraph rendered content node] := by
  obtain ⟨content, rendered, isContent, made, isAfter⟩ :=
    effect_of_rendered isRich unconditional selected success
  obtain ⟨blocks, allocator, kept, converted, -, isRendered, -⟩ := rendering_eq_ok made
  exact ⟨content, blocks, allocator, rendered, isContent, converted, isRendered,
    congrArg Effect.value isAfter⟩

/-- A rich text control in any position whose value is written without a problem reads back like
the blocks of the value. Nothing else of the control changes than what marks a placeholder, and
nothing around the control changes. -/
theorem populateBelow_writes_blocks (known : node.lineage ≠ [])
    (isPlugged : [body] = context.plug [node]) (inside : context ≠ [])
    (apart : IsApart node.lineage context) (isRich : (Control.read node).kind = .richText)
    (unconditional : (Control.read node).condition? = none)
    (selected : Scope.resolve scope (Control.read node).label = .ok (some value))
    (success : (populateBelow options scope node.lineage .outside body progress).2.findings =
      progress.findings) :
    ∃ blocks allocator content area,
      progress.lists.convert value = .ok (blocks, allocator) ∧
      Control.content? node = some content ∧
      [(populateBelow options scope node.lineage .outside body progress).1] =
        context.plug [Control.unmark (node.replaceChild Word.controlContent area)] ∧
      (IsRunLevel context → Control.HoldsRuns blocks content area) ∧
      (¬ IsRunLevel context → Control.HoldsParagraphs blocks content area) := by
  have bound : (fun root => [root]) <$> populateBelow options scope node.lineage .outside body =
      context.plug <$> populateControl options (Place.outside.inside context) scope node :=
    populateBelow_plug options scope known rfl isPlugged inside apart .outside
  have bodyIs : [(populateBelow options scope node.lineage .outside body progress).1] =
      context.plug (populateControl options (Place.outside.inside context) scope node progress).1 :=
    congrArg Prod.fst (congrFun bound progress)
  have after : (populateBelow options scope node.lineage .outside body progress).2 =
      (populateControl options (Place.outside.inside context) scope node progress).2 :=
    congrArg Prod.snd (congrFun bound progress)
  have incremental := (incremental_walk options).2.2.1 (Place.outside.inside context) scope node
  rw [after, incremental.findings_eq, List.append_right_eq_self] at success
  obtain ⟨content, blocks, allocator, rendered, isContent, converted, made, left⟩ :=
    effect_of_success isRich unconditional selected success
  have isArea : content.isNamed Word.controlContent := List.find?_some isContent
  let inParagraph := (Place.outside.inside context).inParagraph
  refine ⟨blocks, allocator, content, Control.placeRendered inParagraph rendered content, converted,
    isContent, ?_, ?_, ?_⟩
  · rw [bodyIs, incremental.value_eq, left, Control.fillRichText]
  · intro runLevel
    have isInside : inParagraph = true := (inParagraph_inside context).mpr runLevel
    rw [isInside]
    exact Control.holdsRuns_placeRendered (isInside ▸ made) content
  · intro blockLevel
    have isOutside : inParagraph = false := Bool.eq_false_iff.mpr fun isInside =>
      blockLevel ((inParagraph_inside context).mp isInside)
    rw [isOutside]
    exact Control.holdsParagraphs_placeRendered (isOutside ▸ made) isArea

def tableControl : Node :=
  .element Word.control [7] (.ofList []) [
    .plain Word.controlProperties [] [
      .plain Word.controlTag [(Word.value, "a")] [], .plain Word.placeholderMark [] []],
    .plain Word.controlContent [] [.plain (.word "tbl") [] [.plain (.word "tr") [] [
      .plain Word.cell [] [.plain Word.cellProperties [] [], Word.makeParagraph []],
      .plain Word.cell [] [Word.makeParagraph []]]]]]

/-- The body of a document, around the spot between two paragraphs. -/
def betweenParagraphs : Context :=
  [⟨Word.body, [], .ofList [], [Word.makeParagraph []], [Word.makeParagraph []]⟩]

/-- Whether a control is written into without a problem. -/
def Course.isWritten : Course → Bool
  | .written _ none _ _ => true
  | _ => false

/-- A list item and a paragraph are read back from the first cell. -/
theorem populateBelow_writes_blocks_cell :
    let scope := Datum.object [(.text "a", .text "<ul><li>x</li></ul>y")]
    let body := Node.plain Word.body []
      [Word.makeParagraph [], tableControl, Word.makeParagraph []]
    let result := populateBelow .standard scope [7] .outside body (.start (.document none))
    ∃ blocks allocator content area,
      (ListStore.document none).convert (.text "<ul><li>x</li></ul>y") = .ok (blocks, allocator) ∧
      Control.content? tableControl = some content ∧
      [result.1] = betweenParagraphs.plug
        [Control.unmark (tableControl.replaceChild Word.controlContent area)] ∧
      Control.HoldsParagraphs blocks content area := by
  intro scope body result
  have apart : IsApart tableControl.lineage betweenParagraphs :=
    ⟨List.forall_mem_singleton.mpr ⟨fun _ => rfl, by decide +kernel⟩, by rfl⟩
  have isRich : (Control.read tableControl).kind = .richText := by decide +kernel
  have unconditional : (Control.read tableControl).condition? = none := by decide +kernel
  have label : (Control.read tableControl).label = "a" := by decide +kernel
  have selected : Scope.resolve scope (Control.read tableControl).label =
      .ok (some (.text "<ul><li>x</li></ul>y")) := by
    rw [label]
    rfl
  have isWritten : (course .standard (Place.outside.inside betweenParagraphs) scope
      (.document none) tableControl).isWritten := by
    decide +kernel
  have known : tableControl.lineage ≠ [] := List.cons_ne_nil _ _
  have isPlugged : [body] = betweenParagraphs.plug [tableControl] := rfl
  have isBound : (fun root => [root]) <$> populateBelow .standard scope [7] .outside body =
      betweenParagraphs.plug <$>
        populateControl .standard (Place.outside.inside betweenParagraphs) scope tableControl :=
    populateBelow_plug .standard scope known rfl isPlugged (List.cons_ne_nil _ _) apart .outside
  have success : result.2.findings = [] := by
    have same : result.2.findings = (effect (populateControl .standard
        (Place.outside.inside betweenParagraphs) scope tableControl) (.document none)).findings :=
      congrArg (fun after => after.2.findings) (congrFun isBound (.start (.document none)))
    rw [same, effect_populateControl]
    unfold Course.isWritten at isWritten
    split at isWritten
    · rename_i left lists items isCourse
      rw [isCourse]
      rfl
    · cases isWritten
  obtain ⟨blocks, allocator, content, area, converted, isContent, isResult, -, reads⟩ :=
    populateBelow_writes_blocks known isPlugged (List.cons_ne_nil _ _) apart isRich unconditional
      selected success
  refine ⟨blocks, allocator, content, area, converted, isContent, isResult, reads ?_⟩
  rintro (isParagraph | ⟨outside, -⟩)
  · exact absurd isParagraph (by decide)
  · exact outside (by decide)

end TemplateFill.Walk
