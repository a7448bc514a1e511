import TemplateFill.Proofs.Control.Run
import TemplateFill.Proofs.Control.Unmarking

/-!
# The last write wins

A plain text that is written over another one leaves nothing of it: the control is as if only the
last text had been written. A text goes to one spot of the content area, and writing over it only
changes the run in that spot. The last text has to be the same as the one before or one that can be
written, because a text that fails midway leaves what it did not reach.
-/

namespace TemplateFill.Control

open Xml
open TemplateFill.Walk (Pared)

variable {node run area : Node} {lines others : List String}

/-! ### A spot for a run -/

/-- A run that holds no other run. -/
def IsBareRun (run : Node) : Prop := run.isNamed Word.run ∧ Node.tally Word.run run.children = 0

theorem IsBareRun.named (bare : IsBareRun run) : run.named Word.run = [run] := by
  obtain ⟨isRun, nothing⟩ := bare
  obtain ⟨lineage, traits, children, rfl⟩ := Node.exists_of_isNamed isRun
  rw [Node.named, Node.elements, List.filter_cons_of_pos isRun]
  exact congrArg _ (Node.filter_eq_nil_of_tally nothing)

theorem IsBareRun.writeRun (bare : IsBareRun run) (lines : List String) :
    IsBareRun (writeRun lines run).1 := by
  refine ⟨by rw [isNamed_writeRun]; exact bare.1, ?_⟩
  obtain ⟨lineage, traits, children, rfl⟩ := Node.exists_of_isNamed bare.1
  cases lines with
  | nil => exact bare.2
  | cons first rest =>
    have pared := (Walk.cleared_writeContent first rest children .outside).pared
    have fewer := pared.tally_le (show Word.run ∉ Walk.pieceNames by decide)
    exact Nat.eq_zero_of_le_zero (Nat.le_trans fewer (Nat.le_of_eq bare.2))

theorem IsBareRun.prune (bare : IsBareRun run) (p : Node → Bool) : IsBareRun (run.prune p) := by
  have isRun : (run.prune p).isNamed Word.run := by
    rw [Node.isNamed, Node.name?_prune]
    exact bare.1
  have pared : Pared [] .outside [run] [run.prune p] := .prune p run _
  have fewer := pared.tally_le (List.not_mem_nil (a := Word.run))
  rw [Node.tally_singleton, Node.tally_singleton run, if_pos isRun, if_pos bare.1, bare.2] at fewer
  exact ⟨isRun, by omega⟩

theorem isBareRun_makeRun : IsBareRun (Word.makeRun []) := ⟨rfl, rfl⟩

/-- An area as it depends on its only run. -/
structure HasSpot (around : Node → Node) : Prop where
  isArea : ∀ run, (around run).isNamed Word.controlContent
  named : ∀ {run}, IsBareRun run → (around run).named Word.run = [run]
  overwrite : ∀ {run} other, IsBareRun run → withRun (around run) other = around other

theorem isNamed_mapNamed {name own : Name} {f : Node → Node} {area : Node}
    (isArea : area.isNamed own) (other : own ≠ name) : (area.mapNamed name f).isNamed own := by
  obtain ⟨lineage, traits, children, rfl⟩ := Node.exists_of_isNamed isArea
  rw [Node.mapNamed_element, if_neg other]
  exact isArea

theorem hasSpot_withRun (isArea : area.isNamed Word.controlContent)
    (isOnly : area.named Word.run = [run]) : HasSpot (withRun area) where
  isArea _ := isNamed_mapNamed isArea (by decide)
  named {other} bare := by
    have isRun := (List.mem_filter.mp (isOnly ▸ List.mem_singleton_self run)).2
    have single : Node.tally Word.run [area] ≤ Node.tally Word.run [run] := by
      rw [← Node.length_named, isOnly, Node.tally_singleton, if_pos isRun]
      simp
    rw [withRun, Node.named_mapNamed _ area isOnly single, bare.named]
  overwrite other bare := Node.mapNamed_mapNamed_const bare.1 area

theorem withRun_withNewRun (isRun : run.isNamed Word.run) (other : Node) (area : Node) :
    Node.tally Word.run [area] = 0 →
    withRun (withNewRun area run) other = withNewRun area other := by
  obtain ⟨lineage', traits', children', rfl⟩ := Node.exists_of_isNamed isRun
  unfold withRun withNewRun
  induction area using Node.induction with
  | element own lineage traits children ih =>
    intro none
    rw [Node.tally_singleton] at none
    have noneBelow : Node.tally Word.run children = 0 := Nat.eq_zero_of_add_eq_zero_left none
    have noRun : own ≠ Word.run := by
      rintro rfl
      rw [if_pos (Node.isNamed_iff.mpr rfl)] at none
      omega
    have below := List.map_congr_left fun child member => ih child member
      (Nat.eq_zero_of_le_zero (noneBelow ▸ Node.tally_le_of_mem member))
    rw [Node.mapNamed_element, Node.mapNamed_element]
    split
    · simp only [Node.append, Node.withChildren, Node.children]
      rw [Node.mapNamed_element, if_neg noRun, List.map_append, List.map_map, List.map_singleton,
        Node.mapNamed_element, if_pos rfl]
      exact congrArg (fun nodes => Node.element own lineage traits (nodes ++ [other])) below
    · rw [Node.mapNamed_element, if_neg noRun, List.map_map]
      exact congrArg (Node.element own lineage traits) below
  | aside content tail => exact fun _ => rfl

theorem hasSpot_withNewRun {paragraph : Node} (isArea : area.isNamed Word.controlContent)
    (none : area.named Word.run = []) (isOnly : area.named Word.paragraph = [paragraph]) :
    HasSpot (withNewRun area) where
  isArea _ := isNamed_mapNamed isArea (by decide)
  named {other} bare := by
    have nothing : Node.tally Word.run [area] = 0 := by rw [← Node.length_named, none]; rfl
    obtain ⟨inside, isParagraph⟩ := List.mem_filter.mp (isOnly ▸ List.mem_singleton_self paragraph)
    have fewer := Node.tally_le_of_mem_elements Word.run area inside
    obtain ⟨lineage, traits, children, rfl⟩ := Node.exists_of_isNamed isParagraph
    rw [Node.tally_singleton] at fewer
    have below : Node.tally Word.run children = 0 := by
      have counted : Node.tally Word.run children ≤ Node.tally Word.run [area] :=
        Nat.le_trans (Nat.le_add_left _ _) fewer
      omega
    rw [withNewRun, Node.named_mapNamed _ area isOnly (by omega), Node.append, Node.withChildren,
      Node.named_element_of_ne (by decide), Node.elementsOf_append, List.filter_append]
    simp only [Node.children]
    rw [Node.filter_eq_nil_of_tally below, Node.elementsOf_singleton,
      List.nil_append]
    exact bare.named
  overwrite other bare := by
    refine withRun_withNewRun bare.1 other area ?_
    rw [← Node.length_named, none]
    rfl

/-- Writing into an area with a spot writes the run there. -/
theorem writeArea_spot {around : Node → Node} (spot : HasSpot around) (bare : IsBareRun run)
    (lines : List String) : writeArea lines (around run) =
      some (around (writeRun lines run).1, (writeRun lines run).2) := by
  have single : Node.tally Word.run [around run] = 1 := by
    rw [← Node.length_named, spot.named bare]
    rfl
  rw [Node.tally_singleton, Walk.not_isNamed_run_of_area (spot.isArea run)] at single
  have whole : ((around run).keepFirst Word.run false).1 = around run :=
    Node.keepFirst_eq_self Word.run false _ (by simpa using Nat.le_of_eq single) (by simp)
  rw [writeArea, whole, spot.named bare]
  simp only [spot.overwrite _ bare]

/-- Nothing is in an element that gives a style to a run. -/
def HasBareStyles (node : Node) : Prop :=
  ∀ x ∈ node.elements, x.isNamed Word.runStyle → x.children = []

instance (node : Node) : Decidable (HasBareStyles node) :=
  inferInstanceAs (Decidable (∀ x ∈ node.elements, _ → _))

theorem HasBareStyles.keepFirst (bare : HasBareStyles node) :
    HasBareStyles (node.keepFirst Word.run false).1 := by
  intro x inside isStyle
  obtain ⟨y, within, sameName, -, before, same⟩ :=
    Node.exists_of_mem_keepFirst Word.run false node inside
  rw [same, bare y within (by rwa [Node.isNamed, sameName])]
  rfl

/-- Removing the placeholder style keeps elements of other names. -/
theorem HasBareStyles.named_prune (bare : HasBareStyles node) (name : Name)
    (other : name ≠ Word.runStyle) :
    (node.prune isPlaceholderStyle).named name =
      (node.named name).map (Node.prune isPlaceholderStyle) := by
  refine Node.named_prune node fun x inside isStyle => ?_
  have named := ((Bool.and_eq_true _ _).mp isStyle).1
  exact ⟨Node.isNamed_apart other.symm x named, bare x inside named⟩

theorem isNamed_prune (name : Name) (p : Node → Bool) (node : Node) :
    (node.prune p).isNamed name = node.isNamed name := by
  rw [Node.isNamed, Node.name?_prune, Node.isNamed]

/-- The spot of a run in an area, with the placeholder style around it and without. -/
structure IsSpot (content run : Node) (around bald : Node → Node) : Prop where
  styled : HasSpot around
  unstyled : HasSpot bald
  bareRun : IsBareRun run
  prune : ∀ other, IsBareRun other →
    (around other).prune isPlaceholderStyle = bald (other.prune isPlaceholderStyle)
  writes : ∀ lines, writeArea lines content =
    some (around (writeRun lines run).1, (writeRun lines run).2)

/-- A run that is left in an area is written into in its spot. -/
theorem isSpot_of_run {content : Node} {rest : List Node} (bare : HasBareStyles content)
    (isArea : content.isNamed Word.controlContent)
    (runs : (content.keepFirst Word.run false).1.named Word.run = run :: rest) :
    ∃ around bald, IsSpot content run around bald := by
  have count := Node.length_named_keepFirst (Walk.not_isNamed_run_of_area isArea)
  have isLeft : (content.keepFirst Word.run false).1.isNamed Word.controlContent := by
    rwa [Node.isNamed_keepFirst]
  have isBald : ((content.keepFirst Word.run false).1.prune isPlaceholderStyle).isNamed
      Word.controlContent := by
    rwa [isNamed_prune]
  rw [runs, List.length_cons] at count
  obtain rfl : rest = [] := List.eq_nil_of_length_eq_zero (by omega)
  obtain ⟨inside, isRun⟩ := List.mem_filter.mp (runs ▸ List.mem_singleton_self run)
  have unstyledRuns := bare.keepFirst.named_prune Word.run (by decide)
  rw [runs, List.map_singleton] at unstyledRuns
  have fewer := Node.tally_le_of_mem_elements Word.run _ inside
  rw [← Node.length_named (content.keepFirst Word.run false).1, runs, Node.tally_singleton,
    if_pos isRun, List.length_singleton] at fewer
  refine ⟨_, _, hasSpot_withRun isLeft runs, hasSpot_withRun isBald unstyledRuns,
    ⟨isRun, by omega⟩, fun other bareOther => ?_, fun lines => ?_⟩
  · refine Node.prune_mapNamed isPlaceholderStyle_withChildren (fun x named => ?_)
      (fun x _ => bareOther.1) (fun x _ => rfl) _
    exact isPlaceholderStyle_of_isNamed named (by decide)
  · rw [writeArea, runs]

/-- In an area without runs the spot is behind what the only paragraph holds. -/
theorem isSpot_of_paragraph {content paragraph : Node} (bare : HasBareStyles content)
    (isArea : content.isNamed Word.controlContent) (none : content.named Word.run = [])
    (isOnly : content.named Word.paragraph = [paragraph]) :
    ∃ around bald, IsSpot content (Word.makeRun []) around bald := by
  -- nothing is removed, because there is no run
  have whole : (content.keepFirst Word.run false).1 = content := by
    have noRun : Node.tally Word.run [content] = 0 := by rw [← Node.length_named, none]; rfl
    rw [Node.tally_singleton] at noRun
    exact Node.keepFirst_eq_self Word.run false content (by omega) (by simp)
  have isBald : (content.prune isPlaceholderStyle).isNamed Word.controlContent := by
    rwa [isNamed_prune]
  have noUnstyled := bare.named_prune Word.run (by decide)
  have unstyledParagraphs := bare.named_prune Word.paragraph (by decide)
  rw [none, List.map_nil] at noUnstyled
  rw [isOnly, List.map_singleton] at unstyledParagraphs
  refine ⟨_, _, hasSpot_withNewRun isArea none isOnly,
    hasSpot_withNewRun isBald noUnstyled unstyledParagraphs, isBareRun_makeRun,
    fun other bareOther => ?_, fun lines => ?_⟩
  · have stays : isPlaceholderStyle other = false :=
      isPlaceholderStyle_of_isNamed bareOther.1 (by decide)
    refine Node.prune_mapNamed isPlaceholderStyle_withChildren (fun x named => ?_)
      (fun x named => ?_) (fun x named => ?_) _
    · exact isPlaceholderStyle_of_isNamed named (by decide)
    · rwa [Node.isNamed, Node.append, Node.name?_withChildren]
    · obtain ⟨lineage, traits, children, rfl⟩ := Node.exists_of_isNamed named
      simp [Node.append, Node.prune, Node.pruneAll_eq, Node.withChildren, Node.children, stays]
  · rw [writeArea, whole, none, isOnly]
    rfl

/-- A plain text is written in one spot of an area, and this is so without the placeholder style
as well. -/
theorem exists_spot {content after : Node} {fault : Option Fault} (bare : HasBareStyles content)
    (isArea : content.isNamed Word.controlContent)
    (few : (content.named Word.paragraph).length ≤ 1)
    (isWritten : writeArea lines content = some (after, fault)) :
    ∃ run around bald, IsSpot content run around bald := by
  have count := Node.length_named_keepFirst (Walk.not_isNamed_run_of_area isArea)
  cases runs : (content.keepFirst Word.run false).1.named Word.run with
  | cons run rest => exact ⟨run, isSpot_of_run bare isArea runs⟩
  | nil =>
    rw [runs, List.length_nil] at count
    have none : content.named Word.run = [] := List.eq_nil_of_length_eq_zero (by omega)
    cases paragraphs : content.named Word.paragraph with
    | nil =>
      rw [writeArea, runs, paragraphs] at isWritten
      cases isWritten
    | cons paragraph rest =>
      rw [paragraphs, List.length_cons] at few
      obtain rfl : rest = [] := List.eq_nil_of_length_eq_zero (by omega)
      exact ⟨_, isSpot_of_paragraph bare isArea none paragraphs⟩

/-- Writing makes no paragraphs. -/
theorem length_paragraphs_le {content after : Node} {fault : Option Fault}
    (isArea : content.isNamed Word.controlContent)
    (isWritten : writeArea lines content = some (after, fault)) :
    (after.named Word.paragraph).length ≤ (content.named Word.paragraph).length := by
  have pared := (Walk.cleared_writeArea isArea isWritten .outside).pared
  rw [Node.length_named, Node.length_named]
  exact pared.tally_le (show Word.paragraph ∉ Walk.runNames by decide)

theorem length_paragraphs_prune_le (p : Node → Bool) (node : Node) :
    ((node.prune p).named Word.paragraph).length ≤ (node.named Word.paragraph).length := by
  have pared : Pared [] .outside [node] [node.prune p] := .prune p node _
  rw [Node.length_named, Node.length_named]
  exact pared.tally_le List.not_mem_nil

/-! ### Finishing twice -/

section Finishing

variable {content : Node}

def finished (area : Node) : Option Fault → Node
  | some _ => area
  | none => area.prune isPlaceholderStyle

theorem isNamed_finished (area : Node) (fault : Option Fault) (name : Name) :
    (finished area fault).isNamed name = area.isNamed name := by
  cases fault with
  | some fault => rfl
  | none => rw [finished, Node.isNamed, Node.name?_prune, Node.isNamed]

theorem content?_finishPlainText (isContent : content? node = some content) {area : Node}
    (isArea : area.isNamed Word.controlContent) (fault : Option Fault) :
    content? (finishPlainText node area fault).1 = some (finished area fault) := by
  have named : (finished area fault).isNamed Word.controlContent := by rwa [isNamed_finished]
  cases fault with
  | some fault => exact Node.child?_replaceChild isContent named
  | none =>
    rw [finishPlainText, content?_unmark]
    exact Node.child?_replaceChild isContent named

/-- What was finished before is finished again as if it had not been. -/
theorem finishPlainText_finishPlainText {first last : Node} {fault later : Option Fault}
    (isFirst : first.isNamed Word.controlContent) (isLast : last.isNamed Word.controlContent)
    (only : fault = none → later = none) :
    finishPlainText (finishPlainText node first fault).1 last later =
      finishPlainText node last later := by
  have named : (first.prune isPlaceholderStyle).isNamed Word.controlContent := by
    rwa [Node.isNamed, Node.name?_prune]
  have alsoNamed : (last.prune isPlaceholderStyle).isNamed Word.controlContent := by
    rwa [Node.isNamed, Node.name?_prune]
  cases fault with
  | some fault =>
    cases later with
    | some later => simp only [finishPlainText, Node.replaceChild_replaceChild isFirst]
    | none => simp only [finishPlainText, Node.replaceChild_replaceChild isFirst]
  | none =>
    rw [only rfl]
    simp only [finishPlainText]
    rw [← unmark_replaceContent alsoNamed, Node.replaceChild_replaceChild named, unmark_unmark]

theorem finishPlainText_prune (node area : Node) :
    finishPlainText node (area.prune isPlaceholderStyle) none = finishPlainText node area none := by
  rw [finishPlainText, finishPlainText, Node.prune_prune isPlaceholderStyle_withChildren]

end Finishing

theorem HasBareStyles.child {content : Node} (bare : HasBareStyles node)
    (member : content ∈ node.children) : HasBareStyles content :=
  fun x within => bare x (Node.mem_elements_of_children (Node.mem_elementsOf member within))

/-- An area takes lines over others as it would have taken them before. What is written may differ
by the placeholder style, but then it is removed in the end. -/
theorem writeArea_writeArea {content area : Node} {fault : Option Fault}
    (bare : HasBareStyles content) (isArea : content.isNamed Word.controlContent)
    (few : (content.named Word.paragraph).length ≤ 1) (h : Supersedes lines others)
    (isWritten : writeArea others content = some (area, fault)) :
    area.isNamed Word.controlContent ∧ ∃ written last later,
      writeArea lines content = some (written, later) ∧
      writeArea lines (finished area fault) = some (last, later) ∧
      written.isNamed Word.controlContent ∧ last.isNamed Word.controlContent ∧
      (fault = none → later = none) ∧
      ∀ node, finishPlainText node last later = finishPlainText node written later := by
  obtain ⟨run, around, bald, spot⟩ := exists_spot bare isArea few isWritten
  rw [spot.writes others] at isWritten
  cases isWritten
  have again := writeRun_writeRun h spot.bareRun.1
  have only : (writeRun others run).2 = none → (writeRun lines run).2 = none := by
    rcases h.2 with same | all
    · rw [same]
      exact id
    · exact fun _ => (writeRun_fault lines run).trans (faultOf_eq_none_iff.mpr all)
  refine ⟨spot.styled.isArea _, around (writeRun lines run).1, ?_⟩
  cases faultless : (writeRun others run).2 with
  | some fault =>
    refine ⟨_, _, spot.writes lines, ?_, spot.styled.isArea _, spot.styled.isArea _, nofun,
      fun node => rfl⟩
    rw [finished, writeArea_spot spot.styled (spot.bareRun.writeRun others), again]
  | none =>
    -- without the style the last write sees the run as if the style had never been there
    have unstyled : writeRun lines ((writeRun others run).1.prune isPlaceholderStyle) =
        ((writeRun lines run).1.prune isPlaceholderStyle, (writeRun lines run).2) := by
      have isRun := (spot.bareRun.prune isPlaceholderStyle).1
      have before := writeRun_prune spot.bareRun.1 others
      rw [← writeRun_prune spot.bareRun.1 lines, ← writeRun_writeRun h isRun, before]
    have isLater := only faultless
    refine ⟨bald ((writeRun lines run).1.prune isPlaceholderStyle), _, spot.writes lines, ?_,
      spot.styled.isArea _, spot.unstyled.isArea _, fun _ => isLater, fun node => ?_⟩
    · rw [finished, spot.prune _ (spot.bareRun.writeRun others),
        writeArea_spot spot.unstyled ((spot.bareRun.writeRun others).prune _), unstyled]
    · rw [isLater, ← spot.prune _ (spot.bareRun.writeRun lines), finishPlainText_prune]

/-- Of two plain texts that are written into a control only the last one shows. -/
theorem fillPlainText_fillPlainText (bare : HasBareStyles node) (tag tag' : String)
    (replaces replaces' : Bool) (value value' : String)
    (h : Supersedes (segments replaces value) (segments replaces' value')) :
    fillPlainText tag replaces value (fillPlainText tag' replaces' value' node).1 =
      fillPlainText tag replaces value node := by
  rw [fillPlainText_eq tag']
  cases isContent : content? node with
  | none => rfl
  | some content =>
    have isArea : content.isNamed Word.controlContent := List.find?_some isContent
    simp only
    split
    · rfl
    · rename_i few
      cases isWritten : writeArea (segments replaces' value') content with
      | none => rfl
      | some result =>
        obtain ⟨area, fault⟩ := result
        have inside := bare.child (List.mem_of_find?_eq_some isContent)
        obtain ⟨isLeft, written, last, later, writes, writesOver, isNew, isLast, only, same⟩ :=
          writeArea_writeArea inside isArea (by omega) h isWritten
        have fewer := length_paragraphs_le isArea isWritten
        have fewerLeft : ((finished area fault).named Word.paragraph).length ≤
            (area.named Word.paragraph).length := by
          cases fault with
          | some fault => exact Nat.le_refl _
          | none => exact length_paragraphs_prune_le _ area
        rw [fillPlainText_eq, fillPlainText_eq, isContent, content?_finishPlainText isContent isLeft]
        simp only
        rw [if_neg (by omega), if_neg few, writes, writesOver]
        simp only
        rw [same, finishPlainText_finishPlainText isLeft isNew only]

/-! ### The same text again -/

theorem cutAt_ne_nil (sep : Char) (s : List Char) : Text.cutAt sep s ≠ [] := by
  unfold Text.cutAt
  split
  · exact List.cons_ne_nil _ _
  · split
    · exact List.cons_ne_nil _ _
    · split
      · exact List.cons_ne_nil _ _
      · exact List.cons_ne_nil _ _

theorem segments_ne_nil (replaceLineBreaks : Bool) (value : String) :
    segments replaceLineBreaks value ≠ [] := by
  unfold segments
  split
  · exact List.map_eq_nil_iff.not.mpr (cutAt_ne_nil _ _)
  · exact List.cons_ne_nil _ _

/-- A text that is written again changes nothing, whether it was completed or not. -/
theorem fillPlainText_again (bare : HasBareStyles node) (tag : String) (replaceLineBreaks : Bool)
    (value : String) :
    fillPlainText tag replaceLineBreaks value
        (fillPlainText tag replaceLineBreaks value node).1 =
      fillPlainText tag replaceLineBreaks value node :=
  fillPlainText_fillPlainText bare tag tag replaceLineBreaks replaceLineBreaks value value
    ⟨segments_ne_nil replaceLineBreaks value, .inl rfl⟩

theorem isNamed_writeArea {content area : Node} {fault : Option Fault}
    (isArea : content.isNamed Word.controlContent)
    (isWritten : writeArea lines content = some (area, fault)) :
    area.isNamed Word.controlContent := by
  have left : (content.keepFirst Word.run false).1.isNamed Word.controlContent := by
    rwa [Node.isNamed_keepFirst]
  unfold writeArea at isWritten
  simp only at isWritten
  split at isWritten
  · cases isWritten
    exact isNamed_mapNamed left (by decide)
  · split at isWritten
    · cases isWritten
    · cases isWritten
      exact isNamed_mapNamed left (by decide)

/-- A control that a text was written into is read as before. -/
theorem read_fillPlainText (bare : HasBareMarks node) (tag : String) (replaceLineBreaks : Bool)
    (value : String) : read (fillPlainText tag replaceLineBreaks value node).1 = read node := by
  rw [fillPlainText_eq]
  split
  · rfl
  · rename_i content isContent
    split
    · rfl
    · split
      · rfl
      · rename_i area fault isWritten
        have isArea := isNamed_writeArea (List.find?_some isContent) isWritten
        cases fault with
        | some fault => exact read_replaceContent isArea node
        | none =>
          refine read_unmark_replaceContent bare ?_
          rwa [Node.isNamed, Node.name?_prune]

end TemplateFill.Control
