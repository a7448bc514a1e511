import TemplateFill.Proofs.Control.Failure

/-!
# Texts one after the other

A control may be written into any number of times. Some of the texts may be refused or stop midway,
and what they did stays done. A text that is written in the end leaves nothing of all those before
it: every one of them keeps the styles of the control bare, and each is written over as if it had
not been there.
-/

namespace TemplateFill.Control

open Xml

variable {node child : Node} {nodes : List Node} {name : Name} {lines : List String}

/-! ### Bare styles -/

theorem hasBareStyles_element {lineage : Lineage} {traits : Traits} {children : List Node} :
    HasBareStyles (.element name lineage traits children) ↔
      (name = Word.runStyle → children = []) ∧ ∀ child ∈ children, HasBareStyles child := by
  constructor
  · intro bare
    refine ⟨fun isStyle => ?_, fun child member => bare.child member⟩
    exact bare _ List.mem_cons_self (Node.isNamed_iff.mpr (congrArg some isStyle))
  · rintro ⟨styles, below⟩ x inside isStyle
    rcases Node.mem_elements_element.mp inside with rfl | within
    · exact styles (Option.some.inj (Node.isNamed_iff.mp isStyle))
    · obtain ⟨child, member, within⟩ := Node.mem_elementsOf_iff.mp within
      exact below child member x within isStyle

theorem hasBareStyles_leaf (leaf : node.name? = none) : HasBareStyles node := by
  intro x inside
  rw [Node.elements_of_leaf leaf] at inside
  cases inside

/-- An element that is no style has bare styles around content that has. -/
theorem HasBareStyles.withChildren (named : node.isNamed name) (noStyle : name ≠ Word.runStyle)
    (below : ∀ child ∈ nodes, HasBareStyles child) : HasBareStyles (node.withChildren nodes) := by
  obtain ⟨lineage, traits, children, rfl⟩ := Node.exists_of_isNamed named
  exact hasBareStyles_element.mpr ⟨fun isStyle => absurd isStyle noStyle, below⟩

theorem hasBareStyles_plain (noStyle : name ≠ Word.runStyle) (attributes : List (Name × String)) :
    HasBareStyles (.plain name attributes []) :=
  hasBareStyles_element.mpr ⟨fun isStyle => absurd isStyle noStyle, List.forall_mem_nil _⟩

/-! ### Removing -/

theorem HasBareStyles.prune (bare : HasBareStyles node) :
    HasBareStyles (node.prune isPlaceholderStyle) := by
  induction node using Node.induction with
  | element name lineage traits children ih =>
    obtain ⟨styles, below⟩ := hasBareStyles_element.mp bare
    rw [Node.prune, Node.pruneAll_eq]
    refine hasBareStyles_element.mpr ⟨fun isStyle => ?_, fun left member => ?_⟩
    · rw [styles isStyle]
      rfl
    · obtain ⟨child, among, rfl⟩ := List.mem_map.mp member
      have isChild := (List.mem_filter.mp among).1
      exact ih child isChild (below child isChild)
  | aside content tail => exact hasBareStyles_leaf rfl

/-! ### Writing -/

theorem HasBareStyles.setText (bare : HasBareStyles node) (text : String) :
    HasBareStyles (node.setText text) := by
  cases node with
  | element name lineage traits children =>
    exact hasBareStyles_element.mpr (hasBareStyles_element.mp bare)
  | aside content tail => exact bare

theorem HasBareStyles.setAttribute (bare : HasBareStyles node) (key : Name) (value : String) :
    HasBareStyles (node.setAttribute key value) := by
  cases node with
  | element name lineage traits children =>
    exact hasBareStyles_element.mpr (hasBareStyles_element.mp bare)
  | aside content tail => exact bare

theorem hasBareStyles_makeText (line : String) : HasBareStyles (Word.makeText line) :=
  (hasBareStyles_plain (by decide) _).setText line

theorem hasBareStyles_makeBreak : HasBareStyles Word.makeBreak := hasBareStyles_plain (by decide) _

theorem hasBareStyles_furtherLines (lines : List String) :
    ∀ x ∈ (furtherLines lines).1, HasBareStyles x := by
  induction lines with
  | nil => exact List.forall_mem_nil _
  | cons line rest ih =>
    rw [furtherLines]
    split
    · exact List.forall_mem_cons.mpr
        ⟨hasBareStyles_makeBreak, List.forall_mem_cons.mpr ⟨hasBareStyles_makeText line, ih⟩⟩
    · exact List.forall_mem_singleton.mpr hasBareStyles_makeBreak

theorem hasBareStyles_writeInto {piece : Node} (bare : HasBareStyles piece) (first : String)
    (rest : List String) :
    ∀ x ∈ (writeInto piece first rest).1, HasBareStyles x := by
  rw [writeInto]
  split
  · exact List.forall_mem_cons.mpr
      ⟨(bare.setText first).setAttribute _ _, hasBareStyles_furtherLines rest⟩
  · exact List.forall_mem_singleton.mpr (bare.setText "")

theorem hasBareStyles_writeContent (below : ∀ child ∈ nodes, HasBareStyles child) (first : String)
    (rest : List String) : ∀ x ∈ (writeContent first rest nodes).1, HasBareStyles x := by
  have kept {some : List Node} (fewer : some ⊆ nodes) :
      ∀ x ∈ some.filter (!isPiece ·), HasBareStyles x :=
    fun x member => below x (fewer (List.mem_filter.mp member).1)
  rcases exists_textPiece_or_not nodes with ⟨before, piece, after, rfl, none, isText⟩ | none
  · rw [writeContent_of_piece none isText]
    have written := hasBareStyles_writeInto (below piece (by simp)) first rest
    exact List.forall_mem_append.mpr ⟨List.forall_mem_append.mpr
      ⟨kept (List.subset_append_left _ _), written⟩,
        kept (List.subset_append_of_subset_right _ (List.subset_cons_self _ _))⟩
  · rw [writeContent_of_none none]
    split
    · exact List.forall_mem_append.mpr ⟨kept (List.Subset.refl _),
        List.forall_mem_cons.mpr ⟨hasBareStyles_makeText first, hasBareStyles_furtherLines rest⟩⟩
    · exact kept (List.Subset.refl _)

theorem HasBareStyles.writeRun (bare : HasBareStyles node) (isRun : node.isNamed Word.run)
    (lines : List String) : HasBareStyles (writeRun lines node).1 := by
  cases lines with
  | nil => exact bare
  | cons first rest =>
    refine .withChildren isRun (by decide) ?_
    exact hasBareStyles_writeContent (fun child member => bare.child member) first rest

/-- Rebuilding the elements of a name keeps a tree bare if it does so for each of them. -/
theorem HasBareStyles.mapNamed {f : Node → Node} (bare : HasBareStyles node)
    (each : ∀ x, x.isNamed name → HasBareStyles x → HasBareStyles (f x)) :
    HasBareStyles (node.mapNamed name f) := by
  induction node using Node.induction with
  | element own lineage traits children ih =>
    obtain ⟨styles, below⟩ := hasBareStyles_element.mp bare
    have rebuilt :
        HasBareStyles (.element own lineage traits (children.map (Node.mapNamed name f))) := by
      refine hasBareStyles_element.mpr ⟨fun isStyle => ?_, fun left member => ?_⟩
      · rw [styles isStyle]
        rfl
      · obtain ⟨child, among, rfl⟩ := List.mem_map.mp member
        exact ih child among (below child among)
    rw [Node.mapNamed_element]
    split
    · rename_i here
      exact each _ (Node.isNamed_iff.mpr (congrArg some here)) rebuilt
    · exact rebuilt
  | aside content tail => exact bare

theorem HasBareStyles.writeArea {content area : Node} {fault : Option Fault}
    (bare : HasBareStyles content) (isWritten : writeArea lines content = some (area, fault)) :
    HasBareStyles area := by
  have left := bare.keepFirst
  unfold Control.writeArea at isWritten
  simp only at isWritten
  split at isWritten
  · rename_i run rest runs
    cases isWritten
    obtain ⟨inside, isRun⟩ := List.mem_filter.mp (runs ▸ List.mem_cons_self)
    have bareRun : HasBareStyles run :=
      fun x within => left x (Node.elements_subset _ run inside within)
    exact left.mapNamed fun _ _ _ => bareRun.writeRun isRun lines
  · split at isWritten
    · cases isWritten
    · cases isWritten
      have newRun : HasBareStyles (Word.makeRun []) := hasBareStyles_plain (by decide) _
      refine left.mapNamed fun x named whole => ?_
      refine .withChildren named (by decide) ?_
      exact List.forall_mem_append.mpr ⟨fun child member => whole.child member,
        List.forall_mem_singleton.mpr (newRun.writeRun rfl lines)⟩

theorem HasBareStyles.replaceChild {own : Name} (bare : HasBareStyles node)
    (isControl : node.isNamed own) (noStyle : own ≠ Word.runStyle) (fits : HasBareStyles child)
    (name : Name) : HasBareStyles (node.replaceChild name child) := by
  refine .withChildren isControl noStyle fun x member => ?_
  rcases List.mem_cons.mp (Node.replaceFirst_subset _ _ _ member) with rfl | old
  · exact fits
  · exact bare.child old

theorem HasBareStyles.unmark (bare : HasBareStyles node) (isControl : isControl node) :
    HasBareStyles (unmark node) := by
  unfold Control.unmark
  split
  · exact bare
  · rename_i properties isProperties
    have whole := bare.child (List.mem_of_find?_eq_some isProperties)
    refine bare.replaceChild isControl (by decide) ?_ _
    refine .withChildren (List.find?_some isProperties) (by decide) ?_
    exact fun x member => whole.child (List.mem_filter.mp member).1

/-- A text keeps its control bare, however it ends. -/
theorem HasBareStyles.fillPlainText (bare : HasBareStyles node) (isControl : isControl node)
    (tag : String) (replaceLineBreaks : Bool) (value : String) :
    HasBareStyles (fillPlainText tag replaceLineBreaks value node).1 := by
  rw [fillPlainText_eq]
  split
  · exact bare
  · rename_i content isContent
    have inside := bare.child (List.mem_of_find?_eq_some isContent)
    split
    · exact bare
    · split
      · exact bare
      · rename_i area fault isWritten
        have written := inside.writeArea isWritten
        cases fault with
        | some fault => exact bare.replaceChild isControl (by decide) written _
        | none =>
          have filled := bare.replaceChild isControl (by decide) written.prune
            Word.controlContent
          exact filled.unmark (by rwa [Walk.isControl_replaceChild])

theorem name?_unmark (node : Node) : (unmark node).name? = node.name? := by
  unfold unmark
  split
  · rfl
  · exact Node.name?_withChildren _ _

/-- A control stays a control. -/
theorem isControl_fillPlainText (tag : String) (replaceLineBreaks : Bool) (value : String)
    (node : Node) : isControl (fillPlainText tag replaceLineBreaks value node).1 = isControl node := by
  have sameName : (fillPlainText tag replaceLineBreaks value node).1.name? = node.name? := by
    rw [fillPlainText_eq]
    split
    · rfl
    · split
      · rfl
      · split
        · rfl
        · rename_i area fault _
          cases fault with
          | some fault => exact Node.name?_withChildren _ _
          | none => exact (name?_unmark _).trans (Node.name?_withChildren _ _)
  rw [isControl, Node.isNamed, sameName]
  rfl

/-! ### Attempts -/

/-- A text that somebody tries to write into a control. -/
structure Attempt where
  tag : String
  replaceLineBreaks : Bool
  value : String

def Attempt.on (attempt : Attempt) (node : Node) : Node × Outcome :=
  fillPlainText attempt.tag attempt.replaceLineBreaks attempt.value node

/-- A control after some attempts, whether they succeed or not. -/
def afterAttempts (attempts : List Attempt) (node : Node) : Node :=
  attempts.foldl (fun node attempt => (attempt.on node).1) node

/-- An attempt that succeeds writes what a document can hold. -/
theorem Attempt.isWritable {attempt : Attempt} (done : (attempt.on node).2 = .done) :
    isWritableText attempt.value := by
  by_contra unwritable
  obtain ⟨-, -, breaks, -⟩ := fillPlainText_unfilled attempt.tag attempt.replaceLineBreaks
    attempt.value node
  by_cases takes : TakesText node
  · obtain ⟨cause, broken⟩ := breaks.mpr ⟨takes, unwritable⟩
    rw [Attempt.on, broken] at done
    cases done
  · obtain ⟨problem, refused⟩ := fillPlainText_of_not_takesText takes attempt.tag
      attempt.replaceLineBreaks attempt.value
    rw [Attempt.on, refused] at done
    cases done

/-- Lines that can be written leave nothing of others. -/
theorem Attempt.supersedes {last : Attempt} (writable : isWritableText last.value)
    (first : Attempt) : Supersedes (segments last.replaceLineBreaks last.value)
      (segments first.replaceLineBreaks first.value) := by
  refine ⟨segments_ne_nil _ _, .inr ?_⟩
  exact faultOf_eq_none_iff.mp ((faultOf_segments last.replaceLineBreaks last.value).mpr writable)

/-- An attempt that succeeds in the end does to a control what it would have done at once,
whatever was tried before: the last write wins. -/
theorem afterAttempts_on (attempts : List Attempt) (last : Attempt) (node : Node)
    (isControl : isControl node) (bare : HasBareStyles node)
    (done : (last.on (afterAttempts attempts node)).2 = .done) :
    last.on (afterAttempts attempts node) = last.on node := by
  have writable := last.isWritable done
  clear done
  induction attempts generalizing node with
  | nil => rfl
  | cons first rest ih =>
    have stays : Control.isControl (first.on node).1 := by
      rw [Attempt.on, isControl_fillPlainText]
      exact isControl
    have onward := ih (first.on node).1 stays (bare.fillPlainText isControl _ _ _)
    have overwritten : last.on (first.on node).1 = last.on node :=
      fillPlainText_fillPlainText bare last.tag first.tag last.replaceLineBreaks
        first.replaceLineBreaks last.value first.value (last.supersedes writable first)
    exact onward.trans overwritten

instance (outcome : Outcome) : Decidable (outcome = .done) :=
  match outcome with
  | .done => isTrue rfl
  | .refused _ => isFalse Outcome.noConfusion
  | .broken _ => isFalse Outcome.noConfusion

/-- Two lines, lines that stop midway and a control character leave nothing behind a last text. -/
theorem afterAttempts_on_shown :
    let attempts : List Attempt :=
      [⟨"a", true, "x\ny"⟩, ⟨"a", true, "p\nq\n\x01"⟩, ⟨"a", false, "\x01"⟩]
    let last : Attempt := ⟨"a", false, "new"⟩
    isControl shown ∧ HasBareStyles shown ∧ (last.on (afterAttempts attempts shown)).2 = .done ∧
      last.on (afterAttempts attempts shown) = last.on shown := by
  intro attempts last
  have bare : HasBareStyles shown := by decide +kernel
  have done : (last.on (afterAttempts attempts shown)).2 = .done := by decide +kernel
  exact ⟨rfl, bare, done, afterAttempts_on attempts last shown rfl bare done⟩

end TemplateFill.Control
