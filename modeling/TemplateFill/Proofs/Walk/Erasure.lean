import TemplateFill.Proofs.Control.Erasure
import TemplateFill.Proofs.Walk.Settlement

/-!
# A walk does not read lineages

Lineages follow controls through a walk, and findings name them, but nothing is decided by them.
Two templates that only differ in lineages are walked alike: what is left of them only differs in
lineages again, the lists are the same, and so are the problems.
-/

namespace TemplateFill.Walk

open Xml

/-! ### Courses -/

/-- A course, of which the nodes have no lineages. -/
def Course.bare : Course → Course
  | .written left problem lists items => .written left.bare problem lists items
  | .repeated item values => .repeated item.bare values
  | other => other

section Courses

variable {options : Options} {place : Place} {scope : Datum} {lists : ListStore} {node : Node}

theorem isIdentifier_bare (node : Node) :
    node.bare.isNamed Word.identifier = node.isNamed Word.identifier :=
  Node.isNamed_bare _ _

theorem sectionItem_bare (tag : String) (node : Node) :
    sectionItem tag node.bare = (sectionItem tag node).map Node.bare := by
  rw [sectionItem, sectionItem, Control.content?_bare]
  cases Control.content? node with
  | none => rfl
  | some content =>
    simp only [Option.map_some, Node.children_bare]
    rw [List.head?_map]
    cases content.children.head? with
    | none => rfl
    | some item =>
      simp only [Option.map_some, Control.isControl_bare]
      split
      · rw [← Node.bare_prune isIdentifier_bare]
        rfl
      · rfl

theorem plainTextCourse_bare (tag : String) (value : Datum) :
    plainTextCourse options tag value lists node.bare =
      (plainTextCourse options tag value lists node).bare := by
  rw [plainTextCourse, plainTextCourse]
  cases Scope.stringify value with
  | error cause => rfl
  | ok text => simp only [Control.fillPlainText_bare, Course.bare]

theorem richTextCourse_bare (tag : String) (value : Datum) :
    richTextCourse place tag value lists node.bare =
      (richTextCourse place tag value lists node).bare := by
  rw [richTextCourse, richTextCourse, Control.isPlainTextOnly_bare, Control.content?_bare]
  split
  · rfl
  · cases Control.content? node with
    | none => rfl
    | some content =>
      simp only [Option.map_some]
      split
      · rfl
      · rename_i rendered kept made
        obtain ⟨blocks, isRendered⟩ := render_of_rendering made
        rw [← Control.bare_fillRichText (Control.bare_of_render isRendered)]
        rfl

theorem sectionCourse_bare (tag : String) (value : Datum) :
    sectionCourse tag value node.bare = (sectionCourse tag value node).bare := by
  cases value with
  | list values =>
    rw [sectionCourse, sectionCourse, sectionItem_bare]
    cases sectionItem tag node <;> rfl
  | _ => rfl

theorem lookupCourse_bare (kind : Control.Kind) (tag : String)
    (selected : Except Scope.LookupFault (Option Datum)) :
    lookupCourse options place kind tag lists node.bare selected =
      (lookupCourse options place kind tag lists node selected).bare := by
  cases selected with
  | error fault => cases fault <;> rfl
  | ok selected =>
    cases selected with
    | none => rfl
    | some value =>
      cases kind with
      | plainText => exact plainTextCourse_bare tag value
      | richText => exact richTextCourse_bare tag value
      | _ => exact sectionCourse_bare tag value

theorem conditionCourse_bare (condition tag : String) (verdict : Except Fault Condition.Verdict) :
    (conditionCourse condition tag verdict).bare = conditionCourse condition tag verdict := by
  unfold conditionCourse
  split
  · rfl
  · split
    · rfl
    · split <;> rfl

/-- What becomes of a control is not decided by lineages. -/
theorem course_bare : course options place scope lists node.bare =
    (course options place scope lists node).bare := by
  rw [course, course, Control.read_bare]
  split
  · rfl
  · split
    · split
      · rfl
      · exact (conditionCourse_bare _ _ _).symm
    · exact lookupCourse_bare _ _ _

theorem bare_withItems (items : List Node) (node : Node) :
    (withItems items node).bare = withItems (items.map Node.bare) node.bare := by
  rw [withItems, withItems, Control.content?_bare]
  cases Control.content? node with
  | none => rfl
  | some content =>
    simp only [Option.map_some]
    rw [Node.bare_replaceChild, Node.bare_withChildren]

/-- There is nothing in a bare node that a copy could change. -/
theorem copy_bare (index : Nat) (node : Node) : node.bare.copy index = node.bare := by
  induction node using Node.induction with
  | element name lineage traits children ih =>
    rw [Node.bare_element, Node.copy, Node.mapElements, Node.mapAllElements_eq, List.map_map]
    exact congrArg (Node.element name [] traits) (List.map_congr_left ih)
  | aside content tail => rfl

end Courses

/-! ### Accounts -/

/-- The same problems in the same order, of whatever controls. -/
def SameProblems (first second : List Finding) : Prop :=
  first.map Finding.problem = second.map Finding.problem

theorem SameProblems.append {first second third fourth : List Finding}
    (h : SameProblems first second) (onward : SameProblems third fourth) :
    SameProblems (first ++ third) (second ++ fourth) := by
  rw [SameProblems, List.map_append, List.map_append]
  exact congrArg₂ _ h onward

theorem SameProblems.about (problems : List Problem) (one other : Lineage) :
    SameProblems (problems.map fun problem => ⟨problem, one⟩)
      (problems.map fun problem => ⟨problem, other⟩) := by
  rw [SameProblems, List.map_map, List.map_map]
  rfl

mutual

theorem Settles.bare {options : Options} {place : Place} {scope : Datum} {lists kept : ListStore}
    {node : Node} {account : Account} {left : List Node} :
    Settles options place scope lists node account left kept →
      ∃ other, Settles options place scope lists node.bare other (left.map Node.bare) kept ∧
        SameProblems other.findings account.findings
  | .refused h => ⟨_, .refused (by rw [course_bare, h]; rfl), rfl⟩
  | .broken h => ⟨_, .broken (by rw [course_bare, h]; rfl), rfl⟩
  | .filled h => ⟨_, .filled (by rw [course_bare, h]; rfl), rfl⟩
  | .removed h isParent => by
    have removed := Settles.removed (course_bare.trans (congrArg Course.bare h)) isParent
    refine ⟨.removed node.bare.lineage, ?_, rfl⟩
    split
    · rename_i isCell
      rw [if_pos isCell] at removed
      exact removed
    · rename_i noCell
      rw [if_neg noCell] at removed
      exact removed
  | .shown h below => by
    obtain ⟨others, inside, same⟩ := below.bare
    rw [← Node.children_bare] at inside
    refine ⟨.shown node.bare.lineage _ others, ?_, (SameProblems.about _ _ _).append same⟩
    rw [List.map_singleton, Node.bare_withChildren]
    exact .shown (course_bare.trans (congrArg Course.bare h)) inside
  | .repeated h below => by
    obtain ⟨others, inside, same⟩ := below.bare
    refine ⟨.repeated node.bare.lineage others _, ?_, (same _ _).append (.about _ _ _)⟩
    rw [List.map_singleton, bare_withItems]
    have repeated := Settles.repeated (course_bare.trans (congrArg Course.bare h))
      (by rw [Control.read_bare]; exact inside)
    rw [Control.read_bare] at repeated
    exact repeated

/-- Nodes without their lineages are settled like the nodes. -/
theorem SettlesAll.bare {options : Options} {place : Place} {scope : Datum}
    {lists kept : ListStore} {nodes left : List Node} {accounts : List Account} :
    SettlesAll options place scope lists nodes accounts left kept →
      ∃ others, SettlesAll options place scope lists (nodes.map Node.bare) others
          (left.map Node.bare) kept ∧ SameProblems (findingsOf others) (findingsOf accounts)
  | .nil => ⟨[], .nil, rfl⟩
  | .control isControl first onward => by
    obtain ⟨account, here, same⟩ := first.bare
    obtain ⟨accounts, others, alike⟩ := onward.bare
    rw [List.map_append]
    exact ⟨account :: accounts,
      .control ((Control.isControl_bare _).trans isControl) here others, same.append alike⟩
  | .element other first onward => by
    obtain ⟨below, inside, same⟩ := first.bare
    obtain ⟨accounts, others, alike⟩ := onward.bare
    rw [List.map_cons, List.map_cons, Node.bare_element, Node.bare_element]
    refine ⟨below ++ accounts, .element other inside others, ?_⟩
    rw [findingsOf_append, findingsOf_append]
    exact same.append alike
  | .leaf isLeaf onward => by
    obtain ⟨accounts, others, alike⟩ := onward.bare
    exact ⟨accounts, .leaf ((Node.name?_bare _).trans isLeaf) others, alike⟩

theorem SettlesItems.bare {options : Options} {place : Place} {tag : String} {item : Node}
    {index : Nat} {lists kept : ListStore} {values : List Datum} {entries : List Entry}
    {copies : List Node} {fault : Option Fault} :
    SettlesItems options place tag item index lists values entries copies fault kept →
      ∃ others, SettlesItems options place tag item.bare index lists values others
          (copies.map Node.bare) fault kept ∧
        ∀ one other, SameProblems (entryFindings one others) (entryFindings other entries)
  | .done => ⟨[], .done, fun _ _ => rfl⟩
  | .copied first onward => by
    obtain ⟨accounts, inside, same⟩ := first.bare
    obtain ⟨others, further, alike⟩ := onward.bare
    rw [← Node.children_bare, Node.bare_copy, ← copy_bare index item] at inside
    refine ⟨.copied accounts :: others, ?_, fun one other => same.append (alike one other)⟩
    have copied := SettlesItems.copied inside further
    rw [copy_bare] at copied
    rw [List.map_cons, Node.bare_withChildren, Node.bare_copy]
    exact copied
  | .rejected noObject isShown onward => by
    obtain ⟨others, further, alike⟩ := onward.bare
    exact ⟨_, .rejected noObject isShown further, fun one other =>
      (SameProblems.about [_] one other).append (alike one other)⟩
  | .stopped noObject unshown => ⟨[], .stopped noObject unshown, fun _ _ => rfl⟩

end

/-! ### Walks alike -/

/-- Two walks have left nodes that only differ in lineages, the same lists, and problems that only
differ in the controls that they are about. -/
structure Alike (first second : Effect (List Node)) : Prop where
  value : first.value.map Node.bare = second.value.map Node.bare
  lists : first.lists = second.lists
  problems : SameProblems first.findings second.findings

namespace Alike

variable {first second third : Effect (List Node)}

theorem refl (result : Effect (List Node)) : Alike result result := ⟨rfl, rfl, rfl⟩

theorem symm (h : Alike first second) : Alike second first :=
  ⟨h.value.symm, h.lists.symm, h.problems.symm⟩

theorem trans (h : Alike first second) (onward : Alike second third) : Alike first third :=
  ⟨h.value.trans onward.value, h.lists.trans onward.lists, h.problems.trans onward.problems⟩

end Alike

variable {options : Options} {place : Place} {scope : Datum} {lists : ListStore}
  {nodes others : List Node}

theorem alike_bare (nodes : List Node) (isInside : place.parent.isSome) :
    Alike (effect (populateAll options place scope (nodes.map Node.bare)) lists)
      (effect (populateAll options place scope nodes) lists) := by
  obtain ⟨accounts, only, told⟩ := (settledOn_walk options).1 place scope nodes isInside lists
  obtain ⟨others, settled, same⟩ := ((only _ _ _).mpr ⟨rfl, rfl, rfl⟩).bare
  obtain ⟨bareAccounts, onlyBare, toldBare⟩ :=
    (settledOn_walk options).1 place scope (nodes.map Node.bare) isInside lists
  obtain ⟨rfl, value, kept⟩ := (onlyBare _ _ _).mp settled
  refine ⟨?_, kept.symm, ?_⟩
  · rw [← value, List.map_map]
    exact List.map_congr_left fun node _ => Node.bare_bare node
  · rw [toldBare, told]
    exact same

/-- Nodes that only differ in lineages are walked alike. -/
theorem alike_of_bare (isInside : place.parent.isSome)
    (same : nodes.map Node.bare = others.map Node.bare) :
    Alike (effect (populateAll options place scope nodes) lists)
      (effect (populateAll options place scope others) lists) := by
  refine (alike_bare nodes isInside).symm.trans ?_
  rw [same]
  exact alike_bare others isInside

end TemplateFill.Walk
