import TemplateFill.Proofs.Walk.Course

/-!
# What a course says of its control

A course is settled by branching over the kind, the condition and the value of a control. Here
the branching is undone once: a control on a certain course has what leads to it. A control
that is written into stays the same element, only what is in it changes.
-/

namespace TemplateFill.Walk

open Xml

/-- The same element, around other content or not. -/
def SameElement (node left : Node) : Prop := ∃ children, left = node.withChildren children

namespace SameElement

theorem refl (node : Node) : SameElement node node :=
  ⟨node.children, by cases node <;> rfl⟩

theorem trans {first second third : Node} (h : SameElement first second)
    (onward : SameElement second third) : SameElement first third := by
  obtain ⟨children, rfl⟩ := h
  obtain ⟨others, rfl⟩ := onward
  exact ⟨others, by cases first <;> rfl⟩

theorem withChildren (node : Node) (children : List Node) :
    SameElement node (node.withChildren children) := ⟨children, rfl⟩

theorem replaceChild (node : Node) (name : Name) (child : Node) :
    SameElement node (node.replaceChild name child) := ⟨_, rfl⟩

theorem unmark (node : Node) : SameElement node (Control.unmark node) := by
  unfold Control.unmark
  split
  · exact .refl node
  · exact .replaceChild _ _ _

theorem finishPlainText (node content : Node) (fault : Option Fault) :
    SameElement node (Control.finishPlainText node content fault).1 := by
  cases fault with
  | some fault => exact .replaceChild _ _ _
  | none => exact (replaceChild _ _ _).trans (.unmark _)

theorem fillPlainText (tag : String) (replaceLineBreaks : Bool) (value : String) (node : Node) :
    SameElement node (Control.fillPlainText tag replaceLineBreaks value node).1 := by
  unfold Control.fillPlainText
  split
  · exact .refl node
  · dsimp only
    split
    · exact .refl node
    · split
      · exact .finishPlainText _ _ _
      · split
        · exact .refl node
        · exact .finishPlainText _ _ _

theorem fillRichText (inParagraph : Bool) (rendered : List Node) (content node : Node) :
    SameElement node (Control.fillRichText inParagraph rendered content node) :=
  (replaceChild _ _ _).trans (.unmark _)

theorem withItems (items : List Node) (node : Node) :
    SameElement node (Walk.withItems items node) := by
  unfold Walk.withItems
  split
  · exact .refl node
  · exact .replaceChild _ _ _

end SameElement

/-- A conditional control whose condition does not hold, with nothing to complain about. -/
def IsHidden (scope : Datum) (node : Node) : Prop :=
  (∀ obstacle, (Control.read node).kind ≠ .unsupported obstacle) ∧
    (Control.read node).kind ≠ .repeatingSection ∧
    ∃ condition, (Control.read node).condition? = some condition ∧
      Condition.evaluate condition scope = .ok ⟨false, none⟩

/-- What holds of a control on a course. -/
def Course.Holds (place : Place) (scope : Datum) (lists : ListStore) (node : Node) :
    Course → Prop
  | .refused _ => True
  | .written left problem kept items =>
    SameElement node left ∧ (kept = lists ∧ items = [] ∨
      ∃ value content, Control.content? node = some content ∧
        kept = (rendering place.inParagraph value lists).2 ∧
        match (rendering place.inParagraph value lists).1 with
        | .error cause => problem = some (.fault cause (Control.read node).label) ∧ items = []
        | .ok rendered =>
          left = Control.fillRichText place.inParagraph rendered content node ∧
            problem = none ∧ items = itemsMade place.inParagraph value rendered)
  | .hidden => IsHidden scope node
  | .shown _ => True
  | .repeated item _ => sectionItem (Control.read node).label node = .ok item

section Holds

variable {options : Options} {place : Place} {scope : Datum} {lists : ListStore} {node : Node}

theorem plainTextCourse_holds (value : Datum) :
    (plainTextCourse options (Control.read node).label value lists node).Holds place scope lists
      node := by
  unfold plainTextCourse
  split
  · exact ⟨.refl node, .inl ⟨rfl, rfl⟩⟩
  · exact ⟨.fillPlainText _ _ _ node, .inl ⟨rfl, rfl⟩⟩

theorem richTextCourse_holds (value : Datum) :
    (richTextCourse place (Control.read node).label value lists node).Holds place scope lists
      node := by
  unfold richTextCourse
  split
  · trivial
  · split
    · trivial
    · rename_i content isContent
      split
      · rename_i cause kept broken
        exact ⟨.refl node,
          .inr ⟨value, content, isContent, by rw [broken], by rw [broken]; exact ⟨rfl, rfl⟩⟩⟩
      · rename_i rendered kept done
        exact ⟨.fillRichText _ _ _ node,
          .inr ⟨value, content, isContent, by rw [done], by rw [done]; exact ⟨rfl, rfl, rfl⟩⟩⟩

theorem sectionCourse_holds (value : Datum) :
    (sectionCourse (Control.read node).label value node).Holds place scope lists node := by
  unfold sectionCourse
  split
  · split
    · trivial
    · rename_i isItem
      exact isItem
  · trivial

theorem lookupCourse_holds {kind : Control.Kind}
    (selected : Except Scope.LookupFault (Option Datum)) :
    (lookupCourse options place kind (Control.read node).label lists node selected).Holds place
      scope lists node := by
  unfold lookupCourse
  split
  · trivial
  · trivial
  · trivial
  · split
    · exact plainTextCourse_holds _
    · exact richTextCourse_holds _
    · exact sectionCourse_holds _

theorem conditionCourse_holds {condition : String}
    (supported : ∀ obstacle, (Control.read node).kind ≠ .unsupported obstacle)
    (noSection : (Control.read node).kind ≠ .repeatingSection)
    (conditional : (Control.read node).condition? = some condition) :
    (conditionCourse condition (Control.read node).label
      (Condition.evaluate condition scope)).Holds place scope lists node := by
  unfold conditionCourse
  split
  · trivial
  · rename_i verdict evaluated
    split
    · trivial
    · rename_i noComplaint
      split
      · trivial
      · rename_i fails
        refine ⟨supported, noSection, condition, conditional, ?_⟩
        obtain ⟨holds, complaint⟩ := verdict
        simp_all

/-- Whatever course a control is on, what the course says of it holds. -/
theorem course_holds {taken : Course} (h : course options place scope lists node = taken) :
    taken.Holds place scope lists node := by
  subst h
  unfold course
  dsimp only
  split
  · trivial
  · rename_i supported
    split
    · rename_i conditional
      split
      · trivial
      · rename_i noSection
        exact conditionCourse_holds supported noSection conditional
    · exact lookupCourse_holds _

/-- A control is hidden if its condition does not hold, and in no other case. -/
theorem course_eq_hidden_iff : course options place scope lists node = .hidden ↔
    IsHidden scope node := by
  constructor
  · intro h
    exact course_holds h
  · rintro ⟨supported, noSection, condition, conditional, evaluated⟩
    rw [course]
    split
    · rename_i obstacle unsupported
      exact absurd unsupported (supported obstacle)
    · rw [conditional]
      simp only [if_neg noSection, evaluated]
      rfl

end Holds

end TemplateFill.Walk
