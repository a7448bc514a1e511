import TemplateFill.Proofs.Walk.Course
import TemplateFill.Proofs.Xml.Context

/-!
# A control in its position

A single control may be bound anywhere in a tree. It is found by its lineage, the elements around
it say whether it is inside a paragraph, and everything around it and next to it stays.
-/

namespace TemplateFill.Walk

open Xml

variable {options : Options} {scope : Datum} {target : Lineage} {place : Place} {context : Context}
  {node body : Node} {nodes before : List Node}

def Place.inside (place : Place) (context : Context) : Place :=
  context.foldr (fun frame place => place.enter frame.name) place

/-- Whether a spot is inside a paragraph: going outwards there is a paragraph, and before it no
element that holds paragraphs itself. -/
def IsRunLevel : Context → Prop
  | [] => False
  | frame :: outer =>
    frame.name = Word.paragraph ∨ frame.name ∉ Place.blockContainers ∧ IsRunLevel outer

theorem inParagraph_inside (context : Context) :
    (Place.outside.inside context).inParagraph ↔ IsRunLevel context := by
  induction context with
  | nil => exact iff_of_false nofun id
  | cons frame outer ih =>
    rw [IsRunLevel, ← ih, Place.inside, List.foldr_cons, ← Place.inside, Place.enter]
    by_cases isParagraph : frame.name = Word.paragraph
    · simp [isParagraph]
    · by_cases holds : frame.name ∈ Place.blockContainers
      · simp [isParagraph, holds]
      · simp [isParagraph, holds]

/-! ### Nodes that are not looked for -/

theorem lineage_ne (known : target ≠ []) (node : Node) (apart : ∀ x ∈ node.elements, x.lineage ≠ target) :
    node.lineage ≠ target := by
  cases node with
  | element => exact apart _ List.mem_cons_self
  | aside content tail => exact known.symm

mutual

/-- Where the control is not, nothing is done. -/
theorem populateBelow_of_apart (known : target ≠ []) (place : Place) : (node : Node) →
    (∀ x ∈ Node.elementsOf node.children, x.lineage ≠ target) →
    populateBelow options scope target place node = pure node
  | .element name lineage traits children, apart => by
    rw [populateBelow, populateAmong_of_apart known _ children apart]
    rfl
  | .aside _ _, _ => rfl

theorem populateAmong_of_apart (known : target ≠ []) (place : Place) : (nodes : List Node) →
    (∀ x ∈ Node.elementsOf nodes, x.lineage ≠ target) →
    populateAmong options scope target place nodes = pure nodes
  | [], _ => rfl
  | node :: rest, apart => by
    have below : ∀ x ∈ Node.elementsOf node.children, x.lineage ≠ target := fun x inside =>
      apart x (List.mem_append_left _ (Node.mem_elements_of_children inside))
    rw [populateAmong, if_neg (lineage_ne known node fun x => apart x ∘ List.mem_append_left _),
      populateBelow_of_apart known _ node below,
      populateAmong_of_apart known _ rest fun x inside => apart x (List.mem_append_right _ inside)]
    rfl

end

/-- Among some nodes the control is bound behind others, and the others stay. -/
theorem populateAmong_append (known : target ≠ [])
    (apart : ∀ x ∈ Node.elementsOf before, x.lineage ≠ target) (nodes : List Node) :
    populateAmong options scope target place (before ++ nodes) =
      (before ++ ·) <$> populateAmong options scope target place nodes := by
  induction before with
  | nil => exact (id_map _).symm
  | cons first rest ih =>
    have below : ∀ x ∈ Node.elementsOf first.children, x.lineage ≠ target := fun x inside =>
      apart x (List.mem_append_left _ (Node.mem_elements_of_children inside))
    rw [List.cons_append, populateAmong,
      if_neg (lineage_ne known first fun x => apart x ∘ List.mem_append_left _),
      populateBelow_of_apart known _ first below,
      ih fun x inside => apart x (List.mem_append_right _ inside)]
    simp only [pure_bind, map_eq_pure_bind, bind_assoc]
    rfl

/-- Among some nodes the control is bound in front of others, and the others stay. -/
theorem populateAmong_append_apart (known : target ≠ []) (nodes : List Node) {behind : List Node}
    (apart : ∀ x ∈ Node.elementsOf behind, x.lineage ≠ target) :
    populateAmong options scope target place (nodes ++ behind) =
      (· ++ behind) <$> populateAmong options scope target place nodes := by
  induction nodes with
  | nil => rw [List.nil_append, populateAmong_of_apart known place behind apart]; rfl
  | cons first rest ih =>
    rw [List.cons_append, populateAmong, populateAmong, ih]
    by_cases found : first.lineage = target
    · simp only [if_pos found, map_eq_pure_bind, bind_assoc, pure_bind, List.append_assoc]
    · simp only [if_neg found, map_eq_pure_bind, bind_assoc, pure_bind, List.append_assoc]

/-! ### Spots -/

/-- No element around a spot or next to it has a lineage. -/
def IsApart (target : Lineage) (context : Context) : Prop :=
  context.Lacks fun x => x.lineage == target

/-- In a spot the control is bound as it would be on its own in that place, and everything around it
stays. -/
theorem populateAmong_plug (known : target ≠ []) (apart : IsApart target context)
    (nodes : List Node) :
    populateAmong options scope target place (context.plug nodes) =
      context.plug <$> populateAmong options scope target (place.inside context) nodes := by
  induction context generalizing nodes with
  | nil => exact (id_map _).symm
  | cons frame outer ih =>
    obtain ⟨⟨here, before⟩, -⟩ := List.forall_mem_cons.mp apart.isFirst
    have behind := List.filter_eq_nil_iff.mp (List.append_eq_nil_iff.mp apart.later).1
    have other : frame.lineage ≠ target := by simpa [Frame.around, Node.lineage] using here []
    have single (walk : Walk Node) : walk.map (fun x => [x]) = (fun x => [x]) <$> walk := rfl
    rw [Context.plug_cons, ih (Context.Lacks.tail apart), populateAmong, Frame.around,
      if_neg (by simpa [Node.lineage] using other), populateBelow, List.append_assoc,
      populateAmong_append known (by simpa using before),
      populateAmong_append_apart known nodes (by simpa using behind), single]
    simp only [map_eq_pure_bind, bind_assoc, pure_bind, populateAmong, List.append_nil,
      List.append_assoc, Context.plug_cons, Frame.around]
    rfl

/-- A control below a root is bound in its position, and everything around it stays. -/
theorem populateBelow_plug (options : Options) (scope : Datum) (known : target ≠ [])
    (isTarget : node.lineage = target) (isPlugged : [body] = context.plug [node])
    (inside : context ≠ []) (apart : IsApart target context) (place : Place) :
    (fun root => [root]) <$> populateBelow options scope target place body =
      context.plug <$> populateControl options (place.inside context) scope node := by
  have other : body.lineage ≠ target := by
    obtain ⟨frame, member, inner, rfl⟩ := Context.exists_outermost inside isPlugged
    simpa using (apart.isFirst frame member).1 inner
  have single (walk : Walk Node) : walk.map (fun x => [x]) = (fun x => [x]) <$> walk := rfl
  have whole : populateAmong options scope target place [body] =
      (fun root => [root]) <$> populateBelow options scope target place body := by
    rw [populateAmong, if_neg other, single]
    simp only [map_eq_pure_bind, bind_assoc, pure_bind, populateAmong, List.append_nil]
  have here : populateAmong options scope target (place.inside context) [node] =
      populateControl options (place.inside context) scope node := by
    rw [populateAmong, if_pos isTarget]
    simp only [pure_bind, populateAmong, List.append_nil, bind_pure]
  rw [← whole, isPlugged, populateAmong_plug known apart, here]

end TemplateFill.Walk
