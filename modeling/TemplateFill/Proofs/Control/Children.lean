import TemplateFill.Control.Basic
import TemplateFill.Proofs.Xml.Position

/-!
# The controls below an element

The child controls of an element are the controls below it that no other control lies around. Going
from an element to its child controls, from each of them to its own, and so on, one comes to every
control below the element, and to each of them once.
-/

namespace TemplateFill.Control

open Xml Xml.Node

variable {node control : Node} {nodes rest : List Node}

/-! ### The outermost controls of some trees -/

theorem outermost_eq (node : Node) :
    outermost node = if isControl node then [node] else outermostOf node.children := by
  cases node with
  | element name lineage traits children =>
    rw [outermost, isControl, isNamed, name?]
    by_cases named : name = Word.control
    · simp [named]
    · simp [named, Node.children]
  | aside content tail => rfl

theorem all_cons (node : Node) (rest : List Node) :
    all (node :: rest) =
      (if isControl node then [node] else []) ++ all node.children ++ all rest := by
  cases node with
  | element name lineage traits children =>
    rw [all, elementsOf, elements, List.cons_append, List.filter_cons, List.filter_append]
    split <;> rfl
  | aside content tail => rfl

/-- Every control is outermost or below one that is, and in document order what is below a control
follows it at once. -/
theorem all_eq_flatMap (nodes : List Node) :
    all nodes = (outermostOf nodes).flatMap fun control => control :: all control.children := by
  induction nodes using children_induction with
  | nil => rfl
  | cons node rest inside behind =>
    rw [all_cons, outermostOf, outermost_eq, List.flatMap_append, ← behind]
    congr 1
    split
    · rw [List.flatMap_singleton, List.singleton_append]
    · rw [← inside, List.nil_append]

theorem size_le_of_mem_outermostOf (member : control ∈ outermostOf nodes) :
    control.size ≤ sizeOfAll nodes := by
  induction nodes using children_induction with
  | nil => cases member
  | cons node rest inside behind =>
    have smaller := sizeOfAll_children_lt node
    rw [outermostOf, outermost_eq, List.mem_append] at member
    rw [sizeOfAll]
    rcases member with first | later
    · split at first
      · rw [List.mem_singleton.mp first]
        omega
      · have := inside first
        omega
    · have := behind later
      omega

/-! ### Going from control to control -/

theorem size_lt_of_mem_childControls (member : control ∈ childControls node) :
    control.size < node.size :=
  Nat.lt_of_le_of_lt (size_le_of_mem_outermostOf member) (sizeOfAll_children_lt node)

/-- The controls that one comes to from child controls to child controls, each before its own. -/
def reached (node : Node) : List Node :=
  (childControls node).attach.flatMap fun ⟨control, _⟩ => control :: reached control
termination_by node.size
decreasing_by exact size_lt_of_mem_childControls ‹_›

theorem reached_eq (node : Node) :
    reached node = (childControls node).flatMap fun control => control :: reached control := by
  rw [reached, List.flatMap_subtype (g := fun control => control :: reached control),
    List.unattach_attach]
  intro control _
  rfl

theorem reached_eq_all (node : Node) : reached node = all node.children := by
  have each : ∀ control ∈ childControls node, reached control = all control.children :=
    fun control _ => reached_eq_all control
  rw [reached_eq, all_eq_flatMap, ← childControls, List.flatMap_def, List.flatMap_def]
  exact congrArg _ (List.map_congr_left fun control member => congrArg _ (each control member))
termination_by node.size
decreasing_by exact size_lt_of_mem_childControls ‹_›

/-! ### Positions of controls -/

def IsControlAt (nodes : List Node) (p : Position) : Prop :=
  ∃ node, at? nodes p = some node ∧ isControl node

/-- There is a control at a position, and no other control lies around it. -/
structure IsOutermostAt (nodes : List Node) (p : Position) : Prop where
  isControl : IsControlAt nodes p
  bare : ∀ q, q <+: p → q ≠ p → ¬ IsControlAt nodes q

theorem isControlAt_nil : ¬ IsControlAt nodes [] := by
  rintro ⟨_, isNode, -⟩
  cases isNode

theorem isControlAt_nowhere (p : Position) : ¬ IsControlAt [] p := by
  rintro ⟨_, isNode, -⟩
  rw [at?_nowhere] at isNode
  cases isNode

theorem isControlAt_first : IsControlAt (node :: rest) [0] ↔ isControl node := by
  simp [IsControlAt]

theorem isControlAt_inside (j : Nat) (p : Position) :
    IsControlAt (node :: rest) (0 :: j :: p) ↔ IsControlAt node.children (j :: p) := Iff.rfl

theorem isControlAt_behind (i : Nat) (p : Position) :
    IsControlAt (node :: rest) ((i + 1) :: p) ↔ IsControlAt rest (i :: p) := by
  rw [IsControlAt, at?_behind, IsControlAt]

/-- What lies around a position goes some of the way to it, and at least the first step. -/
theorem isOutermostAt_cons (i : Nat) (p : Position) :
    IsOutermostAt nodes (i :: p) ↔
      IsControlAt nodes (i :: p) ∧ ∀ q, q <+: p → q ≠ p → ¬ IsControlAt nodes (i :: q) := by
  constructor
  · intro outermost
    refine ⟨outermost.isControl, fun q isPrefix other => ?_⟩
    have longer : i :: q <+: i :: p := List.cons_prefix_cons.mpr ⟨rfl, isPrefix⟩
    exact outermost.bare (i :: q) longer fun same => other (List.cons.inj same).2
  · rintro ⟨control, bare⟩
    refine ⟨control, fun q isPrefix other => ?_⟩
    rcases List.prefix_cons_iff.mp isPrefix with rfl | ⟨q, rfl, within⟩
    · exact isControlAt_nil
    · exact bare q within fun same => other (congrArg _ same)

theorem isOutermostAt_first : IsOutermostAt (node :: rest) [0] ↔ isControl node := by
  rw [isOutermostAt_cons, isControlAt_first]
  exact and_iff_left fun q isPrefix other => absurd (List.prefix_nil.mp isPrefix) other

theorem isOutermostAt_inside (j : Nat) (p : Position) :
    IsOutermostAt (node :: rest) (0 :: j :: p) ↔
      ¬ isControl node ∧ IsOutermostAt node.children (j :: p) := by
  rw [isOutermostAt_cons, isControlAt_inside]
  constructor
  · rintro ⟨control, bare⟩
    refine ⟨fun around => ?_, control, fun q isPrefix other => ?_⟩
    · exact bare [] List.nil_prefix (List.cons_ne_nil j p).symm (isControlAt_first.mpr around)
    · match q with
      | [] => exact isControlAt_nil
      | i :: q => exact bare (i :: q) isPrefix other
  · rintro ⟨noControl, outermost⟩
    refine ⟨outermost.isControl, fun q isPrefix other => ?_⟩
    match q with
    | [] => exact fun around => noControl (isControlAt_first.mp around)
    | i :: q => exact outermost.bare (i :: q) isPrefix other

theorem isOutermostAt_behind (i : Nat) (p : Position) :
    IsOutermostAt (node :: rest) ((i + 1) :: p) ↔ IsOutermostAt rest (i :: p) := by
  simp only [isOutermostAt_cons, isControlAt_behind]

/-- A control that comes first is found there. -/
theorem located_first {P : Position → Prop} (isFirst : P [0] ↔ isControl node) :
    Located (node :: rest) (fun p => p = [0] ∧ P p) (if isControl node then [node] else []) := by
  split
  · next control =>
    refine Located.first.congr fun p => ⟨?_, And.left⟩
    rintro rfl
    exact ⟨rfl, isFirst.mpr control⟩
  · next noControl =>
    refine Located.none ?_
    rintro _ ⟨rfl, here⟩
    exact noControl (isFirst.mp here)

theorem located_all (nodes : List Node) : Located nodes (IsControlAt nodes) (all nodes) := by
  induction nodes using children_induction with
  | nil => exact Located.none isControlAt_nowhere
  | cons node rest inside behind =>
    rw [all_cons]
    exact (located_first isControlAt_first).cons inside behind isControlAt_nil isControlAt_inside
      isControlAt_behind

theorem located_outermostOf (nodes : List Node) :
    Located nodes (IsOutermostAt nodes) (outermostOf nodes) := by
  induction nodes using children_induction with
  | nil => exact Located.none fun p outermost => isControlAt_nowhere p outermost.isControl
  | cons node rest inside behind =>
    -- below a control there is no other outermost one
    have below : Located node.children
        (fun p => ¬ isControl node ∧ IsOutermostAt node.children p)
        (if isControl node then [] else outermostOf node.children) := by
      split
      · next control => exact Located.none fun p here => here.1 control
      · next noControl => exact inside.congr fun p => (and_iff_right noControl).symm
    have parts : outermost node = (if isControl node then [node] else []) ++
        if isControl node then [] else outermostOf node.children := by
      rw [outermost_eq]
      split <;> rfl
    rw [outermostOf, parts]
    exact (located_first isOutermostAt_first).cons below behind
      (fun outermost => isControlAt_nil outermost.isControl) isOutermostAt_inside
      isOutermostAt_behind

/-- The child controls of an element are, in document order and each once, the controls below it with
no other control around them inside the element. From child controls to child controls one comes,
in document order, to all controls below the element, and to each of them once. -/
theorem childControls_partition (node : Node) :
    Located node.children (IsOutermostAt node.children) (childControls node) ∧
    Located node.children (IsControlAt node.children) (reached node) := by
  constructor
  · exact located_outermostOf node.children
  · rw [reached_eq_all]
    exact located_all node.children

end TemplateFill.Control
