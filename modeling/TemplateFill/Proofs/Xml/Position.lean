import TemplateFill.Proofs.Xml.Rebuilding

/-!
# Positions in trees

Two elements may look alike, but they never stand at the same position. A position says which way to
go from some nodes to one of them or to one below them: which of the nodes to take, which of its
children, and so on.

Positions are ordered like words in a dictionary. That is the order of the document, in which an
element comes before what is in it, and what is in it before what stands behind it.
-/

namespace TemplateFill.Xml

/-- The numbers of the nodes to take on the way down. -/
abbrev Position := List Nat

namespace Position

/-- The same way, where one more node stands in front. -/
def shift : Position → Position
  | [] => []
  | i :: p => (i + 1) :: p

theorem shift_lt_shift {p q : Position} (before : p < q) : p.shift < q.shift := by
  match p, q with
  | [], _ :: _ => exact List.nil_lt_cons _ _
  | i :: p, j :: q =>
    rw [List.cons_lt_cons_iff] at before
    rw [shift, shift, List.cons_lt_cons_iff]
    exact before.imp Nat.succ_lt_succ fun ⟨same, within⟩ => ⟨congrArg _ same, within⟩

end Position

namespace Node

/-- The node at a position among and below some nodes. -/
def at? : List Node → Position → Option Node
  | _, [] => none
  | nodes, [i] => nodes[i]?
  | nodes, i :: j :: p => nodes[i]?.bind fun node => at? node.children (j :: p)

variable {node : Node} {nodes others rest : List Node}

@[simp] theorem at?_nil : at? nodes [] = none := rfl

@[simp] theorem at?_nowhere (p : Position) : at? [] p = none := by
  match p with
  | [] => rfl
  | [_] => rfl
  | _ :: _ :: _ => rfl

@[simp] theorem at?_first : at? (node :: rest) [0] = some node := rfl

@[simp] theorem at?_inside (j : Nat) (p : Position) :
    at? (node :: rest) (0 :: j :: p) = at? node.children (j :: p) := rfl

@[simp] theorem at?_behind (i : Nat) (p : Position) :
    at? (node :: rest) ((i + 1) :: p) = at? rest (i :: p) := by
  cases p <;> rfl

/-- What holds of the children of a node and of what stands behind it holds of all of them. -/
@[elab_as_elim]
theorem children_induction {motive : List Node → Prop} (nil : motive [])
    (cons : ∀ node rest, motive node.children → motive rest → motive (node :: rest))
    (nodes : List Node) : motive nodes := by
  refine forest_induction (fun node => motive node.children) ?forest ?element ?leaf nodes
  case forest =>
    intro nodes each
    induction nodes with
    | nil => exact nil
    | cons node rest ih =>
      obtain ⟨first, others⟩ := List.forall_mem_cons.mp each
      exact cons node rest first (ih others)
  case element =>
    intro name lineage traits children inside
    exact inside
  case leaf =>
    intro node leaf
    rw [children_of_leaf leaf]
    exact nil

/-- Some nodes are those at the positions that satisfy `P`, in document order, and none of them is
there twice. -/
def Located (nodes : List Node) (P : Position → Prop) (found : List Node) : Prop :=
  ∃ positions : List Position, positions.Pairwise (· < ·) ∧ (∀ p, p ∈ positions ↔ P p) ∧
    positions.map (at? nodes) = found.map some

namespace Located

variable {P Q : Position → Prop} {found more : List Node} {p : Position}

theorem none (nowhere : ∀ p, ¬ P p) : Located nodes P [] :=
  ⟨[], List.Pairwise.nil, fun p => iff_of_false List.not_mem_nil (nowhere p), rfl⟩

theorem first : Located (node :: rest) (· = [0]) [node] :=
  ⟨[[0]], List.pairwise_singleton _ _, fun _ => List.mem_singleton, rfl⟩

theorem congr (located : Located nodes P found) (same : ∀ p, P p ↔ Q p) :
    Located nodes Q found := by
  obtain ⟨positions, sorted, members, places⟩ := located
  exact ⟨positions, sorted, fun p => (members p).trans (same p), places⟩

/-- Something is found at every position that counts. -/
theorem isSome (located : Located nodes P found) (here : P p) : (at? nodes p).isSome := by
  obtain ⟨positions, -, members, places⟩ := located
  have isFound : at? nodes p ∈ found.map some := places ▸ List.mem_map_of_mem ((members p).mpr here)
  obtain ⟨x, -, isNode⟩ := List.mem_map.mp isFound
  rw [← isNode]
  rfl

theorem append (before : Located nodes P found) (behind : Located nodes Q more)
    (inOrder : ∀ p q, P p → Q q → p < q) : Located nodes (fun p => P p ∨ Q p) (found ++ more) := by
  obtain ⟨ps, sortedBefore, membersBefore, placesBefore⟩ := before
  obtain ⟨qs, sortedBehind, membersBehind, placesBehind⟩ := behind
  refine ⟨ps ++ qs, ?_, ?_, ?_⟩
  · refine List.pairwise_append.mpr ⟨sortedBefore, sortedBehind, fun p inFirst q inSecond => ?_⟩
    exact inOrder p q ((membersBefore p).mp inFirst) ((membersBehind q).mp inSecond)
  · intro p
    rw [List.mem_append, membersBefore, membersBehind]
  · rw [List.map_append, List.map_append, placesBefore, placesBehind]

/-- What is found on some ways is found on other ways that lead to the same nodes in the same
order. -/
theorem map {f : Position → Position} (located : Located nodes P found)
    (inOrder : ∀ p q, p < q → f p < f q) (same : ∀ p, P p → at? others (f p) = at? nodes p) :
    Located others (fun p => ∃ q, P q ∧ f q = p) found := by
  obtain ⟨positions, sorted, members, places⟩ := located
  refine ⟨positions.map f, ?_, ?_, ?_⟩
  · exact List.pairwise_map.mpr (sorted.imp (inOrder _ _))
  · intro p
    rw [List.mem_map]
    exact exists_congr fun q => and_congr_left fun _ => members q
  · rw [← places, List.map_map]
    exact List.map_congr_left fun p member => same p ((members p).mp member)

theorem inside (located : Located node.children P found) :
    Located (node :: rest) (fun p => ∃ q, P q ∧ 0 :: q = p) found := by
  refine located.map ?_ ?_
  · intro p q before
    exact List.cons_lt_cons_iff.mpr (.inr ⟨rfl, before⟩)
  · intro p here
    match p with
    | [] => exact absurd (located.isSome here) (by simp)
    | j :: p => rfl

theorem behind (located : Located rest P found) :
    Located (node :: rest) (fun p => ∃ q, P q ∧ q.shift = p) found := by
  refine located.map (fun _ _ => Position.shift_lt_shift) ?_
  intro p here
  match p with
  | [] => exact absurd (located.isSome here) (by simp)
  | i :: p => exact at?_behind i p

/-- Of some nodes there is the first one, then what is found in it, then what is found behind it. -/
theorem cons {A B : Position → Prop} {own : List Node}
    (itself : Located (node :: rest) (fun p => p = [0] ∧ P p) own)
    (isInside : Located node.children A found) (isBehind : Located rest B more)
    (noWay : ¬ P []) (below : ∀ j p, P (0 :: j :: p) ↔ A (j :: p))
    (after : ∀ i p, P ((i + 1) :: p) ↔ B (i :: p)) :
    Located (node :: rest) P (own ++ found ++ more) := by
  have nowhereInside : ¬ A [] := fun here => absurd (isInside.isSome here) (by simp)
  have nowhereBehind : ¬ B [] := fun here => absurd (isBehind.isSome here) (by simp)
  refine ((itself.append isInside.inside ?_).append isBehind.behind ?_).congr ?_
  · rintro _ _ ⟨rfl, -⟩ ⟨_ | ⟨j, q⟩, here, rfl⟩
    · exact absurd here nowhereInside
    · exact List.cons_lt_cons_iff.mpr (.inr ⟨rfl, List.nil_lt_cons _ _⟩)
  · rintro _ _ first ⟨_ | ⟨i, q⟩, here, rfl⟩
    · exact absurd here nowhereBehind
    · rcases first with ⟨rfl, -⟩ | ⟨p, -, rfl⟩
      · exact List.cons_lt_cons_iff.mpr (.inl (Nat.succ_pos i))
      · exact List.cons_lt_cons_iff.mpr (.inl (Nat.succ_pos i))
  · intro p
    constructor
    · rintro ((⟨-, here⟩ | ⟨_ | ⟨j, q⟩, here, rfl⟩) | ⟨_ | ⟨i, q⟩, here, rfl⟩)
      · exact here
      · exact absurd here nowhereInside
      · exact (below j q).mpr here
      · exact absurd here nowhereBehind
      · exact (after i q).mpr here
    · intro here
      match p with
      | [] => exact absurd here noWay
      | [0] => exact .inl (.inl ⟨rfl, here⟩)
      | 0 :: j :: p => exact .inl (.inr ⟨j :: p, (below j p).mp here, rfl⟩)
      | (i + 1) :: p => exact .inr ⟨i :: p, (after i p).mp here, rfl⟩

end Located

end Node

end TemplateFill.Xml
