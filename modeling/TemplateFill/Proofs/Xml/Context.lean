import TemplateFill.Proofs.Xml.Pruning

/-!
# Spots in trees

A spot of a tree is given by the elements around it, each with what stands in it before and behind
the spot. Whatever is put into the spot, all of that stays: this is what it means that nothing else
of a tree changes.
-/

namespace TemplateFill.Xml

/-- An element around a spot, with what stands in it before and behind the spot. -/
structure Frame where
  name : Name
  lineage : Lineage
  traits : Traits
  before : List Node
  behind : List Node

namespace Frame

/-- The element around some nodes. -/
def around (frame : Frame) (nodes : List Node) : Node :=
  .element frame.name frame.lineage frame.traits (frame.before ++ nodes ++ frame.behind)

def prune (p : Node → Bool) (frame : Frame) : Frame :=
  { frame with before := Node.pruneAll p frame.before, behind := Node.pruneAll p frame.behind }

variable {frame : Frame} {nodes : List Node} {p : Node → Bool}

/-- The elements of a kind in a frame that is not of that kind. -/
theorem filter_elements_around (other : p (frame.around nodes) = false) :
    (frame.around nodes).elements.filter p =
      (Node.elementsOf frame.before).filter p ++ (Node.elementsOf nodes).filter p ++
        (Node.elementsOf frame.behind).filter p := by
  have itself : ¬ p (frame.around nodes) = true := Bool.eq_false_iff.mp other
  rw [around, Node.elements]
  refine (List.filter_cons_of_neg itself).trans ?_
  rw [Node.elementsOf_append, Node.elementsOf_append, List.filter_append, List.filter_append]

theorem isNamed_around {name : Name} : (frame.around nodes).isNamed name ↔ frame.name = name :=
  Node.isNamed_iff.trans ⟨Option.some.inj, congrArg some⟩

end Frame

namespace Node

variable {nodes rest : List Node} {first x : Node} {name : Name}

/-- An element below some nodes is one of them or a child of another element below them. -/
theorem exists_parent (inside : x ∈ elementsOf nodes) :
    x ∈ nodes ∨ ∃ parent ∈ elementsOf nodes, x ∈ parent.children := by
  obtain ⟨node, member, within⟩ := mem_elementsOf_iff.mp inside
  clear inside
  induction node using Node.induction generalizing nodes with
  | element own lineage traits children ih =>
    rcases mem_elements_element.mp within with rfl | below
    · exact .inl member
    · obtain ⟨child, among, within⟩ := mem_elementsOf_iff.mp below
      have here : element own lineage traits children ∈ elementsOf nodes :=
        mem_elementsOf member List.mem_cons_self
      -- what is below the children is below their parent
      have onward : x ∈ children ∨ ∃ parent ∈ elementsOf children, x ∈ parent.children :=
        ih child among among within
      rcases onward with isChild | ⟨parent, deeper, isChild⟩
      · exact .inr ⟨_, here, isChild⟩
      · exact .inr ⟨parent, mem_elementsOf_trans here (List.mem_cons_of_mem _ deeper), isChild⟩
  | aside content tail => cases within

/-- The first element of a name among and below some nodes is in one of them. -/
theorem exists_of_filter_eq_cons (found : (elementsOf nodes).filter (·.isNamed name) = first :: rest) :
    ∃ before node after, nodes = before ++ node :: after ∧
      (∀ x ∈ elementsOf before, x.isNamed name = false) ∧ ∃ more, node.named name = first :: more := by
  induction nodes with
  | nil => cases found
  | cons node others ih =>
    rw [elementsOf, List.filter_append] at found
    cases here : node.named name with
    | cons own more =>
      rw [← named, here] at found
      obtain ⟨rfl, -⟩ := List.cons.inj found
      exact ⟨[], node, others, rfl, List.forall_mem_nil _, more, here⟩
    | nil =>
      rw [← named, here] at found
      obtain ⟨before, child, after, rfl, none, isChild⟩ := ih found
      refine ⟨node :: before, child, after, rfl, List.forall_mem_append.mpr ⟨?_, none⟩, isChild⟩
      exact fun x inside => Bool.eq_false_iff.mpr (List.filter_eq_nil_iff.mp here x inside)

variable {f : Node → Node} {front left : List Node}

theorem updateFirstOf?_append (none : updateFirstOf? name f front = none) (nodes : List Node) :
    updateFirstOf? name f (front ++ nodes) = (updateFirstOf? name f nodes).map (front ++ ·) := by
  induction front with
  | nil => exact (congrFun Option.map_id _).symm
  | cons node rest ih =>
    rw [updateFirstOf?] at none
    split at none
    · cases none
    · rename_i unmet
      rw [List.cons_append, updateFirstOf?, unmet, ih (Option.map_eq_none_iff.mp none),
        Option.map_map]
      rfl

theorem updateFirstOf?_append_of_some (found : updateFirstOf? name f nodes = some left)
    (rest : List Node) : updateFirstOf? name f (nodes ++ rest) = some (left ++ rest) := by
  induction nodes generalizing left with
  | nil => cases found
  | cons node others ih =>
    rw [updateFirstOf?] at found
    rw [List.cons_append, updateFirstOf?]
    split at found
    · cases found
      rfl
    · obtain ⟨later, isLater, rfl⟩ := Option.map_eq_some_iff.mp found
      rw [ih isLater]
      rfl

end Node

/-- The elements around a spot of a tree, the innermost first. -/
abbrev Context := List Frame

namespace Context

variable {context inner outer : Context} {frame : Frame} {nodes left : List Node}
  {node first only x : Node} {name : Name} {p q : Node → Bool}

/-- Some nodes in a spot. -/
def plug : Context → List Node → List Node
  | [], nodes => nodes
  | frame :: outer, nodes => plug outer [frame.around nodes]

@[simp] theorem plug_nil (nodes : List Node) : plug [] nodes = nodes := rfl

@[simp] theorem plug_cons (frame : Frame) (outer : Context) (nodes : List Node) :
    plug (frame :: outer) nodes = plug outer [frame.around nodes] := rfl

theorem plug_append (inner outer : Context) (nodes : List Node) :
    plug (inner ++ outer) nodes = plug outer (plug inner nodes) := by
  induction inner generalizing nodes with
  | nil => rfl
  | cons frame rest ih => exact ih [frame.around nodes]

theorem mem_elementsOf_around (inside : x ∈ Node.elementsOf nodes) :
    x ∈ (frame.around nodes).elements := by
  refine List.mem_cons_of_mem _ ?_
  rw [Node.elementsOf_append, Node.elementsOf_append]
  exact List.mem_append_left _ (List.mem_append_right _ inside)

/-- What is in the spot is in the tree. -/
theorem mem_elementsOf_plug (context : Context) (inside : x ∈ Node.elementsOf nodes) :
    x ∈ Node.elementsOf (context.plug nodes) := by
  induction context generalizing nodes with
  | nil => exact inside
  | cons frame outer ih =>
    refine ih ?_
    rw [Node.elementsOf_singleton]
    exact mem_elementsOf_around inside

/-- Around a spot that is not on its own there is an outermost element. -/
theorem exists_outermost {root : Node} (inside : context ≠ []) (isPlugged : [root] = context.plug nodes) :
    ∃ frame ∈ context, ∃ inner, root = frame.around inner := by
  induction context generalizing nodes with
  | nil => exact absurd rfl inside
  | cons frame outer ih =>
    by_cases isOutermost : outer = []
    · subst isOutermost
      exact ⟨frame, List.mem_cons_self, nodes, List.singleton_inj.mp isPlugged⟩
    · obtain ⟨outermost, member, inner, isRoot⟩ := ih isOutermost isPlugged
      exact ⟨outermost, List.mem_cons_of_mem _ member, inner, isRoot⟩

/-- The elements around something are elements of the tree. -/
theorem exists_mem_around (context : Context) (something : nodes ≠ []) : ∀ frame ∈ context,
    ∃ inner ≠ [], frame.around inner ∈ Node.elementsOf (context.plug nodes) := by
  induction context generalizing nodes with
  | nil => exact List.forall_mem_nil _
  | cons frame outer ih =>
    refine List.forall_mem_cons.mpr ⟨⟨nodes, something, ?_⟩, ih (List.cons_ne_nil _ _)⟩
    exact mem_elementsOf_plug outer (List.mem_append_left _ List.mem_cons_self)

/-! ### What there is around a spot -/

/-- Neither an element around a spot nor one before it satisfies `p`. -/
def IsFirst (p : Node → Bool) (context : Context) : Prop :=
  ∀ frame ∈ context, (∀ nodes, p (frame.around nodes) = false) ∧
    ∀ x ∈ Node.elementsOf frame.before, p x = false

/-- The elements behind a spot that satisfy `p`. -/
def later (p : Node → Bool) (context : Context) : List Node :=
  context.flatMap fun frame => (Node.elementsOf frame.behind).filter p

/-- No element around a spot or next to it satisfies `p`. -/
structure Lacks (p : Node → Bool) (context : Context) : Prop where
  isFirst : context.IsFirst p
  later : context.later p = []

theorem IsFirst.append (below : inner.IsFirst p) (above : outer.IsFirst p) :
    (inner ++ outer : Context).IsFirst p :=
  List.forall_mem_append.mpr ⟨below, above⟩

theorem Lacks.tail (lacks : Lacks p (frame :: outer)) : Lacks p outer :=
  ⟨(List.forall_mem_cons.mp lacks.isFirst).2, (List.append_eq_nil_iff.mp lacks.later).2⟩

/-- The elements of a kind in a tree, of which none is around a spot or before it. -/
theorem filter_elementsOf_plug (isFirst : context.IsFirst p) (nodes : List Node) :
    (Node.elementsOf (context.plug nodes)).filter p =
      (Node.elementsOf nodes).filter p ++ context.later p := by
  induction context generalizing nodes with
  | nil => exact (List.append_nil _).symm
  | cons frame outer ih =>
    obtain ⟨here, onward⟩ := List.forall_mem_cons.mp isFirst
    have before : (Node.elementsOf frame.before).filter p = [] :=
      List.filter_eq_nil_iff.mpr fun x inside => Bool.eq_false_iff.mp (here.2 x inside)
    rw [plug_cons, ih onward, Node.elementsOf_singleton, Frame.filter_elements_around (here.1 nodes),
      before, List.nil_append, later, later, List.flatMap_cons, List.append_assoc]

/-- What a context lacks is found in its spot alone. -/
theorem Lacks.filter_elementsOf_plug (lacks : context.Lacks p) (nodes : List Node) :
    (Node.elementsOf (context.plug nodes)).filter p = (Node.elementsOf nodes).filter p := by
  rw [Context.filter_elementsOf_plug lacks.isFirst, lacks.later, List.append_nil]

/-- A context lacks what is found only in its spot. -/
theorem IsFirst.lacks (isFirst : context.IsFirst p)
    (isOnly : (Node.elementsOf (context.plug nodes)).filter p = (Node.elementsOf nodes).filter p) :
    context.Lacks p := by
  rw [Context.filter_elementsOf_plug isFirst] at isOnly
  exact ⟨isFirst, List.append_cancel_left (isOnly.trans (List.append_nil _).symm)⟩

/-- A context lacks what is not in the tree at all. -/
theorem Lacks.of_none (byTag : ∀ (x : Node) children, p (x.withChildren children) = p x)
    (none : ∀ x ∈ Node.elementsOf (context.plug nodes), p x = false) : context.Lacks p := by
  induction context generalizing nodes with
  | nil => exact ⟨List.forall_mem_nil _, rfl⟩
  | cons frame outer ih =>
    have above := ih none
    have here : ∀ x ∈ (frame.around nodes).elements, p x = false := fun x inside =>
      none x (mem_elementsOf_plug outer (List.mem_append_left _ inside))
    have nothing := List.filter_eq_nil_iff.mpr fun x inside => Bool.eq_false_iff.mp (here x inside)
    have itself := here _ List.mem_cons_self
    rw [Frame.filter_elements_around itself, List.append_eq_nil_iff, List.append_eq_nil_iff] at nothing
    obtain ⟨⟨before, -⟩, behind⟩ := nothing
    refine ⟨List.forall_mem_cons.mpr ⟨⟨fun others => ?_, fun x inside => ?_⟩, above.isFirst⟩, ?_⟩
    · exact (byTag (frame.around nodes) _).trans itself
    · exact Bool.eq_false_iff.mpr (List.filter_eq_nil_iff.mp before x inside)
    · exact List.append_eq_nil_iff.mpr ⟨behind, above.later⟩

/-- Elements that are only children of elements of a name are not found around or next to a spot
that lacks that name, and not right in it. -/
theorem Lacks.of_parents (byTag : ∀ (x : Node) children, p (x.withChildren children) = p x)
    (lacks : context.Lacks (·.isNamed name))
    (parents : ∀ x ∈ Node.elementsOf (context.plug nodes), ∀ child ∈ x.children, p child →
      x.isNamed name)
    (top : ∀ root ∈ context.plug nodes, p root = false) :
    context.Lacks p ∧ ∀ node ∈ nodes, p node = false := by
  induction context generalizing nodes with
  | nil => exact ⟨⟨List.forall_mem_nil _, rfl⟩, top⟩
  | cons frame outer ih =>
    obtain ⟨above, other⟩ := ih lacks.tail parents top
    obtain ⟨⟨unnamed, before⟩, -⟩ := List.forall_mem_cons.mp lacks.isFirst
    have behind := List.filter_eq_nil_iff.mp (List.append_eq_nil_iff.mp lacks.later).1
    have inTree : frame.around nodes ∈ Node.elementsOf (plug (frame :: outer) nodes) :=
      mem_elementsOf_plug outer (List.mem_append_left _ List.mem_cons_self)
    have ofChild : ∀ child ∈ frame.before ++ nodes ++ frame.behind, p child = false := by
      intro child member
      by_contra isPiece
      have named := parents _ inTree child member (Bool.not_eq_false _ ▸ isPiece)
      exact Bool.eq_false_iff.mp (unnamed nodes) named
    -- deeper down there is a parent, which would have the name
    have ofSide {side : List Node} (among : side ⊆ frame.before ++ nodes ++ frame.behind)
        (none : ∀ x ∈ Node.elementsOf side, ¬ x.isNamed name) :
        ∀ x ∈ Node.elementsOf side, p x = false := by
      intro x inside
      rcases Node.exists_parent inside with member | ⟨parent, within, isChild⟩
      · exact ofChild x (among member)
      · obtain ⟨node, member, below⟩ := Node.mem_elementsOf_iff.mp within
        have parentInTree := Node.mem_elementsOf_trans inTree
          (Node.mem_elements_of_children (Node.mem_elementsOf (among member) below))
        by_contra isPiece
        exact none parent within (parents parent parentInTree x isChild (Bool.not_eq_false _ ▸ isPiece))
    refine ⟨⟨List.forall_mem_cons.mpr ⟨⟨fun others => ?_, ?_⟩, above.isFirst⟩, ?_⟩, ?_⟩
    · exact (byTag (frame.around nodes) _).trans (other _ (List.mem_singleton_self _))
    · refine ofSide ?_ fun x inside => Bool.eq_false_iff.mp (before x inside)
      exact List.subset_append_of_subset_left _ (List.subset_append_left _ _)
    · refine List.append_eq_nil_iff.mpr ⟨List.filter_eq_nil_iff.mpr fun x inside => ?_, above.later⟩
      exact Bool.eq_false_iff.mp (ofSide (List.subset_append_right _ _) behind x inside)
    · exact fun node member => ofChild node (List.mem_append_left _ (List.mem_append_right _ member))

/-! ### Removing -/

def prune (p : Node → Bool) (context : Context) : Context := context.map (Frame.prune p)

/-- Removing around a spot and in it. -/
theorem pruneAll_plug (kept : ∀ frame ∈ context, ∀ nodes, p (frame.around nodes) = false)
    (nodes : List Node) :
    Node.pruneAll p (context.plug nodes) = (context.prune p).plug (Node.pruneAll p nodes) := by
  induction context generalizing nodes with
  | nil => rfl
  | cons frame outer ih =>
    obtain ⟨here, onward⟩ := List.forall_mem_cons.mp kept
    rw [plug_cons, ih onward, Node.pruneAll_singleton (here nodes), Frame.around, Node.prune,
      Node.pruneAll_append, Node.pruneAll_append]
    rfl

theorem prune_prune (byTag : ∀ (x : Node) children, q (x.withChildren children) = q x)
    (p : Node → Bool) (context : Context) :
    (context.prune p).prune q = context.prune fun x => p x || q x := by
  rw [prune, prune, List.map_map]
  refine List.map_congr_left fun frame _ => ?_
  simp only [Function.comp_apply, Frame.prune, Node.pruneAll_pruneAll byTag]

/-- Around a first spot nothing is left of what is removed. -/
theorem IsFirst.lacks_prune (byTag : ∀ (x : Node) children, p (x.withChildren children) = p x)
    (alsoByTag : ∀ (x : Node) children, q (x.withChildren children) = q x)
    (covers : ∀ x, p x → q x) (isFirst : context.IsFirst p) : (context.prune q).Lacks p := by
  have left (nodes : List Node) : ∀ x ∈ Node.elementsOf (Node.pruneAll q nodes), p x = false :=
    fun x inside => Bool.eq_false_iff.mpr fun fits => Bool.eq_false_iff.mp
      (Node.not_of_mem_elementsOf_pruneAll alsoByTag nodes x inside) (covers x fits)
  constructor
  · intro frame member
    obtain ⟨original, among, rfl⟩ := List.mem_map.mp member
    refine ⟨fun nodes => ?_, left original.before⟩
    exact (byTag (original.around nodes) _).trans ((isFirst original among).1 nodes)
  · refine List.flatMap_eq_nil_iff.mpr fun frame member => List.filter_eq_nil_iff.mpr ?_
    obtain ⟨original, -, rfl⟩ := List.mem_map.mp member
    exact fun x inside => Bool.eq_false_iff.mp (left original.behind x inside)

/-- Of a tree with a first element in a spot, keeping the first removes what is around the spot
and what is left of the element stays. -/
theorem IsFirst.keepFirstOf_plug (isFirst : context.IsFirst (·.isNamed name))
    (found : Node.keepFirstOf name false nodes = (left, true)) :
    Node.keepFirstOf name false (context.plug nodes) =
      ((context.prune (·.isNamed name)).plug left, true) := by
  induction context generalizing nodes left with
  | nil => exact found
  | cons frame outer ih =>
    obtain ⟨⟨unnamed, before⟩, onward⟩ := List.forall_mem_cons.mp isFirst
    have other : (frame.around nodes).isNamed name = false := unnamed nodes
    have none : Node.tally name frame.before = 0 :=
      Node.tally_eq_zero_iff.mpr fun x inside => Bool.eq_false_iff.mp (before x inside)
    have same : Node.pruneAll (·.isNamed name) frame.before = frame.before :=
      Node.pruneAll_eq_self (fun _ => Node.isElement_of_isNamed) _ before
    have here : Node.keepFirstOf name false [frame.around nodes] =
        ([(frame.prune (·.isNamed name)).around left], true) := by
      rw [Node.keepFirstOf, other, Frame.around, Node.keepFirst, Bool.or_false,
        Node.keepFirstOf_append, Node.keepFirstOf_append, Node.keepFirstOf_of_none none]
      simp only [Bool.and_false, Bool.false_eq_true, if_false, found, Node.keepFirstOf_of_seen,
        Frame.around, Frame.prune, same, Node.keepFirstOf]
    exact ih onward here

/-! ### Rebuilding -/

/-- Elements of a name that a context lacks are rebuilt in its spot alone. -/
theorem Lacks.map_mapNamed_plug (lacks : context.Lacks (·.isNamed name)) (f : Node → Node)
    (nodes : List Node) :
    (context.plug nodes).map (Node.mapNamed name f) =
      context.plug (nodes.map (Node.mapNamed name f)) := by
  have same {side : List Node} (none : ∀ x ∈ Node.elementsOf side, ¬ x.isNamed name) :
      side.map (Node.mapNamed name f) = side := by
    refine (List.map_congr_left fun x member => ?_).trans (List.map_id _)
    refine Node.mapNamed_eq_self f x (Node.tally_eq_zero_iff.mpr fun y inside => ?_)
    rw [Node.elementsOf_singleton] at inside
    exact none y (Node.mem_elementsOf member inside)
  induction context generalizing nodes with
  | nil => rfl
  | cons frame outer ih =>
    obtain ⟨⟨unnamed, before⟩, -⟩ := List.forall_mem_cons.mp lacks.isFirst
    have behind := List.filter_eq_nil_iff.mp (List.append_eq_nil_iff.mp lacks.later).1
    have other : frame.name ≠ name := fun isName =>
      Bool.eq_false_iff.mp (unnamed nodes) (Frame.isNamed_around.mpr isName)
    rw [plug_cons, ih lacks.tail, List.map_singleton, Frame.around, Node.mapNamed_element,
      if_neg other, List.map_append, List.map_append,
      same fun x inside => Bool.eq_false_iff.mp (before x inside), same behind]
    rfl

/-- The first element of a name is rebuilt in its spot. -/
theorem IsFirst.updateFirstOf?_plug (isFirst : context.IsFirst (·.isNamed name))
    (f : Node → Node) (found : Node.updateFirstOf? name f nodes = some left) :
    Node.updateFirstOf? name f (context.plug nodes) = some (context.plug left) := by
  induction context generalizing nodes left with
  | nil => exact found
  | cons frame outer ih =>
    obtain ⟨⟨unnamed, before⟩, onward⟩ := List.forall_mem_cons.mp isFirst
    have other : frame.name ≠ name := fun isName =>
      Bool.eq_false_iff.mp (unnamed nodes) (Frame.isNamed_around.mpr isName)
    have none : Node.updateFirstOf? name f frame.before = none :=
      (Node.updateFirstOf?_eq_none_iff f _).mpr
        (Node.tally_eq_zero_iff.mpr fun x inside => Bool.eq_false_iff.mp (before x inside))
    refine ih onward ?_
    rw [Node.updateFirstOf?, Frame.around, Node.updateFirst?, if_neg other, List.append_assoc,
      Node.updateFirstOf?_append none, Node.updateFirstOf?_append_of_some found, Frame.around,
      List.append_assoc]
    rfl

/-! ### The spot of an element -/

/-- The first element of a name has a spot in its tree. -/
theorem exists_of_first (node : Node) : (∃ rest, node.named name = first :: rest) →
    ∃ context : Context, [node] = context.plug [first] ∧ context.IsFirst (·.isNamed name) := by
  induction node using Node.induction with
  | element own lineage traits children ih =>
    rintro ⟨rest, found⟩
    by_cases here : own = name
    · have named : (Node.element own lineage traits children).isNamed name :=
        Node.isNamed_iff.mpr (congrArg some here)
      rw [Node.named, Node.elements, List.filter_cons_of_pos named] at found
      obtain ⟨rfl, -⟩ := List.cons.inj found
      exact ⟨[], rfl, List.forall_mem_nil _⟩
    · rw [Node.named_element_of_ne here] at found
      obtain ⟨before, child, after, rfl, none, isChild⟩ := Node.exists_of_filter_eq_cons found
      obtain ⟨context, isPlugged, isFirst⟩ := ih child (by simp) isChild
      let frame : Frame := ⟨own, lineage, traits, before, after⟩
      refine ⟨context ++ [frame], ?_, isFirst.append (List.forall_mem_singleton.mpr ⟨?_, none⟩)⟩
      · rw [plug_append, ← isPlugged, plug_cons, plug_nil, Frame.around, List.append_assoc]
        rfl
      · intro nodes
        rw [Bool.eq_false_iff]
        exact fun named => here (Frame.isNamed_around.mp named)
  | aside content tail =>
    rintro ⟨rest, found⟩
    cases found

/-- The only element of a name has a spot in its tree, which lacks that name. -/
theorem exists_of_only (node : Node) (isOnly : node.named name = [only]) :
    ∃ context : Context, [node] = context.plug [only] ∧ context.Lacks (·.isNamed name) := by
  obtain ⟨context, isPlugged, isFirst⟩ := exists_of_first node ⟨[], isOnly⟩
  obtain ⟨lineage, traits, children, rfl⟩ :=
    Node.exists_of_isNamed (List.mem_filter.mp (isOnly ▸ List.mem_singleton_self only)).2
  refine ⟨context, isPlugged, isFirst, ?_⟩
  have whole := filter_elementsOf_plug isFirst [.element name lineage traits children]
  rw [← isPlugged, Node.elementsOf_singleton, Node.elementsOf_singleton, Node.elements,
    List.filter_cons_of_pos (Node.isNamed_iff.mpr rfl)] at whole
  have rest := List.tail_eq_of_cons_eq (isOnly.symm.trans whole)
  exact (List.append_eq_nil_iff.mp rest.symm).2

end Context

end TemplateFill.Xml
