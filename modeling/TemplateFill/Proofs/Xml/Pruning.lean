import TemplateFill.Proofs.Xml.Overwriting

/-!
# What is left of a tree

Removing what satisfies a condition leaves a tree alone where nothing does, leaves nothing that
does, and may be done in several steps or at once. Keeping the first element of a name removes all
others of that name behind it.
-/

namespace TemplateFill.Xml.Node

variable {node : Node} {nodes : List Node} {name : Name} {p q : Node → Bool}

theorem pruneAll_append (p : Node → Bool) (first second : List Node) :
    pruneAll p (first ++ second) = pruneAll p first ++ pruneAll p second := by
  simp only [pruneAll_eq, List.filter_append, List.map_append]

theorem pruneAll_singleton (kept : p node = false) : pruneAll p [node] = [node.prune p] := by
  rw [pruneAll, if_neg (Bool.eq_false_iff.mp kept), pruneAll]

mutual

/-- Where nothing is to be removed, nothing is. -/
theorem prune_eq_self (elements : ∀ x, p x → x.name?.isSome) : (node : Node) →
    (∀ x ∈ elementsOf node.children, p x = false) → node.prune p = node
  | .element _ _ _ children, nothing => by rw [prune, pruneAll_eq_self elements children nothing]
  | .aside _ _, _ => rfl

theorem pruneAll_eq_self (elements : ∀ x, p x → x.name?.isSome) : (nodes : List Node) →
    (∀ x ∈ elementsOf nodes, p x = false) → pruneAll p nodes = nodes
  | [], _ => rfl
  | node :: rest, nothing => by
    have kept : ¬ p node := fun removed => Bool.eq_false_iff.mp (nothing node
      (mem_elementsOf List.mem_cons_self (mem_elements_self (elements node removed)))) removed
    rw [pruneAll, if_neg kept, pruneAll_eq_self elements rest fun x inside =>
        nothing x (List.mem_append_right _ inside),
      prune_eq_self elements node fun x inside =>
        nothing x (mem_elementsOf List.mem_cons_self (mem_elements_of_children inside))]

end

mutual

/-- What is removed in two steps can be removed at once. -/
theorem prune_prune_or (byTag : ∀ (x : Node) children, q (x.withChildren children) = q x)
    (p : Node → Bool) : (node : Node) → (node.prune p).prune q = node.prune fun x => p x || q x
  | .element _ _ _ children => by rw [prune, prune, prune, pruneAll_pruneAll byTag p children]
  | .aside _ _ => rfl

theorem pruneAll_pruneAll (byTag : ∀ (x : Node) children, q (x.withChildren children) = q x)
    (p : Node → Bool) : (nodes : List Node) →
    pruneAll q (pruneAll p nodes) = pruneAll (fun x => p x || q x) nodes
  | [] => rfl
  | node :: rest => by
    have same : q (node.prune p) = q node := by rw [prune_eq_withChildren, byTag]
    rw [pruneAll, pruneAll]
    cases removed : p node with
    | true => simpa using pruneAll_pruneAll byTag p rest
    | false =>
      simp only [Bool.false_eq_true, if_false, Bool.false_or]
      rw [pruneAll, same, pruneAll_pruneAll byTag p rest, prune_prune_or byTag p node]

end

mutual

/-- Nothing is left of what is removed. -/
theorem not_of_mem_elements_prune
    (byTag : ∀ (x : Node) children, p (x.withChildren children) = p x) : (node : Node) →
    ∀ x ∈ elementsOf (node.prune p).children, p x = false
  | .element _ _ _ children => not_of_mem_elementsOf_pruneAll byTag children
  | .aside _ _ => List.forall_mem_nil _

theorem not_of_mem_elementsOf_pruneAll
    (byTag : ∀ (x : Node) children, p (x.withChildren children) = p x) : (nodes : List Node) →
    ∀ x ∈ elementsOf (pruneAll p nodes), p x = false
  | [] => List.forall_mem_nil _
  | node :: rest => by
    have others := not_of_mem_elementsOf_pruneAll byTag rest
    have below := not_of_mem_elements_prune byTag node
    rw [pruneAll]
    split
    · exact others
    · rename_i kept
      refine List.forall_mem_append.mpr ⟨?_, others⟩
      rw [← pruned_iff byTag, Bool.not_eq_true] at kept
      cases node with
      | element own lineage traits children => exact List.forall_mem_cons.mpr ⟨kept, below⟩
      | aside content tail => exact List.forall_mem_nil _

end

/-! ### The first element -/

theorem keepFirstOf_append (seen : Bool) (first second : List Node) :
    keepFirstOf name seen (first ++ second) =
      ((keepFirstOf name seen first).1 ++
          (keepFirstOf name (keepFirstOf name seen first).2 second).1,
        (keepFirstOf name (keepFirstOf name seen first).2 second).2) := by
  induction first generalizing seen with
  | nil => rfl
  | cons node rest ih =>
    rw [List.cons_append, keepFirstOf, keepFirstOf]
    split
    · exact ih seen
    · simp only [ih, List.cons_append]

theorem keepFirstOf_of_none (none : tally name nodes = 0) (seen : Bool) :
    keepFirstOf name seen nodes = (nodes, seen) := by
  have flag := (tally_keepFirstOf name seen nodes).2
  rw [none] at flag
  exact Prod.ext (keepFirstOf_eq_self name seen nodes (by omega) fun _ => none) (by simpa using flag)

mutual

/-- Once an element was seen, all others are removed. -/
theorem keepFirst_of_seen : (node : Node) →
    keepFirst name true node = (node.prune (·.isNamed name), true)
  | .element own lineage traits children => by
    rw [keepFirst, keepFirstOf_of_seen children, prune]
  | .aside _ _ => rfl

theorem keepFirstOf_of_seen : (nodes : List Node) →
    keepFirstOf name true nodes = (pruneAll (·.isNamed name) nodes, true)
  | [] => rfl
  | node :: rest => by
    rw [keepFirstOf, keepFirstOf_of_seen rest, pruneAll, Bool.true_and]
    split
    · rfl
    · rw [Bool.true_or, keepFirst_of_seen node]
      simp only [keepFirstOf_of_seen rest]

end

end TemplateFill.Xml.Node
