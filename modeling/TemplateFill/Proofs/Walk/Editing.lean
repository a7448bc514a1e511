import Mathlib.Data.List.Forall2
import TemplateFill.Proofs.Xml.Rebuilding
import TemplateFill.Walk.Progress

/-!
# Edited trees

An edit removes nodes, puts others in and gives elements other traits, as far as its rules
allow it. What it does not remove stays the same element at the same place, with edited content.
Whatever only depends on which elements there are and where they stand is shown once for edits,
and then holds of every writer that keeps to the rules.
-/

namespace TemplateFill.Walk

open Xml

structure Rules where
  /-- What may be removed. -/
  drops : Node → Prop
  /-- The names of the elements that may get other traits. -/
  changes : Name → Prop
  /-- What may be put in at a place. -/
  adds : Place → Node → Prop

structure Rules.IsWithin (rules more : Rules) : Prop where
  drops : ∀ {node}, rules.drops node → more.drops node
  changes : ∀ {name}, rules.changes name → more.changes name
  adds : ∀ {place node}, rules.adds place node → more.adds place node

/-- Nodes at a place are edited by some rules. -/
inductive Edited (rules : Rules) : Place → List Node → List Node → Prop
  | nil {place} : Edited rules place [] []
  | drop {place node rest left} (dropped : rules.drops node)
      (onward : Edited rules place rest left) : Edited rules place (node :: rest) left
  | keep {place name lineage before after children inside rest left}
      (same : after = before ∨ rules.changes name)
      (below : Edited rules (place.enter name) children inside)
      (onward : Edited rules place rest left) :
      Edited rules place (.element name lineage before children :: rest)
        (.element name lineage after inside :: left)
  | leaf {place node rest left} (isLeaf : node.name? = none)
      (onward : Edited rules place rest left) : Edited rules place (node :: rest) (node :: left)
  | add {place node nodes left} (added : rules.adds place node)
      (onward : Edited rules place nodes left) : Edited rules place nodes (node :: left)

namespace Edited

variable {rules : Rules} {place : Place} {nodes left rest others : List Node}
  {node x old new : Node} {name own : Name}

/-! ### Edits in a row of nodes -/

/-- What some rules allow, rules that allow more allow. -/
theorem mono {more : Rules} (edited : Edited rules place nodes left)
    (within : rules.IsWithin more) : Edited more place nodes left := by
  induction edited with
  | nil => exact .nil
  | drop dropped _ ih => exact .drop (within.drops dropped) ih
  | keep same _ _ ihBelow ih => exact .keep (same.imp_right within.changes) ihBelow ih
  | leaf isLeaf _ ih => exact .leaf isLeaf ih
  | add added _ ih => exact .add (within.adds added) ih

theorem append (first : Edited rules place nodes left) (second : Edited rules place rest others) :
    Edited rules place (nodes ++ rest) (left ++ others) := by
  induction first with
  | nil => exact second
  | drop dropped _ ih => exact .drop dropped (ih second)
  | keep same below _ _ ih => exact .keep same below (ih second)
  | leaf isLeaf _ ih => exact .leaf isLeaf (ih second)
  | add added _ ih => exact .add added (ih second)

theorem flatMap {f : Node → List Node} (each : ∀ node ∈ nodes, Edited rules place [node] (f node)) :
    Edited rules place nodes (nodes.flatMap f) := by
  induction nodes with
  | nil => exact .nil
  | cons node rest ih =>
    have here := each node List.mem_cons_self
    have onward := ih fun other member => each other (List.mem_cons_of_mem _ member)
    rw [List.flatMap_cons]
    exact here.append onward

theorem map {f : Node → Node} (each : ∀ node ∈ nodes, Edited rules place [node] [f node]) :
    Edited rules place nodes (nodes.map f) := by
  rw [List.map_eq_flatMap]
  exact flatMap each

theorem refl (node : Node) : ∀ place, Edited rules place [node] [node] := by
  induction node using Node.induction with
  | element name lineage traits children ih =>
    intro place
    have below : Edited rules (place.enter name) children (children.map id) :=
      map fun child member => ih child member (place.enter name)
    rw [List.map_id] at below
    exact .keep (.inl rfl) below .nil
  | aside content tail => exact fun place => .leaf rfl .nil

theorem reflAll (nodes : List Node) : Edited rules place nodes nodes := by
  have each : Edited rules place nodes (nodes.map id) := map fun node _ => refl node place
  rwa [List.map_id] at each

theorem addAll (added : ∀ node ∈ left, rules.adds place node) : Edited rules place [] left := by
  induction left with
  | nil => exact .nil
  | cons node rest ih =>
    exact .add (added node List.mem_cons_self)
      (ih fun other member => added other (List.mem_cons_of_mem _ member))

theorem putBehind (edited : Edited rules place nodes left)
    (added : ∀ node ∈ others, rules.adds place node) :
    Edited rules place nodes (left ++ others) := by
  have both := edited.append (addAll added)
  rwa [List.append_nil] at both

theorem filter {p : Node → Bool} (dropped : ∀ node ∈ nodes, p node = false → rules.drops node) :
    Edited rules place nodes (nodes.filter p) := by
  induction nodes with
  | nil => exact .nil
  | cons node rest ih =>
    have onward := ih fun other member => dropped other (List.mem_cons_of_mem _ member)
    by_cases satisfies : p node
    · rw [List.filter_cons_of_pos satisfies]
      exact (refl node place).append onward
    · rw [List.filter_cons_of_neg satisfies]
      exact .drop (dropped node List.mem_cons_self (by simpa using satisfies)) onward

/-- What is pruned is removed wherever it stands in the tree. -/
theorem prune {p : Node → Bool} (dropped : ∀ x, p x → rules.drops x) (node : Node) :
    ∀ place, Edited rules place [node] [node.prune p] := by
  induction node using Node.induction with
  | element name lineage traits children ih =>
    refine fun place => .keep (.inl rfl) ?_ .nil
    rw [Node.pruneAll_eq_flatMap]
    refine flatMap fun child member => ?_
    split
    · rename_i gone
      exact .drop (dropped child gone) .nil
    · exact ih child member _
  | aside content tail => exact fun place => refl _ place

theorem replaceFirst {p : Node → Bool} (isFirst : nodes.find? p = some old)
    (here : Edited rules place [old] [new]) :
    Edited rules place nodes (Node.replaceFirst p new nodes) := by
  induction nodes with
  | nil => cases isFirst
  | cons first rest ih =>
    rw [Node.replaceFirst]
    by_cases satisfies : p first
    · rw [List.find?_cons_of_pos satisfies] at isFirst
      obtain rfl := Option.some.inj isFirst
      rw [if_pos satisfies]
      exact here.append (reflAll rest)
    · rw [List.find?_cons_of_neg satisfies] at isFirst
      rw [if_neg satisfies]
      exact (refl first place).append (ih isFirst)

/-! ### Edits of an element -/

/-- An element with edited content. -/
theorem withChildren (named : node.isNamed name)
    (below : Edited rules (place.enter name) node.children left) :
    Edited rules place [node] [node.withChildren left] := by
  obtain ⟨lineage, traits, children, rfl⟩ := Node.exists_of_isNamed named
  exact .keep (.inl rfl) below .nil

theorem replaceChild (named : node.isNamed own) (isChild : node.child? name = some old)
    (below : Edited rules (place.enter own) [old] [new]) :
    Edited rules place [node] [node.replaceChild name new] :=
  withChildren named (replaceFirst isChild below)

theorem setAttribute (key : Name) (value : String) (named : node.isNamed own)
    (changed : rules.changes own) : Edited rules place [node] [node.setAttribute key value] := by
  obtain ⟨lineage, traits, children, rfl⟩ := Node.exists_of_isNamed named
  exact .keep (.inr changed) (reflAll children) .nil

theorem setText (content : String) (named : node.isNamed own) (changed : rules.changes own) :
    Edited rules place [node] [node.setText content] := by
  obtain ⟨lineage, traits, children, rfl⟩ := Node.exists_of_isNamed named
  exact .keep (.inr changed) (reflAll children) .nil

/-- Elements of a name that are rebuilt are edited if each of them is, around any edited
content. -/
theorem mapNamed {f : Node → Node} (node : Node) :
    (∀ x ∈ node.elements, x.isNamed name → ∀ place inside,
      Edited rules (place.enter name) x.children inside →
        Edited rules place [x] [f (x.withChildren inside)]) →
    ∀ place, Edited rules place [node] [node.mapNamed name f] := by
  induction node using Node.induction with
  | element own lineage traits children ih =>
    intro each place
    have below (place : Place) : Edited rules place children
        (Node.mapAllElements (fun node => if node.isNamed name then f node else node) children) := by
      rw [Node.mapAllElements_eq]
      refine map fun child member => ih child member (fun x inside => each x ?_) place
      exact List.mem_cons_of_mem _ (Node.mem_elementsOf member inside)
    rw [Node.mapNamed, Node.mapElements]
    split
    · rename_i named
      obtain rfl : own = name := Option.some.inj (Node.isNamed_iff.mp named)
      exact each _ List.mem_cons_self named place _ (below _)
    · exact .keep (.inl rfl) (below _) .nil
  | aside content tail => exact fun each place => refl _ place

mutual

theorem updateFirst? {f : Node → Node}
    (each : ∀ x, x.isNamed name → ∀ place, Edited rules place [x] [f x]) :
    (node : Node) → {updated : Node} → node.updateFirst? name f = some updated →
      (place : Place) → Edited rules place [node] [updated]
  | .element own lineage traits children, updated, isUpdated, place => by
    rw [Node.updateFirst?] at isUpdated
    split at isUpdated
    · rename_i named
      cases isUpdated
      exact each _ (by rw [named]; exact beq_self_eq_true _) place
    · obtain ⟨inside, isInside, rfl⟩ := Option.map_eq_some_iff.mp isUpdated
      exact .keep (.inl rfl) (updateFirstOf? each children isInside _) .nil

theorem updateFirstOf? {f : Node → Node}
    (each : ∀ x, x.isNamed name → ∀ place, Edited rules place [x] [f x]) :
    (nodes : List Node) → {updated : List Node} → Node.updateFirstOf? name f nodes = some updated →
      (place : Place) → Edited rules place nodes updated
  | node :: rest, updated, isUpdated, place => by
    rw [Node.updateFirstOf?] at isUpdated
    split at isUpdated
    · rename_i first isFirst
      cases isUpdated
      exact (updateFirst? each node isFirst place).append (reflAll rest)
    · obtain ⟨others, isOthers, rfl⟩ := Option.map_eq_some_iff.mp isUpdated
      exact (refl node place).append (updateFirstOf? each rest isOthers place)

end

/-! ### Edits after edits -/

/-- The first node is edited by itself, and then the others. -/
theorem split_cons (edited : Edited rules place (node :: rest) left) :
    ∃ here onward, left = here ++ onward ∧ Edited rules place [node] here ∧
      Edited rules place rest onward := by
  generalize isCons : node :: rest = all at edited
  induction edited with
  | nil => cases isCons
  | drop dropped onward _ =>
    cases isCons
    exact ⟨[], _, rfl, .drop dropped .nil, onward⟩
  | keep same below onward _ _ =>
    cases isCons
    exact ⟨[_], _, rfl, .keep same below .nil, onward⟩
  | leaf isLeaf onward _ =>
    cases isCons
    exact ⟨[_], _, rfl, .leaf isLeaf .nil, onward⟩
  | add added _ ih =>
    obtain ⟨here, onward, rfl, first, second⟩ := ih isCons
    exact ⟨_ :: here, onward, rfl, .add added first, second⟩

end Edited

/-- An element is still the same one, except for what is in it. -/
structure Rules.Keeps (rules : Rules) (before after : Node) : Prop where
  name : after.name? = before.name?
  lineage : after.lineage = before.lineage
  attributes : after.attributes = before.attributes ∨ ∃ name, before.isNamed name ∧
    rules.changes name

/-- Elements that must not be removed are kept in their order. -/
theorem Edited.exists_sublist {rules : Rules} {place : Place} {nodes left kept : List Node}
    (edited : Edited rules place nodes left) (among : kept.Sublist nodes)
    (stays : ∀ x ∈ kept, x.name?.isSome ∧ ¬ rules.drops x) :
    ∃ found, found.Sublist left ∧ List.Forall₂ rules.Keeps kept found := by
  induction edited generalizing kept with
  | nil =>
    rw [List.sublist_nil.mp among]
    exact ⟨[], .slnil, .nil⟩
  | drop dropped _ ih =>
    cases among with
    | cons _ later => exact ih later stays
    | cons_cons _ _ => exact absurd dropped (stays _ List.mem_cons_self).2
  | keep same _ _ _ ih =>
    cases among with
    | cons _ later =>
      obtain ⟨found, isFound, fits⟩ := ih later stays
      exact ⟨found, isFound.cons _, fits⟩
    | cons_cons _ later =>
      obtain ⟨found, isFound, fits⟩ := ih later fun x member => stays x (List.mem_cons_of_mem _ member)
      refine ⟨_ :: found, isFound.cons_cons _, .cons ⟨rfl, rfl, ?_⟩ fits⟩
      exact same.imp (congrArg Traits.attributes) fun changed => ⟨_, beq_self_eq_true _, changed⟩
  | leaf isLeaf _ ih =>
    cases among with
    | cons _ later =>
      obtain ⟨found, isFound, fits⟩ := ih later stays
      exact ⟨found, isFound.cons _, fits⟩
    | cons_cons _ _ =>
      have isElement := (stays _ List.mem_cons_self).1
      rw [isLeaf] at isElement
      cases isElement
  | add _ _ ih =>
    obtain ⟨found, isFound, fits⟩ := ih among stays
    exact ⟨found, isFound.cons _, fits⟩

/-- What is left of one node is that node, unless it is removed. -/
theorem Edited.drops_or_name? {rules : Rules} {place : Place} {node x : Node}
    (edited : Edited rules place [node] [x]) : rules.drops node ∨ x.name? = node.name? := by
  generalize isNode : [node] = nodes at edited
  generalize isLeft : [x] = left at edited
  cases edited with
  | nil => cases isNode
  | drop dropped _ =>
    cases isNode
    exact .inl dropped
  | keep _ _ _ =>
    cases isNode
    cases isLeft
    exact .inr rfl
  | leaf _ _ =>
    cases isNode
    cases isLeft
    exact .inr rfl
  | add _ onward =>
    cases isNode
    cases isLeft
    cases onward with
    | drop dropped _ => exact .inl dropped

/-- What may be removed after an edit may be removed before it, and what may be put in may be put
in with an edit. -/
structure Rules.IsClosed (rules : Rules) : Prop where
  drops : ∀ {place node x}, Edited rules place [node] [x] → rules.drops x → rules.drops node
  adds : ∀ {place node left}, Edited rules place [node] left → rules.adds place node →
    ∀ x ∈ left, rules.adds place x

namespace Edited

variable {rules : Rules} {place : Place} {nodes left : List Node}

/-- An element that was kept is edited once more. -/
theorem keep_trans (closed : rules.IsClosed) {name : Name} {lineage : Lineage}
    {before after : Traits} {children inside : List Node}
    (same : after = before ∨ rules.changes name)
    (below : Edited rules (place.enter name) children inside)
    (again : ∀ further, Edited rules (place.enter name) inside further →
      Edited rules (place.enter name) children further)
    (edited : Edited rules place [.element name lineage after inside] left) :
    Edited rules place [.element name lineage before children] left := by
  generalize isSingle : [Node.element name lineage after inside] = all at edited
  induction edited with
  | nil => cases isSingle
  | drop dropped onward _ =>
    cases isSingle
    exact .drop (closed.drops (.keep same below .nil) dropped) onward
  | keep sameAgain inner onward _ _ =>
    cases isSingle
    refine .keep ?_ (again _ inner) onward
    rcases sameAgain with rfl | changed
    · exact same
    · exact .inr changed
  | leaf isLeaf _ _ =>
    cases isSingle
    cases isLeaf
  | add added _ ih => exact .add added (ih below again isSingle)

theorem trans {further : List Node} (closed : rules.IsClosed)
    (first : Edited rules place nodes left) (second : Edited rules place left further) :
    Edited rules place nodes further := by
  induction first generalizing further with
  | nil => exact second
  | drop dropped _ ih => exact .drop dropped (ih second)
  | keep same below _ ihBelow ih =>
    obtain ⟨here, onward, rfl, edited, others⟩ := second.split_cons
    exact (keep_trans closed same below (fun _ => ihBelow) edited).append (ih others)
  | leaf _ _ ih =>
    obtain ⟨here, onward, rfl, edited, others⟩ := second.split_cons
    exact edited.append (ih others)
  | add added _ ih =>
    obtain ⟨here, onward, rfl, edited, others⟩ := second.split_cons
    exact (addAll (closed.adds edited added)).append (ih others)

end Edited

end TemplateFill.Walk
