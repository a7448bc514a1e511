import TemplateFill.Proofs.Walk.Settlement

/-!
# Populating one after the other

A walk over two stretches of siblings is a walk over the first one and then, from the lists
that it left, a walk over the second one. Nothing that happens in the first stretch reaches
the second one in another way, and what is in no control stays as it is.
-/

namespace TemplateFill.Walk

open Xml

section Composition

variable (options : Options) (place : Place) (scope : Datum)

/-- A walk over siblings may pause between any two of them. -/
theorem populateAll_append (first second : List Node) :
    populateAll options place scope (first ++ second) = do
      let here ← populateAll options place scope first
      let others ← populateAll options place scope second
      return here ++ others := by
  induction first with
  | nil => simp [populateAll]
  | cons node rest ih => simp [populateAll, ih, ← List.append_assoc]

/-- Going on from any progress adds to it what a walk does from the lists alone. -/
theorem populateAll_append_apply (first second : List Node) (lists : ListStore) :
    populateAll options place scope (first ++ second) (.start lists) =
      let before := populateAll options place scope first (.start lists)
      let after := populateAll options place scope second (.start before.2.lists)
      (before.1 ++ after.1, before.2.extend after.2) := by
  rw [populateAll_append]
  have onward := incremental_populateAll options place scope second
    (populateAll options place scope first (.start lists)).2
  change (_ ++ (populateAll options place scope second
    (populateAll options place scope first (.start lists)).2).1, _) = _
  rw [onward]

theorem effect_populateAll_append (first second : List Node) (lists : ListStore) :
    effect (populateAll options place scope (first ++ second)) lists =
      let here := effect (populateAll options place scope first) lists
      let others := effect (populateAll options place scope second) here.lists
      ⟨here.value ++ others.value, others.lists, here.findings ++ others.findings⟩ := by
  unfold effect
  rw [populateAll_append_apply]
  rfl

end Composition

/-! ### What stays as it is -/

/-- Nodes are rebuilt below a parent of some name: what is in no control stays as it is, a
control stays the same element, and a hidden one is gone, from a cell for an empty paragraph. -/
inductive Rebuilt (scope : Datum) : Option Name → List Node → List Node → Prop
  | nil {parent} : Rebuilt scope parent [] []
  | control {parent node left rest others} (isControl : Control.isControl node)
      (isShown : ¬ IsHidden scope node) (same : SameElement node left)
      (onward : Rebuilt scope parent rest others) :
      Rebuilt scope parent (node :: rest) (left :: others)
  | hidden {parent node rest others} (isControl : Control.isControl node)
      (isHidden : IsHidden scope node) (onward : Rebuilt scope parent rest others) :
      Rebuilt scope parent (node :: rest)
        ((if parent = some Word.cell then [Word.makeParagraph []] else []) ++ others)
  | element {parent name lineage traits children inside rest others}
      (other : name ≠ Word.control) (first : Rebuilt scope (some name) children inside)
      (onward : Rebuilt scope parent rest others) :
      Rebuilt scope parent (.element name lineage traits children :: rest)
        (.element name lineage traits inside :: others)
  | leaf {parent node rest others} (isLeaf : node.name? = none)
      (onward : Rebuilt scope parent rest others) :
      Rebuilt scope parent (node :: rest) (node :: others)

/-- A control that is settled leaves itself, unless it is hidden. -/
theorem Settles.rebuilt {options : Options} {place : Place} {scope : Datum}
    {lists kept : ListStore} {node : Node} {account : Account} {left rest others : List Node}
    (isControl : Control.isControl node)
    (settled : Settles options place scope lists node account left kept)
    (onward : Rebuilt scope place.parent rest others) :
    Rebuilt scope place.parent (node :: rest) (left ++ others) := by
  have isShown {taken : Course} (h : course options place scope lists node = taken)
      (other : taken ≠ .hidden) : ¬ IsHidden scope node := by
    intro isHidden
    exact other (h.symm.trans (course_eq_hidden_iff.mpr isHidden))
  cases settled with
  | refused h => exact .control isControl (isShown h (by simp)) (.refl node) onward
  | broken h => exact .control isControl (isShown h (by simp)) (course_holds h).1 onward
  | filled h => exact .control isControl (isShown h (by simp)) (course_holds h).1 onward
  | removed h isParent =>
    rw [isParent] at onward ⊢
    simpa using Rebuilt.hidden isControl (course_holds h) onward
  | shown h below => exact .control isControl (isShown h (by simp)) (.withChildren _ _) onward
  | repeated h below => exact .control isControl (isShown h (by simp)) (.withItems _ _) onward

theorem SettlesAll.rebuilt {options : Options} {place : Place} {scope : Datum}
    {lists kept : ListStore} {nodes left : List Node} {accounts : List Account}
    (settled : SettlesAll options place scope lists nodes accounts left kept) :
    Rebuilt scope place.parent nodes left := by
  induction settled using SettlesAll.along with
  | nil => exact .nil
  | control isControl first onward others => exact first.rebuilt isControl others
  | element other first onward inside others => exact .element other inside others
  | leaf isLeaf onward others => exact .leaf isLeaf others

theorem populate_element (options : Options) (scope : Datum) (progress : Progress) (name : Name)
    (lineage : Lineage) (traits : Traits) (children : List Node) :
    populate options (.element name lineage traits children) scope progress =
      let below := populateAll options (Place.outside.enter name) scope children progress
      (.element name lineage traits below.1, below.2) := rfl

theorem populate_leaf {options : Options} {scope : Datum} {progress : Progress} {root : Node}
    (leaf : root.name? = none) : populate options root scope progress = (root, progress) := by
  cases root with
  | element name lineage traits children => simp [Node.name?] at leaf
  | _ =>
    rw [populate, Node.children, populateAll]
    rfl

theorem parent_ofRoot (root : Node) : (Place.ofRoot root).parent = root.name? := by
  cases root <;> rfl

/-- Populating never touches what is in no control. -/
theorem populate_rebuilt (options : Options) (root : Node) (scope : Datum) (lists : ListStore) :
    Rebuilt scope root.name? root.children
      (populate options root scope (.start lists)).1.children := by
  obtain ⟨accounts, only, -⟩ := settledOn_populate options root scope lists
  have settled := ((only _ _ _).mpr ⟨rfl, rfl, rfl⟩).rebuilt
  rw [parent_ofRoot] at settled
  cases root with
  | element name lineage traits children => exact settled
  | aside content tail => exact .nil

/-- Populating a root that holds one stretch of content and then another one is populating the
root with the first stretch, and then, from the lists that this left, the root with the second
one. Either way only controls are touched. -/
theorem populate_append (options : Options) (root : Node) (scope : Datum) (lists : ListStore)
    (first second : List Node) :
    let before := populate options (root.withChildren first) scope (.start lists)
    let after := populate options (root.withChildren second) scope (.start before.2.lists)
    let whole := populate options (root.withChildren (first ++ second)) scope (.start lists)
    whole.1 = root.withChildren (before.1.children ++ after.1.children) ∧
      whole.2.findings = before.2.findings ++ after.2.findings ∧
      whole.2.notices = before.2.notices ++ after.2.notices ∧
      whole.2.lists = after.2.lists ∧
      Rebuilt scope root.name? (root.withChildren (first ++ second)).children
        whole.1.children := by
  intro before after whole
  have rebuilt := populate_rebuilt options (root.withChildren (first ++ second)) scope lists
  cases root with
  | element name lineage traits children =>
    have run := populateAll_append_apply options (Place.outside.enter name) scope first second
      lists
    simp only [before, after, whole, Node.withChildren, populate_element] at rebuilt ⊢
    rw [run] at rebuilt ⊢
    exact ⟨rfl, rfl, rfl, rfl, rebuilt⟩
  | _ =>
    simp only [before, after, whole, Node.withChildren] at rebuilt ⊢
    rw [populate_leaf rfl] at rebuilt
    rw [populate_leaf rfl, populate_leaf rfl]
    exact ⟨rfl, rfl, rfl, rfl, rebuilt⟩

end TemplateFill.Walk
