import Mathlib.Data.List.Basic
import TemplateFill.Proofs.Xml.First

/-!
# What is written over

A child that is replaced twice is replaced by the last one, and children of different names are
replaced in either order. Likewise, where a tree holds one element of a name, a tree with another
element in its place says nothing of the old one. What is removed wherever it stands can be
removed before such changes or after them.
-/

namespace TemplateFill.Xml.Node

variable {node child other : Node} {nodes : List Node} {name another : Name}

/-! ### Children -/

section Children

variable {p q : Node → Bool}

theorem find?_replaceFirst (isFirst : nodes.find? p = some other) (fits : p child) :
    (replaceFirst p child nodes).find? p = some child := by
  induction nodes with
  | nil => cases isFirst
  | cons first rest ih =>
    rw [replaceFirst]
    split
    · exact List.find?_cons_of_pos fits
    · rename_i misses
      rw [List.find?_cons_of_neg misses] at isFirst ⊢
      exact ih isFirst

/-- Others are found as before. -/
theorem find?_replaceFirst_of_apart (apart : ∀ x, p x → q x = false) (misses : q child = false) :
    (replaceFirst p child nodes).find? q = nodes.find? q := by
  induction nodes with
  | nil => rfl
  | cons first rest ih =>
    rw [replaceFirst]
    split
    · rename_i isFirst
      rw [List.find?_cons_of_neg (by simp [misses]),
        List.find?_cons_of_neg (by simp [apart first isFirst])]
    · rw [List.find?_cons, List.find?_cons, ih]

theorem replaceFirst_self (isFirst : nodes.find? p = some child) :
    replaceFirst p child nodes = nodes := by
  induction nodes with
  | nil => cases isFirst
  | cons first rest ih =>
    rw [replaceFirst]
    split
    · rename_i fits
      rw [List.find?_cons_of_pos fits] at isFirst
      rw [Option.some.inj isFirst]
    · rename_i misses
      rw [List.find?_cons_of_neg misses] at isFirst
      rw [ih isFirst]

theorem replaceFirst_replaceFirst (fits : p other) :
    replaceFirst p child (replaceFirst p other nodes) = replaceFirst p child nodes := by
  induction nodes with
  | nil => rfl
  | cons first rest ih =>
    rw [replaceFirst]
    split
    · rename_i isFirst
      rw [replaceFirst, replaceFirst, if_pos fits, if_pos isFirst]
    · rename_i misses
      rw [replaceFirst, replaceFirst, if_neg misses, if_neg misses, ih]

theorem replaceFirst_comm (apart : ∀ x, p x → q x = false) (fits : p child) (suits : q other) :
    replaceFirst p child (replaceFirst q other nodes) =
      replaceFirst q other (replaceFirst p child nodes) := by
  have missed : p other = false := by
    rw [Bool.eq_false_iff]
    intro both
    rw [apart other both] at suits
    cases suits
  induction nodes with
  | nil => rfl
  | cons first rest ih =>
    by_cases isFirst : p first
    · have misses := apart first isFirst
      simp [replaceFirst, isFirst, misses, apart child fits]
    · by_cases isSecond : q first
      · simp [replaceFirst, isFirst, isSecond, missed]
      · simp [replaceFirst, isFirst, isSecond, ih]

end Children

theorem isNamed_apart (different : name ≠ another) (x : Node) (named : x.isNamed name) :
    x.isNamed another = false := by
  rw [Bool.eq_false_iff]
  intro both
  rw [isNamed_iff] at named both
  exact different (Option.some.inj (named.symm.trans both))

theorem children_replaceChild (node : Node) (name : Name) (child : Node) :
    (node.replaceChild name child).children =
      replaceFirst (·.isNamed name) child node.children := by
  cases node <;> rfl

theorem child?_replaceChild (isChild : node.child? name = some other) (named : child.isNamed name) :
    (node.replaceChild name child).child? name = some child := by
  rw [child?, children_replaceChild]
  exact find?_replaceFirst isChild named

theorem child?_replaceChild_of_ne (different : name ≠ another) (named : child.isNamed name) :
    (node.replaceChild name child).child? another = node.child? another := by
  rw [child?, children_replaceChild]
  exact find?_replaceFirst_of_apart (isNamed_apart different) (isNamed_apart different _ named)

theorem withChildren_children (node : Node) : node.withChildren node.children = node := by
  cases node <;> rfl

theorem withChildren_withChildren (node : Node) (first second : List Node) :
    (node.withChildren first).withChildren second = node.withChildren second := by
  cases node <;> rfl

theorem replaceChild_self (isChild : node.child? name = some child) :
    node.replaceChild name child = node := by
  rw [replaceChild, replaceFirst_self isChild, withChildren_children]

theorem replaceChild_replaceChild (named : other.isNamed name) :
    (node.replaceChild name other).replaceChild name child = node.replaceChild name child := by
  rw [replaceChild, children_replaceChild, replaceFirst_replaceFirst named, replaceChild,
    withChildren_withChildren]
  rfl

theorem replaceChild_comm (different : name ≠ another) (named : child.isNamed name)
    (alsoNamed : other.isNamed another) :
    (node.replaceChild another other).replaceChild name child =
      (node.replaceChild name child).replaceChild another other := by
  rw [replaceChild, children_replaceChild,
    replaceFirst_comm (isNamed_apart different) named alsoNamed, ← children_replaceChild]
  cases node <;> rfl

/-! ### Texts and attributes -/

/-- An entry of a list of attributes when a value is stated. -/
def restated (name : Name) (value : String) (entry : Name × String) : Name × String :=
  if entry.1 == name then (name, value) else entry

theorem restated_fst (name : Name) (value : String) (entry : Name × String) :
    (restated name value entry).1 = entry.1 := by
  unfold restated
  split
  · rename_i isOwn
    exact (eq_of_beq isOwn).symm
  · rfl

theorem restated_restated (name : Name) (value : String) (entry : Name × String) :
    restated name value (restated name value entry) = restated name value entry := by
  rw [restated, restated_fst]
  unfold restated
  split
  · rfl
  · rfl

theorem set_set (name : Name) (value : String) (attributes : Attributes) :
    (attributes.set name value).set name value = attributes.set name value := by
  have unsourced : Attributes.without name (Attributes.without name attributes.sources) =
      Attributes.without name attributes.sources := by
    rw [Attributes.without, Attributes.without, List.filter_filter]
    simp only [Bool.and_self]
  have again : ∀ entries : List (Name × String),
      (entries.map (restated name value)).map (restated name value) =
        entries.map (restated name value) := by
    intro entries
    rw [List.map_map]
    exact List.map_congr_left fun entry _ => restated_restated name value entry
  change ({ attributes.set name value with
    stated := if (attributes.set name value).stated.any (·.1 == name) then
        (attributes.set name value).stated.map (restated name value)
      else (attributes.set name value).stated ++ [(name, value)]
    sources := Attributes.without name (Attributes.without name attributes.sources) } : Attributes) = _
  have stated : (attributes.set name value).stated =
      if attributes.stated.any (·.1 == name) then attributes.stated.map (restated name value)
      else attributes.stated ++ [(name, value)] := rfl
  have known : (attributes.set name value).stated.any (·.1 == name) := by
    rw [stated]
    split
    · rename_i known
      rw [List.any_map]
      simpa [Function.comp_def, restated_fst] using known
    · simp
  have same : (attributes.set name value).stated.map (restated name value) =
      (attributes.set name value).stated := by
    rw [stated]
    split
    · exact again _
    · rename_i unknown
      have others : attributes.stated.map (restated name value) = attributes.stated := by
        refine (List.map_congr_left fun entry member => ?_).trans (List.map_id _)
        refine if_neg fun isOwn => unknown ?_
        exact List.any_eq_true.mpr ⟨entry, member, isOwn⟩
      rw [List.map_append, others, List.map_singleton, restated, if_pos (beq_self_eq_true _)]
  rw [if_pos known, same, unsourced]
  rfl

theorem lookup_restated (name : Name) (value : String) (entries : List (Name × String))
    (known : entries.any (·.1 == name)) :
    (entries.map (restated name value)).lookup name = some value := by
  induction entries with
  | nil => cases known
  | cons entry rest ih =>
    rw [List.map_cons, List.lookup_cons]
    split
    · rename_i isOwn
      rw [restated_fst] at isOwn
      rw [restated, if_pos (BEq.symm isOwn)]
    · rename_i other
      rw [restated_fst, BEq.comm] at other
      rw [List.any_cons, other] at known
      exact ih known

/-- A value that was stated is found. -/
theorem lookup_set (name : Name) (value : String) (attributes : Attributes) :
    (attributes.set name value).lookup name = some value := by
  have stated : (attributes.set name value).stated.lookup name = some value := by
    change (if attributes.stated.any (·.1 == name) then attributes.stated.map (restated name value)
      else attributes.stated ++ [(name, value)]).lookup name = some value
    split
    · exact lookup_restated name value _ ‹_›
    · rename_i unknown
      have none : attributes.stated.lookup name = none := by
        refine List.lookup_eq_none_iff.mpr fun entry member => ?_
        rw [bne_iff_ne]
        exact fun same => unknown (List.any_eq_true.mpr ⟨entry, member, by simp [same]⟩)
      rw [List.lookup_append, none]
      simp
  rw [Attributes.lookup, stated]
  rfl

@[simp] theorem setText_setText (node : Node) (first later : String) :
    (node.setText first).setText later = node.setText later := by
  cases node <;> rfl

theorem setText_setAttribute (node : Node) (name : Name) (value text : String) :
    (node.setAttribute name value).setText text = (node.setText text).setAttribute name value := by
  cases node <;> rfl

theorem name?_setAttribute (node : Node) (name : Name) (value : String) :
    (node.setAttribute name value).name? = node.name? := by
  cases node <;> rfl

theorem setAttribute_setAttribute (node : Node) (name : Name) (value : String) :
    (node.setAttribute name value).setAttribute name value = node.setAttribute name value := by
  cases node with
  | element own lineage traits children =>
    simp only [setAttribute, set_set]
  | aside content tail => rfl

/-! ### Elements of a name -/

theorem mapNamed_element (f : Node → Node) (own : Name) (lineage : Lineage)
    (traits : Traits) (children : List Node) :
    (element own lineage traits children).mapNamed name f =
      if own = name then f (.element own lineage traits (children.map (mapNamed name f)))
      else .element own lineage traits (children.map (mapNamed name f)) := by
  rw [mapNamed, mapElements, mapAllElements_eq]
  simp only [isNamed_iff, name?, Option.some.injEq]

theorem mapNamed_const (named : node.isNamed name) (other : Node) :
    (node.mapNamed name fun _ => other) = other := by
  obtain ⟨lineage, traits, children, rfl⟩ := exists_of_isNamed named
  rw [mapNamed_element, if_pos rfl]

theorem tally_le_of_mem (member : node ∈ nodes) : tally name [node] ≤ tally name nodes := by
  obtain ⟨before, after, rfl⟩ := List.append_of_mem member
  rw [tally_append, tally_cons node after]
  omega

/-- Where there is no element of a name, none is rebuilt. -/
theorem mapNamed_eq_self (f : Node → Node) (node : Node) :
    tally name [node] = 0 → node.mapNamed name f = node := by
  induction node using Node.induction with
  | element own lineage traits children ih =>
    intro none
    rw [tally_singleton] at none
    have noneBelow : tally name children = 0 := Nat.eq_zero_of_add_eq_zero_left none
    have other : own ≠ name := by
      rintro rfl
      rw [if_pos (isNamed_iff.mpr rfl)] at none
      omega
    have same : children.map (mapNamed name f) = children := by
      refine (List.map_congr_left fun child member => ih child member ?_).trans (List.map_id _)
      exact Nat.eq_zero_of_le_zero (noneBelow ▸ tally_le_of_mem member)
    rw [mapNamed_element, if_neg other, same]
  | aside content tail => exact fun _ => rfl

/-- Of two elements that are put in the place of others, the last one stays. -/
theorem mapNamed_mapNamed_const (named : child.isNamed name) (node : Node) :
    (node.mapNamed name fun _ => child).mapNamed name (fun _ => other) =
      node.mapNamed name fun _ => other := by
  induction node using Node.induction with
  | element own lineage traits children ih =>
    by_cases here : own = name
    · obtain ⟨lineage', traits', children', rfl⟩ := exists_of_isNamed named
      rw [mapNamed_element, if_pos here, mapNamed_element, mapNamed_element, if_pos rfl, if_pos here]
    · rw [mapNamed_element, if_neg here, mapNamed_element, mapNamed_element, if_neg here, if_neg here,
        List.map_map]
      congr 1
      exact List.map_congr_left ih
  | aside content tail => rfl

section Only

variable {only : Node}

theorem named_element_of_ne {own : Name} (here : own ≠ name) (lineage : Lineage)
    (traits : Traits) (children : List Node) :
    (element own lineage traits children).named name =
      (elementsOf children).filter (·.isNamed name) := by
  rw [named, elements, List.filter_cons_of_neg]
  rw [isNamed_iff]
  exact fun same => here (Option.some.inj same)

/-- The only element of a name among and below some nodes is in one of them. -/
theorem exists_of_filter_eq (isOnly : (elementsOf nodes).filter (·.isNamed name) = [only]) :
    ∃ before node after, nodes = before ++ node :: after ∧ node.named name = [only] ∧
      tally name before = 0 ∧ tally name after = 0 := by
  induction nodes with
  | nil => cases isOnly
  | cons node rest ih =>
    rw [elementsOf, List.filter_append] at isOnly
    rcases List.append_eq_singleton_iff.mp isOnly with ⟨nothing, later⟩ | ⟨here, nothing⟩
    · obtain ⟨before, found, after, rfl, isFound, noneBefore, noneAfter⟩ := ih later
      refine ⟨node :: before, found, after, rfl, isFound, ?_, noneAfter⟩
      rw [tally_cons, noneBefore, ← length_named, named, nothing]
      rfl
    · refine ⟨[], node, rest, rfl, here, rfl, ?_⟩
      rw [tally, List.countP_eq_length_filter, nothing]
      rfl

theorem tally_le_of_mem_elements (name : Name) (node : Node) :
    only ∈ node.elements → tally name [only] ≤ tally name [node] := by
  induction node using Node.induction with
  | element own lineage traits children ih =>
    intro inside
    rcases mem_elements_element.mp inside with rfl | below
    · exact Nat.le_refl _
    · obtain ⟨child, member, within⟩ := mem_elementsOf_iff.mp below
      rw [tally_singleton (element own lineage traits children)]
      have within := Nat.le_trans (ih child member within) (tally_le_of_mem member)
      exact Nat.le_trans within (Nat.le_add_left _ _)
  | aside content tail => exact fun inside => nomatch inside

theorem filter_eq_nil_of_tally (none : tally name nodes = 0) :
    (elementsOf nodes).filter (·.isNamed name) = [] := by
  rw [List.filter_eq_nil_iff]
  exact tally_eq_zero_iff.mp none

/-- The only element of a name is rebuilt. If it also holds all elements of another name, those
are found afterwards in what has become of it. -/
theorem named_mapNamed (f : Node → Node) (node : Node) : node.named name = [only] →
    tally another [node] ≤ tally another [only] →
    (node.mapNamed name f).named another = (f only).named another := by
  induction node using Node.induction with
  | element own lineage traits children ih =>
    intro isOnly fewer
    have unchanged {nodes : List Node} (none : tally name nodes = 0) :
        nodes.map (mapNamed name f) = nodes := by
      refine (List.map_congr_left fun child member => ?_).trans (List.map_id _)
      exact mapNamed_eq_self f child (Nat.eq_zero_of_le_zero (none ▸ tally_le_of_mem member))
    rw [mapNamed_element]
    by_cases here : own = name
    · -- the element itself is the one, and there is no other below it
      have isNamed : (element own lineage traits children).isNamed name :=
        isNamed_iff.mpr (congrArg some here)
      rw [named, elements, List.filter_cons_of_pos isNamed, List.cons.injEq] at isOnly
      obtain ⟨rfl, noneBelow⟩ := isOnly
      rw [if_pos here, unchanged]
      rw [tally, List.countP_eq_length_filter, noneBelow]
      rfl
    · rw [named_element_of_ne here] at isOnly
      obtain ⟨before, child, after, rfl, isChild, noneBefore, noneAfter⟩ :=
        exists_of_filter_eq isOnly
      have inside : only ∈ child.elements :=
        (List.mem_filter.mp (isChild ▸ List.mem_singleton_self only)).1
      have atLeast := tally_le_of_mem_elements another child inside
      rw [tally_singleton, children, tally_append, tally_cons child] at fewer
      have other : own ≠ another := by
        rintro rfl
        rw [if_pos (isNamed_iff.mpr rfl)] at fewer
        omega
      have rebuilt := ih child (by simp) isChild (by omega)
      rw [if_neg here, named_element_of_ne other, List.map_append, List.map_cons,
        unchanged noneBefore, unchanged noneAfter, elementsOf_append, elementsOf,
        List.filter_append, List.filter_append, filter_eq_nil_of_tally (by omega),
        filter_eq_nil_of_tally (by omega), List.nil_append, List.append_nil]
      exact rebuilt
  | aside content tail =>
    intro isOnly
    cases isOnly

end Only

/-! ### Removing before or after

What is removed has to be told by its name and its attributes, so that it is the same before and
after its content is changed.
-/

section Removing

variable {p : Node → Bool}

theorem prune_eq_withChildren (p : Node → Bool) (node : Node) :
    node.prune p = node.withChildren ((node.children.filter (!p ·)).map (prune p)) := by
  cases node with
  | element => rw [prune, pruneAll_eq]; rfl
  | aside content tail => rfl

variable (byTag : ∀ (x : Node) children, p (x.withChildren children) = p x)

include byTag

theorem pruned_iff (node : Node) : p (node.prune p) = p node := by
  rw [prune_eq_withChildren, byTag]

theorem prune_prune (node : Node) : (node.prune p).prune p = node.prune p := by
  induction node using Node.induction with
  | element own lineage traits children ih =>
    rw [prune, prune, pruneAll_eq, pruneAll_eq, List.filter_map, List.map_map]
    congr 1
    have kept : (children.filter (!p ·)).filter ((!p ·) ∘ prune p) = children.filter (!p ·) := by
      rw [List.filter_filter]
      refine List.filter_congr fun child _ => ?_
      simp [pruned_iff byTag]
    rw [kept]
    exact List.map_congr_left fun child member => ih child (List.mem_filter.mp member).1
  | aside content tail => rfl

/-- Rebuilding the elements of a name can be put off until others are removed. -/
theorem prune_mapNamed {f g : Node → Node} (keeps : ∀ x, x.isNamed name → p x = false)
    (stays : ∀ x, x.isNamed name → (f x).isNamed name)
    (commutes : ∀ x, x.isNamed name → (f x).prune p = g (x.prune p)) (node : Node) :
    (node.mapNamed name f).prune p = (node.prune p).mapNamed name g := by
  have same (node : Node) : p (node.mapNamed name f) = p node := by
    cases node with
    | element own lineage traits children =>
      rw [mapNamed_element]
      split
      · rename_i here
        have named (children : List Node) : (element own lineage traits children).isNamed name :=
          isNamed_iff.mpr (congrArg some here)
        rw [keeps _ (stays _ (named _)), keeps _ (named _)]
      · exact byTag (element own lineage traits children) _
    | aside content tail => rfl
  induction node using Node.induction with
  | element own lineage traits children ih =>
    have below : ((children.map (mapNamed name f)).filter (!p ·)).map (prune p) =
        ((children.filter (!p ·)).map (prune p)).map (mapNamed name g) := by
      rw [List.filter_map, List.map_map, List.map_map]
      have kept : children.filter ((!p ·) ∘ mapNamed name f) = children.filter (!p ·) :=
        List.filter_congr fun child _ => by simp [same]
      rw [kept]
      exact List.map_congr_left fun child member => ih child (List.mem_filter.mp member).1
    rw [prune, pruneAll_eq, mapNamed_element, mapNamed_element]
    split
    · rename_i here
      have named : (element own lineage traits (children.map (mapNamed name f))).isNamed name :=
        isNamed_iff.mpr (congrArg some here)
      rw [commutes _ named, prune, pruneAll_eq, below]
    · rw [prune, pruneAll_eq, below]
  | aside content tail => rfl

omit byTag

theorem named_element (own : Name) (lineage : Lineage) (traits : Traits)
    (children : List Node) :
    (element own lineage traits children).named name =
      (if own = name then [.element own lineage traits children] else []) ++
        children.flatMap (·.named name) := by
  rw [named, elements, List.filter_cons, elementsOf_eq_flatMap, List.filter_flatMap]
  simp only [isNamed_iff, name?, Option.some.injEq]
  split
  · rfl
  · rfl

theorem flatMap_filter {α β : Type} {f : α → List β} {q : α → Bool} {items : List α}
    (nothing : ∀ x ∈ items, q x = false → f x = []) :
    (items.filter q).flatMap f = items.flatMap f := by
  induction items with
  | nil => rfl
  | cons first rest ih =>
    have others := ih fun x member => nothing x (List.mem_cons_of_mem _ member)
    rw [List.flatMap_cons, ← others, List.filter_cons]
    split
    · rfl
    · rename_i removed
      rw [nothing first List.mem_cons_self (Bool.eq_false_iff.mpr removed), List.nil_append]

/-- Where only elements without content and of other names are removed, those of a name are found
as before, less what was removed in them. -/
theorem named_prune (node : Node) :
    (∀ x ∈ node.elements, p x → x.isNamed name = false ∧ x.children = []) →
    (node.prune p).named name = (node.named name).map (prune p) := by
  induction node using Node.induction with
  | element own lineage traits children ih =>
    intro leaves
    have inside {child : Node} (member : child ∈ children) : child.elements ⊆
        (element own lineage traits children).elements :=
      fun x within => List.mem_cons_of_mem _ (mem_elementsOf member within)
    have nothing {child : Node} (member : child ∈ children) (removed : p child) :
        child.named name = [] := by
      cases child with
      | element own' lineage' traits' children' =>
        obtain ⟨other, empty⟩ := leaves _ (inside member (mem_elements_self rfl)) removed
        cases empty
        rw [named, elements, elementsOf, List.filter_cons_of_neg (by simp [other])]
        rfl
      | aside content tail => rfl
    have kept : (children.filter (!p ·)).flatMap (·.named name) =
        children.flatMap (·.named name) :=
      flatMap_filter fun child member removed => nothing member (by simpa using removed)
    rw [prune, pruneAll_eq, named_element, named_element, List.map_append, ← kept, List.map_flatMap,
      List.flatMap_map]
    congr 1
    · split
      · rw [List.map_singleton, prune, pruneAll_eq]
      · rfl
    · refine List.flatMap_congr fun child member => ?_
      have among := (List.mem_filter.mp member).1
      exact ih child among fun x within => leaves x (inside among within)
  | aside content tail => exact fun _ => rfl

end Removing

/-! ### The first element of a name -/

section First

variable {f : Node → Node}

theorem updateFirst?_of_isNamed (f : Node → Node) (named : node.isNamed name) :
    updateFirst? name f node = some (f node) := by
  obtain ⟨lineage, traits, children, rfl⟩ := exists_of_isNamed named
  rw [updateFirst?, if_pos rfl]

mutual

theorem updateFirst?_eq_none_iff (f : Node → Node) : (node : Node) →
    (updateFirst? name f node = none ↔ tally name [node] = 0)
  | .element own lineage traits children => by
    have below := updateFirstOf?_eq_none_iff f children
    rw [updateFirst?, tally_singleton]
    split
    · rename_i here
      have named : (element own lineage traits children).isNamed name :=
        isNamed_iff.mpr (congrArg some here)
      rw [if_pos named]
      exact ⟨nofun, fun nothing => by omega⟩
    · rename_i other
      rw [Option.map_eq_none_iff, below, if_neg, Nat.zero_add]
      · rfl
      · exact fun named => other (Option.some.inj (isNamed_iff.mp named))
  | .aside _ _ => ⟨fun _ => rfl, fun _ => rfl⟩

theorem updateFirstOf?_eq_none_iff (f : Node → Node) : (nodes : List Node) →
    (updateFirstOf? name f nodes = none ↔ tally name nodes = 0)
  | [] => ⟨fun _ => rfl, fun _ => rfl⟩
  | node :: rest => by
    have here := updateFirst?_eq_none_iff f node
    have others := updateFirstOf?_eq_none_iff f rest
    rw [updateFirstOf?, tally_cons node rest, Nat.add_eq_zero_iff, ← here, ← others]
    cases updateFirst? name f node with
    | none => simp
    | some updated => simp

end

mutual

theorem updateFirst?_again (stays : ∀ x, x.isNamed name → (f x).isNamed name)
    (again : ∀ x, x.isNamed name → f (f x) = f x) : (node : Node) → {updated : Node} →
    updateFirst? name f node = some updated → updateFirst? name f updated = some updated
  | .element own lineage traits children, updated, isUpdated => by
    rw [updateFirst?] at isUpdated
    split at isUpdated
    · rename_i here
      cases isUpdated
      have named : (element own lineage traits children).isNamed name :=
        isNamed_iff.mpr (congrArg some here)
      rw [updateFirst?_of_isNamed f (stays _ named), again _ named]
    · rename_i other
      obtain ⟨inside, isInside, rfl⟩ := Option.map_eq_some_iff.mp isUpdated
      rw [updateFirst?, if_neg other, updateFirstOf?_again stays again children isInside]
      rfl

/-- The first element of a name is found again after it was rebuilt, and nothing is changed if
rebuilding it once more changes nothing. -/
theorem updateFirstOf?_again (stays : ∀ x, x.isNamed name → (f x).isNamed name)
    (again : ∀ x, x.isNamed name → f (f x) = f x) : (nodes : List Node) → {updated : List Node} →
    updateFirstOf? name f nodes = some updated → updateFirstOf? name f updated = some updated
  | node :: rest, updated, isUpdated => by
    rw [updateFirstOf?] at isUpdated
    split at isUpdated
    · rename_i first isFirst
      cases isUpdated
      rw [updateFirstOf?, updateFirst?_again stays again node isFirst]
    · rename_i none
      obtain ⟨others, isOthers, rfl⟩ := Option.map_eq_some_iff.mp isUpdated
      rw [updateFirstOf?, none, updateFirstOf?_again stays again rest isOthers]
      rfl

end

end First

/-! ### The element of a lineage -/

theorem lineage_expand (lineage : Lineage) (f : Node → List Node) (node : Node) :
    (node.expand lineage f).lineage = node.lineage := by
  cases node <;> rfl

theorem expand_of_leaf (lineage : Lineage) (f : Node → List Node) (leaf : node.name? = none) :
    node.expand lineage f = node := by
  cases node with
  | element => cases leaf
  | aside content tail => rfl

/-- What is put in the place of something that was put in the place of an element. -/
theorem expandAll_expandAll {lineage : Lineage} {f : Node → List Node} {g : Node → Node}
    (stays : ∀ x, (g x).lineage = x.lineage) (nodes : List Node) :
    expandAll lineage f (expandAll lineage (fun x => [g x]) nodes) =
      expandAll lineage (fun x => f (g x)) nodes := by
  induction nodes using forest_induction (fun node => node.lineage ≠ lineage →
    (node.expand lineage fun x => [g x]).expand lineage f = node.expand lineage fun x => f (g x)) with
  | forest nodes each =>
    rw [expandAll_eq, expandAll_eq, expandAll_eq, List.flatMap_assoc]
    refine List.flatMap_congr fun node member => ?_
    by_cases isOwn : node.lineage = lineage
    · have still : (g node).lineage = lineage := (stays node).trans isOwn
      rw [if_pos isOwn, if_pos isOwn, List.flatMap_singleton, if_pos still]
    · have still : ¬ (node.expand lineage fun x => [g x]).lineage = lineage := by
        rwa [lineage_expand]
      rw [if_neg isOwn, if_neg isOwn, List.flatMap_singleton, if_neg still, each node member isOwn]
  | element name own traits children below =>
    rw [expand, expand, expand, below]
  | leaf node leaf =>
    rw [expand_of_leaf _ _ leaf, expand_of_leaf _ _ leaf, expand_of_leaf _ _ leaf]

end TemplateFill.Xml.Node
