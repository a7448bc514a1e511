import Mathlib.Data.List.Infix
import Mathlib.Data.List.Pairwise
import TemplateFill.Proofs.Walk.Placement
import TemplateFill.Proofs.Walk.Settlement
import TemplateFill.Proofs.Walk.Writing

/-!
# Controls are told apart

Every control of a document has a lineage of its own, and no lineage is the beginning of another
one. A walk keeps it so: what it writes has no lineage, and copies extend the lineage of their
model, each in its own way. Together with the fact that nothing is removed once a problem of it
was found, a finding is about exactly one control of what the walk leaves.
-/

namespace TemplateFill.Walk

open Xml

/-! ### Tags -/

/-- The name and the lineage of an element that is told from others, or should be: all controls
are. -/
abbrev Tag := Option Name × Lineage

/-- Whether an element has to be told from others. -/
def isTag (tag : Tag) : Bool := tag.1 == some Word.control || !tag.2.isEmpty

/-- The tags among and below some nodes, in document order. -/
def tags (nodes : List Node) : List Tag := ((Node.elementsOf nodes).map key).filter isTag

variable {nodes left rest others : List Node} {node x : Node} {place : Place}

theorem tags_append (nodes rest : List Node) : tags (nodes ++ rest) = tags nodes ++ tags rest := by
  rw [tags, Node.elementsOf_append, List.map_append, List.filter_append]
  rfl

theorem tags_cons (node : Node) (rest : List Node) : tags (node :: rest) = tags [node] ++ tags rest :=
  tags_append [node] rest

theorem tags_element (name : Name) (lineage : Lineage) (traits : Traits)
    (children : List Node) : tags [.element name lineage traits children] =
      [(some name, lineage)].filter isTag ++ tags children := by
  rw [tags, Node.elementsOf_singleton, Node.elements, List.map_cons,
    ← List.singleton_append, List.filter_append]
  rfl

theorem tags_leaf (leaf : node.name? = none) : tags [node] = [] := by
  rw [tags, Node.elementsOf_singleton, Node.elements_of_leaf leaf]
  rfl

theorem tags_eq (isElement : node.name?.isSome) :
    tags [node] = [key node].filter isTag ++ tags node.children := by
  cases node with
  | element name lineage traits children => exact tags_element name lineage traits children
  | aside content tail => cases isElement

theorem sublist_tags_children (node : Node) : (tags node.children).Sublist (tags [node]) := by
  cases node with
  | element name lineage traits children =>
    rw [tags_element]
    exact List.sublist_append_right _ _
  | aside content tail => exact List.nil_sublist _

theorem mem_tags (member : x ∈ Node.elementsOf nodes) (tagged : isTag (key x)) : key x ∈ tags nodes :=
  List.mem_filter.mpr ⟨List.mem_map_of_mem member, tagged⟩

theorem tags_subset_of_mem (inside : x ∈ Node.elementsOf nodes) : tags [x] ⊆ tags nodes := by
  intro tag member
  obtain ⟨isKey, tagged⟩ := List.mem_filter.mp member
  obtain ⟨y, isIn, rfl⟩ := List.mem_map.mp isKey
  rw [Node.elementsOf_singleton] at isIn
  exact mem_tags (Node.mem_elementsOf_trans inside isIn) tagged

theorem isTag_of_isControl (isControl : Control.isControl x) : isTag (key x) := by
  rw [isTag, key, Node.isNamed_iff.mp isControl]
  rfl

/-! ### Distinct tags -/

/-- One of two lineages is the beginning of the other. -/
def Related (a b : Lineage) : Prop := a <+: b ∨ b <+: a

/-- Only controls are told from others, each has a lineage, and no two are related. -/
structure Distinct (known : List Tag) : Prop where
  controls : ∀ tag ∈ known, tag.1 = some Word.control ∧ tag.2 ≠ []
  apart : known.Pairwise fun a b => ¬ Related a.2 b.2

theorem Distinct.sublist {known fewer : List Tag} (distinct : Distinct known)
    (h : fewer.Sublist known) : Distinct fewer :=
  ⟨fun tag member => distinct.controls tag (h.subset member), distinct.apart.sublist h⟩

/-- What is related to the beginnings of two lineages that are not related is not related
either. -/
theorem Related.of_prefix {a b c d : Lineage} (related : Related c d) (first : a <+: c)
    (second : b <+: d) : Related a b := by
  rcases related with h | h
  · exact List.prefix_or_prefix_of_prefix (first.trans h) second
  · exact List.prefix_or_prefix_of_prefix first (second.trans h)

/-- New tags descend from old ones: each extends an old one, and they stay distinct. -/
structure Descends (old new : List Tag) : Prop where
  source : ∀ tag ∈ new, ∃ model ∈ old, model.1 = tag.1 ∧ model.2 <+: tag.2
  distinct : Distinct old → Distinct new

namespace Descends

variable {old new further : List Tag}

/-- What extends distinct tags has lineages and is a control. -/
theorem of_apart (source : ∀ tag ∈ new, ∃ model ∈ old, model.1 = tag.1 ∧ model.2 <+: tag.2)
    (apart : Distinct old → new.Pairwise fun a b => ¬ Related a.2 b.2) : Descends old new := by
  refine ⟨source, fun distinct => ⟨fun tag member => ?_, apart distinct⟩⟩
  obtain ⟨model, among, same, isPrefix⟩ := source tag member
  obtain ⟨isControl, named⟩ := distinct.controls model among
  refine ⟨same ▸ isControl, fun empty => named ?_⟩
  rw [empty] at isPrefix
  exact List.prefix_nil.mp isPrefix

theorem of_sublist (h : new.Sublist old) : Descends old new :=
  ⟨fun tag member => ⟨tag, h.subset member, rfl, List.prefix_refl _⟩, fun distinct =>
    distinct.sublist h⟩

theorem refl (old : List Tag) : Descends old old := of_sublist (List.Sublist.refl old)

theorem trans (first : Descends old new) (second : Descends new further) :
    Descends old further := by
  refine ⟨fun tag member => ?_, second.distinct ∘ first.distinct⟩
  obtain ⟨middle, among, same, isPrefix⟩ := second.source tag member
  obtain ⟨model, isOld, sameBefore, isPrefixBefore⟩ := first.source middle among
  exact ⟨model, isOld, sameBefore.trans same, isPrefixBefore.trans isPrefix⟩

theorem append {later added : List Tag} (first : Descends old new)
    (second : Descends later added) : Descends (old ++ later) (new ++ added) := by
  refine of_apart (fun tag member => ?_) fun distinct => ?_
  · rcases List.mem_append.mp member with here | there
    · obtain ⟨model, among, fits⟩ := first.source tag here
      exact ⟨model, List.mem_append_left _ among, fits⟩
    · obtain ⟨model, among, fits⟩ := second.source tag there
      exact ⟨model, List.mem_append_right _ among, fits⟩
  · have firstApart := first.distinct (distinct.sublist (List.sublist_append_left _ _))
    have secondApart := second.distinct (distinct.sublist (List.sublist_append_right _ _))
    have across := (List.pairwise_append.mp distinct.apart).2.2
    refine List.pairwise_append.mpr ⟨firstApart.apart, secondApart.apart, ?_⟩
    intro a here b there related
    obtain ⟨model, among, -, isPrefix⟩ := first.source a here
    obtain ⟨other, amongOthers, -, isPrefixThere⟩ := second.source b there
    exact across model among other amongOthers (related.of_prefix isPrefix isPrefixThere)

theorem cons (here : Descends (tags [node]) (tags left))
    (onward : Descends (tags rest) (tags others)) :
    Descends (tags (node :: rest)) (tags (left ++ others)) := by
  rw [tags_cons, tags_append]
  exact here.append onward

/-- An element around what descends from its content. -/
theorem withChildren {children : List Node} (node : Node)
    (below : Descends (tags node.children) (tags children)) :
    Descends (tags [node]) (tags [node.withChildren children]) := by
  cases node with
  | element name lineage traits others =>
    rw [Node.withChildren, tags_element, tags_element]
    exact (refl _).append below
  | aside content tail => exact refl _

theorem element {name : Name} {lineage : Lineage} {traits : Traits}
    {children inside : List Node} (below : Descends (tags children) (tags inside))
    (onward : Descends (tags rest) (tags others)) :
    Descends (tags (.element name lineage traits children :: rest))
      (tags (.element name lineage traits inside :: others)) :=
  (withChildren (.element name lineage traits children) below).cons onward

theorem keep (onward : Descends (tags rest) (tags others)) :
    Descends (tags (node :: rest)) (tags (node :: others)) := (refl (tags [node])).cons onward

theorem replaceFirst {p : Node → Bool} {before after : Node} (isFirst : nodes.find? p = some before)
    (here : Descends (tags [before]) (tags [after])) :
    Descends (tags nodes) (tags (Node.replaceFirst p after nodes)) := by
  induction nodes with
  | nil => exact refl _
  | cons first rest ih =>
    rw [Node.replaceFirst]
    by_cases satisfies : p first
    · rw [List.find?_cons_of_pos satisfies] at isFirst
      obtain rfl := Option.some.inj isFirst
      rw [if_pos satisfies]
      exact here.cons (refl _)
    · rw [List.find?_cons_of_neg satisfies] at isFirst
      rw [if_neg satisfies]
      exact keep (ih isFirst)

end Descends

theorem Pared.descends {written : List Name} (pared : Pared written place nodes left)
    (never : Word.control ∉ written) : Descends (tags nodes) (tags left) := by
  refine .of_sublist (pared.sublist_keys fun name isWritten => ?_)
  have other : name ≠ Word.control := fun same => never (same ▸ isWritten)
  simp [isTag, other]

/-! ### Copies -/

/-- The tag of a copy. -/
def Tag.extend (index : Nat) (tag : Tag) : Tag :=
  (tag.1, if tag.2.isEmpty then [] else tag.2 ++ [index])

theorem tags_copyAll (index : Nat) (each : ∀ node ∈ nodes, tags [node.copy index] =
    (tags [node]).map (Tag.extend index)) :
    tags (nodes.map (Node.copy index)) = (tags nodes).map (Tag.extend index) := by
  induction nodes with
  | nil => rfl
  | cons node rest ih =>
    have onward := ih fun other member => each other (List.mem_cons_of_mem _ member)
    rw [List.map_cons, tags_cons, each node List.mem_cons_self, onward, tags_cons node rest,
      List.map_append]

theorem tags_copy (index : Nat) (node : Node) :
    tags [node.copy index] = (tags [node]).map (Tag.extend index) := by
  induction node using Node.induction with
  | element name lineage traits children ih =>
    have below := tags_copyAll index ih
    rw [Node.copy, Node.mapElements, Node.extendLineage, Node.mapAllElements_eq, tags_element]
    have same : children.map (Node.mapElements (Node.extendLineage index)) =
        children.map (Node.copy index) := rfl
    rw [same, below, tags_element, List.map_append]
    congr 1
    cases lineage with
    | nil =>
      by_cases isControl : name = Word.control
      · simp [isTag, Tag.extend, isControl]
      · simp [isTag, isControl]
    | cons first rest => simp [isTag, Tag.extend]
  | aside content tail => rfl

theorem distinct_extend {known : List Tag} (index : Nat) (distinct : Distinct known) :
    Distinct (known.map (Tag.extend index)) := by
  have extended {tag : Tag} (member : tag ∈ known) : tag.2 <+: (tag.extend index).2 := by
    rw [Tag.extend, if_neg (by simpa using (distinct.controls tag member).2)]
    exact List.prefix_append _ _
  constructor
  · intro tag member
    obtain ⟨model, among, rfl⟩ := List.mem_map.mp member
    obtain ⟨isControl, named⟩ := distinct.controls model among
    exact ⟨isControl, fun empty => named (List.prefix_nil.mp (empty ▸ extended among))⟩
  · rw [List.pairwise_map]
    refine distinct.apart.imp_of_mem fun here there apart related => ?_
    exact apart (related.of_prefix (extended here) (extended there))

/-- New tags are those of copies of old ones, which are numbered from `first` on. -/
structure Copied (first : Nat) (old new : List Tag) : Prop where
  source : ∀ tag ∈ new, ∃ model ∈ old, ∃ index, first ≤ index ∧ model.1 = tag.1 ∧
    (model.extend index).2 <+: tag.2
  distinct : Distinct old → Distinct new

namespace Copied

variable {old here new : List Tag} {index : Nat}

theorem nil : Copied index old [] :=
  ⟨List.forall_mem_nil _, fun _ => ⟨List.forall_mem_nil _, .nil⟩⟩

theorem mono {first : Nat} (copied : Copied index old new) (le : first ≤ index) :
    Copied first old new := by
  refine ⟨fun tag member => ?_, copied.distinct⟩
  obtain ⟨model, among, later, from_, fits⟩ := copied.source tag member
  exact ⟨model, among, later, le.trans from_, fits⟩

theorem descends (copied : Copied index old new) : Descends old new := by
  refine ⟨fun tag member => ?_, copied.distinct⟩
  obtain ⟨model, among, later, -, same, isPrefix⟩ := copied.source tag member
  refine ⟨model, among, same, List.IsPrefix.trans ?_ isPrefix⟩
  rw [Tag.extend]
  split
  · rename_i empty
    rw [List.isEmpty_iff.mp empty]
  · exact List.prefix_append _ _

/-- Copies with different numbers are not related. -/
theorem cons (first : Descends (old.map (Tag.extend index)) here)
    (onward : Copied (index + 1) old new) : Copied index old (here ++ new) := by
  refine ⟨fun tag member => ?_, fun distinct => ?_⟩
  · rcases List.mem_append.mp member with among | among
    · obtain ⟨_, isCopy, same, isPrefix⟩ := first.source tag among
      obtain ⟨model, isOld, rfl⟩ := List.mem_map.mp isCopy
      exact ⟨model, isOld, index, Nat.le_refl index, same, isPrefix⟩
    · exact (onward.mono (Nat.le_succ index)).source tag among
  · have firstDistinct := first.distinct (distinct_extend index distinct)
    have others := onward.distinct distinct
    constructor
    · intro tag member
      rcases List.mem_append.mp member with among | among
      · exact firstDistinct.controls tag among
      · exact others.controls tag among
    · refine List.pairwise_append.mpr ⟨firstDistinct.apart, others.apart, ?_⟩
      intro a isHere b isLater related
      obtain ⟨_, isCopy, -, isPrefix⟩ := first.source a isHere
      obtain ⟨model, isOld, rfl⟩ := List.mem_map.mp isCopy
      obtain ⟨other, isOldToo, later, after, -, isPrefixLater⟩ := onward.source b isLater
      have copies := related.of_prefix isPrefix isPrefixLater
      have named := (distinct.controls model isOld).2
      have namedToo := (distinct.controls other isOldToo).2
      simp only [Tag.extend, List.isEmpty_iff, named, namedToo, if_false] at copies
      by_cases same : model = other
      · subst same
        rcases copies with h | h
        · have numbers := (List.prefix_append_right_inj _).mp h
          simp at numbers
          omega
        · have numbers := (List.prefix_append_right_inj _).mp h
          simp at numbers
          omega
      · have : Std.Symm fun a b : Tag => ¬ Related a.2 b.2 :=
          ⟨fun a b apart related => apart related.symm⟩
        exact distinct.apart.forall isOld isOldToo same
          (copies.of_prefix (List.prefix_append _ _) (List.prefix_append _ _))

end Copied

/-! ### The walk -/

theorem sublist_tags_of_mem (member : node ∈ nodes) : (tags [node]).Sublist (tags nodes) := by
  obtain ⟨before, after, rfl⟩ := List.append_of_mem member
  rw [tags_append, tags_cons node after]
  exact List.sublist_append_of_sublist_right (List.sublist_append_left _ _)

/-- The content area of a section that got copies of its item descends from what it was. -/
theorem descends_content {tag : String} {item : Node} {items : List Node}
    (isItem : sectionItem tag node = .ok item) (copies : Descends (tags [item]) (tags items)) :
    ∃ content, Control.content? node = some content ∧
      Descends (tags content.children) (tags items) := by
  obtain ⟨content, child, isContent, member, -, rfl⟩ := sectionItem_eq_ok isItem
  have pruned : Pared [] .outside [child] [child.prune (·.isNamed Word.identifier)] :=
    .prune _ child _
  refine ⟨content, isContent, ?_⟩
  exact .trans (.of_sublist (sublist_tags_of_mem member)) ((pruned.descends (by simp)).trans copies)

theorem descends_withItems {tag : String} {item : Node} {items : List Node}
    (isItem : sectionItem tag node = .ok item) (copies : Descends (tags [item]) (tags items)) :
    Descends (tags [node]) (tags [withItems items node]) := by
  obtain ⟨content, isContent, inside⟩ := descends_content isItem copies
  unfold withItems
  rw [isContent]
  exact .withChildren node (.replaceFirst isContent (.withChildren content inside))

mutual

theorem Settles.descends {options : Options} {place : Place} {scope : Datum}
    {lists kept : ListStore} {node : Node} {account : Account} {left : List Node}
    (isControl : Control.isControl node) :
    Settles options place scope lists node account left kept →
      Descends (tags [node]) (tags left)
  | .refused _ => .refl _
  | .broken h => (pared_written isControl h).descends (by cases place.inParagraph <;> decide)
  | .filled h => (pared_written isControl h).descends (by cases place.inParagraph <;> decide)
  | .removed _ _ => by
    split
    · exact .of_sublist (List.nil_sublist _)
    · exact .of_sublist (List.nil_sublist _)
  | .shown _ below => .withChildren _ below.descends
  | .repeated h below => by
    have isItem := course_holds h
    have copies := below.isCopied (isControl_of_sectionItem isItem).1
    exact descends_withItems isItem copies.descends

/-- What is left of nodes descends from them. -/
theorem SettlesAll.descends {options : Options} {place : Place} {scope : Datum}
    {lists kept : ListStore} {nodes left : List Node} {accounts : List Account} :
    SettlesAll options place scope lists nodes accounts left kept →
      Descends (tags nodes) (tags left)
  | .nil => .refl _
  | .control isControl first onward => .cons (first.descends isControl) onward.descends
  | .element _ first onward => .element first.descends onward.descends
  | .leaf _ onward => .keep onward.descends

theorem SettlesItems.isCopied {options : Options} {place : Place} {tag : String} {item : Node}
    {index : Nat} {lists kept : ListStore} {values : List Datum} {entries : List Entry}
    {copies : List Node} {fault : Option Fault} (isControl : Control.isControl item) :
    SettlesItems options place tag item index lists values entries copies fault kept →
      Copied index (tags [item]) (tags copies)
  | .done => .nil
  | .copied first onward => by
    have copied := Descends.withChildren (item.copy index) first.descends
    have others := onward.isCopied isControl
    rw [tags_copy] at copied
    have all := Copied.cons copied others
    rwa [← tags_cons] at all
  | .rejected _ _ onward => (onward.isCopied isControl).mono (Nat.le_succ index)
  | .stopped _ _ => .nil

end

/-! ### What findings are about -/

/-- There is a control of a lineage among or below some nodes. -/
def HasControl (nodes : List Node) (lineage : Lineage) : Prop :=
  ∃ x ∈ Node.elementsOf nodes, Control.isControl x ∧ x.lineage = lineage

namespace HasControl

variable {lineage : Lineage}

theorem append_left (h : HasControl nodes lineage) (others : List Node) :
    HasControl (nodes ++ others) lineage := by
  obtain ⟨x, inside, fits⟩ := h
  exact ⟨x, by rw [Node.elementsOf_append]; exact List.mem_append_left _ inside, fits⟩

theorem append_right (h : HasControl others lineage) (nodes : List Node) :
    HasControl (nodes ++ others) lineage := by
  obtain ⟨x, inside, fits⟩ := h
  exact ⟨x, by rw [Node.elementsOf_append]; exact List.mem_append_right _ inside, fits⟩

theorem withChildren (h : HasControl nodes lineage) (isElement : node.name?.isSome) :
    HasControl [node.withChildren nodes] lineage := by
  obtain ⟨x, inside, fits⟩ := h
  exact ⟨x, Node.mem_elementsOf (List.mem_singleton_self _)
    (Node.mem_elements_withChildren isElement inside), fits⟩

theorem element {name : Name} {own : Lineage} {traits : Traits}
    (h : HasControl nodes lineage) : HasControl [.element name own traits nodes] lineage := by
  obtain ⟨x, inside, fits⟩ := h
  exact ⟨x, List.mem_append_left _ (List.mem_cons_of_mem _ inside), fits⟩

/-- A control is still there as the same element. -/
theorem of_sameElement {after : Node} (isControl : Control.isControl node)
    (same : SameElement node after) : HasControl [after] node.lineage := by
  obtain ⟨children, rfl⟩ := same
  obtain ⟨lineage, traits, others, rfl⟩ := Node.exists_of_isNamed isControl
  exact ⟨_, List.mem_append_left _ List.mem_cons_self, rfl, rfl⟩

end HasControl

mutual

theorem Settles.hasControl {options : Options} {place : Place} {scope : Datum}
    {lists kept : ListStore} {node : Node} {account : Account} {left : List Node}
    (isControl : Control.isControl node) :
    Settles options place scope lists node account left kept →
      ∀ finding ∈ account.findings, HasControl left finding.subject
  | .refused _ => by
    intro finding member
    rw [List.mem_singleton.mp member]
    exact .of_sameElement isControl (.refl _)
  | .broken h => by
    intro finding member
    rw [List.mem_singleton.mp member]
    exact .of_sameElement isControl (course_holds h).1
  | .filled _ => fun _ member => nomatch member
  | .removed _ _ => fun _ member => nomatch member
  | .shown _ below => by
    intro finding member
    rcases List.mem_append.mp member with here | inside
    · obtain ⟨problem, -, rfl⟩ := List.mem_map.mp here
      exact .of_sameElement isControl (.withChildren _ _)
    · exact (below.hasControl finding inside).withChildren (Node.isElement_of_isNamed isControl)
  | .repeated h below => by
    have isItem := isControl_of_sectionItem (course_holds h)
    obtain ⟨isControlItem, content, isContent⟩ := isItem
    intro finding member
    rcases List.mem_append.mp member with here | last
    · rcases below.hasControl isControlItem _ finding here with own | inside
      · rw [own]
        exact .of_sameElement isControl (.withItems _ _)
      · obtain ⟨x, among, fits⟩ := inside
        exact ⟨x, Node.mem_elementsOf (List.mem_singleton_self _)
          (mem_elements_withItems isContent among), fits⟩
    · obtain ⟨problem, -, rfl⟩ := List.mem_map.mp last
      exact .of_sameElement isControl (.withItems _ _)

/-- No control is removed once something was found about it. -/
theorem SettlesAll.hasControl {options : Options} {place : Place} {scope : Datum}
    {lists kept : ListStore} {nodes left : List Node} {accounts : List Account} :
    SettlesAll options place scope lists nodes accounts left kept →
      ∀ finding ∈ findingsOf accounts, HasControl left finding.subject
  | .nil => fun _ member => nomatch member
  | .control isControl first onward => by
    intro finding member
    rcases List.mem_append.mp member with here | later
    · exact (first.hasControl isControl finding here).append_left _
    · exact (onward.hasControl finding later).append_right _
  | .element _ first onward => by
    intro finding member
    rw [findingsOf_append] at member
    rcases List.mem_append.mp member with here | later
    · exact (first.hasControl finding here).element.append_left _
    · exact (onward.hasControl finding later).append_right [_]
  | .leaf _ onward => fun finding member => (onward.hasControl finding member).append_right [_]

theorem SettlesItems.hasControl {options : Options} {place : Place} {tag : String} {item : Node}
    {index : Nat} {lists kept : ListStore} {values : List Datum} {entries : List Entry}
    {copies : List Node} {fault : Option Fault} (isControl : Control.isControl item)
    (subject : Lineage) :
    SettlesItems options place tag item index lists values entries copies fault kept →
      ∀ finding ∈ entryFindings subject entries,
        finding.subject = subject ∨ HasControl copies finding.subject
  | .done => fun _ member => nomatch member
  | .copied first onward => by
    intro finding member
    have isElement : (item.copy index).name?.isSome := by
      rw [Node.name?_copy]
      exact Node.isElement_of_isNamed isControl
    rcases List.mem_append.mp member with here | later
    · exact .inr ((first.hasControl finding here).withChildren isElement |>.append_left _)
    · exact (onward.hasControl isControl subject finding later).imp_right (·.append_right [_])
  | .rejected _ _ onward => by
    intro finding member
    rcases List.mem_cons.mp member with rfl | later
    · exact .inl rfl
    · exact onward.hasControl isControl subject finding later
  | .stopped _ _ => fun _ member => nomatch member

end

/-! ### Numbered controls -/

def numbered (next count : Nat) : List Tag :=
  (List.range' next count).map fun n => (some Word.control, [n])

theorem distinct_numbered (next count : Nat) : Distinct (numbered next count) := by
  constructor
  · intro tag member
    obtain ⟨n, -, rfl⟩ := List.mem_map.mp member
    exact ⟨rfl, List.cons_ne_nil n []⟩
  · rw [numbered, List.pairwise_map]
    refine (List.pairwise_lt_range' 1 Nat.one_pos).imp fun less related => ?_
    rcases related with h | h
    · have same := h.eq_of_length rfl
      simp at same
      omega
    · have same := h.eq_of_length rfl
      simp at same
      omega

mutual

theorem tags_enroll (next : Nat) : (node : Node) → ∃ count,
    (Control.enroll next node).2 = next + count ∧
      tags [(Control.enroll next node).1] = numbered next count
  | .element name lineage traits children => by
    rw [Control.enroll]
    split
    · rename_i isControl
      obtain ⟨count, after, below⟩ := tags_enrollAll (next + 1) children
      refine ⟨count + 1, by simp only [after]; omega, ?_⟩
      rw [tags_element, below, isControl, numbered, numbered, List.range'_succ]
      rfl
    · rename_i other
      obtain ⟨count, after, below⟩ := tags_enrollAll next children
      refine ⟨count, after, ?_⟩
      rw [tags_element, below]
      simp [isTag, other]
  | .aside _ _ => ⟨0, rfl, rfl⟩

/-- Numbered controls have the numbers in a row as their lineages. -/
theorem tags_enrollAll (next : Nat) : (nodes : List Node) → ∃ count,
    (Control.enrollAll next nodes).2 = next + count ∧
      tags (Control.enrollAll next nodes).1 = numbered next count
  | [] => ⟨0, rfl, rfl⟩
  | node :: rest => by
    obtain ⟨count, after, here⟩ := tags_enroll next node
    obtain ⟨further, afterRest, others⟩ := tags_enrollAll (next + count) rest
    rw [Control.enrollAll]
    simp only [after]
    refine ⟨count + further, by omega, ?_⟩
    rw [tags_cons, here, others, numbered, numbered, numbered, ← List.map_append,
      List.range'_append_1]

end

theorem distinct_enroll (next : Nat) (node : Node) : Distinct (tags [(Control.enroll next node).1]) := by
  obtain ⟨count, -, isNumbered⟩ := tags_enroll next node
  rw [isNumbered]
  exact distinct_numbered next count

/-- A control is the only element of its lineage where tags are distinct. -/
theorem filter_lineage_eq (distinct : Distinct (tags nodes)) (member : x ∈ Node.elementsOf nodes)
    (isControl : Control.isControl x) :
    (Node.elementsOf nodes).filter (·.lineage == x.lineage) = [x] := by
  have tagged := mem_tags member (isTag_of_isControl isControl)
  have named : x.lineage ≠ [] := (distinct.controls _ tagged).2
  have fewer : (((Node.elementsOf nodes).filter (·.lineage == x.lineage)).map key).Sublist
      (tags nodes) := by
    rw [tags, List.filter_map]
    refine (List.monotone_filter_right _ fun y same => ?_).map key
    have isSame : y.lineage = x.lineage := beq_iff_eq.mp same
    simp [isTag, key, isSame, named]
  have apart := distinct.apart.sublist fewer
  have among : x ∈ (Node.elementsOf nodes).filter (·.lineage == x.lineage) :=
    List.mem_filter.mpr ⟨member, beq_self_eq_true _⟩
  have all : ∀ y ∈ (Node.elementsOf nodes).filter (·.lineage == x.lineage), y.lineage = x.lineage :=
    fun y isOne => beq_iff_eq.mp (List.mem_filter.mp isOne).2
  generalize (Node.elementsOf nodes).filter (·.lineage == x.lineage) = found at apart among all
  cases found with
  | nil => cases among
  | cons y others =>
    cases others with
    | nil => rw [List.mem_singleton.mp among]
    | cons z rest =>
      have related : Related (key y).2 (key z).2 := by
        rw [key, key, all y List.mem_cons_self, all z (by simp)]
        exact .inl (List.prefix_refl _)
      simp only [List.map_cons, List.pairwise_cons] at apart
      exact absurd related (apart.1 _ List.mem_cons_self)

theorem populate_descends (options : Options) (root : Node) (scope : Datum) (lists : ListStore) :
    Descends (tags [root]) (tags [(populate options root scope (.start lists)).1]) := by
  obtain ⟨accounts, only, -⟩ := settledOn_populate options root scope lists
  have settled := (only _ _ _).mpr ⟨rfl, rfl, rfl⟩
  exact .withChildren root settled.descends

/-- Every finding of a walk is about a control that is left. -/
theorem populate_hasControl (options : Options) (root : Node) (scope : Datum) (lists : ListStore)
    {finding : Finding} (found : finding ∈ (populate options root scope (.start lists)).2.findings) :
    HasControl (populate options root scope (.start lists)).1.children finding.subject := by
  obtain ⟨accounts, only, told⟩ := settledOn_populate options root scope lists
  have settled := (only _ _ _).mpr ⟨rfl, rfl, rfl⟩
  have run := incremental_populate options root scope
  rw [run.findings_eq, effect_populate] at found
  have isTold : finding ∈ findingsOf accounts := by
    rw [← told]
    exact found
  cases root with
  | element name lineage traits children => exact settled.hasControl finding isTold
  | _ =>
    rw [(settlesAll_nil.mp settled).1] at isTold
    cases isTold

end TemplateFill.Walk
