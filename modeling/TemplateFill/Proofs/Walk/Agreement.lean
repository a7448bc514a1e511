import TemplateFill.Proofs.Walk.Account

/-!
# The only account of a walk

A walk has the effect that its only account tells about. Existence and uniqueness go together:
what is settled after a step depends on the lists that were settled on before it. Each step of
the walk is dealt with on its own, and the walk itself by its own induction.
-/

namespace TemplateFill.Walk

open Xml

/-- One account alone is settled on, with this effect, and it tells the findings. -/
def SettledOn {α β : Type} (settles : α → β → ListStore → Prop) (findings : α → List Finding)
    (result : Effect β) : Prop :=
  ∃ account, (∀ other left kept, settles other left kept ↔
    other = account ∧ left = result.value ∧ kept = result.lists) ∧
    result.findings = findings account

/-- One sequence of entries alone is what a section makes of some values. -/
abbrev SettledItems (options : Options) (place : Place) (tag : String) (subject : Lineage)
    (item : Node) (index : Nat) (values : List Datum) (lists : ListStore) : Prop :=
  SettledOn (fun entries made =>
      SettlesItems options place tag item index lists values entries made.1 made.2)
    (entryFindings subject)
    (effect (populateItems options place tag subject item index values) lists)

theorem settledOn_populateControl {options : Options} {place : Place} {scope : Datum}
    {node : Node} (isInside : place.parent.isSome)
    (below : ∀ lists, SettledOn
      (SettlesAll options (place.enter Word.control) scope lists node.children) findingsOf
      (effect (populateAll options (place.enter Word.control) scope node.children) lists))
    (items : ∀ item, sectionItem (Control.read node).label node = .ok item → ∀ values lists,
      SettledItems options place.ofItem (Control.read node).label node.lineage item 0 values lists)
    (lists : ListStore) :
    SettledOn (Settles options place scope lists node) Account.findings
      (effect (populateControl options place scope node) lists) := by
  rw [effect_populateControl]
  cases h : course options place scope lists node with
  | refused problem => exact ⟨_, fun _ _ _ => settles_iff h, rfl⟩
  | written left problem after items =>
    cases problem with
    | none => exact ⟨_, fun _ _ _ => settles_iff h, rfl⟩
    | some problem => exact ⟨_, fun _ _ _ => settles_iff h, rfl⟩
  | hidden => exact ⟨_, fun _ _ _ => (settles_iff h).trans (and_iff_right isInside), rfl⟩
  | shown complaint =>
    obtain ⟨accounts, only, told⟩ := below lists
    refine ⟨.shown node.lineage complaint accounts, fun other left kept => ?_, ?_⟩
    · simp only [settles_iff h, Course.Settled, only, follow]
      constructor
      · rintro ⟨_, _, ⟨rfl, rfl, rfl⟩, rfl, rfl⟩
        exact ⟨rfl, rfl, rfl⟩
      · rintro ⟨rfl, rfl, rfl⟩
        exact ⟨_, _, ⟨rfl, rfl, rfl⟩, rfl, rfl⟩
    · simp only [follow, Account.findings, told]
  | repeated item values =>
    obtain ⟨entries, only, told⟩ := items item (course_holds h) values lists
    simp only [follow]
    generalize effect (populateItems options place.ofItem (Control.read node).label node.lineage
      item 0 values) lists = result at only told ⊢
    obtain ⟨⟨copies, fault⟩, after, findings⟩ := result
    refine ⟨.repeated node.lineage entries
      (fault.map fun cause => .fault cause (Control.read node).label), fun other left kept => ?_,
      ?_⟩
    · rw [settles_iff h]
      constructor
      · rintro ⟨others, copies', fault', settled, rfl, rfl⟩
        obtain ⟨rfl, same, rfl⟩ := (only others (copies', fault') kept).mp settled
        cases same
        exact ⟨rfl, rfl, rfl⟩
      · rintro ⟨rfl, rfl, rfl⟩
        exact ⟨entries, copies, fault, (only entries (copies, fault) _).mpr ⟨rfl, rfl, rfl⟩, rfl,
          rfl⟩
    · rw [Account.findings, ← told, Option.toList_map, List.map_map]
      rfl

section Steps

variable {options : Options} {place : Place} {scope : Datum} {lists : ListStore}

theorem settledOn_populateAll_nil :
    SettledOn (SettlesAll options place scope lists []) findingsOf
      (effect (populateAll options place scope []) lists) := by
  rw [effect_populateAll_nil]
  exact ⟨[], fun _ _ _ => settlesAll_nil, rfl⟩

theorem settledOn_populateAll_cons {node : Node} {rest : List Node}
    (here : ∀ lists, SettledOn (SettlesAll options place scope lists [node]) findingsOf
      (effect (populateNode options place scope node) lists))
    (others : ∀ lists, SettledOn (SettlesAll options place scope lists rest) findingsOf
      (effect (populateAll options place scope rest) lists)) :
    SettledOn (SettlesAll options place scope lists (node :: rest)) findingsOf
      (effect (populateAll options place scope (node :: rest)) lists) := by
  rw [effect_populateAll_cons]
  obtain ⟨first, onlyFirst, toldFirst⟩ := here lists
  obtain ⟨further, onlyFurther, toldFurther⟩ :=
    others (effect (populateNode options place scope node) lists).lists
  refine ⟨first ++ further, fun accounts left kept => ?_, ?_⟩
  · rw [settlesAll_cons]
    constructor
    · rintro ⟨_, _, _, _, _, settled, onward, rfl, rfl⟩
      obtain ⟨rfl, rfl, rfl⟩ := (onlyFirst _ _ _).mp settled
      obtain ⟨rfl, rfl, rfl⟩ := (onlyFurther _ _ _).mp onward
      exact ⟨rfl, rfl, rfl⟩
    · rintro ⟨rfl, rfl, rfl⟩
      exact ⟨_, _, _, _, _, (onlyFirst _ _ _).mpr ⟨rfl, rfl, rfl⟩,
        (onlyFurther _ _ _).mpr ⟨rfl, rfl, rfl⟩, rfl, rfl⟩
  · rw [findingsOf_append, ← toldFirst, ← toldFurther]

theorem settledOn_populateNode_control {node : Node} (isControl : Control.isControl node)
    (control : SettledOn (Settles options place scope lists node) Account.findings
      (effect (populateControl options place scope node) lists)) :
    SettledOn (SettlesAll options place scope lists [node]) findingsOf
      (effect (populateNode options place scope node) lists) := by
  rw [effect_populateNode_control isControl]
  obtain ⟨account, only, told⟩ := control
  refine ⟨[account], fun accounts left kept => ?_, ?_⟩
  · rw [settlesAll_control isControl]
    constructor
    · rintro ⟨_, _, _, _, _, settled, onward, rfl, rfl⟩
      obtain ⟨rfl, rfl, rfl⟩ := (only _ _ _).mp settled
      obtain ⟨rfl, rfl, rfl⟩ := settlesAll_nil.mp onward
      exact ⟨rfl, List.append_nil _, rfl⟩
    · rintro ⟨rfl, rfl, rfl⟩
      exact ⟨_, _, _, _, _, (only _ _ _).mpr ⟨rfl, rfl, rfl⟩, .nil, rfl,
        (List.append_nil _).symm⟩
  · rw [told, findingsOf, findingsOf, List.append_nil]

theorem settledOn_populateNode_element {name : Name} (other : name ≠ Word.control)
    {lineage : Lineage} {traits : Traits} {children : List Node}
    (below : SettledOn (SettlesAll options (place.enter name) scope lists children) findingsOf
      (effect (populateAll options (place.enter name) scope children) lists)) :
    SettledOn (SettlesAll options place scope lists [.element name lineage traits children])
      findingsOf
      (effect (populateNode options place scope (.element name lineage traits children))
        lists) := by
  rw [effect_populateNode_element other]
  obtain ⟨accounts, only, told⟩ := below
  refine ⟨accounts, fun others left kept => ?_, told⟩
  rw [settlesAll_element other]
  constructor
  · rintro ⟨_, _, _, _, _, settled, onward, rfl, rfl⟩
    obtain ⟨rfl, rfl, rfl⟩ := (only _ _ _).mp settled
    obtain ⟨rfl, rfl, rfl⟩ := settlesAll_nil.mp onward
    exact ⟨List.append_nil _, rfl, rfl⟩
  · rintro ⟨rfl, rfl, rfl⟩
    exact ⟨_, _, _, _, _, (only _ _ _).mpr ⟨rfl, rfl, rfl⟩, .nil, (List.append_nil _).symm, rfl⟩

theorem settledOn_populateNode_leaf {node : Node} (leaf : node.name? = none) :
    SettledOn (SettlesAll options place scope lists [node]) findingsOf
      (effect (populateNode options place scope node) lists) := by
  rw [effect_populateNode_leaf leaf]
  refine ⟨[], fun others left kept => ?_, rfl⟩
  rw [settlesAll_leaf leaf]
  constructor
  · rintro ⟨_, onward, rfl⟩
    obtain ⟨rfl, rfl, rfl⟩ := settlesAll_nil.mp onward
    exact ⟨rfl, rfl, rfl⟩
  · rintro ⟨rfl, rfl, rfl⟩
    exact ⟨[], .nil, rfl⟩

variable {tag : String} {subject : Lineage} {item : Node} {index : Nat} {rest : List Datum}

theorem settledItems_nil : SettledItems options place tag subject item index [] lists := by
  rw [SettledItems, effect_populateItems_nil]
  refine ⟨[], fun others made kept => ?_, rfl⟩
  simp only [settlesItems_nil, Prod.ext_iff, and_assoc]

theorem settledItems_object {members : List (Atom × Datum)}
    (below : SettledOn
      (SettlesAll options place (.object members) lists (item.copy index).children) findingsOf
      (effect (populateAll options place (.object members) (item.copy index).children) lists))
    (others : ∀ lists, SettledItems options place tag subject item (index + 1) rest lists) :
    SettledItems options place tag subject item index (.object members :: rest) lists := by
  rw [SettledItems, effect_populateItems_object]
  dsimp only
  obtain ⟨accounts, only, told⟩ := below
  generalize effect (populateAll options place (.object members) (item.copy index).children)
    lists = here at only told ⊢
  obtain ⟨further, onlyFurther, toldFurther⟩ := others here.lists
  generalize effect (populateItems options place tag subject item (index + 1) rest) here.lists =
    result at onlyFurther toldFurther ⊢
  obtain ⟨⟨others, rest⟩, after, findings⟩ := result
  refine ⟨.copied accounts :: further, fun entries made kept => ?_, ?_⟩
  · obtain ⟨copies, fault⟩ := made
    refine settlesItems_object.trans ?_
    constructor
    · rintro ⟨_, _, _, _, copied, settled, onward, rfl, rfl⟩
      obtain ⟨rfl, rfl, rfl⟩ := (only _ _ _).mp settled
      obtain ⟨rfl, same, rfl⟩ := (onlyFurther _ (copied, fault) _).mp onward
      cases same
      exact ⟨rfl, rfl, rfl⟩
    · rintro ⟨rfl, same, rfl⟩
      cases same
      exact ⟨_, _, _, _, _, (only _ _ _).mpr ⟨rfl, rfl, rfl⟩,
        (onlyFurther _ (others, rest) _).mpr ⟨rfl, rfl, rfl⟩, rfl, rfl⟩
  · rw [entryFindings, ← told, ← toldFurther]

theorem settledItems_unshown {value : Datum} {cause : Fault}
    (noObject : ∀ members, value ≠ .object members)
    (unshown : Scope.stringify value = .error cause) :
    SettledItems options place tag subject item index (value :: rest) lists := by
  rw [SettledItems, effect_populateItems_unshown noObject unshown]
  refine ⟨[], fun entries made kept => ?_, rfl⟩
  simp only [settlesItems_unshown noObject unshown, Prod.ext_iff, and_assoc]

theorem settledItems_other {value : Datum} {shown : String}
    (noObject : ∀ members, value ≠ .object members)
    (isShown : Scope.stringify value = .ok shown)
    (others : SettledItems options place tag subject item (index + 1) rest lists) :
    SettledItems options place tag subject item index (value :: rest) lists := by
  rw [SettledItems, effect_populateItems_other noObject isShown]
  obtain ⟨further, only, told⟩ := others
  refine ⟨.rejected (.notObject shown tag) :: further, fun entries made kept => ?_, ?_⟩
  · refine (settlesItems_other noObject isShown).trans ?_
    constructor
    · rintro ⟨_, onward, rfl⟩
      obtain ⟨rfl, rfl, rfl⟩ := (only _ _ _).mp onward
      exact ⟨rfl, rfl, rfl⟩
    · rintro ⟨rfl, rfl, rfl⟩
      exact ⟨_, (only _ _ _).mpr ⟨rfl, rfl, rfl⟩, rfl⟩
  · rw [entryFindings, ← told]

end Steps

theorem settledOn_walk (options : Options) :
    (∀ place scope nodes, place.parent.isSome → ∀ lists,
      SettledOn (SettlesAll options place scope lists nodes) findingsOf
        (effect (populateAll options place scope nodes) lists)) ∧
    (∀ place scope node, place.parent.isSome → ∀ lists,
      SettledOn (SettlesAll options place scope lists [node]) findingsOf
        (effect (populateNode options place scope node) lists)) ∧
    (∀ place scope node, place.parent.isSome → ∀ lists,
      SettledOn (Settles options place scope lists node) Account.findings
        (effect (populateControl options place scope node) lists)) ∧
    ∀ place tag subject item index values, place.parent.isSome → ∀ lists,
      SettledItems options place tag subject item index values lists := by
  apply populateAll.mutual_induct
  case case1 =>
    intro place scope isInside lists
    exact settledOn_populateAll_nil
  case case2 =>
    intro place scope node rest here others isInside lists
    exact settledOn_populateAll_cons (here isInside) (others isInside)
  case case3 =>
    intro place scope lineage traits children control isInside lists
    exact settledOn_populateNode_control rfl (control isInside lists)
  case case4 =>
    intro place scope name lineage traits children other below isInside lists
    exact settledOn_populateNode_element other (below rfl lists)
  case case5 =>
    intro place scope node isLeaf isInside lists
    have leaf : node.name? = none := by
      cases node with
      | element name lineage traits children => exact (isLeaf _ _ _ _ rfl).elim
      | aside content tail => rfl
    exact settledOn_populateNode_leaf leaf
  case case6 =>
    intro place scope node control obstacle unsupported isInside lists
    have refused : course options place scope lists node = .refused (.unsupported obstacle) := by
      rw [course, unsupported]
    rw [effect_populateControl, refused]
    exact ⟨_, fun _ _ _ => settles_iff refused, rfl⟩
  case case7 =>
    intro place scope node control tag supported below items isInside lists
    exact settledOn_populateControl isInside (below rfl)
      (fun item isItem values => items item isItem values rfl) lists
  case case8 =>
    intro place tag subject item index isInside lists
    exact settledItems_nil
  case case9 =>
    intro place tag subject item index members rest
    dsimp only
    intro below others isInside lists
    exact settledItems_object (below isInside lists) (others isInside)
  case case10 =>
    intro place tag subject item index value rest noObject cause unshown isInside lists
    exact settledItems_unshown noObject unshown
  case case11 =>
    intro place tag subject item index value rest noObject shown isShown others isInside lists
    exact settledItems_other noObject isShown (others isInside lists)

end TemplateFill.Walk
