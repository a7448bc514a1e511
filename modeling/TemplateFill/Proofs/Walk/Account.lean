import TemplateFill.Proofs.Walk.Inversion

/-!
# The account of a walk

An account tells, of every control that a walk reached, how it was settled: it failed with one
problem, was filled, was removed, was shown, or was repeated. Accounts form a tree, for only
shown and repeated controls lead further down. `Settles` derives accounts from the courses of
the controls, and what is left of them, without running a walk.
-/

namespace TemplateFill.Walk

open Xml

mutual

/-- How a control was settled, and the controls reached below it. -/
inductive Account where
  /-- The control failed, for one reason. -/
  | failed (subject : Lineage) (problem : Problem)
  /-- The control took its value, with some list paragraphs. -/
  | filled (subject : Lineage) (items : List ListItem)
  /-- The condition of the control does not hold. -/
  | removed (subject : Lineage)
  /-- The condition of the control holds, or there is something to complain about. -/
  | shown (subject : Lineage) (complaint : Option Problem) (below : List Account)
  /-- The section went through values, all of them or up to a fault. -/
  | repeated (subject : Lineage) (entries : List Entry) (fault : Option Problem)

/-- What a section made of one of its values. -/
inductive Entry where
  /-- The value is an object and has its own copy of the item. -/
  | copied (below : List Account)
  /-- The value is no object. -/
  | rejected (problem : Problem)

end

namespace Account

def subject : Account → Lineage
  | .failed subject _ | .filled subject _ | .removed subject | .shown subject _ _
  | .repeated subject _ _ => subject

end Account

/-- The problem of a value that is no object. -/
def Entry.problem? : Entry → Option Problem
  | .copied _ => none
  | .rejected problem => some problem

/-- The problems that a control has itself. -/
def Account.problems : Account → List Problem
  | .failed _ problem => [problem]
  | .filled _ _ | .removed _ => []
  | .shown _ complaint _ => complaint.toList
  | .repeated _ entries fault => entries.filterMap Entry.problem? ++ fault.toList

def Account.own (account : Account) : List Finding :=
  account.problems.map fun problem => ⟨problem, account.subject⟩

mutual

/-- The findings about a control and below it, in the order in which they are noted. -/
def Account.findings : Account → List Finding
  | .failed subject problem => [⟨problem, subject⟩]
  | .filled _ _ | .removed _ => []
  | .shown subject complaint below =>
    (complaint.toList.map fun problem => ⟨problem, subject⟩) ++ findingsOf below
  | .repeated subject entries fault =>
    entryFindings subject entries ++ fault.toList.map fun problem => ⟨problem, subject⟩

def findingsOf : List Account → List Finding
  | [] => []
  | account :: rest => account.findings ++ findingsOf rest

/-- The findings about the values of a section and below their copies. -/
def entryFindings (subject : Lineage) : List Entry → List Finding
  | [] => []
  | .copied below :: rest => findingsOf below ++ entryFindings subject rest
  | .rejected problem :: rest => ⟨problem, subject⟩ :: entryFindings subject rest

end

mutual

/-- All accounts of the controls reached at and below a control. -/
def Account.reached : Account → List Account
  | .shown subject complaint below => .shown subject complaint below :: reachedOf below
  | .repeated subject entries fault => .repeated subject entries fault :: entriesReached entries
  | account => [account]

/-- All accounts of the controls reached at and below several controls. -/
def reachedOf : List Account → List Account
  | [] => []
  | account :: rest => account.reached ++ reachedOf rest

/-- All accounts of the controls reached in the copies that a section made. -/
def entriesReached : List Entry → List Account
  | [] => []
  | .copied below :: rest => reachedOf below ++ entriesReached rest
  | .rejected _ :: rest => entriesReached rest

end

theorem findingsOf_append (first second : List Account) :
    findingsOf (first ++ second) = findingsOf first ++ findingsOf second := by
  induction first with
  | nil => rfl
  | cons account rest ih => simp [findingsOf, ih]

theorem reachedOf_append (first second : List Account) :
    reachedOf (first ++ second) = reachedOf first ++ reachedOf second := by
  induction first with
  | nil => rfl
  | cons account rest ih => simp [reachedOf, ih]

mutual

/-- A control is settled with an account; it leaves some nodes and some lists. -/
inductive Settles (options : Options) : Place → Datum → ListStore → Node → Account →
    List Node → ListStore → Prop
  | refused {place scope lists node problem}
      (h : course options place scope lists node = .refused problem) :
      Settles options place scope lists node (.failed node.lineage problem) [node] lists
  | broken {place scope lists node left problem kept items}
      (h : course options place scope lists node = .written left (some problem) kept items) :
      Settles options place scope lists node (.failed node.lineage problem) [left] kept
  | filled {place scope lists node left kept items}
      (h : course options place scope lists node = .written left none kept items) :
      Settles options place scope lists node (.filled node.lineage items) [left] kept
  | removed {place scope lists node parent} (h : course options place scope lists node = .hidden)
      (isParent : place.parent = some parent) :
      Settles options place scope lists node (.removed node.lineage)
        (if parent = Word.cell then [Word.makeParagraph []] else []) lists
  | shown {place scope lists node complaint accounts left kept}
      (h : course options place scope lists node = .shown complaint)
      (below : SettlesAll options (place.enter Word.control) scope lists node.children accounts
        left kept) :
      Settles options place scope lists node (.shown node.lineage complaint accounts)
        [node.withChildren left] kept
  | repeated {place scope lists node item values entries copies fault kept}
      (h : course options place scope lists node = .repeated item values)
      (below : SettlesItems options place.ofItem (Control.read node).label item 0 lists values
        entries copies fault kept) :
      Settles options place scope lists node
        (.repeated node.lineage entries
          (fault.map fun cause => .fault cause (Control.read node).label))
        [withItems copies node] kept

/-- The controls among some nodes, or below them but in no other control, are settled one after
the other. -/
inductive SettlesAll (options : Options) : Place → Datum → ListStore → List Node →
    List Account → List Node → ListStore → Prop
  | nil {place scope lists} : SettlesAll options place scope lists [] [] [] lists
  | control {place scope lists node rest account accounts here others middle kept}
      (isControl : Control.isControl node)
      (first : Settles options place scope lists node account here middle)
      (onward : SettlesAll options place scope middle rest accounts others kept) :
      SettlesAll options place scope lists (node :: rest) (account :: accounts)
        (here ++ others) kept
  | element {place scope lists name lineage traits children rest below accounts inside
      others middle kept} (other : name ≠ Word.control)
      (first : SettlesAll options (place.enter name) scope lists children below inside middle)
      (onward : SettlesAll options place scope middle rest accounts others kept) :
      SettlesAll options place scope lists (.element name lineage traits children :: rest)
        (below ++ accounts) (.element name lineage traits inside :: others) kept
  | leaf {place scope lists node rest accounts others kept} (leaf : node.name? = none)
      (onward : SettlesAll options place scope lists rest accounts others kept) :
      SettlesAll options place scope lists (node :: rest) accounts (node :: others) kept

/-- The item of a section is copied for the objects among some values, as far as all other
values can be shown. -/
inductive SettlesItems (options : Options) : Place → String → Node → Nat → ListStore →
    List Datum → List Entry → List Node → Option Fault → ListStore → Prop
  | done {place tag item index lists} :
      SettlesItems options place tag item index lists [] [] [] none lists
  | copied {place tag item index lists members rest accounts left middle entries copies fault
      kept}
      (first : SettlesAll options place (.object members) lists (item.copy index).children
        accounts left middle)
      (onward : SettlesItems options place tag item (index + 1) middle rest entries copies fault
        kept) :
      SettlesItems options place tag item index lists (.object members :: rest)
        (.copied accounts :: entries) ((item.copy index).withChildren left :: copies) fault kept
  | rejected {place tag item index lists value shown rest entries copies fault kept}
      (noObject : ∀ members, value ≠ .object members)
      (isShown : Scope.stringify value = .ok shown)
      (onward : SettlesItems options place tag item (index + 1) lists rest entries copies fault
        kept) :
      SettlesItems options place tag item index lists (value :: rest)
        (.rejected (.notObject shown tag) :: entries) copies fault kept
  | stopped {place tag item index lists value cause rest}
      (noObject : ∀ members, value ≠ .object members)
      (unshown : Scope.stringify value = .error cause) :
      SettlesItems options place tag item index lists (value :: rest) [] [] (some cause) lists

end

/-- Induction along siblings and down into elements that are no control. -/
theorem SettlesAll.along {options : Options}
    {motive : ∀ {place scope lists nodes accounts left kept},
      SettlesAll options place scope lists nodes accounts left kept → Prop}
    (nil : ∀ {place scope lists},
      motive (.nil : SettlesAll options place scope lists [] [] [] lists))
    (control : ∀ {place scope lists node rest account accounts here others middle kept}
      (isControl : Control.isControl node)
      (first : Settles options place scope lists node account here middle)
      (onward : SettlesAll options place scope middle rest accounts others kept),
      motive onward → motive (.control isControl first onward))
    (element : ∀ {place scope lists name lineage traits children rest below accounts inside
        others middle kept} (other : name ≠ Word.control)
      (first : SettlesAll options (place.enter name) scope lists children below inside middle)
      (onward : SettlesAll options place scope middle rest accounts others kept),
      motive first → motive onward →
      motive (.element other first onward :
        SettlesAll options place scope lists (.element name lineage traits children :: rest)
          (below ++ accounts) (.element name lineage traits inside :: others) kept))
    (leaf : ∀ {place scope lists} {node : Node} {rest accounts others kept}
      (isLeaf : node.name? = none)
      (onward : SettlesAll options place scope lists rest accounts others kept),
      motive onward → motive (.leaf isLeaf onward))
    {place : Place} {scope : Datum} {lists : ListStore} {nodes : List Node}
    {accounts : List Account} {left : List Node} {kept : ListStore} :
    (settled : SettlesAll options place scope lists nodes accounts left kept) → motive settled
  | .nil => nil
  | .control isControl first onward =>
    control isControl first onward (onward.along nil control element leaf)
  | .element other first onward =>
    element other first onward (first.along nil control element leaf)
      (onward.along nil control element leaf)
  | .leaf isLeaf onward => leaf isLeaf onward (onward.along nil control element leaf)

/-! ### Inversion

What becomes of a control decides on the only rule that can settle it.
-/

section Inversion

variable {options : Options} {place : Place} {scope : Datum} {lists kept : ListStore}
  {node : Node} {account : Account} {left : List Node}

/-- The rule that settles a control on a course, read backwards. -/
def Course.Settled (options : Options) (place : Place) (scope : Datum) (lists : ListStore)
    (node : Node) (account : Account) (left : List Node) (kept : ListStore) : Course → Prop
  | .refused problem => account = .failed node.lineage problem ∧ left = [node] ∧ kept = lists
  | .written result (some problem) after _ =>
    account = .failed node.lineage problem ∧ left = [result] ∧ kept = after
  | .written result none after items =>
    account = .filled node.lineage items ∧ left = [result] ∧ kept = after
  | .hidden => place.parent.isSome ∧ account = .removed node.lineage ∧ left = hide place node ∧
    kept = lists
  | .shown complaint => ∃ accounts inside,
    SettlesAll options (place.enter Word.control) scope lists node.children accounts inside kept ∧
    account = .shown node.lineage complaint accounts ∧ left = [node.withChildren inside]
  | .repeated item values => ∃ entries copies fault,
    SettlesItems options place.ofItem (Control.read node).label item 0 lists values entries
      copies fault kept ∧
    account = .repeated node.lineage entries
      (fault.map fun cause => .fault cause (Control.read node).label) ∧
    left = [withItems copies node]

theorem settles_iff {taken : Course} (h : course options place scope lists node = taken) :
    Settles options place scope lists node account left kept ↔
      taken.Settled options place scope lists node account left kept := by
  subst h
  constructor
  · intro settled
    cases settled with
    | refused h => rw [h]; exact ⟨rfl, rfl, rfl⟩
    | broken h => rw [h]; exact ⟨rfl, rfl, rfl⟩
    | filled h => rw [h]; exact ⟨rfl, rfl, rfl⟩
    | removed h isParent =>
      rw [h]
      exact ⟨by rw [isParent]; rfl, rfl, by rw [hide, isParent], rfl⟩
    | shown h below => rw [h]; exact ⟨_, _, below, rfl, rfl⟩
    | repeated h below => rw [h]; exact ⟨_, _, _, below, rfl, rfl⟩
  · intro settled
    cases h : course options place scope lists node with
    | refused problem =>
      rw [h] at settled
      obtain ⟨rfl, rfl, rfl⟩ := settled
      exact .refused h
    | written result problem after items =>
      rw [h] at settled
      cases problem with
      | some problem =>
        obtain ⟨rfl, rfl, rfl⟩ := settled
        exact .broken h
      | none =>
        obtain ⟨rfl, rfl, rfl⟩ := settled
        exact .filled h
    | hidden =>
      rw [h] at settled
      obtain ⟨isInside, rfl, rfl, rfl⟩ := settled
      obtain ⟨parent, isParent⟩ := Option.isSome_iff_exists.mp isInside
      rw [hide, isParent]
      exact .removed h isParent
    | shown complaint =>
      rw [h] at settled
      obtain ⟨accounts, inside, below, rfl, rfl⟩ := settled
      exact .shown h below
    | repeated item values =>
      rw [h] at settled
      obtain ⟨entries, copies, fault, below, rfl, rfl⟩ := settled
      exact .repeated h below

theorem settlesAll_nil {accounts : List Account} :
    SettlesAll options place scope lists [] accounts left kept ↔
      accounts = [] ∧ left = [] ∧ kept = lists := by
  constructor
  · intro settled
    cases settled
    exact ⟨rfl, rfl, rfl⟩
  · rintro ⟨rfl, rfl, rfl⟩
    exact .nil

theorem settlesAll_control {rest : List Node} {accounts : List Account}
    (isControl : Control.isControl node) :
    SettlesAll options place scope lists (node :: rest) accounts left kept ↔
      ∃ account here middle further others,
        Settles options place scope lists node account here middle ∧
        SettlesAll options place scope middle rest further others kept ∧
        accounts = account :: further ∧ left = here ++ others := by
  constructor
  · intro settled
    cases settled with
    | control _ first onward => exact ⟨_, _, _, _, _, first, onward, rfl, rfl⟩
    | element other => exact absurd (Option.some.inj (Node.isNamed_iff.mp isControl)) other
    | leaf leaf =>
      rw [Node.isNamed_iff.mp isControl] at leaf
      cases leaf
  · rintro ⟨account, here, middle, further, others, first, onward, rfl, rfl⟩
    exact .control isControl first onward

theorem settlesAll_element {name : Name} (other : name ≠ Word.control) {lineage : Lineage}
    {traits : Traits} {children rest : List Node} {accounts : List Account} :
    SettlesAll options place scope lists (.element name lineage traits children :: rest)
        accounts left kept ↔
      ∃ below inside middle further others,
        SettlesAll options (place.enter name) scope lists children below inside middle ∧
        SettlesAll options place scope middle rest further others kept ∧
        accounts = below ++ further ∧
        left = .element name lineage traits inside :: others := by
  constructor
  · intro settled
    cases settled with
    | control isControl =>
      exact absurd (Option.some.inj (Node.isNamed_iff.mp isControl)) other
    | element _ first onward => exact ⟨_, _, _, _, _, first, onward, rfl, rfl⟩
    | leaf leaf => simp [Node.name?] at leaf
  · rintro ⟨below, inside, middle, further, others, first, onward, rfl, rfl⟩
    exact .element other first onward

theorem settlesAll_leaf (leaf : node.name? = none) {rest : List Node}
    {accounts : List Account} :
    SettlesAll options place scope lists (node :: rest) accounts left kept ↔
      ∃ others, SettlesAll options place scope lists rest accounts others kept ∧
        left = node :: others := by
  constructor
  · intro settled
    cases settled with
    | control isControl =>
      rw [Node.isNamed_iff.mp isControl] at leaf
      cases leaf
    | element => simp [Node.name?] at leaf
    | leaf _ onward => exact ⟨_, onward, rfl⟩
  · rintro ⟨others, onward, rfl⟩
    exact .leaf leaf onward

/-- A node is settled on its own, and then the nodes behind it. -/
theorem settlesAll_cons {rest : List Node} {accounts : List Account} :
    SettlesAll options place scope lists (node :: rest) accounts left kept ↔
      ∃ below here middle further others,
        SettlesAll options place scope lists [node] below here middle ∧
        SettlesAll options place scope middle rest further others kept ∧
        accounts = below ++ further ∧ left = here ++ others := by
  constructor
  · intro settled
    cases settled with
    | control isControl first onward =>
      exact ⟨_, _, _, _, _, .control isControl first .nil, onward, rfl, by simp⟩
    | element other first onward =>
      exact ⟨_, _, _, _, _, .element other first .nil, onward, by simp, rfl⟩
    | leaf leaf onward => exact ⟨_, _, _, _, _, .leaf leaf .nil, onward, rfl, rfl⟩
  · rintro ⟨below, here, middle, further, others, first, onward, rfl, rfl⟩
    cases first with
    | control isControl first last =>
      cases last
      simpa using SettlesAll.control isControl first onward
    | element other first last =>
      cases last
      simpa using SettlesAll.element other first onward
    | leaf leaf last =>
      cases last
      exact .leaf leaf onward

variable {tag : String} {item : Node} {index : Nat} {values rest : List Datum}
  {entries : List Entry} {copies : List Node} {fault : Option Fault}

theorem settlesItems_nil :
    SettlesItems options place tag item index lists [] entries copies fault kept ↔
      entries = [] ∧ copies = [] ∧ fault = none ∧ kept = lists := by
  constructor
  · intro settled
    cases settled
    exact ⟨rfl, rfl, rfl, rfl⟩
  · rintro ⟨rfl, rfl, rfl, rfl⟩
    exact .done

theorem settlesItems_object {members : List (Atom × Datum)} :
    SettlesItems options place tag item index lists (.object members :: rest) entries copies fault
        kept ↔
      ∃ accounts inside middle further others,
        SettlesAll options place (.object members) lists (item.copy index).children accounts
          inside middle ∧
        SettlesItems options place tag item (index + 1) middle rest further others fault kept ∧
        entries = .copied accounts :: further ∧
        copies = (item.copy index).withChildren inside :: others := by
  constructor
  · intro settled
    cases settled with
    | copied first onward => exact ⟨_, _, _, _, _, first, onward, rfl, rfl⟩
    | rejected noObject => exact absurd rfl (noObject members)
    | stopped noObject => exact absurd rfl (noObject members)
  · rintro ⟨accounts, inside, middle, further, others, first, onward, rfl, rfl⟩
    exact .copied first onward

theorem settlesItems_other {value : Datum} {shown : String}
    (noObject : ∀ members, value ≠ .object members)
    (isShown : Scope.stringify value = .ok shown) :
    SettlesItems options place tag item index lists (value :: rest) entries copies fault kept ↔
      ∃ further,
        SettlesItems options place tag item (index + 1) lists rest further copies fault kept ∧
        entries = .rejected (.notObject shown tag) :: further := by
  constructor
  · intro settled
    cases settled with
    | copied => exact absurd rfl (noObject _)
    | rejected _ isShown' onward =>
      obtain rfl : shown = _ := Except.ok.inj (isShown.symm.trans isShown')
      exact ⟨_, onward, rfl⟩
    | stopped _ unshown => simp [isShown] at unshown
  · rintro ⟨further, onward, rfl⟩
    exact .rejected noObject isShown onward

theorem settlesItems_unshown {value : Datum} {cause : Fault}
    (noObject : ∀ members, value ≠ .object members)
    (unshown : Scope.stringify value = .error cause) :
    SettlesItems options place tag item index lists (value :: rest) entries copies fault kept ↔
      entries = [] ∧ copies = [] ∧ fault = some cause ∧ kept = lists := by
  constructor
  · intro settled
    cases settled with
    | copied => exact absurd rfl (noObject _)
    | rejected _ isShown => simp [unshown] at isShown
    | stopped _ unshown' =>
      obtain rfl : cause = _ := Except.error.inj (unshown.symm.trans unshown')
      exact ⟨rfl, rfl, rfl, rfl⟩
  · rintro ⟨rfl, rfl, rfl, rfl⟩
    exact .stopped noObject unshown

end Inversion

end TemplateFill.Walk
