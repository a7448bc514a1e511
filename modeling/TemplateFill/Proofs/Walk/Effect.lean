import TemplateFill.Walk.Basic

/-!
# Effects of walks

A walk carries its progress along, but of what it is given it only reads the lists: findings
and notices are added behind those that are there. A walk that goes on from another one
therefore does what it would do on its own from the lists that the other one left. The effect
of a walk is what it does on its own, notices left out.
-/

namespace TemplateFill.Walk

open Xml

/-- The progress after a walk that gained something on top of another progress. -/
def Progress.extend (before gained : Progress) : Progress :=
  ⟨gained.lists, before.findings ++ gained.findings, before.notices ++ gained.notices⟩

@[simp] theorem Progress.extend_lists (before gained : Progress) :
    (before.extend gained).lists = gained.lists := rfl

@[simp] theorem Progress.extend_start (progress : Progress) :
    progress.extend (.start progress.lists) = progress := by
  simp [extend, start]

theorem Progress.extend_assoc (first second third : Progress) :
    (first.extend second).extend third = first.extend (second.extend third) := by
  simp [extend]

/-- A walk reads nothing but the lists and only adds findings and notices. -/
def Incremental {α : Type} (walk : Walk α) : Prop :=
  ∀ progress, walk progress =
    ((walk (.start progress.lists)).1, progress.extend (walk (.start progress.lists)).2)

namespace Incremental

variable {α β : Type}

theorem pure (a : α) : Incremental (pure a : Walk α) := by
  intro progress
  change (a, progress) = (a, progress.extend (.start progress.lists))
  rw [Progress.extend_start]

theorem bind {walk : Walk α} {next : α → Walk β} (first : Incremental walk)
    (second : ∀ a, Incremental (next a)) : Incremental (walk >>= next) := by
  intro progress
  change next (walk progress).1 (walk progress).2 =
    ((next (walk (.start progress.lists)).1 (walk (.start progress.lists)).2).1,
      progress.extend (next (walk (.start progress.lists)).1 (walk (.start progress.lists)).2).2)
  rw [first progress, second _ (progress.extend _),
    second _ (walk (.start progress.lists)).2]
  simp only [Progress.extend_lists, Progress.extend_assoc]

theorem tell (notice : Notice) : Incremental (Walk.tell notice) := by
  intro progress
  change ((), _) = ((), progress.extend ⟨progress.lists, [], [notice]⟩)
  simp [Progress.extend]

theorem note (subject : Lineage) (problem : Problem) : Incremental (Walk.note subject problem) := by
  intro progress
  change ((), _) =
    ((), progress.extend ⟨progress.lists, [⟨problem, subject⟩], [.found problem]⟩)
  simp [Progress.extend]

theorem setLists (lists : ListStore) :
    Incremental (modify fun progress => { progress with lists := lists } : Walk Unit) := by
  intro progress
  change ((), _) = ((), progress.extend ⟨lists, [], []⟩)
  simp [Progress.extend]

/-- To read the lists is the only way to read the progress. -/
theorem getLists {next : ListStore → Walk α} (h : ∀ lists, Incremental (next lists)) :
    Incremental (get >>= fun progress => next progress.lists) := by
  intro progress
  exact h progress.lists progress

theorem noteOutcome (subject : Lineage) (tag : String) (outcome : Outcome) :
    Incremental (Walk.noteOutcome subject tag outcome) := by
  unfold Walk.noteOutcome
  split
  · exact .pure _
  · exact .note _ _

theorem noteThen (subject : Lineage) (problem : Problem) (a : α) :
    Incremental (do Walk.note subject problem; return a) :=
  .bind (.note _ _) fun _ => .pure _

end Incremental

/-! ### The writers of texts -/

theorem incremental_writePlainText (options : Options) (tag : String) (value : Datum)
    (node : Node) : Incremental (writePlainText options tag value node) := by
  unfold writePlainText
  refine .bind (.tell _) fun _ => ?_
  exact .bind (.noteOutcome _ _ _) fun _ => .pure _

theorem incremental_convertWith (inParagraph : Bool) (value : Datum) (lists : ListStore) :
    Incremental (convertWith inParagraph value lists) := by
  unfold convertWith
  split
  · exact .pure _
  · refine .bind (.tell _) fun _ => ?_
    have kept (lists : ListStore) (result : Except Fault (List Node)) :
        Incremental (do
          modify fun progress => { progress with lists := lists }
          return result) :=
      .bind (.setLists _) fun _ => .pure _
    split
    split <;> split
    · exact .bind (.tell _) fun _ => kept _ _
    · exact kept _ _
    · exact .bind (.tell _) fun _ => kept _ _
    · exact kept _ _

theorem incremental_convertValue (inParagraph : Bool) (value : Datum) :
    Incremental (convertValue inParagraph value) :=
  .getLists (incremental_convertWith inParagraph value)

theorem incremental_writeRichText (place : Place) (tag : String) (value : Datum) (node : Node) :
    Incremental (writeRichText place tag value node) := by
  unfold writeRichText
  split
  · exact .noteThen _ _ _
  · split
    · exact .noteThen _ _ _
    · refine .bind (incremental_convertValue _ _) fun _ => ?_
      split
      · exact .noteThen _ _ _
      · exact .pure _

/-! ### The walk

By induction on the walk itself: below a control it only goes on into children of the control
or into copies of what a section repeats.
-/

section Control

variable {options : Options} {place : Place} {scope : Datum} {node : Node} {tag : String}

theorem incremental_judge {condition : String} {below : Walk (List Node)}
    (walked : Incremental below) :
    Incremental (judge place tag condition scope node below) := by
  unfold judge
  split
  · exact .noteThen _ _ _
  · rename_i verdict _
    have judged : Incremental (
        if verdict.holds || verdict.complaint.isSome then
          return [node.withChildren (← below)]
        else do
          Walk.tell (.removed tag)
          return hide place node : Walk (List Node)) := by
      split
      · exact .bind walked fun _ => .pure _
      · exact .bind (.tell _) fun _ => .pure _
    dsimp only
    split
    · exact .bind (.note _ _) fun _ => judged
    · exact judged

theorem incremental_repeatItem {value : Datum}
    {repetition : (item : Node) → sectionItem tag node = .ok item → List Datum →
      Walk (List Node × Option Fault)}
    (repeated : ∀ item h values, Incremental (repetition item h values)) :
    Incremental (repeatItem tag value node repetition) := by
  unfold repeatItem
  split
  · split
    · exact .noteThen _ _ _
    · refine .bind (repeated _ _ _) fun _ => ?_
      dsimp only
      split
      · exact .bind (.note _ _) fun _ => .pure _
      · exact .bind (.tell _) fun _ => .pure _
  · exact .noteThen _ _ _

theorem incremental_bindValue {kind : Control.Kind}
    {repetition : (item : Node) → sectionItem tag node = .ok item → List Datum →
      Walk (List Node × Option Fault)}
    (repeated : ∀ item h values, Incremental (repetition item h values)) :
    Incremental (bindValue options place kind tag scope node repetition) := by
  unfold bindValue
  split
  · exact .noteThen _ _ _
  · exact .noteThen _ _ _
  · exact .noteThen _ _ _
  · split
    · exact .bind (incremental_writePlainText _ _ _ _) fun _ => .pure _
    · exact .bind (incremental_writeRichText _ _ _ _) fun _ => .pure _
    · exact incremental_repeatItem repeated

end Control

theorem incremental_walk (options : Options) :
    (∀ place scope nodes, Incremental (populateAll options place scope nodes)) ∧
    (∀ place scope node, Incremental (populateNode options place scope node)) ∧
    (∀ place scope node, Incremental (populateControl options place scope node)) ∧
    ∀ place tag subject item index values,
      Incremental (populateItems options place tag subject item index values) := by
  apply populateAll.mutual_induct
  case case1 =>
    intro place scope
    rw [populateAll]
    exact .pure _
  case case2 =>
    intro place scope node rest here others
    rw [populateAll]
    exact .bind here fun _ => .bind others fun _ => .pure _
  case case3 =>
    intro place scope lineage traits children control
    rw [populateNode, if_pos rfl]
    exact control
  case case4 =>
    intro place scope name lineage traits children other below
    rw [populateNode, if_neg other]
    exact .bind below fun _ => .pure _
  case case5 =>
    intro place scope node leaf
    rw [populateNode]
    · exact .pure _
    · exact leaf
  case case6 =>
    intro place scope node control obstacle unsupported
    rw [populateControl, unsupported]
    exact .noteThen _ _ _
  case case7 =>
    intro place scope node control tag supported below items
    rw [populateControl]
    split
    · exact .noteThen _ _ _
    · refine .bind (.tell _) fun _ => ?_
      split
      · split
        · exact .noteThen _ _ _
        · exact incremental_judge below
      · exact incremental_bindValue items
  case case8 =>
    intro place tag subject item index
    rw [populateItems]
    exact .pure _
  case case9 =>
    intro place tag subject item index members rest model below others
    rw [populateItems]
    exact .bind below fun _ => .bind others fun _ => .pure _
  case case10 =>
    intro place tag subject item index value rest noObject cause unshown
    rw [populateItems, unshown]
    · exact .pure _
    · exact noObject
  case case11 =>
    intro place tag subject item index value rest noObject shown isShown others
    rw [populateItems, isShown]
    · exact .bind (.note _ _) fun _ => others
    · exact noObject

theorem incremental_populateAll (options : Options) (place : Place) (scope : Datum)
    (nodes : List Node) : Incremental (populateAll options place scope nodes) :=
  (incremental_walk options).1 place scope nodes

theorem incremental_populateItems (options : Options) (place : Place) (tag : String)
    (subject : Lineage) (item : Node) (index : Nat) (values : List Datum) :
    Incremental (populateItems options place tag subject item index values) :=
  (incremental_walk options).2.2.2 place tag subject item index values

theorem incremental_populate (options : Options) (root : Node) (scope : Datum) :
    Incremental (populate options root scope) :=
  .bind (incremental_populateAll options (.ofRoot root) scope root.children) fun _ => .pure _

/-! ### Effects -/

/-- What a walk does on its own: its result, the lists after it, and the findings it adds. -/
structure Effect (α : Type) where
  value : α
  lists : ListStore
  findings : List Finding

/-- The effect of a walk from some lists. -/
def effect {α : Type} (walk : Walk α) (lists : ListStore) : Effect α :=
  ⟨(walk (.start lists)).1, (walk (.start lists)).2.lists, (walk (.start lists)).2.findings⟩

section Effect

variable {α β : Type}

/-- An incremental walk shows its effect from every progress. -/
theorem Incremental.value_eq {walk : Walk α} (h : Incremental walk) (progress : Progress) :
    (walk progress).1 = (effect walk progress.lists).value := by
  rw [h progress]
  rfl

theorem Incremental.lists_eq {walk : Walk α} (h : Incremental walk) (progress : Progress) :
    (walk progress).2.lists = (effect walk progress.lists).lists := by
  rw [h progress]
  rfl

theorem Incremental.findings_eq {walk : Walk α} (h : Incremental walk) (progress : Progress) :
    (walk progress).2.findings =
      progress.findings ++ (effect walk progress.lists).findings := by
  rw [h progress]
  rfl

@[simp] theorem effect_pure (a : α) (lists : ListStore) :
    effect (pure a : Walk α) lists = ⟨a, lists, []⟩ := rfl

@[simp] theorem effect_tell (notice : Notice) (lists : ListStore) :
    effect (tell notice) lists = ⟨(), lists, []⟩ := rfl

@[simp] theorem effect_note (subject : Lineage) (problem : Problem) (lists : ListStore) :
    effect (note subject problem) lists = ⟨(), lists, [⟨problem, subject⟩]⟩ := rfl

/-- Two walks in a row: the second one begins with the lists of the first, and its findings
come behind. -/
theorem effect_bind {walk : Walk α} {next : α → Walk β} (lists : ListStore)
    (second : ∀ a, Incremental (next a)) :
    effect (walk >>= next) lists =
      ⟨(effect (next (effect walk lists).value) (effect walk lists).lists).value,
        (effect (next (effect walk lists).value) (effect walk lists).lists).lists,
        (effect walk lists).findings ++
          (effect (next (effect walk lists).value) (effect walk lists).lists).findings⟩ := by
  change Effect.mk (next (walk (.start lists)).1 (walk (.start lists)).2).1
    (next (walk (.start lists)).1 (walk (.start lists)).2).2.lists
    (next (walk (.start lists)).1 (walk (.start lists)).2).2.findings = _
  rw [(second _).value_eq, (second _).lists_eq, (second _).findings_eq]
  rfl

@[simp] theorem effect_tell_bind (notice : Notice) (next : Unit → Walk β) (lists : ListStore) :
    (∀ a, Incremental (next a)) → effect (tell notice >>= next) lists = effect (next ()) lists := by
  intro second
  rw [effect_bind lists second]
  simp

@[simp] theorem effect_bind_pure (walk : Walk α) (f : α → β) (lists : ListStore) :
    effect (do return f (← walk)) lists =
      ⟨f (effect walk lists).value, (effect walk lists).lists, (effect walk lists).findings⟩ := by
  rw [effect_bind lists fun _ => .pure _]
  simp

end Effect

end TemplateFill.Walk
