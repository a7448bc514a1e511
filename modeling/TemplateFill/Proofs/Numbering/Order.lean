import TemplateFill.Proofs.Numbering.Room

/-!
# The order of definitions

A merge takes nothing away and puts each of its two blocks in one piece between the old nodes, so
that abstract lists stay before all instances whatever else there is. What has to stand behind the
instances stays there only if the block has an old definition to go by: where there is none, it
is put behind everything.
-/

namespace TemplateFill.Numbering

open Xml

/-! ### Ordered nodes -/

/-- The place of an element among some names. An element of another name has none. -/
def place? (names : List Name) (node : Node) : Option Nat := node.name?.bind (names.idxOf? ·)

/-- The first node does not belong behind the second one. -/
def Precedes (names : List Name) (first second : Node) : Prop :=
  ∀ i ∈ place? names first, ∀ j ∈ place? names second, i ≤ j

instance (names : List Name) : DecidableRel (Precedes names) := fun first second =>
  inferInstanceAs (Decidable (∀ i ∈ place? names first, ∀ j ∈ place? names second, i ≤ j))

/-- Elements of the given names stand in the order of these names. Whatever else there is may
stand anywhere. -/
def IsOrdered (names : List Name) (nodes : List Node) : Prop := nodes.Pairwise (Precedes names)

instance (names : List Name) : DecidablePred (IsOrdered names) := fun nodes =>
  inferInstanceAs (Decidable (nodes.Pairwise (Precedes names)))

/-- No element stands behind a place. -/
def EndsAt (names : List Name) (place : Nat) (nodes : List Node) : Prop :=
  ∀ node ∈ nodes, ∀ i ∈ place? names node, i ≤ place

variable {names : List Name} {name : Name} {node : Node} {place : Nat}
  {block before after nodes : List Node}

theorem place?_of_isNamed (names : List Name) (named : node.isNamed name) :
    place? names node = names.idxOf? name := by
  rw [place?, Node.isNamed_iff.mp named, Option.bind_some]

theorem isNamed_of_place? (isPlace : names.idxOf? name = some place)
    (stands : place? names node = some place) : node.isNamed name := by
  obtain ⟨own, isOwn, stands⟩ := Option.bind_eq_some_iff.mp stands
  obtain ⟨_, isName, -⟩ := List.idxOf?_eq_some_iff.mp isPlace
  obtain ⟨_, isSame, -⟩ := List.idxOf?_eq_some_iff.mp stands
  rw [Node.isNamed_iff, isOwn, ← isSame, isName]

theorem endsAt_of_length (short : names.length ≤ place + 1) : EndsAt names place nodes := by
  intro node member i stands
  obtain ⟨own, -, stands⟩ := Option.bind_eq_some_iff.mp stands
  obtain ⟨inside, -⟩ := List.idxOf?_eq_some_iff.mp stands
  omega

/-- Elements end one place earlier if none of them stands at the last place. -/
theorem endsAt_iff (isNext : names.idxOf? name = some (place + 1)) :
    EndsAt names place nodes ↔
      EndsAt names (place + 1) nodes ∧ ∀ node ∈ nodes, ¬ node.isNamed name := by
  constructor
  · refine fun ends => ⟨fun node member i stands => (ends node member i stands).step,
      fun node member named => ?_⟩
    have atNext : place? names node = some (place + 1) := by
      rw [place?_of_isNamed names named, isNext]
    exact absurd (ends node member _ atNext) (by omega)
  · rintro ⟨ends, none⟩ node member i stands
    have notNext : i ≠ place + 1 := by
      rintro rfl
      exact none node member (isNamed_of_place? isNext stands)
    have := ends node member i stands
    omega

theorem isOrdered_between :
    IsOrdered names (before ++ (block ++ after)) ↔
      IsOrdered names (before ++ after) ∧ IsOrdered names block ∧
      (∀ a ∈ before, ∀ b ∈ block, Precedes names a b) ∧
      ∀ b ∈ block, ∀ c ∈ after, Precedes names b c := by
  simp only [IsOrdered, List.pairwise_append, List.mem_append]
  grind

/-- Elements of one name are in order. -/
theorem isOrdered_of_named (named : ∀ b ∈ block, b.isNamed name) : IsOrdered names block := by
  refine List.pairwise_of_forall_mem_list fun b inBlock c alsoInBlock i isFirst j isSecond => ?_
  rw [place?_of_isNamed names (named b inBlock)] at isFirst
  rw [place?_of_isNamed names (named c alsoInBlock)] at isSecond
  exact (Option.mem_unique isFirst isSecond).le

/-- Behind an element of their name elements do no harm. -/
theorem isOrdered_behind {last : Node} (isLast : last.isNamed name)
    (named : ∀ b ∈ block, b.isNamed name)
    (ordered : IsOrdered names (before ++ last :: after)) :
    IsOrdered names (before ++ last :: (block ++ after)) := by
  have same (b : Node) (inBlock : b ∈ block) : place? names b = place? names last := by
    rw [place?_of_isNamed names (named b inBlock), place?_of_isNamed names isLast]
  obtain ⟨-, onward, across⟩ := List.pairwise_append.mp ordered
  rw [List.append_cons] at ordered ⊢
  refine isOrdered_between.mpr ⟨ordered, isOrdered_of_named named, fun a inFront b inBlock => ?_,
    fun b inBlock c inBack => ?_⟩
  · rw [Precedes, same b inBlock]
    rcases List.mem_append.mp inFront with inFront | isItself
    · exact across a inFront last List.mem_cons_self
    · rw [List.mem_singleton.mp isItself]
      exact fun i isFirst j isSecond => (Option.mem_unique isFirst isSecond).le
  · rw [Precedes, same b inBlock]
    exact List.rel_of_pairwise_cons onward inBack

/-- Before the first element of the next name elements do no harm. -/
theorem isOrdered_before {first : Node} {next : Name} (isPlace : names.idxOf? name = some place)
    (isNext : names.idxOf? next = some (place + 1)) (isFirst : first.isNamed next)
    (named : ∀ b ∈ block, b.isNamed name) (none : ∀ a ∈ before, ¬ a.isNamed next)
    (ordered : IsOrdered names (before ++ first :: after)) :
    IsOrdered names (before ++ (block ++ first :: after)) := by
  have atPlace (b : Node) (inBlock : b ∈ block) : place? names b = some place := by
    rw [place?_of_isNamed names (named b inBlock), isPlace]
  have atNext : place? names first = some (place + 1) := by
    rw [place?_of_isNamed names isFirst, isNext]
  obtain ⟨-, onward, across⟩ := List.pairwise_append.mp ordered
  refine isOrdered_between.mpr ⟨ordered, isOrdered_of_named named, fun a inFront b inBlock => ?_,
    fun b inBlock c inBack => ?_⟩
  · intro i isEarlier j isLater
    have upToNext := across a inFront first List.mem_cons_self i isEarlier _ atNext
    have notNext : i ≠ place + 1 := by
      rintro rfl
      exact none a inFront (isNamed_of_place? isNext isEarlier)
    have isPlace := Option.mem_unique (atPlace b inBlock) isLater
    omega
  · intro i isEarlier j isLater
    have isPlace := Option.mem_unique (atPlace b inBlock) isEarlier
    rcases List.mem_cons.mp inBack with rfl | inBack
    · have isNext := Option.mem_unique atNext isLater
      omega
    · have fromNext := List.rel_of_pairwise_cons onward inBack _ atNext j isLater
      omega

/-- At the end elements do no harm unless something belongs behind them. -/
theorem isOrdered_append_iff (isPlace : names.idxOf? name = some place)
    (named : ∀ b ∈ block, b.isNamed name) (ordered : IsOrdered names nodes) :
    IsOrdered names (nodes ++ block) ↔ block = [] ∨ EndsAt names place nodes := by
  have atPlace (b : Node) (inBlock : b ∈ block) : place? names b = some place := by
    rw [place?_of_isNamed names (named b inBlock), isPlace]
  rw [IsOrdered, List.pairwise_append]
  constructor
  · rintro ⟨-, -, across⟩
    cases block with
    | nil => exact .inl rfl
    | cons b rest =>
      have inBlock : b ∈ b :: rest := List.mem_cons_self
      exact .inr fun node member i isFirst =>
        across node member b inBlock i isFirst _ (atPlace b inBlock)
  · rintro (rfl | ends)
    · exact ⟨ordered, .nil, nofun⟩
    · refine ⟨ordered, isOrdered_of_named named, fun a inFront b inBlock i isFirst j isSecond => ?_⟩
      rw [← Option.mem_unique (atPlace b inBlock) isSecond]
      exact ends a inFront i isFirst

/-! ### Blocks between the nodes -/

/-- A block of abstract lists is in order unless it goes to the end and something belongs there. -/
theorem isOrdered_insertAbstracts_iff (isPlace : names.idxOf? Word.abstractList = some place)
    (isNext : names.idxOf? Word.listInstance = some (place + 1))
    (named : ∀ b ∈ block, b.isNamed Word.abstractList) (ordered : IsOrdered names nodes) :
    IsOrdered names (insertAbstracts block nodes) ↔
      block = [] ∨
      (∃ node ∈ nodes, node.isNamed Word.abstractList ∨ node.isNamed Word.listInstance) ∨
      EndsAt names place nodes := by
  rcases insertAbstracts_place block nodes with ⟨before, last, after, rfl, isLast, inserted⟩ |
    ⟨before, first, after, rfl, isFirst, none, -, inserted⟩ | ⟨noAbstract, noInstance, inserted⟩
  · rw [inserted, iff_true_left (isOrdered_behind isLast named ordered)]
    exact .inr (.inl ⟨last, List.mem_append_right _ List.mem_cons_self, .inl isLast⟩)
  · rw [inserted, iff_true_left (isOrdered_before isPlace isNext isFirst named none ordered)]
    exact .inr (.inl ⟨first, List.mem_append_right _ List.mem_cons_self, .inr isFirst⟩)
  · have neither : ¬ ∃ node ∈ nodes,
        node.isNamed Word.abstractList ∨ node.isNamed Word.listInstance := by
      rintro ⟨node, member, isAbstract | isInstance⟩
      · exact noAbstract node member isAbstract
      · exact noInstance node member isInstance
    rw [inserted, isOrdered_append_iff isPlace named ordered, or_iff_right neither]

/-- A block of instances is in order unless it goes to the end and something belongs there. -/
theorem isOrdered_insertInstances_iff (isPlace : names.idxOf? Word.listInstance = some place)
    (named : ∀ b ∈ block, b.isNamed Word.listInstance) (ordered : IsOrdered names nodes) :
    IsOrdered names (insertInstances block nodes) ↔
      block = [] ∨ (∃ node ∈ nodes, node.isNamed Word.listInstance) ∨
      EndsAt names place nodes := by
  rcases insertInstances_place block nodes with ⟨before, last, after, rfl, isLast, inserted⟩ |
    ⟨noInstance, inserted⟩
  · rw [inserted, iff_true_left (isOrdered_behind isLast named ordered)]
    exact .inr (.inl ⟨last, List.mem_append_right _ List.mem_cons_self, isLast⟩)
  · have neither : ¬ ∃ node ∈ nodes, node.isNamed Word.listInstance := by
      rintro ⟨node, member, isInstance⟩
      exact noInstance node member isInstance
    rw [inserted, isOrdered_append_iff isPlace named ordered, or_iff_right neither]

/-- Two blocks stand between the nodes of a list, each in one piece. -/
def HoldsBlocks (first second old new : List Node) : Prop :=
  ∃ before between after, old = before ++ between ++ after ∧
    (new = before ++ first ++ between ++ second ++ after ∨
      new = before ++ second ++ between ++ first ++ after)

/-- A node beside a block stands before or behind all of it. -/
theorem split_beside {left right : List Node} (apart : node ∉ block)
    (same : before ++ (block ++ after) = left ++ node :: right) :
    (∃ between, before = left ++ [node] ++ between ∧ right = between ++ block ++ after) ∨
      ∃ between, left ++ [node] = before ++ block ++ between ∧ after = between ++ right := by
  rw [List.append_cons] at same
  rcases List.append_eq_append_iff.mp same with ⟨within, front, rest⟩ | ⟨between, front, back⟩
  · rcases List.append_eq_append_iff.mp rest with ⟨between, rfl, back⟩ | ⟨onward, inside, back⟩
    · exact .inr ⟨between, by simpa using front, back⟩
    · rcases List.eq_nil_or_concat within with rfl | ⟨others, last, rfl⟩
      · exact .inl ⟨[], by simpa using front.symm, by simpa [inside] using back⟩
      · -- the node would be the last one of a piece of the block
        rw [List.concat_eq_append, ← List.append_assoc] at front
        have isLast : node = last := by simpa using congrArg List.getLast? front
        rw [inside, isLast] at apart
        exact absurd (by simp) apart
  · exact .inl ⟨between, front, by simpa using back⟩

theorem holdsBlocks_inserted {definitions listInstances : List Node}
    (named : ∀ b ∈ definitions, b.isNamed Word.abstractList) (nodes : List Node) :
    HoldsBlocks definitions listInstances nodes
      (insertInstances listInstances (insertAbstracts definitions nodes)) := by
  obtain ⟨before, after, rfl, inserted⟩ := insertAbstracts_eq definitions nodes
  rw [inserted, List.append_assoc]
  rcases insertInstances_place listInstances (before ++ (definitions ++ after)) with
    ⟨left, last, right, whole, isLast, placed⟩ | ⟨-, placed⟩
  · have apart : last ∉ definitions := fun member =>
      absurd (Node.eq_of_isNamed (named last member) isLast) (by decide)
    rw [placed, List.append_cons]
    rcases split_beside apart whole with ⟨between, rfl, rfl⟩ | ⟨between, front, rfl⟩
    · exact ⟨left ++ [last], between, after, by simp, .inr (by simp)⟩
    · exact ⟨before, between, right, by simp, .inl (by simp [front])⟩
  · exact ⟨before, after, [], by simp, .inl (by simp [placed])⟩

/-! ### Merges -/

def definitionOrder : List Name := [Word.abstractList, Word.listInstance]

/-- The elements of a written block are of its kind. -/
theorem named_of_written {α : Type} {isWrittenAs : α → Node → Prop} {definitions : List α}
    {isComplete : Bool}
    (isNamed : ∀ definition node, isWrittenAs definition node → node.isNamed name)
    (written : Writes isWrittenAs definitions block isComplete) : ∀ b ∈ block, b.isNamed name := by
  obtain ⟨used, rest, -, each, -⟩ := written
  intro b inBlock
  obtain ⟨definition, -, isWritten⟩ := exists_left_of_mem each inBlock
  exact isNamed definition b isWritten

/-- A merge puts the new abstract lists, as they are listed, in one piece between the old nodes,
and so the new instances. Nothing else changes, and abstract lists stay before all instances. If
there is not room for every id, the merge is broken off and this holds of what it wrote. -/
theorem merge_arranges (abstracts : List AbstractList) (instances : List ListInstance)
    (name : Name) (lineage : Lineage) (traits : Traits) (old : List Node) :
    ∃ definitions listInstances new fault,
      merge abstracts instances (.element name lineage traits old) =
        (.element name lineage traits new, fault) ∧
      HoldsBlocks definitions listInstances old new ∧
      Writes AbstractList.IsWrittenAs abstracts definitions fault.isNone ∧
      Writes ListInstance.IsWrittenAs instances listInstances fault.isNone ∧
      (IsOrdered definitionOrder old → IsOrdered definitionOrder new) ∧
      (fault = none ↔
        (∀ list ∈ abstracts, Number.isOverLimit list.id = false) ∧
        ∀ list ∈ instances,
          Number.isOverLimit list.id = false ∧ Number.isOverLimit list.abstractId = false) := by
  obtain ⟨definitions, listInstances, merged, first, second⟩ :=
    merge_inserts abstracts instances (.element name lineage traits old)
  have areAbstract := named_of_written (fun _ _ => AbstractList.IsWrittenAs.named) first
  have areInstances := named_of_written (fun _ _ => ListInstance.IsWrittenAs.named) second
  refine ⟨definitions, listInstances, _, _, Prod.ext merged rfl,
    holdsBlocks_inserted areAbstract old, first, second, fun ordered => ?_,
    merge_returns_iff abstracts instances _⟩
  have isPlace : definitionOrder.idxOf? Word.abstractList = some 0 := by decide
  have isNext : definitionOrder.idxOf? Word.listInstance = some 1 := by decide
  have ends (nodes : List Node) : EndsAt definitionOrder 1 nodes := endsAt_of_length le_rfl
  have begun : IsOrdered definitionOrder (insertAbstracts definitions old) := by
    refine (isOrdered_insertAbstracts_iff isPlace isNext areAbstract ordered).mpr (.inr ?_)
    by_cases withInstance : ∃ node ∈ old, node.isNamed Word.listInstance
    · obtain ⟨node, member, named⟩ := withInstance
      exact .inl ⟨node, member, .inr named⟩
    · push Not at withInstance
      exact .inr ((endsAt_iff isNext).mpr ⟨ends old, withInstance⟩)
  exact (isOrdered_insertInstances_iff isNext areInstances begun).mpr (.inr (.inr (ends _)))

/-- What a list of definitions consists of, in the order in which it has to stand. -/
def schemaOrder : List Name :=
  [.word "numPicBullet", Word.abstractList, Word.listInstance, .word "numIdMacAtCleanup"]

/-- The mark of a clean-up, which has to come last. -/
abbrev cleanupMark : Name := .word "numIdMacAtCleanup"

theorem mem_insertAbstracts : node ∈ insertAbstracts block nodes ↔ node ∈ nodes ∨ node ∈ block := by
  rw [(adds_insertAbstracts block nodes).2.mem_iff, List.mem_append]

/-- A block of one name changes nothing about whether there are elements of another. -/
theorem exists_mem_insertAbstracts {other : Name} (apart : name ≠ other)
    (named : ∀ b ∈ block, b.isNamed name) (nodes : List Node) :
    (∃ node ∈ insertAbstracts block nodes, node.isNamed other) ↔
      ∃ node ∈ nodes, node.isNamed other := by
  constructor
  · rintro ⟨node, member, isOther⟩
    rcases mem_insertAbstracts.mp member with member | inBlock
    · exact ⟨node, member, isOther⟩
    · exact absurd (Node.eq_of_isNamed (named node inBlock) isOther) apart
  · rintro ⟨node, member, isOther⟩
    exact ⟨node, mem_insertAbstracts.mpr (.inl member), isOther⟩

/-- Where the parts of a list of definitions are in order, they stay so unless a block has no old
definition to go by and there is a clean-up mark. -/
theorem isOrdered_inserted_iff {definitions listInstances old : List Node}
    (areAbstract : ∀ b ∈ definitions, b.isNamed Word.abstractList)
    (areInstances : ∀ b ∈ listInstances, b.isNamed Word.listInstance)
    (ordered : IsOrdered schemaOrder old) :
    IsOrdered schemaOrder (insertInstances listInstances (insertAbstracts definitions old)) ↔
      (∀ node ∈ old, ¬ node.isNamed cleanupMark) ∨
      (definitions = [] ∨ ∃ node ∈ old,
        node.isNamed Word.abstractList ∨ node.isNamed Word.listInstance) ∧
      (listInstances = [] ∨ ∃ node ∈ old, node.isNamed Word.listInstance) := by
  have first : schemaOrder.idxOf? Word.abstractList = some 1 := by decide
  have second : schemaOrder.idxOf? Word.listInstance = some 2 := by decide
  have last : schemaOrder.idxOf? cleanupMark = some 3 := by decide
  have endsAt_two (nodes : List Node) :
      EndsAt schemaOrder 2 nodes ↔ ∀ node ∈ nodes, ¬ node.isNamed cleanupMark := by
    rw [endsAt_iff last, and_iff_right (endsAt_of_length le_rfl)]
  -- the new abstract lists are neither instances nor marks, so they decide nothing
  have sameInstances : (∃ node ∈ insertAbstracts definitions old, node.isNamed Word.listInstance) ↔
      ∃ node ∈ old, node.isNamed Word.listInstance :=
    exists_mem_insertAbstracts (by decide) areAbstract old
  have sameMarks : (∃ node ∈ insertAbstracts definitions old, node.isNamed cleanupMark) ↔
      ∃ node ∈ old, node.isNamed cleanupMark :=
    exists_mem_insertAbstracts (by decide) areAbstract old
  have begun := isOrdered_insertAbstracts_iff first second areAbstract ordered
  have ended (begun : IsOrdered schemaOrder (insertAbstracts definitions old)) :=
    isOrdered_insertInstances_iff second areInstances begun
  rw [endsAt_iff second, endsAt_two] at begun
  simp only [endsAt_two, sameInstances] at ended
  have kept : IsOrdered schemaOrder
      (insertInstances listInstances (insertAbstracts definitions old)) →
        IsOrdered schemaOrder (insertAbstracts definitions old) :=
    List.Pairwise.sublist (adds_insertInstances _ _).1
  grind

/-- What a list of definitions looks like by its schema: nothing but its parts is there, in order,
and with one clean-up mark at most. -/
structure FollowsSchema (nodes : List Node) : Prop where
  known : ∀ node ∈ nodes, ∀ name ∈ node.name?, name ∈ schemaOrder
  ordered : IsOrdered schemaOrder nodes
  single : nodes.countP (·.isNamed cleanupMark) ≤ 1

/-- New definitions are known to the schema and no marks, so only the order can be lost. -/
theorem FollowsSchema.of_adds {old new : List Node} (follows : FollowsSchema old)
    (adds : Adds old block new)
    (named : ∀ b ∈ block, b.isNamed Word.abstractList ∨ b.isNamed Word.listInstance)
    (ordered : IsOrdered schemaOrder new) : FollowsSchema new := by
  refine ⟨fun node member name isName => ?_, ordered, ?_⟩
  · rcases List.mem_append.mp (adds.2.mem_iff.mp member) with isOld | isNew
    · exact follows.known node isOld name isName
    · rcases named node isNew with isAbstract | isInstance
      · rw [Node.eq_of_isNamed (Node.isNamed_iff.mpr isName) isAbstract]
        decide
      · rw [Node.eq_of_isNamed (Node.isNamed_iff.mpr isName) isInstance]
        decide
  · have noMark : block.countP (·.isNamed cleanupMark) = 0 := by
      refine List.countP_eq_zero.mpr fun node member isMark => ?_
      rcases named node member with isAbstract | isInstance
      · exact absurd (Node.eq_of_isNamed isAbstract isMark) (by decide)
      · exact absurd (Node.eq_of_isNamed isInstance isMark) (by decide)
    rw [adds.2.countP_eq, List.countP_append, noMark]
    exact follows.single

/-- A merge keeps to the schema if and only if there is no clean-up mark, or each block that is
not empty has an old definition to go by: an instance, or for abstract lists also another one. -/
theorem merge_follows_schema_iff {old : List Node} (follows : FollowsSchema old)
    (abstracts : List AbstractList) (instances : List ListInstance) (name : Name)
    (lineage : Lineage) (traits : Traits) :
    ∃ definitions listInstances new fault,
      merge abstracts instances (.element name lineage traits old) =
        (.element name lineage traits new, fault) ∧
      Writes AbstractList.IsWrittenAs abstracts definitions fault.isNone ∧
      Writes ListInstance.IsWrittenAs instances listInstances fault.isNone ∧
      (FollowsSchema new ↔
        (∀ node ∈ old, ¬ node.isNamed cleanupMark) ∨
        (definitions = [] ∨ ∃ node ∈ old,
          node.isNamed Word.abstractList ∨ node.isNamed Word.listInstance) ∧
        (listInstances = [] ∨ ∃ node ∈ old, node.isNamed Word.listInstance)) := by
  obtain ⟨definitions, listInstances, merged, first, second⟩ :=
    merge_inserts abstracts instances (.element name lineage traits old)
  have areAbstract := named_of_written (fun _ _ => AbstractList.IsWrittenAs.named) first
  have areInstances := named_of_written (fun _ _ => ListInstance.IsWrittenAs.named) second
  refine ⟨definitions, listInstances, _, _, Prod.ext merged rfl, first, second, ?_⟩
  rw [← isOrdered_inserted_iff areAbstract areInstances follows.ordered]
  refine ⟨FollowsSchema.ordered, follows.of_adds
    ((adds_insertAbstracts _ _).trans (adds_insertInstances _ _)) fun node member => ?_⟩
  exact (List.mem_append.mp member).imp (areAbstract node) (areInstances node)

def markedLists : List Node :=
  [.plain Word.abstractList [(Word.abstractListId, "0")] [],
    .plain Word.listInstance [(Word.listInstanceId, "1")]
      [Word.makeSetting Word.abstractListId "0"],
    .plain cleanupMark [] []]

theorem merge_follows_schema_marked :
    FollowsSchema markedLists ∧
      FollowsSchema
        (merge [⟨1, .bullet⟩] [⟨2, 1⟩] (.plain Word.numbering [] markedLists)).1.children := by
  have follows : FollowsSchema markedLists := ⟨by decide, by decide, by decide⟩
  obtain ⟨_, _, new, fault, merged, -, -, keeps⟩ :=
    merge_follows_schema_iff follows [⟨1, .bullet⟩] [⟨2, 1⟩] Word.numbering [] (.ofList [])
  rw [Node.plain, merged]
  exact ⟨follows, keeps.mpr (.inr ⟨.inr (by decide), .inr (by decide)⟩)⟩

/-- The mark is all there is, and a new abstract list is put behind it. -/
theorem cleanup_is_overtaken :
    FollowsSchema [.plain cleanupMark [] []] ∧
      (merge [⟨0, .bullet⟩] [] (.plain Word.numbering [] [.plain cleanupMark [] []])).2 = none ∧
      ¬ FollowsSchema (merge [⟨0, .bullet⟩] []
        (.plain Word.numbering [] [.plain cleanupMark [] []])).1.children := by
  refine ⟨⟨by decide, by decide, by decide⟩, by decide +kernel, fun follows => ?_⟩
  exact absurd follows.ordered (by decide +kernel)

end TemplateFill.Numbering
