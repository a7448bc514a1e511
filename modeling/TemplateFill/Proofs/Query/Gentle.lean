import TemplateFill.Proofs.Query.Calm
import TemplateFill.Proofs.Query.Sorting

/-!
# Gentle queries

A query breaks down on values it does not expect: an ordering that meets a number and a text, a
function that has no result for what it was given, a slice that steps nowhere. A gentle query does
none of that. What its parts make of plain values is plain again and may be nested one level more.
-/

namespace TemplateFill

open Query (Function)

/-- Functions that have a result for all that they accept, and need no reference. Those that
compute numbers of any size are among them if numbers are not bounded. -/
def Query.Function.isGentle (bounded : Bool) : Function → Bool
  | .abs | .endsWith | .join | .keys | .max | .min | .notNull | .reverse | .sort | .startsWith
  | .toArray | .toString | .type | .values => true
  | .length | .toNumber => !bounded
  | .avg | .ceil | .contains | .floor | .map | .maxBy | .merge | .minBy | .sortBy | .sum => false

namespace Query

/-- The relations that hold or do not hold between any two values. -/
def Relation.isGentle : Relation → Bool
  | .equal | .notEqual => true
  | .less | .lessEqual | .greater | .greaterEqual => false

/-- Whether a call by this name is gentle. An unknown function is only refused. -/
def isGentleCall (bounded : Bool) (name : String) : Bool :=
  (Function.table.lookup name).all (·.isGentle bounded)

mutual

/-- Whether a query never breaks down. -/
def isGentle (bounded : Bool) : Query → Bool
  | .current | .field _ | .index _ => true
  | .literal value => !bounded || (Datum.ofJson value).fits value.depth
  | .slice _ _ step => step != some 0
  | .chain _ a b | .projection a b | .memberProjection a b | .either a b | .both a b =>
    a.isGentle bounded && b.isGentle bounded
  | .compare relation a b => relation.isGentle && a.isGentle bounded && b.isGentle bounded
  | .filterProjection a b c => a.isGentle bounded && b.isGentle bounded && c.isGentle bounded
  | .flatten a | .negation a => a.isGentle bounded
  | .listOf items => areGentle bounded items
  | .objectOf members => areGentleMembers bounded members
  | .call name arguments => isGentleCall bounded name && areGentle bounded arguments
  | .reference _ => false

/-- Whether some queries never break down. -/
def areGentle (bounded : Bool) : List Query → Bool
  | [] => true
  | item :: items => item.isGentle bounded && areGentle bounded items

/-- Whether the queries of some members never break down. -/
def areGentleMembers (bounded : Bool) : List (String × Query) → Bool
  | [] => true
  | (_, value) :: members => value.isGentle bounded && areGentleMembers bounded members

end

variable {bounded : Bool} {level : Nat} {v w : Datum}

theorem areGentle_iff {items : List Query} :
    areGentle bounded items ↔ ∀ item ∈ items, item.isGentle bounded := by
  induction items with
  | nil => simp [areGentle]
  | cons item items ih => rw [areGentle, Bool.and_eq_true, ih, List.forall_mem_cons]

theorem areGentleMembers_iff {members : List (String × Query)} :
    areGentleMembers bounded members ↔ ∀ m ∈ members, m.2.isGentle bounded := by
  induction members with
  | nil => simp [areGentleMembers]
  | cons m members ih => rw [areGentleMembers, Bool.and_eq_true, ih, List.forall_mem_cons]

/-! ### Parts of plain values -/

theorem isPlain_getD {found : Option Datum}
    (plain : ∀ w, found = some w → w.IsPlain bounded level) :
    (found.getD .null).IsPlain bounded level := by
  cases found with
  | none => exact Datum.isPlain_null
  | some w => exact plain w rfl

theorem IsPlain.items {items : List Datum} (plain : (Datum.list items).IsPlain bounded level) :
    ∀ v ∈ items, v.IsPlain bounded level := by
  cases plain with
  | list deeper each => exact fun v member => (each v member).mono fun bounds => Nat.le_of_lt (deeper bounds)

theorem IsPlain.member {members : List (Atom × Datum)}
    (plain : (Datum.object members).IsPlain bounded level) :
    ∀ m ∈ members, m.1.isPlain bounded ∧ m.2.IsPlain bounded level := by
  cases plain with
  | object deeper keys each =>
    exact fun m member => ⟨keys m member, (each m member).mono fun bounds => Nat.le_of_lt (deeper bounds)⟩

/-- Items of a list make a list that is not nested more deeply. -/
theorem IsPlain.ofItems {items others : List Datum}
    (plain : (Datum.list items).IsPlain bounded level) (among : ∀ w ∈ others, w ∈ items) :
    (Datum.list others).IsPlain bounded level := by
  cases plain with
  | list deeper each => exact .list deeper fun w member => each w (among w member)

/-- A list around plain values is nested one level more. -/
theorem isPlain_list {items : List Datum} (each : ∀ v ∈ items, v.IsPlain bounded level) :
    (Datum.list items).IsPlain bounded (level + 1) :=
  .list (fun _ => Nat.lt_succ_self level) each

theorem isPlain_member? (plain : v.IsPlain bounded level) (name : String) :
    ∀ w, v.member? name = some w → w.IsPlain bounded level := by
  intro w isMember
  cases v with
  | object members =>
    obtain ⟨m, found, rfl⟩ := Option.map_eq_some_iff.mp isMember
    exact (IsPlain.member plain m (List.mem_of_find?_eq_some found)).2
  | atom a => cases isMember
  | list items => cases isMember

theorem isPlain_itemAt (plain : v.IsPlain bounded level) (position : Int) :
    (itemAt position v).IsPlain bounded level := by
  cases v with
  | list items =>
    rw [itemAt]
    generalize (if position < 0 then position + (items.length : Int) else position) = place
    split
    · exact Datum.isPlain_null
    · exact isPlain_getD fun w found => IsPlain.items plain w (List.mem_of_getElem? found)
  | atom a => exact Datum.isPlain_null
  | object members => exact Datum.isPlain_null

theorem isPlain_flattened (plain : v.IsPlain bounded level) :
    (flattened v).IsPlain bounded level := by
  cases plain with
  | list deeper each =>
    refine .list deeper fun w member => ?_
    obtain ⟨item, inItems, inside⟩ := List.mem_flatMap.mp member
    have isPlain := each item inItems
    split at inside
    · exact IsPlain.items isPlain w inside
    · rw [List.mem_singleton.mp inside]
      exact isPlain
  | atom plain => exact Datum.isPlain_null
  | object deeper keys each => exact Datum.isPlain_null

theorem isPlain_int_of_unbounded (unbounded : (!bounded) = true) (n : Int) :
    (Datum.int n).IsPlain bounded level :=
  Datum.isPlain_int fun bounds => by simp [bounds] at unbounded

theorem isPlain_negated (v : Datum) : (negated v).IsPlain bounded level := by
  rw [negated]
  split
  · exact Datum.isPlain_bool _
  · exact Datum.isPlain_bool _

theorem isPlain_ofMembers {members : List (Atom × Datum)}
    (plain : ∀ m ∈ members, m.1.isPlain bounded ∧ m.2.IsPlain bounded level) :
    (Datum.ofMembers members).IsPlain bounded (level + 1) := by
  have put : ∀ m ∈ Data.Members.putAll Atom.same [] members, _ :=
    Data.Members.forall_putAll (·.isPlain bounded) (·.IsPlain bounded level)
      (List.forall_mem_nil _) plain
  exact .object (fun _ => Nat.lt_succ_self level) (fun m member => (put m member).1)
    fun m member => (put m member).2

/-! ### What arguments are checked for -/

/-- A list that was checked for its items has items of one kind. -/
def IsChecked (accepted : List Accepted) (v : Datum) : Prop :=
  ∀ items, v = .list items → accepted.filterMap (·.inner?) ≠ [] → items ≠ [] →
    ∃ kind ∈ accepted.filterMap (·.inner?), ∀ item ∈ items, kindOf item = kind

theorem isChecked_of_noList {accepted : List Accepted} (noList : ∀ items, v ≠ .list items) :
    IsChecked accepted v :=
  fun items isList => absurd isList (noList items)

theorem exists_quantity (isNumber : kindOf v = .number) : ∃ q, v.quantity? = some q := by
  cases v with
  | atom a =>
    cases a with
    | int n => exact ⟨_, rfl⟩
    | float x mark => exact ⟨_, rfl⟩
    | _ => cases isNumber
  | list items => cases isNumber
  | object members => cases isNumber

theorem exists_text (isText : kindOf v = .string) : ∃ s, v = .text s := by
  cases v with
  | atom a =>
    cases a with
    | text s => exact ⟨s, rfl⟩
    | _ => cases isText
  | list items => cases isText
  | object members => cases isText

/-- Values of one kind have an order if they are numbers or texts. -/
theorem exists_less? {kind : Kind} (ordered : kind = .number ∨ kind = .string)
    (isKind : kindOf v = kind) (sameKind : kindOf w = kind) : ∃ r, less? v w = some r := by
  rcases ordered with rfl | rfl
  · obtain ⟨p, first⟩ := exists_quantity isKind
    obtain ⟨q, second⟩ := exists_quantity sameKind
    refine ⟨p.less q, ?_⟩
    unfold less?
    split
    · cases isKind
    · rw [first, second]
      rfl
  · obtain ⟨s, rfl⟩ := exists_text isKind
    obtain ⟨t, rfl⟩ := exists_text sameKind
    exact ⟨_, rfl⟩

/-! ### Calm operations -/

variable [Room]

theorem calm_sliceOf (plain : v.IsPlain bounded level) {start stop step : Option Int}
    (steps : step ≠ some 0) :
    CalmOutcome bounded (·.IsPlain bounded level) (sliceOf start stop step v) := by
  cases v with
  | list items =>
    have moves : step.getD 1 ≠ 0 := by
      cases step with
      | none => decide
      | some n => exact fun isZero => steps (congrArg some isZero)
    rw [sliceOf, if_neg moves]
    refine IsPlain.ofItems plain fun w member => ?_
    obtain ⟨position, -, found⟩ := List.mem_filterMap.mp member
    exact List.mem_of_getElem? found
  | atom a => exact Datum.isPlain_null
  | object members => exact Datum.isPlain_null

/-- Plain values are equal or not, if there is room to see that. -/
theorem exists_areEqual (plain : v.IsPlain true level) (enough : level ≤ Room.viewing)
    (w : Datum) : ∃ b, areEqual v w = some b := by
  unfold areEqual
  dsimp only
  split
  · exact ⟨_, rfl⟩
  · split
    · exact ⟨_, rfl⟩
    · exact plain.exists_equal enough w

theorem calm_judged {result : Option Bool} (judges : bounded → ∃ b, result = some b) :
    CalmOutcome bounded (·.IsPlain bounded level) (judged result) := by
  cases result with
  | some b => exact Datum.isPlain_bool b
  | none =>
    refine .breakDown (Bool.eq_false_iff.mpr fun bounds => ?_) rfl
    obtain ⟨b, isNone⟩ := judges bounds
    cases isNone

theorem calm_related {relation : Relation} (gentle : relation.isGentle)
    (plain : v.IsPlain bounded level) (enough : bounded → level ≤ Room.viewing) (w : Datum) :
    CalmOutcome bounded (·.IsPlain bounded level) (related relation v w) := by
  have judges (bounds : bounded) : ∃ b, areEqual v w = some b := by
    subst bounds
    exact exists_areEqual plain (enough rfl) w
  cases relation with
  | equal => exact calm_judged judges
  | notEqual =>
    refine calm_judged fun bounds => ?_
    obtain ⟨b, isEqual⟩ := judges bounds
    exact ⟨!b, by rw [isEqual]; rfl⟩
  | _ => cases gentle

/-! ### Calls -/

/-- A refusal that shows a plain value can be told. -/
theorem calm_refuse {α : Type} {holds : α → Prop} {name : String} {expected : List String}
    {received : String} (plain : v.IsPlain bounded level)
    (enough : bounded → level ≤ Room.viewing) :
    CalmOutcome bounded holds (refuse (.wrongKind name v expected received)) := by
  refine .refuse fun bounds => ?_
  subst bounds
  exact plain.obstacle?_eq_none (enough rfl)

theorem calm_checkItems {items : List Datum} (plain : ∀ v ∈ items, v.IsPlain bounded level)
    (enough : bounded → level ≤ Room.viewing) (name : String) (expected : List String) (kind : Kind) :
    CalmOutcome bounded (fun _ => ∀ v ∈ items, kindOf v = kind)
      (checkItems name expected kind items) := by
  rw [checkItems]
  cases found : items.find? fun item => kindOf item != kind with
  | some item => exact calm_refuse (plain item (List.mem_of_find?_eq_some found)) enough
  | none =>
    refine fun v member => ?_
    simpa using List.find?_eq_none.mp found v member

theorem calm_checkArgument (plain : v.IsPlain bounded level)
    (enough : bounded → level ≤ Room.viewing) (name : String) (accepted : List Accepted) :
    CalmOutcome bounded (fun _ => IsChecked accepted v) (checkArgument name accepted v) := by
  unfold checkArgument
  dsimp only
  split
  · rename_i none
    refine fun items _ some => absurd ?_ some
    rw [List.isEmpty_iff.mp none]
    rfl
  · split
    · exact calm_refuse plain enough
    · generalize isInner : accepted.filterMap (·.inner?) = inner
      cases v with
      | atom a =>
        have passed : IsChecked accepted (.atom a) := isChecked_of_noList fun _ => nofun
        match inner with
        | [] => exact passed
        | [_] => exact passed
        | _ :: _ :: _ => exact passed
      | object members =>
        have passed : IsChecked accepted (.object members) := isChecked_of_noList fun _ => nofun
        match inner with
        | [] => exact passed
        | [_] => exact passed
        | _ :: _ :: _ => exact passed
      | list items =>
        match inner, items with
        | [], items => exact fun _ _ some => absurd isInner some
        | [kind], items =>
          refine (calm_checkItems (IsPlain.items plain) enough name _ kind).mono fun _ alike => ?_
          rintro _ ⟨rfl⟩ - -
          exact ⟨kind, by rw [isInner]; exact List.mem_cons_self, alike⟩
        | _ :: _ :: _, [] => exact fun _ isList _ some => absurd (Datum.list.inj isList).symm some
        | kind :: other :: kinds, first :: rest =>
          dsimp only
          split
          · rename_i isAmong
            refine (calm_checkItems (IsPlain.items plain) enough name _ _).mono fun _ alike => ?_
            rintro _ ⟨rfl⟩ - -
            exact ⟨kindOf first, by rw [isInner]; exact List.contains_iff_mem.mp isAmong, alike⟩
          · exact calm_refuse (IsPlain.items plain first List.mem_cons_self) enough

/-- Arguments that were checked are as many as the parameters, and each list is as its parameter
demands. -/
theorem calm_checkArguments {values : List Datum}
    (plain : ∀ v ∈ values, v.IsPlain bounded level) (enough : bounded → level ≤ Room.viewing)
    (name : String) (signature : Signature) :
    CalmOutcome bounded (fun _ => ∀ entry ∈ signature.parameters.zip values,
      IsChecked entry.1 entry.2) (checkArguments name signature values) := by
  have checked : CalmOutcome bounded (fun _ => ∀ entry ∈ signature.parameters.zip values,
      IsChecked entry.1 entry.2)
      ((signature.parameters.zip values).forM fun entry => checkArgument name entry.1 entry.2) :=
    .forM fun entry member =>
      calm_checkArgument (plain entry.2 (List.of_mem_zip member).2) enough name entry.1
  unfold checkArguments
  dsimp only
  by_cases wrong : if signature.repeats then values.length < signature.parameters.length
      else values.length ≠ signature.parameters.length
  · rw [if_pos wrong]
    exact .refuse fun _ => rfl
  · rw [if_neg wrong]
    exact checked

/-! ### The greatest and the least -/

theorem calm_extremeOf {greatest : Bool} {items : List Datum} {kind : Kind}
    (ordered : kind = .number ∨ kind = .string) (alike : ∀ v ∈ items, kindOf v = kind)
    (plain : ∀ v ∈ items, v.IsPlain bounded level) :
    Calm bounded (·.IsPlain bounded level) (extremeOf greatest pure items) := by
  cases items with
  | nil => exact .pure Datum.isPlain_null
  | cons first rest =>
    -- the best item so far is its own key, and one of the items
    have found : Calm bounded (fun best => best.1 ∈ first :: rest ∧ best.2 ∈ first :: rest)
        (rest.foldlM (extremeOf.better greatest pure) (first, first)) := by
      refine .foldlM ⟨List.mem_cons_self, List.mem_cons_self⟩ fun best among item member => ?_
      have inItems := List.mem_cons_of_mem first member
      obtain ⟨r, isLess⟩ : ∃ r, (if greatest then less? best.1 item else less? item best.1) =
          some r := by
        have isBest := alike best.1 among.1
        have isItem := alike item inItems
        split
        · exact exists_less? ordered isBest isItem
        · exact exists_less? ordered isItem isBest
      rw [extremeOf.better, pure_bind, isLess]
      refine .pure ?_
      split
      · exact ⟨inItems, inItems⟩
      · exact among
    exact found.bind fun best among => .pure (plain best.2 among.2)

/-- The check of the arguments leaves no items without an order. -/
theorem calm_extremeOf_checked {greatest : Bool} {items : List Datum}
    (plain : ∀ v ∈ [Datum.list items], v.IsPlain bounded level)
    (checked : ∀ entry ∈ [[Accepted.listOf .number, .listOf .string]].zip [Datum.list items],
      IsChecked entry.1 entry.2) :
    Calm bounded (·.IsPlain bounded level) (extremeOf greatest pure items) := by
  by_cases none : items = []
  · rw [none]
    exact .pure Datum.isPlain_null
  · obtain ⟨kind, among, alike⟩ :=
      checked (_, .list items) List.mem_cons_self items rfl (List.cons_ne_nil _ _) none
    have ordered : kind = .number ∨ kind = .string := by
      simpa [Accepted.inner?, eq_comm] using among
    exact calm_extremeOf ordered alike (IsPlain.items (plain _ List.mem_cons_self))

/-! ### Functions -/

theorem calm_newFloat (x : Float) : Calm bounded (·.IsPlain bounded level) (newFloat x) :=
  Calm.freshMark.bind fun mark _ => .pure (Datum.isPlain_float x mark)

theorem calm_magnitude (plain : v.IsPlain bounded level) : Calm bounded (·.IsPlain bounded level)
    (v.quantity?.elim (pure .null) fun q => ofQuantity q.magnitude) := by
  cases plain with
  | @atom _ a plain =>
    cases a with
    | int n =>
      refine .pure (Datum.isPlain_int fun bounds => ?_)
      rw [Number.isOverLimit, Int.natAbs_natCast]
      exact Atom.isPlain_int.mp plain bounds
    | float x mark => exact calm_newFloat x.abs
    | _ => exact .pure Datum.isPlain_null
  | list deeper each => exact .pure Datum.isPlain_null
  | object deeper keys each => exact .pure Datum.isPlain_null

theorem calm_numberOf (unbounded : (!bounded) = true) (plain : v.IsPlain bounded level) :
    Calm bounded (·.IsPlain bounded level) (numberOf v) := by
  cases plain with
  | @atom _ a plain =>
    cases a with
    | int n => exact .pure (.atom plain)
    | float x mark => exact .pure (.atom plain)
    | text s =>
      unfold numberOf
      dsimp only
      split
      · exact .pure (isPlain_int_of_unbounded unbounded _)
      · exact calm_newFloat _
      · exact .pure Datum.isPlain_null
    | reference target mark => cases plain
    | _ => exact .pure Datum.isPlain_null
  | list deeper each => exact .pure Datum.isPlain_null
  | object deeper keys each => exact .pure Datum.isPlain_null

theorem calm_textOf (plain : v.IsPlain bounded level) (enough : bounded → level ≤ Room.writing) :
    CalmOutcome bounded (·.IsPlain bounded level) (textOf v) := by
  unfold textOf
  split
  · exact plain
  · rcases plain.toJson_returns (.ok (.text Atom.referenceText)) enough with
      ⟨written, isWritten⟩ | ⟨unbounded, cause, unwritten, limits⟩
    · rw [isWritten]
      exact Datum.isPlain_text _
    · rw [unwritten]
      exact .breakDown unbounded limits

/-- A gentle function is calm on plain arguments that were checked. -/
theorem calm_apply {function : Function} (gentle : function.isGentle bounded)
    {values : List Datum} (plain : ∀ v ∈ values, v.IsPlain bounded level)
    (enough : bounded → level ≤ Room.writing)
    (checked : ∀ entry ∈ function.signature.parameters.zip values, IsChecked entry.1 entry.2)
    (run : Query → Datum → Evaluation Datum) :
    Calm bounded (·.IsPlain bounded (level + 1)) (function.apply run values) := by
  have higher {w : Datum} (plain : w.IsPlain bounded level) : w.IsPlain bounded (level + 1) :=
    plain.mono fun _ => Nat.le_succ level
  unfold Function.apply
  -- the cases follow the rows of the definition, and the functions of those left over are not gentle
  split
  case h_1 v => exact (calm_magnitude (plain v List.mem_cons_self)).mono fun _ => higher
  case h_5 s t => exact .pure (Datum.isPlain_bool _)
  case h_7 glue items => exact .pure (Datum.isPlain_text _)
  case h_8 members =>
    have each := IsPlain.member (plain (.object members) List.mem_cons_self)
    exact .pure (isPlain_list (List.forall_mem_map.mpr fun m member => .atom (each m member).1))
  case h_9 s => exact .pure (isPlain_int_of_unbounded gentle _)
  case h_10 items => exact .pure (isPlain_int_of_unbounded gentle _)
  case h_11 members => exact .pure (isPlain_int_of_unbounded gentle _)
  case h_13 items => exact (calm_extremeOf_checked plain checked).mono fun _ => higher
  case h_16 items => exact (calm_extremeOf_checked plain checked).mono fun _ => higher
  case h_18 =>
    exact .pure (isPlain_getD fun w found => higher (plain w (List.mem_of_find?_eq_some found)))
  case h_19 s => exact .pure (Datum.isPlain_text _)
  case h_20 items =>
    have each := IsPlain.items (plain (.list items) List.mem_cons_self)
    exact .pure (isPlain_list fun w member => each w (List.mem_reverse.mp member))
  case h_21 items =>
    have each := IsPlain.items (plain (.list items) List.mem_cons_self)
    exact .pure (isPlain_list fun w member => each w ((sorted_perm _ items).subset member))
  case h_23 s t => exact .pure (Datum.isPlain_bool _)
  case h_25 items => exact .pure (higher (plain (.list items) List.mem_cons_self))
  case h_26 v _ => exact .pure (isPlain_list (by simpa using plain))
  case h_27 v => exact (calm_numberOf gentle (plain v List.mem_cons_self)).mono fun _ => higher
  case h_28 v =>
    exact .lift ((calm_textOf (plain v List.mem_cons_self) enough).mono fun _ => higher)
  case h_29 v =>
    refine .pure ?_
    split
    · exact Datum.isPlain_null
    · exact Datum.isPlain_text _
  case h_30 members =>
    have each := IsPlain.member (plain (.object members) List.mem_cons_self)
    exact .pure (isPlain_list (List.forall_mem_map.mpr fun m member => (each m member).2))
  case h_31 => exact .pure Datum.isPlain_null
  all_goals cases gentle

end Query

end TemplateFill
