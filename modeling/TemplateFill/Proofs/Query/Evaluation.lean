import TemplateFill.Proofs.Query.Gentle
import TemplateFill.Query.Evaluation

/-!
# Searches by gentle queries

The parts of a query are evaluated inside its own evaluation, and what they yield may be nested more
deeply than what they are given. Where there is room for both, the evaluation of a gentle query is
calm on plain values and yields one, whatever the values are.
-/

namespace TemplateFill.Query

mutual

/-- How much room the evaluation of a query needs at most. A call takes some itself. -/
@[simp]
def depth : Query → Nat
  | .chain _ a b | .projection a b | .memberProjection a b | .compare _ a b | .either a b
  | .both a b => max a.depth b.depth + 1
  | .filterProjection a b c => max a.depth (max b.depth c.depth) + 1
  | .flatten a | .negation a => a.depth + 1
  | .listOf items => depthOfItems items + 1
  | .objectOf members => depthOfMembers members + 1
  | .call _ arguments => max (depthOfItems arguments) 1 + 1
  | _ => 1

@[simp]
def depthOfItems : List Query → Nat
  | [] => 0
  | item :: items => max item.depth (depthOfItems items)

@[simp]
def depthOfMembers : List (String × Query) → Nat
  | [] => 0
  | (_, value) :: members => max value.depth (depthOfMembers members)

end

mutual

/-- By how many levels at most the values in an evaluation are nested more deeply than the value
that the query is evaluated for. -/
@[simp]
def growth : Query → Nat
  | .literal value => value.depth
  | .chain _ a b | .projection a b | .memberProjection a b => a.growth + b.growth
  | .filterProjection a b c => a.growth + max b.growth c.growth
  | .compare _ a b | .either a b | .both a b => max a.growth b.growth
  | .flatten a | .negation a => a.growth
  | .listOf items => growthOfItems items + 1
  | .objectOf members => growthOfMembers members + 1
  | .call _ arguments => growthOfItems arguments + 1
  | _ => 0

@[simp]
def growthOfItems : List Query → Nat
  | [] => 0
  | item :: items => max item.growth (growthOfItems items)

@[simp]
def growthOfMembers : List (String × Query) → Nat
  | [] => 0
  | (_, value) :: members => max value.growth (growthOfMembers members)

end

theorem le_of_mem_items {items : List Query} {item : Query} (member : item ∈ items) :
    item.depth ≤ depthOfItems items ∧ item.growth ≤ growthOfItems items := by
  induction items with
  | nil => cases member
  | cons first items ih =>
    rw [depthOfItems, growthOfItems]
    rcases List.mem_cons.mp member with rfl | member
    · omega
    · have := ih member
      omega

theorem le_of_mem_members {members : List (String × Query)} {m : String × Query}
    (member : m ∈ members) :
    m.2.depth ≤ depthOfMembers members ∧ m.2.growth ≤ growthOfMembers members := by
  induction members with
  | nil => cases member
  | cons first members ih =>
    rw [depthOfMembers, growthOfMembers]
    rcases List.mem_cons.mp member with rfl | member
    · omega
    · have := ih member
      omega

theorem depth_pos (query : Query) : 0 < query.depth := by
  cases query <;> exact Nat.succ_pos _

variable [Room]

/-- There is room to evaluate a query for values of a level. -/
def HasRoom (room level : Nat) (query : Query) : Prop :=
  query.depth ≤ room ∧ level + query.growth ≤ Room.viewing ∧ level + query.growth ≤ Room.writing

instance (room level : Nat) (query : Query) : Decidable (HasRoom room level query) :=
  inferInstanceAs (Decidable (_ ∧ _))

variable {bounded : Bool} {room level inner : Nat} {query part : Query} {v : Datum}

/-- There is room for a part of a query if it is not as deep and what it is evaluated for does not
grow more. -/
theorem HasRoom.inside (enough : HasRoom (room + 1) level query) (shallower : part.depth < query.depth)
    (grows : inner + part.growth ≤ level + query.growth) : HasRoom room inner part := by
  obtain ⟨deep, viewing, writing⟩ := enough
  exact ⟨by omega, by omega, by omega⟩

/-- A query is calm on plain values for which there is room. -/
def CalmFor (bounded : Bool) (room : Nat) (query : Query) : Prop :=
  ∀ level v, (bounded → HasRoom room level query) → v.IsPlain bounded level →
    Calm bounded (·.IsPlain bounded (level + query.growth)) (eval room query v)

/-- Gentle queries are calm in some room. -/
def CalmIn (bounded : Bool) (room : Nat) : Prop :=
  ∀ query, query.isGentle bounded → CalmFor bounded room query

/-- A result that is nested less deeply than it may be. -/
theorem Calm.higher {run : Evaluation Datum} {higher : Nat}
    (calm : Calm bounded (·.IsPlain bounded level) run) (le : level ≤ higher) :
    Calm bounded (·.IsPlain bounded higher) run :=
  calm.mono fun _ plain => plain.mono fun _ => le

/-! ### One part after the other -/

/-- The parts of a chain are calm one after the other. -/
theorem CalmIn.parts (ih : CalmIn bounded room) (link : Link) (query : Query)
    (gentle : query.isGentle bounded) (enough : bounded → HasRoom room level query)
    (plain : v.IsPlain bounded level) :
    Calm bounded (·.IsPlain bounded (level + query.growth))
      ((parts link query).foldlM (fun w part => eval room part w) v) := by
  induction query using parts.induct link generalizing level v with
  | case1 other a b joined iha =>
    rw [isGentle, Bool.and_eq_true] at gentle
    rw [parts, if_pos joined, List.foldlM_append, growth, ← Nat.add_assoc]
    refine (iha gentle.1 (fun bounds => ?_) plain).bind fun w isPlain => ?_
    · obtain ⟨deep, viewing, writing⟩ := enough bounds
      rw [depth] at deep
      rw [growth] at viewing writing
      exact ⟨by omega, by omega, by omega⟩
    · rw [List.foldlM_cons]
      refine (ih b gentle.2 _ w (fun bounds => ?_) isPlain).bind fun _ isPlain => .pure isPlain
      obtain ⟨deep, viewing, writing⟩ := enough bounds
      rw [depth] at deep
      rw [growth] at viewing writing
      exact ⟨by omega, by omega, by omega⟩
  | case2 other a b apart =>
    rw [parts, if_neg apart, List.foldlM_cons]
    exact (ih _ gentle level v enough plain).bind fun _ isPlain => .pure isPlain
  | case3 query noChain =>
    rw [parts, List.foldlM_cons]
    · exact (ih _ gentle level v enough plain).bind fun _ isPlain => .pure isPlain
    · exact noChain

theorem CalmIn.chain (ih : CalmIn bounded room) (link : Link) {a b : Query}
    (first : a.isGentle bounded) (second : b.isGentle bounded) :
    CalmFor bounded (room + 1) (.chain link a b) := by
  intro level v enough plain
  rw [growth, ← Nat.add_assoc]
  refine (ih.parts link a first (fun bounds => ?_) plain).bind fun w isPlain =>
    ih b second _ w (fun bounds => ?_) isPlain
  · exact (enough bounds).inside (by rw [depth]; omega) (by rw [growth]; omega)
  · exact (enough bounds).inside (by rw [depth]; omega) (by rw [growth]; omega)

theorem CalmIn.flatten (ih : CalmIn bounded room) {base : Query} (gentle : base.isGentle bounded) :
    CalmFor bounded (room + 1) (.flatten base) := by
  intro level v enough plain
  rw [growth]
  refine (ih base gentle level v (fun bounds => ?_) plain).bind fun w isPlain =>
    .pure (isPlain_flattened isPlain)
  exact (enough bounds).inside (Nat.lt_succ_self _) (Nat.le_refl _)

theorem CalmIn.negation (ih : CalmIn bounded room) {operand : Query}
    (gentle : operand.isGentle bounded) : CalmFor bounded (room + 1) (.negation operand) := by
  intro level v enough plain
  refine (ih operand gentle level v (fun bounds => ?_) plain).bind fun w _ =>
    .pure (isPlain_negated w)
  exact (enough bounds).inside (Nat.lt_succ_self _) (Nat.le_refl _)

/-! ### Two parts for the same value -/

/-- A part of a pair of queries with the greater depth and growth of the two. -/
theorem HasRoom.both (enough : HasRoom (room + 1) level query) (a b : Query)
    (deep : query.depth = max a.depth b.depth + 1) (grows : query.growth = max a.growth b.growth) :
    HasRoom room level a ∧ HasRoom room level b :=
  ⟨enough.inside (by omega) (by omega), enough.inside (by omega) (by omega)⟩

theorem CalmIn.compare (ih : CalmIn bounded room) {relation : Relation}
    (gentle : relation.isGentle) {a b : Query} (first : a.isGentle bounded)
    (second : b.isGentle bounded) : CalmFor bounded (room + 1) (.compare relation a b) := by
  intro level v enough plain
  have both (bounds : bounded) := (enough bounds).both a b rfl rfl
  refine (ih a first level v (fun bounds => (both bounds).1) plain).bind fun w isPlain =>
    (ih b second level v (fun bounds => (both bounds).2) plain).bind fun w' _ => ?_
  refine .higher (.lift (calm_related gentle isPlain (fun bounds => (both bounds).1.2.1) w')) ?_
  rw [growth]
  omega

theorem CalmIn.either (ih : CalmIn bounded room) {a b : Query} (first : a.isGentle bounded)
    (second : b.isGentle bounded) : CalmFor bounded (room + 1) (.either a b) := by
  intro level v enough plain
  have both (bounds : bounded) := (enough bounds).both a b rfl rfl
  rw [growth]
  refine (ih a first level v (fun bounds => (both bounds).1) plain).bind fun w isPlain => ?_
  split
  · exact (ih b second level v (fun bounds => (both bounds).2) plain).higher (by omega)
  · exact Calm.higher (.pure isPlain) (by omega)

theorem CalmIn.both (ih : CalmIn bounded room) {a b : Query} (first : a.isGentle bounded)
    (second : b.isGentle bounded) : CalmFor bounded (room + 1) (.both a b) := by
  intro level v enough plain
  have both (bounds : bounded) := (enough bounds).both a b rfl rfl
  rw [growth]
  refine (ih a first level v (fun bounds => (both bounds).1) plain).bind fun w isPlain => ?_
  split
  · exact Calm.higher (.pure isPlain) (by omega)
  · exact (ih b second level v (fun bounds => (both bounds).2) plain).higher (by omega)

/-! ### Projections -/

/-- A projection is calm if its query is calm on every item. What is null is left out of the list of
the results, which is one level above them. -/
theorem calm_projected (inner : Nat) {f : Datum → Evaluation Datum} {items : List Datum}
    (deeper : bounded → inner < level)
    (each : ∀ item ∈ items, Calm bounded (·.IsPlain bounded inner) (f item)) :
    Calm bounded (·.IsPlain bounded level)
      (do return .list (withoutNull (← items.mapM f)) : Evaluation Datum) :=
  (Calm.mapM each).bind fun _ arePlain =>
    .pure (.list deeper fun w member => arePlain w (List.mem_filter.mp member).1)

theorem CalmIn.projection (ih : CalmIn bounded room) {base item : Query}
    (first : base.isGentle bounded) (second : item.isGentle bounded) :
    CalmFor bounded (room + 1) (.projection base item) := by
  intro level v enough plain
  rw [growth]
  refine (ih base first level v (fun bounds => ?_) plain).bind fun w isPlain => ?_
  · exact (enough bounds).inside (by rw [depth]; omega) (by rw [growth]; omega)
  · cases isPlain with
    | @list _ inner items deeper each =>
      refine calm_projected (inner + item.growth) (fun bounds => ?_) fun w member =>
        ih item second inner w (fun bounds => ?_) (each w member)
      · have := deeper bounds
        omega
      · have := deeper bounds
        exact (enough bounds).inside (by rw [depth]; omega) (by rw [growth]; omega)
    | atom plain => exact .pure Datum.isPlain_null
    | object deeper keys each => exact .pure Datum.isPlain_null

theorem CalmIn.memberProjection (ih : CalmIn bounded room) {base item : Query}
    (first : base.isGentle bounded) (second : item.isGentle bounded) :
    CalmFor bounded (room + 1) (.memberProjection base item) := by
  intro level v enough plain
  rw [growth]
  refine (ih base first level v (fun bounds => ?_) plain).bind fun w isPlain => ?_
  · exact (enough bounds).inside (by rw [depth]; omega) (by rw [growth]; omega)
  · cases isPlain with
    | @object _ inner members deeper keys each =>
      refine calm_projected (inner + item.growth) (fun bounds => ?_)
        (List.forall_mem_map.mpr fun m member =>
          ih item second inner m.2 (fun bounds => ?_) (each m member))
      · have := deeper bounds
        omega
      · have := deeper bounds
        exact (enough bounds).inside (by rw [depth]; omega) (by rw [growth]; omega)
    | atom plain => exact .pure Datum.isPlain_null
    | list deeper each => exact .pure Datum.isPlain_null

theorem CalmIn.filterProjection (ih : CalmIn bounded room) {base item condition : Query}
    (first : base.isGentle bounded) (second : item.isGentle bounded)
    (third : condition.isGentle bounded) :
    CalmFor bounded (room + 1) (.filterProjection base item condition) := by
  intro level v enough plain
  rw [growth]
  refine (ih base first level v (fun bounds => ?_) plain).bind fun w isPlain => ?_
  · exact (enough bounds).inside (by rw [depth]; omega) (by rw [growth]; omega)
  · cases isPlain with
    | @list _ inner items deeper each =>
      refine calm_projected (inner + max item.growth condition.growth) (fun bounds => ?_)
        fun w member => ?_
      · have := deeper bounds
        omega
      · refine (ih condition third inner w (fun bounds => ?_) (each w member)).bind fun meets _ => ?_
        · have := deeper bounds
          exact (enough bounds).inside (by rw [depth]; omega) (by rw [growth]; omega)
        · split
          · exact .pure Datum.isPlain_null
          · refine (ih item second inner w (fun bounds => ?_) (each w member)).higher (by omega)
            have := deeper bounds
            exact (enough bounds).inside (by rw [depth]; omega) (by rw [growth]; omega)
    | atom plain => exact .pure Datum.isPlain_null
    | object deeper keys each => exact .pure Datum.isPlain_null

/-! ### Constructors and calls -/

theorem CalmIn.items (ih : CalmIn bounded room) {items : List Query}
    (gentle : ∀ item ∈ items, item.isGentle bounded)
    (enough : bounded → depthOfItems items ≤ room ∧ level + growthOfItems items ≤ Room.viewing ∧
      level + growthOfItems items ≤ Room.writing) (plain : v.IsPlain bounded level) :
    Calm bounded (fun results => ∀ w ∈ results, w.IsPlain bounded (level + growthOfItems items))
      (items.mapM fun item => eval room item v) := by
  refine .mapM fun item member => ?_
  have least := le_of_mem_items member
  refine (ih item (gentle item member) level v (fun bounds => ?_) plain).higher (by omega)
  obtain ⟨deep, viewing, writing⟩ := enough bounds
  exact ⟨by omega, by omega, by omega⟩

theorem CalmIn.listOf (ih : CalmIn bounded room) {items : List Query}
    (gentle : ∀ item ∈ items, item.isGentle bounded) :
    CalmFor bounded (room + 1) (.listOf items) := by
  intro level v enough plain
  by_cases isNull : v = .null
  · rw [isNull]
    exact .pure Datum.isPlain_null
  · rw [eval, growth]
    · refine (ih.items gentle (fun bounds => ?_) plain).bind fun results arePlain =>
        .pure (isPlain_list arePlain)
      obtain ⟨deep, viewing, writing⟩ := enough bounds
      rw [depth] at deep
      rw [growth] at viewing writing
      omega
    · exact isNull

theorem CalmIn.objectOf (ih : CalmIn bounded room) {members : List (String × Query)}
    (gentle : ∀ m ∈ members, m.2.isGentle bounded) :
    CalmFor bounded (room + 1) (.objectOf members) := by
  intro level v enough plain
  by_cases isNull : v = .null
  · rw [isNull]
    exact .pure Datum.isPlain_null
  · rw [eval, growth]
    · have each (m : String × Query) (member : m ∈ members) :
          Calm bounded (fun made : Atom × Datum => made.1.isPlain bounded ∧
            made.2.IsPlain bounded (level + growthOfMembers members))
            (do return (.text m.1, ← eval room m.2 v)) := by
        have least := le_of_mem_members member
        refine (ih m.2 (gentle m member) level v (fun bounds => ?_) plain).bind
          fun w isPlain => .pure ⟨rfl, isPlain.mono fun _ => by omega⟩
        exact (enough bounds).inside (by rw [depth]; omega) (by rw [growth]; omega)
      exact (Calm.mapM each).bind fun results arePlain => .pure (isPlain_ofMembers arePlain)
    · exact isNull

theorem CalmIn.call (ih : CalmIn bounded room) {name : String} {arguments : List Query}
    (gentle : isGentleCall bounded name) (each : ∀ item ∈ arguments, item.isGentle bounded) :
    CalmFor bounded (room + 1) (.call name arguments) := by
  intro level v enough plain
  have enough (bounds : bounded) : max (depthOfItems arguments) 1 ≤ room ∧
      level + growthOfItems arguments ≤ Room.viewing ∧
      level + growthOfItems arguments ≤ Room.writing := by
    obtain ⟨deep, viewing, writing⟩ := enough bounds
    rw [depth] at deep
    rw [growth] at viewing writing
    omega
  rw [growth]
  refine (ih.items each (fun bounds => ?_) plain).bind fun values arePlain => ?_
  · have := enough bounds
    omega
  -- the call itself takes room next to its arguments
  · cases room with
    | zero =>
      refine .breakDown (Bool.eq_false_iff.mpr fun bounds => ?_) rfl
      have := enough bounds
      omega
    | succ room =>
      rw [invoke]
      cases isFunction : Function.table.lookup name with
      | none => exact .refuse fun _ => rfl
      | some function =>
        have isGentle : function.isGentle bounded := by
          simpa [isGentleCall, isFunction] using gentle
        exact (Calm.lift (calm_checkArguments arePlain (fun bounds => (enough bounds).2.1) name
          function.signature)).bind fun _ checked =>
            calm_apply isGentle arePlain (fun bounds => (enough bounds).2.2) checked _

/-! ### Whole queries -/

/-- A gentle query is calm on plain values for which there is room. The induction is on the room for
its parts. -/
theorem calm_eval (bounded : Bool) (room : Nat) : CalmIn bounded room := by
  induction room with
  | zero =>
    intro query _ level v enough _
    refine .breakDown (Bool.eq_false_iff.mpr fun bounds => ?_) rfl
    exact Nat.not_lt_zero _ (Nat.lt_of_lt_of_le query.depth_pos (enough bounds).1)
  | succ room ih =>
    intro query gentle
    cases query with
    | current => exact fun level v _ plain => .pure plain
    | field name =>
      exact fun level v _ plain => .pure (isPlain_getD (isPlain_member? plain name))
    | literal value =>
      intro level v _ _
      have isPlain : (Datum.ofJson value).IsPlain bounded value.depth := by
        refine Datum.isPlain_ofJson value fun bounds => Datum.fits_iff.mp ?_
        simpa [isGentle, bounds] using gentle
      exact .pure (isPlain.mono fun _ => Nat.le_add_left _ _)
    | index position => exact fun level v _ plain => .pure (isPlain_itemAt plain position)
    | slice start stop step =>
      exact fun level v _ plain => .lift (calm_sliceOf plain (bne_iff_ne.mp gentle))
    | chain link a b =>
      rw [isGentle, Bool.and_eq_true] at gentle
      exact ih.chain link gentle.1 gentle.2
    | flatten base => exact ih.flatten gentle
    | projection base item =>
      rw [isGentle, Bool.and_eq_true] at gentle
      exact ih.projection gentle.1 gentle.2
    | memberProjection base item =>
      rw [isGentle, Bool.and_eq_true] at gentle
      exact ih.memberProjection gentle.1 gentle.2
    | filterProjection base item condition =>
      rw [isGentle, Bool.and_eq_true, Bool.and_eq_true] at gentle
      exact ih.filterProjection gentle.1.1 gentle.1.2 gentle.2
    | compare relation a b =>
      rw [isGentle, Bool.and_eq_true, Bool.and_eq_true] at gentle
      exact ih.compare gentle.1.1 gentle.1.2 gentle.2
    | either a b =>
      rw [isGentle, Bool.and_eq_true] at gentle
      exact ih.either gentle.1 gentle.2
    | both a b =>
      rw [isGentle, Bool.and_eq_true] at gentle
      exact ih.both gentle.1 gentle.2
    | negation operand => exact ih.negation gentle
    | listOf items => exact ih.listOf (areGentle_iff.mp gentle)
    | objectOf members => exact ih.objectOf (areGentleMembers_iff.mp gentle)
    | call name arguments =>
      rw [isGentle, Bool.and_eq_true] at gentle
      exact ih.call gentle.1 (areGentle_iff.mp gentle.2)
    | reference target => cases gentle

/-- A search by a gentle query in a plain value is calm, if there is room for it. -/
theorem calm_search (gentle : query.isGentle bounded)
    (enough : bounded → HasRoom (Room.evaluating + 2) level query)
    (plain : v.IsPlain bounded level) :
    CalmOutcome bounded (·.IsPlain bounded (level + query.growth)) (search query v) :=
  (calm_eval bounded _ query gentle level v enough plain v.nextMark).bind fun _ isPlain => isPlain

end TemplateFill.Query
