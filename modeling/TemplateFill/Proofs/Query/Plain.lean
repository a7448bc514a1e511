import TemplateFill.Proofs.Data.Nesting
import TemplateFill.Scope

/-!
# Plain values

A query can yield more than plain data, but what comes of data alone holds no references. Such
a value always has a text, unless a whole number in it has too many digits to be written or its
containers are nested too deeply.
-/

namespace TemplateFill

open Data (Json)

/-- Whether numbers or nesting are in the way. -/
def Datum.Obstacle.isLimit : Obstacle → Bool
  | .tooLarge | .tooDeep => true
  | .reference | .referenceKey => false

/-- Whether a query stops because a whole number has too many digits or because of nesting. -/
def Query.Breakdown.isLimit : Breakdown → Bool
  | .numeral (.tooLong _) => true
  | .obstacle cause => cause.isLimit
  | .untold _ | .unread _ | .tooDeep => true
  | _ => false

/-- Whether an operation stops because a whole number has too many digits or because of nesting. -/
def Fault.isLimit : Fault → Bool
  | .numeral (.tooLong _) => true
  | .numeral .tooLarge => true
  | .obstacle cause => cause.isLimit
  | .breakdown cause => cause.isLimit
  | _ => false

/-- Whether an atom is no reference, and no number with too many digits if they are bounded. -/
def Atom.isPlain (bounded : Bool) : Atom → Bool
  | .reference _ _ => false
  | .int n => !(bounded && Number.isOverLimit n)
  | _ => true

theorem Atom.isPlain_int {bounded : Bool} {n : Int} :
    (Atom.int n).isPlain bounded ↔ (bounded → Number.isOverLimit n = false) := by
  simp only [Atom.isPlain]
  cases bounded with
  | false => simp
  | true => simp

/-- A number with too many digits is only plain without bounds. -/
theorem Atom.unbounded {bounded : Bool} {n : Int} (plain : (Atom.int n).isPlain bounded)
    (large : Number.isOverLimit n) : bounded = false := by
  cases bounded with
  | false => rfl
  | true => exact absurd large (Bool.eq_false_iff.mp (Atom.isPlain_int.mp plain rfl))

namespace Datum

/-- A value all parts of which are plain, keys included, with at most `level` containers inside each
other if that is bounded. -/
inductive IsPlain (bounded : Bool) : Nat → Datum → Prop
  | atom {level : Nat} {a : Atom} (plain : a.isPlain bounded) : IsPlain bounded level (.atom a)
  | list {level inner : Nat} {items : List Datum} (deeper : bounded → inner < level)
    (each : ∀ v ∈ items, IsPlain bounded inner v) : IsPlain bounded level (.list items)
  | object {level inner : Nat} {members : List (Atom × Datum)} (deeper : bounded → inner < level)
    (keys : ∀ m ∈ members, m.1.isPlain bounded)
    (each : ∀ m ∈ members, IsPlain bounded inner m.2) : IsPlain bounded level (.object members)

variable {bounded : Bool} {level room : Nat} {v : Datum} {items : List Datum}
  {members : List (Atom × Datum)}

theorem IsPlain.mono {higher : Nat} (plain : v.IsPlain bounded level)
    (le : bounded → level ≤ higher) : v.IsPlain bounded higher := by
  cases plain with
  | atom plain => exact .atom plain
  | list deeper each => exact .list (fun bounds => Nat.lt_of_lt_of_le (deeper bounds) (le bounds)) each
  | object deeper keys each =>
    exact .object (fun bounds => Nat.lt_of_lt_of_le (deeper bounds) (le bounds)) keys each

/-! ### Obstacles -/

theorem fits_iff : v.fits room ↔ v.obstacle? room = none := Option.isNone_iff_eq_none

theorem obstacleAmong?_eq_none :
    obstacleAmong? room items = none ↔ ∀ v ∈ items, v.obstacle? room = none := by
  induction items with
  | nil => simp [obstacleAmong?]
  | cons v items ih => simp [obstacleAmong?, ih]

theorem obstacleAmongMembers?_eq_none : obstacleAmongMembers? room members = none ↔
    ∀ m ∈ members, m.1.isOverLimit = false ∧ m.2.obstacle? room = none := by
  induction members with
  | nil => simp [obstacleAmongMembers?]
  | cons m members ih =>
    rw [obstacleAmongMembers?]
    simp [ih, and_assoc]

theorem obstacle?_int_eq_none {n : Int} :
    (Datum.int n).obstacle? room = none ↔ Number.isOverLimit n = false := by
  rw [obstacle?, Atom.isOverLimit]
  cases Number.isOverLimit n with
  | true => simp
  | false => simp

theorem obstacle?_list_eq_none : (Datum.list items).obstacle? room = none ↔
    0 < room ∧ ∀ v ∈ items, v.obstacle? (room - 1) = none := by
  cases room with
  | zero => simp [obstacle?]
  | succ room => simp [obstacle?, obstacleAmong?_eq_none]

theorem obstacle?_object_eq_none : (Datum.object members).obstacle? room = none ↔
    0 < room ∧ ∀ m ∈ members, m.1.isOverLimit = false ∧ m.2.obstacle? (room - 1) = none := by
  cases room with
  | zero => simp [obstacle?]
  | succ room => simp [obstacle?, obstacleAmongMembers?_eq_none]

theorem ofJsonItems_eq_map (items : List Json) : ofJsonItems items = items.map ofJson := by
  induction items with
  | nil => rfl
  | cons v items ih => rw [ofJsonItems, ih, List.map_cons]

theorem ofJsonMembers_eq_map (members : List (String × Json)) :
    ofJsonMembers members = members.map fun (key, v) => (.text key, ofJson v) := by
  induction members with
  | nil => rfl
  | cons m members ih => rw [ofJsonMembers, ih, List.map_cons]

@[simp] theorem isPlain_null : IsPlain bounded level .null := .atom rfl

@[simp] theorem isPlain_bool (b : Bool) : IsPlain bounded level (.bool b) := .atom rfl

@[simp] theorem isPlain_float (x : Float) (mark : Mark) : IsPlain bounded level (.float x mark) :=
  .atom rfl

@[simp] theorem isPlain_text (s : String) : IsPlain bounded level (.text s) := .atom rfl

theorem isPlain_int {n : Int} (fits : bounded → Number.isOverLimit n = false) :
    IsPlain bounded level (.int n) :=
  .atom (Atom.isPlain_int.mpr fits)

/-- Data is plain. It is within bounds if it can be shown. -/
theorem isPlain_ofJson (v : Json) (fits : bounded → (ofJson v).obstacle? level = none) :
    (ofJson v).IsPlain bounded level := by
  induction v using Json.induction generalizing level with
  | null => exact isPlain_null
  | bool b => exact isPlain_bool b
  | float x => exact isPlain_float x 0
  | text s => exact isPlain_text s
  | int n =>
    refine isPlain_int fun bounds => ?_
    exact obstacle?_int_eq_none.mp (fits bounds)
  | list items ih =>
    rw [ofJson, ofJsonItems_eq_map, obstacle?_list_eq_none] at fits
    rw [ofJson, ofJsonItems_eq_map]
    exact .list (fun bounds => Nat.sub_one_lt_of_lt (fits bounds).1) <|
      List.forall_mem_map.mpr fun item member => ih item member fun bounds =>
        (fits bounds).2 _ (List.mem_map_of_mem member)
  | object members ih =>
    rw [ofJson, ofJsonMembers_eq_map, obstacle?_object_eq_none] at fits
    rw [ofJson, ofJsonMembers_eq_map]
    exact .object (fun bounds => Nat.sub_one_lt_of_lt (fits bounds).1)
      (List.forall_mem_map.mpr fun m member => rfl) <|
      List.forall_mem_map.mpr fun m member => ih m member fun bounds =>
        ((fits bounds).2 _ (List.mem_map_of_mem member)).2

theorem Atom.isOverLimit_eq_false {a : Atom} (plain : a.isPlain true) : a.isOverLimit = false := by
  cases a with
  | int n => exact Atom.isPlain_int.mp plain rfl
  | _ => rfl

/-- A plain value can be shown where there is room for it. -/
theorem IsPlain.obstacle?_eq_none (plain : v.IsPlain true level) (le : level ≤ room) :
    v.obstacle? room = none := by
  induction plain generalizing room with
  | atom plain => rw [obstacle?, Atom.isOverLimit_eq_false plain, if_neg Bool.false_ne_true]
  | list deeper each ih =>
    have := deeper rfl
    exact obstacle?_list_eq_none.mpr ⟨by omega, fun v member => ih v member (by omega)⟩
  | object deeper keys each ih =>
    have := deeper rfl
    exact obstacle?_object_eq_none.mpr ⟨by omega, fun m member =>
      ⟨Atom.isOverLimit_eq_false (keys m member), ih m member (by omega)⟩⟩

/-! ### Comparing -/

theorem exists_sameItems {others : List Datum}
    (each : ∀ v ∈ items, ∀ w, ∃ b, v.same room w = some b) :
    ∃ b, sameItems room items others = some b := by
  induction items generalizing others with
  | nil => cases others with
    | nil => exact ⟨true, rfl⟩
    | cons w others => exact ⟨false, rfl⟩
  | cons v items ih =>
    obtain ⟨here, onward⟩ := List.forall_mem_cons.mp each
    cases others with
    | nil => exact ⟨false, rfl⟩
    | cons w others =>
      obtain ⟨b, isSame⟩ := here w
      rw [sameItems, isSame]
      cases b with
      | true => exact ih onward
      | false => exact ⟨false, rfl⟩

theorem exists_sameMembers {others : List (Atom × Datum)}
    (each : ∀ m ∈ members, ∀ w, ∃ b, m.2.same room w = some b) :
    ∃ b, sameMembers room members others = some b := by
  induction members with
  | nil => exact ⟨true, rfl⟩
  | cons m members ih =>
    obtain ⟨here, onward⟩ := List.forall_mem_cons.mp each
    rw [sameMembers]
    cases Data.Members.find? Atom.same others m.1 with
    | none => exact ⟨false, rfl⟩
    | some w =>
      obtain ⟨b, isSame⟩ := here w
      simp only [isSame]
      cases b with
      | true => exact ih onward
      | false => exact ⟨false, rfl⟩

/-- A plain value can be compared with all others where there is room for it. -/
theorem IsPlain.exists_same (plain : v.IsPlain true level) (le : level ≤ room) (w : Datum) :
    ∃ b, v.same room w = some b := by
  induction plain generalizing room w with
  | @atom _ a plain =>
    cases w with
    | atom b => exact ⟨a.same b, by rw [same]⟩
    | list others => exact ⟨false, by simp [same]⟩
    | object others => exact ⟨false, by simp [same]⟩
  | @list _ _ items deeper each ih =>
    have := deeper rfl
    obtain ⟨room, rfl⟩ : ∃ r, room = r + 1 := ⟨room - 1, by omega⟩
    cases w with
    | list others =>
      rw [same]
      split
      · exact exists_sameItems fun v member w => ih v member (by omega) w
      · exact ⟨false, rfl⟩
    | atom b => exact ⟨false, by simp [same]⟩
    | object others => exact ⟨false, by simp [same]⟩
  | @object _ _ members deeper keys each ih =>
    have := deeper rfl
    obtain ⟨room, rfl⟩ : ∃ r, room = r + 1 := ⟨room - 1, by omega⟩
    cases w with
    | object others =>
      rw [same]
      split
      · exact exists_sameMembers fun m member w => ih m member (by omega) w
      · exact ⟨false, rfl⟩
    | atom b => exact ⟨false, by simp [same]⟩
    | list others => exact ⟨false, by simp [same]⟩

theorem IsPlain.exists_equal (plain : v.IsPlain true level) (le : level ≤ room) (w : Datum) :
    ∃ b, v.equal room w = some b := by
  unfold equal
  split
  · exact ⟨_, rfl⟩
  · exact plain.exists_same le _

end Datum

/-! ### Writing -/

/-- An operation has a result, unless nothing is bounded and a bound stops it. -/
def Returns (bounded : Bool) {ε α : Type} (isLimit : ε → Prop) (result : Except ε α) : Prop :=
  (∃ a, result = .ok a) ∨ bounded = false ∧ ∃ cause, result = .error cause ∧ isLimit cause

namespace Returns

variable {bounded : Bool} {ε ε' α β : Type} {isLimit : ε → Prop} {isLimit' : ε' → Prop}
  {result : Except ε α}

theorem ok (a : α) : Returns bounded isLimit (.ok a) := .inl ⟨a, rfl⟩

theorem error {cause : ε} (unbounded : bounded = false) (limits : isLimit cause) :
    Returns bounded isLimit (.error cause : Except ε α) :=
  .inr ⟨unbounded, cause, rfl, limits⟩

theorem bind {next : α → Except ε β} (first : Returns bounded isLimit result)
    (second : ∀ a, Returns bounded isLimit (next a)) :
    Returns bounded isLimit (result >>= next) := by
  rcases first with ⟨a, rfl⟩ | ⟨unbounded, cause, rfl, limits⟩
  · exact second a
  · exact .error unbounded limits

theorem map (f : α → β) (first : Returns bounded isLimit result) :
    Returns bounded isLimit (result.map f) := by
  rcases first with ⟨a, rfl⟩ | ⟨unbounded, cause, rfl, limits⟩
  · exact .ok (f a)
  · exact .error unbounded limits

theorem mapError {f : ε → ε'} (first : Returns bounded isLimit result)
    (limits : ∀ cause, isLimit cause → isLimit' (f cause)) :
    Returns bounded isLimit' (result.mapError f) := by
  rcases first with ⟨a, rfl⟩ | ⟨unbounded, cause, rfl, limit⟩
  · exact .ok a
  · exact .error unbounded (limits cause limit)

theorem mapM {f : α → Except ε β} {items : List α}
    (each : ∀ a ∈ items, Returns bounded isLimit (f a)) :
    Returns bounded isLimit (items.mapM f) := by
  induction items with
  | nil => exact .ok []
  | cons a items ih =>
    obtain ⟨here, onward⟩ := List.forall_mem_cons.mp each
    rw [List.mapM_cons]
    exact here.bind fun _ => (ih onward).bind fun _ => .ok _

/-- With bounds there is no exception. -/
theorem exists_ok (returns : Returns true isLimit result) : ∃ a, result = .ok a := by
  rcases returns with done | ⟨unbounded, -⟩
  · exact done
  · cases unbounded

end Returns

namespace Datum

variable {bounded : Bool} {level room : Nat} {v : Datum}

theorem keyText_returns {a : Atom} (plain : a.isPlain bounded) :
    Returns bounded (fun cause => cause.isLimit) (keyText a) := by
  cases a with
  | int n =>
    rw [keyText]
    split
    · rename_i large
      exact .error (Atom.unbounded plain large) rfl
    · exact .ok _
  | reference target mark => cases plain
  | _ => exact .ok _

theorem plainAtom_returns {a : Atom} (plain : a.isPlain bounded)
    (onReference : Except Obstacle Json) :
    Returns bounded (fun cause => cause.isLimit) (plainAtom onReference a) := by
  cases a with
  | int n =>
    rw [plainAtom]
    split
    · rename_i large
      exact .error (Atom.unbounded plain large) rfl
    · exact .ok _
  | reference target mark => cases plain
  | _ => exact .ok _

theorem toJsonItems_returns {onReference : Except Obstacle Json} {items : List Datum}
    (each : ∀ v ∈ items, Returns bounded (fun cause => cause.isLimit) (v.toJson onReference room)) :
    Returns bounded (fun cause => cause.isLimit) (toJsonItems onReference room items) := by
  induction items with
  | nil => exact .ok []
  | cons v items ih =>
    obtain ⟨here, onward⟩ := List.forall_mem_cons.mp each
    rw [toJsonItems]
    exact here.bind fun _ => (ih onward).bind fun _ => .ok _

theorem toJsonMembers_returns {onReference : Except Obstacle Json} {members : List (Atom × Datum)}
    (keys : ∀ m ∈ members, m.1.isPlain bounded)
    (each : ∀ m ∈ members,
      Returns bounded (fun cause => cause.isLimit) (m.2.toJson onReference room)) :
    Returns bounded (fun cause => cause.isLimit) (toJsonMembers onReference room members) := by
  induction members with
  | nil => exact .ok []
  | cons m members ih =>
    obtain ⟨key, keys⟩ := List.forall_mem_cons.mp keys
    obtain ⟨here, onward⟩ := List.forall_mem_cons.mp each
    rw [toJsonMembers]
    exact (keyText_returns key).bind fun _ => here.bind fun _ =>
      (ih keys onward).bind fun _ => .ok _

theorem IsPlain.toJson_returns (plain : v.IsPlain bounded level)
    (onReference : Except Obstacle Json) (enough : bounded → level ≤ room) :
    Returns bounded (fun cause => cause.isLimit) (v.toJson onReference room) := by
  induction plain generalizing room with
  | atom plain =>
    rw [toJson]
    exact plainAtom_returns plain onReference
  | list deeper each ih =>
    have inside (bounds : bounded) := Nat.lt_of_lt_of_le (deeper bounds) (enough bounds)
    cases room with
    | zero => exact .error (Bool.eq_false_iff.mpr fun bounds => Nat.not_lt_zero _ (inside bounds)) rfl
    | succ room =>
      rw [toJson]
      exact .map _ (toJsonItems_returns fun v member =>
        ih v member fun bounds => Nat.le_of_lt_succ (inside bounds))
  | object deeper keys each ih =>
    have inside (bounds : bounded) := Nat.lt_of_lt_of_le (deeper bounds) (enough bounds)
    cases room with
    | zero => exact .error (Bool.eq_false_iff.mpr fun bounds => Nat.not_lt_zero _ (inside bounds)) rfl
    | succ room =>
      rw [toJson]
      exact .map _ (toJsonMembers_returns keys fun m member =>
        ih m member fun bounds => Nat.le_of_lt_succ (inside bounds))

/-- A plain value has a text, unless a bound on numbers or nesting is in the way. -/
theorem IsPlain.stringify_returns [Room] (plain : v.IsPlain bounded level)
    (enough : bounded → level ≤ Room.writing) :
    Returns bounded (fun cause => cause.isLimit) (Scope.stringify v) := by
  cases plain with
  | @atom _ a plain =>
    cases a with
    | int n =>
      change Returns bounded _ ((Number.writeNumeral n).mapError Fault.numeral)
      rw [Number.writeNumeral]
      split
      · rename_i large
        exact .error (Atom.unbounded plain large) rfl
      · exact .ok _
    | reference target mark => cases plain
    | _ => exact .ok _
  | list deeper each =>
    change Returns bounded _ (((Datum.toJson _ _ _).map _).mapError Fault.obstacle)
    exact ((IsPlain.list deeper each).toJson_returns _ enough).map _ |>.mapError fun _ limit => limit
  | object deeper keys each =>
    change Returns bounded _ (((Datum.toJson _ _ _).map _).mapError Fault.obstacle)
    exact ((IsPlain.object deeper keys each).toJson_returns _ enough).map _
      |>.mapError fun _ limit => limit

end Datum

end TemplateFill
