import TemplateFill.Data.Json

/-!
# Data inside data

Lists and objects hold data, so facts about all data are shown by induction on what is inside.
-/

namespace TemplateFill.Data.Members

variable {κ α : Type} {same : κ → κ → Bool}

/-- Setting members makes none but of the keys and values that are there. -/
theorem forall_putAll (ofKey : κ → Prop) (ofValue : α → Prop) {members extra : List (κ × α)}
    (before : ∀ m ∈ members, ofKey m.1 ∧ ofValue m.2)
    (each : ∀ m ∈ extra, ofKey m.1 ∧ ofValue m.2) :
    ∀ m ∈ putAll same members extra, ofKey m.1 ∧ ofValue m.2 := by
  induction extra generalizing members with
  | nil => exact before
  | cons first extra ih =>
    obtain ⟨here, onward⟩ := List.forall_mem_cons.mp each
    refine ih (fun m member => ?_) onward
    change m ∈ put same members first.1 first.2 at member
    rw [put] at member
    split at member
    · obtain ⟨old, inside, rfl⟩ := List.mem_map.mp member
      split
      · exact ⟨(before old inside).1, here.2⟩
      · exact before old inside
    · rcases List.mem_append.mp member with inside | isNew
      · exact before m inside
      · rw [List.mem_singleton.mp isNew]
        exact here

end TemplateFill.Data.Members

namespace TemplateFill.Data.Json

/-- A fact about all data is shown for containers whose parts have it. -/
@[elab_as_elim]
theorem induction {motive : Json → Prop} (null : motive .null)
    (bool : ∀ b, motive (.bool b)) (int : ∀ n, motive (.int n)) (float : ∀ x, motive (.float x))
    (text : ∀ s, motive (.text s))
    (list : ∀ items, (∀ v ∈ items, motive v) → motive (.list items))
    (object : ∀ members, (∀ m ∈ members, motive m.2) → motive (.object members))
    (v : Json) : motive v := by
  match v with
  | .null => exact null
  | .bool b => exact bool b
  | .int n => exact int n
  | .float x => exact float x
  | .text s => exact text s
  | .list items =>
    exact list items fun v member => induction null bool int float text list object v
  | .object members =>
    exact object members fun m member => induction null bool int float text list object m.2
termination_by sizeOf v
decreasing_by
  · have := List.sizeOf_lt_of_mem member
    simp only [Json.list.sizeOf_spec]
    omega
  · have := List.sizeOf_lt_of_mem member
    obtain ⟨key, value⟩ := m
    simp only [Json.object.sizeOf_spec, Prod.mk.sizeOf_spec] at this ⊢
    omega

mutual

/-- How many lists and objects stand inside each other in a value. -/
def depth : Json → Nat
  | .list items => depthOfItems items + 1
  | .object members => depthOfMembers members + 1
  | _ => 0

def depthOfItems : List Json → Nat
  | [] => 0
  | item :: items => max item.depth (depthOfItems items)

def depthOfMembers : List (String × Json) → Nat
  | [] => 0
  | (_, value) :: members => max value.depth (depthOfMembers members)

end

end TemplateFill.Data.Json
