import TemplateFill.Proofs.Walk.Paring

/-!
# Cleared trees

A plain text is written by clearing: elements of a few names go, and nodes that nobody refers to are
put in. Everything else stays, whatever the text is. That is less than paring may do.
-/

namespace TemplateFill.Walk

open Xml

/-- The elements that may go when a plain text is written. -/
def spentNames : List Name :=
  [Word.run, Word.runStyle, Word.runText, Word.lineBreak, Word.carriageReturn,
    Word.placeholderMark]

/-- A node that may go when a plain text is written. -/
def IsSpent (node : Node) : Prop := ∃ name ∈ spentNames, node.isNamed name

def clearing (written : List Name) : Rules := { paring written with drops := IsSpent }

/-- Nodes at a place are cleared to others. -/
abbrev Cleared (written : List Name) : Place → List Node → List Node → Prop :=
  Edited (clearing written)

variable {written : List Name} {place : Place} {nodes left : List Node} {node x : Node}
  {name : Name}

theorem isSpent_of_isNamed (among : name ∈ spentNames) (named : node.isNamed name) :
    IsSpent node := ⟨name, among, named⟩

theorem isSpent_congr (same : x.name? = node.name?) (spent : IsSpent x) : IsSpent node := by
  simp only [IsSpent, Node.isNamed, ← same]
  exact spent

namespace Cleared

/-- To clear is to pare. -/
theorem pared (cleared : Cleared written place nodes left) : Pared written place nodes left :=
  Edited.mono cleared ⟨fun _ => trivial, id, id⟩

theorem mono {more : List Name} (cleared : Cleared written place nodes left)
    (subset : written ⊆ more) : Cleared more place nodes left :=
  Edited.mono cleared
    ⟨id, (subset ·), fun added => ⟨added.admits, added.isMadeOf.mono subset⟩⟩

/-- What is not spent stays the same element. -/
theorem name?_of_not_spent (cleared : Cleared written place [node] [x]) (stays : ¬ IsSpent node) :
    x.name? = node.name? := cleared.drops_or_name?.resolve_left stays

theorem isClosed_clearing (written : List Name) : (clearing written).IsClosed where
  drops {place node x} cleared spent := by
    by_cases stays : IsSpent node
    · exact stays
    · exact isSpent_congr (name?_of_not_spent cleared stays) spent
  adds cleared taken := Pared.takes_of_takes (Cleared.pared cleared) taken

/-- To clear what was cleared is to clear. -/
theorem again {further : List Node} (first : Cleared written place nodes left)
    (second : Cleared written place left further) : Cleared written place nodes further :=
  first.trans (isClosed_clearing written) second

/-! ### Removing what is spent -/

theorem removeChildren {p : Node → Bool} (spent : ∀ x, p x → IsSpent x) (named : node.isNamed name) :
    Cleared written place [node] [node.removeChildren p] :=
  Edited.withChildren named (.filter fun x _ gone => spent x (by simpa using gone))

mutual

theorem keepFirst (among : name ∈ spentNames) (seen : Bool) : (node : Node) → (place : Place) →
    Cleared written place [node] [(node.keepFirst name seen).1]
  | .element _ _ _ children, place =>
    .keep (.inl rfl) (keepFirstOf among seen children (place.enter _)) .nil
  | .aside content tail, place => .refl (.aside content tail) place

theorem keepFirstOf (among : name ∈ spentNames) (seen : Bool) : (nodes : List Node) →
    (place : Place) → Cleared written place nodes (Node.keepFirstOf name seen nodes).1
  | [], _ => .nil
  | node :: rest, place => by
    rw [Node.keepFirstOf]
    split
    · rename_i skipped
      obtain ⟨-, named⟩ := (Bool.and_eq_true _ _).mp skipped
      exact .drop (isSpent_of_isNamed among named) (keepFirstOf among seen rest place)
    · have here := keepFirst among (seen || node.isNamed name) node place
      exact here.append (keepFirstOf among _ rest place)

end

end Cleared

end TemplateFill.Walk
