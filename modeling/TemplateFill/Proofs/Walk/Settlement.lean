import Mathlib.Data.List.Forall2
import TemplateFill.Proofs.Walk.Agreement

/-!
# Every control is settled

Populating a root settles the outermost controls below it, and below those that are shown or
repeated the controls that come next. Each control reached has one account, and the findings
of the run are the problems of the accounts: one for a control that failed, none for one that
was filled or removed, at most one for one that is shown. Only a section can have several: one
for each value that is no object, and one more if a value cannot be shown, which ends it.
-/

namespace TemplateFill.Walk

open Xml

/-! ### The controls that are reached -/

theorem Settles.subject {options : Options} {place : Place} {scope : Datum}
    {lists kept : ListStore} {node : Node} {account : Account} {left : List Node}
    (settled : Settles options place scope lists node account left kept) :
    account.subject = node.lineage := by
  cases settled <;> rfl

mutual

theorem Account.findings_perm :
    (account : Account) → account.findings.Perm (account.reached.flatMap Account.own)
  | .failed _ _ => .refl _
  | .filled _ _ => .refl _
  | .removed _ => .refl _
  | .shown subject complaint below => by
    have inside := findingsOf_perm below
    rw [Account.findings, Account.reached, List.flatMap_cons]
    exact inside.append_left _
  | .repeated subject entries fault => by
    have inside := entryFindings_perm subject entries
    rw [Account.findings, Account.reached, List.flatMap_cons, Account.own, Account.problems,
      List.map_append]
    refine (inside.append_right _).trans ?_
    rw [List.append_assoc, List.append_assoc]
    exact List.perm_append_comm.append_left _

/-- Sorted by the controls reached, the findings are what each of them has itself. -/
theorem findingsOf_perm :
    (accounts : List Account) → (findingsOf accounts).Perm ((reachedOf accounts).flatMap Account.own)
  | [] => .refl _
  | account :: rest => by
    have first := account.findings_perm
    have onward := findingsOf_perm rest
    rw [findingsOf, reachedOf, List.flatMap_append]
    exact first.append onward

theorem entryFindings_perm (subject : Lineage) :
    (entries : List Entry) → (entryFindings subject entries).Perm
      ((entries.filterMap Entry.problem?).map (fun problem => ⟨problem, subject⟩) ++
        (entriesReached entries).flatMap Account.own)
  | [] => .refl _
  | .copied below :: rest => by
    have inside := findingsOf_perm below
    have onward := entryFindings_perm subject rest
    rw [entryFindings, entriesReached, List.flatMap_append, List.filterMap_cons_none rfl]
    exact (inside.append onward).trans (List.perm_append_comm_assoc _ _ _)
  | .rejected problem :: rest => by
    have onward := entryFindings_perm subject rest
    rw [entryFindings, entriesReached, List.filterMap_cons_some (by rfl), List.map_cons]
    exact onward.cons _

end

/-! ### The values of a section -/

/-- An object has a copy, and a value that is no object is rejected as what it is shown as. -/
inductive Entry.Fits (tag : String) : Datum → Entry → Prop
  | copied (members : List (Atom × Datum)) (below : List Account) :
    Fits tag (.object members) (.copied below)
  | rejected {value : Datum} {shown : String} (noObject : ∀ members, value ≠ .object members)
    (isShown : Scope.stringify value = .ok shown) : Fits tag value (.rejected (.notObject shown tag))

/-- What ends the values of a section: nothing, or the first value that cannot be shown, with
its fault. -/
def EndsWith (rest : List Datum) : Option Fault → Prop
  | none => rest = []
  | some cause => ∃ value further, rest = value :: further ∧
    (∀ members, value ≠ .object members) ∧ Scope.stringify value = .error cause

/-- A section has an entry for each value before the one that ends it. -/
theorem SettlesItems.fits {options : Options} {place : Place} {tag : String} {item : Node}
    {index : Nat} {lists kept : ListStore} {values : List Datum} {entries : List Entry}
    {copies : List Node} {fault : Option Fault}
    (settled : SettlesItems options place tag item index lists values entries copies fault kept) :
    ∃ used rest, values = used ++ rest ∧ List.Forall₂ (Entry.Fits tag) used entries ∧
      EndsWith rest fault := by
  induction values generalizing index lists entries copies with
  | nil =>
    obtain ⟨rfl, rfl, rfl, rfl⟩ := settlesItems_nil.mp settled
    exact ⟨[], [], rfl, .nil, rfl⟩
  | cons value others ih =>
    cases settled with
    | copied first onward =>
      obtain ⟨used, rest, rfl, fits, ends⟩ := ih onward
      exact ⟨_ :: used, rest, rfl, .cons (.copied _ _) fits, ends⟩
    | rejected noObject isShown onward =>
      obtain ⟨used, rest, rfl, fits, ends⟩ := ih onward
      exact ⟨_ :: used, rest, rfl, .cons (.rejected noObject isShown) fits, ends⟩
    | stopped noObject unshown =>
      exact ⟨[], _, rfl, .nil, value, others, rfl, noObject, unshown⟩

/-! ### A whole run -/

theorem settledOn_populate (options : Options) (root : Node) (scope : Datum)
    (lists : ListStore) :
    SettledOn (SettlesAll options (.ofRoot root) scope lists root.children) findingsOf
      (effect (populateAll options (.ofRoot root) scope root.children) lists) := by
  cases root with
  | element name lineage traits children =>
    exact (settledOn_walk options).1 _ scope _ rfl lists
  | _ =>
    change SettledOn (SettlesAll options _ scope lists []) findingsOf
      (effect (populateAll options _ scope []) lists)
    rw [effect_populateAll_nil]
    exact ⟨[], fun _ _ _ => settlesAll_nil, rfl⟩

end TemplateFill.Walk
