import TemplateFill.Proofs.Number.Numeral
import TemplateFill.Proofs.Traversal
import TemplateFill.Scope

/-!
# Written values

A value is written into a document as a text. Null and the empty text leave nothing there, and they
are the only values that do: a number has digits, a list or an object has brackets.
-/

namespace TemplateFill

open Data (Json)

/-! ### Numbers -/

theorem Number.Decimal.text_ne_empty (d : Decimal) : d.text ≠ "" := by
  unfold Decimal.text
  dsimp only
  split
  · split <;> simp
  · simp

theorem Number.floatText_ne_empty (x : Float) : floatText plainNames x ≠ "" := by
  unfold floatText
  cases viewFloat x with
  | notANumber => decide
  | infinite negative => cases negative <;> decide
  | finite negative size =>
    dsimp only
    split <;> split <;> simp [Decimal.text_ne_empty]

theorem Number.toString_ne_empty (n : Int) : toString n ≠ "" := by
  intro isEmpty
  have letters := toList_toString n
  rw [isEmpty] at letters
  have digits := (List.append_eq_nil_iff.mp letters.symm).2
  exact Nat.toDigits_ne_nil digits

/-! ### Lists and objects -/

theorem Data.Json.indentedText_list_ne_empty (items : List Json) :
    (Json.list items).indentedText ≠ "" := by
  cases items with
  | nil => decide
  | cons item items => simp [Json.indentedText, Json.write]

theorem Data.Json.indentedText_object_ne_empty (members : List (String × Json)) :
    (Json.object members).indentedText ≠ "" := by
  cases members with
  | nil => decide
  | cons member members => simp [Json.indentedText, Json.write]

/-! ### All values -/

theorem Datum.exists_list_of_toJson {onReference : Except Obstacle Json} {room : Nat}
    {items : List Datum} {v : Json} (isPlain : (Datum.list items).toJson onReference room = .ok v) :
    ∃ items, v = .list items := by
  cases room with
  | zero => cases isPlain
  | succ room =>
    rw [toJson] at isPlain
    obtain ⟨items, -, rfl⟩ := map_eq_ok isPlain
    exact ⟨items, rfl⟩

theorem Datum.exists_object_of_toJson {onReference : Except Obstacle Json} {room : Nat}
    {members : List (Atom × Datum)} {v : Json}
    (isPlain : (Datum.object members).toJson onReference room = .ok v) :
    ∃ members, v = .object members := by
  cases room with
  | zero => cases isPlain
  | succ room =>
    rw [toJson] at isPlain
    obtain ⟨members, -, rfl⟩ := map_eq_ok isPlain
    exact ⟨members, rfl⟩

theorem Scope.stringify_eq_empty_iff [Room] (v : Datum) :
    stringify v = .ok "" ↔ v = .null ∨ v = .text "" := by
  cases v with
  | atom a =>
    cases a with
    | null => simp [stringify]
    | bool b => cases b <;> simp [stringify]
    | int n =>
      have nonempty : stringify (.int n) ≠ .ok "" := by
        intro written
        rw [stringify] at written
        obtain ⟨isText, -⟩ := Number.writeNumeral_eq_ok (mapError_eq_ok written)
        exact Number.toString_ne_empty n isText.symm
      simp [nonempty]
    | float x mark => simp [stringify, Number.floatText_ne_empty]
    | text s => simp [stringify]
    | reference target mark => simp [stringify, Datum.shown, Atom.shown, Atom.referenceText]
  | list items =>
    have nonempty : stringify (.list items) ≠ .ok "" := by
      intro written
      obtain ⟨json, isJson, isText⟩ := map_eq_ok (mapError_eq_ok written)
      obtain ⟨plain, rfl⟩ := Datum.exists_list_of_toJson isJson
      exact Data.Json.indentedText_list_ne_empty plain isText
    simp [nonempty]
  | object members =>
    have nonempty : stringify (.object members) ≠ .ok "" := by
      intro written
      obtain ⟨json, isJson, isText⟩ := map_eq_ok (mapError_eq_ok written)
      obtain ⟨plain, rfl⟩ := Datum.exists_object_of_toJson isJson
      exact Data.Json.indentedText_object_ne_empty plain isText
    simp [nonempty]

end TemplateFill
