import Mathlib

namespace SbGateway.Lib

/-!
# JSON values

Values as a program sees them that reads documents without a schema.  A text is the list of its
characters, as elsewhere in this development.  An object is a list of fields
in which the first field of a name counts; a field that is absent reads as `null`.

* `Json.get_set_self`, `Json.get_set_ne`, `Json.get_drop_ne` — fields after a change.
-/

/-- A decoded JSON value. -/
inductive Json where
  | null
  | bool (b : Bool)
  | number (n : ℚ)
  | text (s : List Char)
  | array (items : List Json)
  | object (fields : List (String × Json))

namespace Json

/-- The fields of an object. -/
abbrev Fields := List (String × Json)

/-- The text of a value, empty for other values. -/
def textOf : Json → List Char
  | text s => s
  | _ => []

/-- The text of a value, or `fallback` where there is none. -/
def textOr (fallback : List Char) (value : Json) : List Char :=
  if value.textOf = [] then fallback else value.textOf

/-- The fields of a value that is an object. -/
def fields? : Json → Option Fields
  | object fields => some fields
  | _ => none

/-- Whether a value is `false`. -/
def isFalse : Json → Bool
  | bool b => !b
  | _ => false

/-- The field `key`. -/
def get (fields : Fields) (key : String) : Json := (fields.lookup key).getD null

/-- Sets the field `key`. -/
def set : Fields → String → Json → Fields
  | [], key, value => [(key, value)]
  | field :: fields, key, value =>
    if field.1 = key then (key, value) :: fields else field :: set fields key value

/-- Removes the field `key`. -/
def drop (fields : Fields) (key : String) : Fields := fields.filter fun field => field.1 ≠ key

@[simp] theorem textOf_text (s : List Char) : (text s).textOf = s := rfl

@[simp] theorem get_set_self (fields : Fields) (key : String) (value : Json) :
    get (set fields key value) key = value := by
  induction fields with
  | nil => simp [get, set]
  | cons field fields ih =>
    rw [set]
    split
    · simp [get]
    · rename_i hne
      have hlookup : (key == field.1) = false := beq_false_of_ne (Ne.symm hne)
      rw [get, List.lookup_cons, hlookup]
      exact ih

theorem get_set_ne (fields : Fields) (value : Json) (h : other ≠ key) :
    get (set fields key value) other = get fields other := by
  induction fields with
  | nil => simp [get, set, List.lookup_cons, beq_false_of_ne h]
  | cons field fields ih =>
    rw [set]
    split
    · rename_i heq
      obtain ⟨name, old⟩ := field
      obtain rfl : name = key := heq
      simp [get, List.lookup_cons, beq_false_of_ne h]
    · rw [get, get, List.lookup_cons, List.lookup_cons]
      cases other == field.1
      · exact ih
      · rfl

theorem get_drop_ne (fields : Fields) (h : other ≠ key) :
    get (drop fields key) other = get fields other := by
  induction fields with
  | nil => rfl
  | cons field fields ih =>
    by_cases hkey : field.1 = key
    · have hdropped : drop (field :: fields) key = drop fields key := by simp [drop, hkey]
      have hlookup : (other == field.1) = false := beq_false_of_ne (hkey ▸ h)
      rw [hdropped, ih, get, get, List.lookup_cons, hlookup]
    · have hkept : drop (field :: fields) key = field :: drop fields key := by simp [drop, hkey]
      rw [hkept, get, get, List.lookup_cons, List.lookup_cons]
      cases other == field.1
      · exact ih
      · rfl

end Json

end SbGateway.Lib
