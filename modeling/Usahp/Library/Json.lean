import Mathlib.Algebra.Order.Ring.Int
import Mathlib.Data.Rat.Defs

/-!
JSON values and the readers that records are decoded with. A number is an
integer or a finite fraction, and an object is the list of its members, so
that a repeated name is seen: a field that a record reads may be missing, but
it may not be there twice.

A reader fails without saying why. Members that nothing reads are ignored.
-/

namespace Usahp.Library

inductive Json where
  | null
  | boolean (value : Bool)
  | integer (value : Int)
  | fraction (value : Rat)
  | string (value : String)
  | array (values : List Json)
  | object (members : List (String × Json))

namespace Json

/-- What an object has under a name. -/
inductive Lookup where
  | missing
  | found (value : Json)
  | repeated

def lookup (name : String) : List (String × Json) → Lookup
  | [] => .missing
  | (key, value) :: rest =>
      if key = name then
        match lookup name rest with
        | .missing => .found value
        | _ => .repeated
      else lookup name rest

variable {α : Type}

def readString : Json → Option String
  | .string value => some value
  | _ => none

/-- An unsigned integer of the given width; a fraction is not read as one. -/
def readUnsigned (bits : Nat) : Json → Option Nat
  | .integer value =>
      if 0 ≤ value ∧ value < 2 ^ bits then some value.toNat else none
  | _ => none

def readRational : Json → Option Rat
  | .integer value => some value
  | .fraction value => some value
  | _ => none

def readArray (read : Json → Option α) : Json → Option (List α)
  | .array values => values.mapM read
  | _ => none

def readObject (read : List (String × Json) → Option α) : Json → Option α
  | .object members => read members
  | _ => none

/-- A field that has to be there. -/
def requiredField (name : String) (read : Json → Option α) (members : List (String × Json)) :
    Option α :=
  match lookup name members with
  | .found value => read value
  | _ => none

/-- A field that may be missing or null. -/
def optionalField (name : String) (read : Json → Option α) (members : List (String × Json)) :
    Option (Option α) :=
  match lookup name members with
  | .missing => some none
  | .found .null => some none
  | .found value => (read value).map some
  | .repeated => none

/-- A field that is left out when there is no value. -/
def skipNone (name : String) (write : α → Json) : Option α → List (String × Json)
  | none => []
  | some value => [(name, write value)]

def nullable (write : α → Json) : Option α → Json
  | none => .null
  | some value => write value

theorem readUnsigned_integer {bits value : Nat} (h : value < 2 ^ bits) :
    readUnsigned bits (.integer value) = some value := by
  have hrange : (0 : Int) ≤ value ∧ (value : Int) < 2 ^ bits := by
    refine ⟨Int.natCast_nonneg value, ?_⟩
    exact_mod_cast h
  simp [readUnsigned, hrange]

/-- What a required field is read from. -/
theorem requiredField_some {name : String} {read : Json → Option α}
    {members : List (String × Json)} {result : α}
    (h : requiredField name read members = some result) :
    ∃ value, lookup name members = .found value ∧ read value = some result := by
  unfold requiredField at h
  split at h
  · exact ⟨_, ‹_›, h⟩
  · cases h

theorem readString_some {json : Json} {value : String} (h : readString json = some value) :
    json = .string value := by
  cases json <;> simp_all [readString]

/-- An array is read back when each of its elements is. -/
theorem readArray_map {read : Json → Option α} {write : α → Json} {values : List α}
    (h : ∀ value ∈ values, read (write value) = some value) :
    readArray read (.array (values.map write)) = some values := by
  change (values.map write).mapM read = some values
  induction values with
  | nil => rfl
  | cons value rest ih =>
      have hvalue := h value (by simp)
      have hrest := ih fun other hother => h other (by simp [hother])
      simp [hvalue, hrest]

end Json

end Usahp.Library
