import Mathlib.Data.List.Induction

/-!
Sequences of beginnings and ends, where one thing at a time is open: nothing
begins within another, and only what is open ends. The last mark says what is
open, and every beginning of such a sequence is one.
-/

namespace Usahp.Library

inductive Mark (α : Type*) where
  | begins (value : α)
  | ends (value : α)
  deriving DecidableEq

/-- The marks are in order and leave `current` open. -/
inductive Bracketed {α : Type*} : List (Mark α) → Option α → Prop
  | nil : Bracketed [] none
  | begins {marks : List (Mark α)} (outside : Bracketed marks none) (value : α) :
      Bracketed (marks ++ [.begins value]) (some value)
  | ends {marks : List (Mark α)} {value : α} (within : Bracketed marks (some value)) :
      Bracketed (marks ++ [.ends value]) none

namespace Bracketed

variable {α : Type*} {marks : List (Mark α)} {current : Option α}

/-- What is open begins with the last mark. -/
theorem current_eq (h : Bracketed marks current) :
    current = marks.getLast?.bind fun
      | .begins value => some value
      | .ends _ => none := by
  cases h with
  | nil => rfl
  | begins outside value => simp
  | ends within => simp

theorem unique {other : Option α} (h : Bracketed marks current) (hother : Bracketed marks other) :
    current = other :=
  h.current_eq.trans hother.current_eq.symm

theorem of_isPrefix (h : Bracketed marks current) {earlier : List (Mark α)}
    (hearlier : earlier <+: marks) : ∃ before, Bracketed earlier before := by
  induction h with
  | nil =>
      rw [List.prefix_nil.mp hearlier]
      exact ⟨none, .nil⟩
  | begins outside value ih =>
      rcases List.prefix_concat_iff.mp hearlier with rfl | hshorter
      · exact ⟨_, outside.begins value⟩
      · exact ih hshorter
  | ends within ih =>
      rcases List.prefix_concat_iff.mp hearlier with rfl | hshorter
      · exact ⟨none, within.ends⟩
      · exact ih hshorter

end Bracketed

end Usahp.Library
