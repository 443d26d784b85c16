import Mathlib.Data.List.Basic

/-!
A resource with two states that is switched by attempts which may fail. An
attempt has a purpose when it asks for the state that the resource is not in;
then those that succeed alternate.
-/

namespace Usahp.Library

/-- An attempt to bring the resource into a state. -/
structure Toggle where
  target : Bool
  succeeded : Bool
  deriving DecidableEq

namespace Toggle

def result (state : Bool) (toggle : Toggle) : Bool :=
  if toggle.succeeded then toggle.target else state

/-- The state after the attempts. -/
def after (state : Bool) (toggles : List Toggle) : Bool := toggles.foldl result state

def Purposeful : Bool → List Toggle → Prop
  | _, [] => True
  | state, toggle :: rest => toggle.target ≠ state ∧ Purposeful (toggle.result state) rest

theorem after_append (state : Bool) (first second : List Toggle) :
    after state (first ++ second) = after (after state first) second :=
  List.foldl_append

theorem purposeful_append {state : Bool} {first second : List Toggle} :
    Purposeful state (first ++ second) ↔
      Purposeful state first ∧ Purposeful (after state first) second := by
  induction first generalizing state with
  | nil => simp [Purposeful, after]
  | cons toggle rest ih =>
      simp only [List.cons_append, Purposeful, ih, and_assoc]
      rfl

/-- The states that are reached one after the other. -/
def reached (toggles : List Toggle) : List Bool :=
  (toggles.filter succeeded).map target

/-- No state is entered twice in a row, nor is the one at the start. -/
theorem Purposeful.alternates {state : Bool} {toggles : List Toggle}
    (h : Purposeful state toggles) : (state :: reached toggles).IsChain (· ≠ ·) := by
  induction toggles generalizing state with
  | nil => exact .singleton _
  | cons toggle rest ih =>
      obtain ⟨hother, hrest⟩ := h
      have hchain := ih hrest
      cases hsucceeded : toggle.succeeded with
      | true =>
          simp only [result, hsucceeded, if_true] at hchain
          simp only [reached, List.filter_cons, hsucceeded, if_true, List.map_cons]
          exact .cons_cons hother.symm hchain
      | false =>
          simp only [result, hsucceeded, Bool.false_eq_true, if_false] at hchain
          simpa only [reached, List.filter_cons, hsucceeded, Bool.false_eq_true, if_false]
            using hchain

end Toggle

end Usahp.Library
