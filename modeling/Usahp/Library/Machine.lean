import Mathlib.Data.List.Basic
import Mathlib.Data.List.Induction

/-!
Deterministic machines driven by a list of inputs. All nondeterminism of the
modelled system sits in the inputs, so a run is a list and a statement about
every run is a statement about every list.

The rules of this module package the inductions over runs: an invariant, an
invariant about the history, and a two-run simulation in which some inputs of
the left run are hidden from the right one.
-/

namespace Usahp.Library

structure Machine (σ ι : Type*) where
  start : σ
  step : σ → ι → σ

namespace Machine

variable {σ ι τ κ : Type*} (machine : Machine σ ι)

def runFrom (state : σ) (inputs : List ι) : σ :=
  inputs.foldl machine.step state

def run (inputs : List ι) : σ := machine.runFrom machine.start inputs

@[simp] theorem runFrom_nil (state : σ) : machine.runFrom state [] = state := rfl

@[simp] theorem runFrom_cons (state : σ) (input : ι) (rest : List ι) :
    machine.runFrom state (input :: rest) =
      machine.runFrom (machine.step state input) rest := rfl

theorem runFrom_append (state : σ) (first second : List ι) :
    machine.runFrom state (first ++ second) =
      machine.runFrom (machine.runFrom state first) second :=
  List.foldl_append

theorem run_append (first second : List ι) :
    machine.run (first ++ second) =
      machine.runFrom (machine.run first) second :=
  machine.runFrom_append machine.start first second

theorem run_concat (inputs : List ι) (input : ι) :
    machine.run (inputs ++ [input]) = machine.step (machine.run inputs) input := by
  rw [run_append]
  rfl

/-- Every step of the run meets `good`, a condition on the input and on the
state it is taken from. -/
def Along (good : σ → ι → Prop) : σ → List ι → Prop
  | _, [] => True
  | state, input :: rest => good state input ∧ Along good (machine.step state input) rest

/-- Every state of the run, the first and the last included, meets `property`. -/
def Throughout (property : σ → Prop) : σ → List ι → Prop
  | state, [] => property state
  | state, input :: rest =>
      property state ∧ Throughout property (machine.step state input) rest

instance decidableAlong (good : σ → ι → Prop) [∀ state, DecidablePred (good state)]
    (state : σ) (inputs : List ι) : Decidable (machine.Along good state inputs) :=
  match inputs with
  | [] => isTrue trivial
  | input :: rest =>
      have := decidableAlong good (machine.step state input) rest
      inferInstanceAs (Decidable (_ ∧ _))

instance decidableThroughout (property : σ → Prop) [DecidablePred property]
    (state : σ) (inputs : List ι) : Decidable (machine.Throughout property state inputs) :=
  match inputs with
  | [] => inferInstanceAs (Decidable (property state))
  | input :: rest =>
      have := decidableThroughout property (machine.step state input) rest
      inferInstanceAs (Decidable (_ ∧ _))

theorem invariant_from (property : σ → Prop)
    (hstep : ∀ state input, property state → property (machine.step state input))
    (state : σ) (hstate : property state) (inputs : List ι) :
    property (machine.runFrom state inputs) := by
  induction inputs generalizing state with
  | nil => exact hstate
  | cons input rest ih => exact ih _ (hstep state input hstate)

theorem invariant (property : σ → Prop) (hstart : property machine.start)
    (hstep : ∀ state input, property state → property (machine.step state input))
    (inputs : List ι) : property (machine.run inputs) :=
  machine.invariant_from property hstep machine.start hstart inputs

/-- A property of the inputs seen so far together with the state they lead
to. This is the form of the rule for statements about the history of a run. -/
theorem history_invariant (property : List ι → σ → Prop)
    (hstart : property [] machine.start)
    (hstep : ∀ inputs input, property inputs (machine.run inputs) →
      property (inputs ++ [input]) (machine.step (machine.run inputs) input))
    (inputs : List ι) : property inputs (machine.run inputs) := by
  induction inputs using List.reverseRecOn with
  | nil => exact hstart
  | append_singleton inputs input ih =>
      rw [run_concat]
      exact hstep inputs input ih

theorem along_append {good : σ → ι → Prop} {state : σ} {first second : List ι} :
    machine.Along good state (first ++ second) ↔
      machine.Along good state first ∧
        machine.Along good (machine.runFrom state first) second := by
  induction first generalizing state with
  | nil => simp [Along]
  | cons input rest ih => simp only [List.cons_append, Along, runFrom_cons, ih, and_assoc]

theorem along_last {good : σ → ι → Prop} {state : σ} {inputs : List ι} {last : ι}
    (h : machine.Along good state (inputs ++ [last])) :
    good (machine.runFrom state inputs) last :=
  (machine.along_append.mp h).2.1

theorem throughout_head {property : σ → Prop} {state : σ} {inputs : List ι}
    (h : machine.Throughout property state inputs) : property state := by
  cases inputs with
  | nil => exact h
  | cons _ _ => exact h.1

theorem throughout_last {property : σ → Prop} {state : σ} {inputs : List ι}
    (h : machine.Throughout property state inputs) :
    property (machine.runFrom state inputs) := by
  induction inputs generalizing state with
  | nil => exact h
  | cons _ _ ih => exact ih h.2

theorem throughout_append {property : σ → Prop} {state : σ} {first second : List ι} :
    machine.Throughout property state (first ++ second) ↔
      machine.Throughout property state first ∧
        machine.Throughout property (machine.runFrom state first) second := by
  induction first generalizing state with
  | nil =>
      constructor
      · intro h
        exact ⟨machine.throughout_head h, h⟩
      · rintro ⟨_, h⟩
        exact h
  | cons input rest ih =>
      simp only [List.cons_append, Throughout, runFrom_cons, ih, and_assoc]

theorem throughout_concat {property : σ → Prop} {state : σ} {inputs : List ι}
    {input : ι} :
    machine.Throughout property state (inputs ++ [input]) ↔
      machine.Throughout property state inputs ∧
        property (machine.step (machine.runFrom state inputs) input) := by
  rw [throughout_append]
  constructor
  · rintro ⟨h, hlast⟩
    exact ⟨h, hlast.2⟩
  · rintro ⟨h, hlast⟩
    exact ⟨h, machine.throughout_last h, hlast⟩

/-- An invariant that the good steps keep holds throughout a run of them. -/
theorem throughout_of_along {good : σ → ι → Prop} (property : σ → Prop)
    (hstep : ∀ state input, property state → good state input →
      property (machine.step state input))
    {state : σ} (hstate : property state) {inputs : List ι}
    (hgood : machine.Along good state inputs) : machine.Throughout property state inputs := by
  induction inputs generalizing state with
  | nil => exact hstate
  | cons input rest ih => exact ⟨hstate, ih (hstep state input hstate hgood.1) hgood.2⟩

theorem Throughout.mono {property wider : σ → Prop}
    (hwider : ∀ state, property state → wider state) {state : σ} {inputs : List ι}
    (h : machine.Throughout property state inputs) :
    machine.Throughout wider state inputs := by
  induction inputs generalizing state with
  | nil => exact hwider state h
  | cons input rest ih => exact ⟨hwider state h.1, ih h.2⟩

/-- What is left of the inputs when some are hidden and the others translated,
each in the state it is taken from. -/
def visible (show_ : σ → ι → Option κ) : σ → List ι → List κ
  | _, [] => []
  | state, input :: rest =>
      match show_ state input with
      | none => visible show_ (machine.step state input) rest
      | some shown => shown :: visible show_ (machine.step state input) rest

theorem visible_append (show_ : σ → ι → Option κ) (state : σ) (first second : List ι) :
    machine.visible show_ state (first ++ second) =
      machine.visible show_ state first ++
        machine.visible show_ (machine.runFrom state first) second := by
  induction first generalizing state with
  | nil => rfl
  | cons input rest ih =>
      rw [List.cons_append, visible, visible, runFrom_cons, ih]
      cases show_ state input with
      | none => rfl
      | some shown => rfl

theorem visible_concat (show_ : σ → ι → Option κ) (state : σ) (inputs : List ι) (input : ι) :
    machine.visible show_ state (inputs ++ [input]) =
      machine.visible show_ state inputs ++
        (show_ (machine.runFrom state inputs) input).toList := by
  rw [visible_append]
  refine congrArg (_ ++ ·) ?_
  rw [visible]
  cases show_ (machine.runFrom state inputs) input with
  | none => rfl
  | some shown => rfl

/-- Two runs, of which the second one gets the visible inputs only. A relation
that a hidden input keeps on its own, and a visible one together with its
translation, holds at the end. -/
theorem simulation (other : Machine τ κ) (show_ : σ → ι → Option κ)
    (good : σ → ι → Prop) (related : σ → τ → Prop)
    (hhidden : ∀ left right input, related left right → good left input →
      show_ left input = none → related (machine.step left input) right)
    (hshown : ∀ left right input shown, related left right → good left input →
      show_ left input = some shown →
        related (machine.step left input) (other.step right shown))
    {left : σ} {right : τ} (hrelated : related left right) {inputs : List ι}
    (hgood : machine.Along good left inputs) :
    related (machine.runFrom left inputs)
      (other.runFrom right (machine.visible show_ left inputs)) := by
  induction inputs generalizing left right with
  | nil => exact hrelated
  | cons input rest ih =>
      obtain ⟨hinput, hrest⟩ := hgood
      rw [runFrom_cons, visible]
      cases hshow : show_ left input with
      | none => exact ih (hhidden left right input hrelated hinput hshow) hrest
      | some shown =>
          exact ih (hshown left right input shown hrelated hinput hshow) hrest

end Machine

end Usahp.Library
