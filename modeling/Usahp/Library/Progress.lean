import Mathlib.Order.WellFounded
import Usahp.Library.Machine

/-!
Possible progress of a machine: from a state there are good inputs that lead to
a state with a property. A rank that some good input lowers, as long as the
property does not hold, shows that there are.
-/

namespace Usahp.Library.Machine

variable {σ ι : Type*} (machine : Machine σ ι)

/-- Good inputs can lead from the state to one with the property. -/
def Possible (good : σ → ι → Prop) (property : σ → Prop) (state : σ) : Prop :=
  ∃ inputs, machine.Along good state inputs ∧ property (machine.runFrom state inputs)

variable {machine} {good : σ → ι → Prop} {property : σ → Prop}

theorem Possible.now {state : σ} (h : property state) : machine.Possible good property state :=
  ⟨[], trivial, h⟩

theorem Possible.later {state : σ} {input : ι} (hgood : good state input)
    (h : machine.Possible good property (machine.step state input)) :
    machine.Possible good property state := by
  obtain ⟨rest, hrest, hproperty⟩ := h
  exact ⟨input :: rest, ⟨hgood, hrest⟩, hproperty⟩

/-- The induction is on the rank; the invariant holds of every state on the way. -/
theorem possible_of_rank {α : Type*} [LT α] [WellFoundedLT α] (rank : σ → α) (invariant : σ → Prop)
    (hprogress : ∀ state, invariant state → ¬ property state → ∃ input, good state input ∧
      invariant (machine.step state input) ∧ rank (machine.step state input) < rank state)
    {state : σ} (hstate : invariant state) :
    machine.Possible good (fun last => invariant last ∧ property last) state := by
  induction hrank : rank state using WellFoundedLT.induction generalizing state with
  | ind value ih =>
      by_cases hdone : property state
      · exact .now ⟨hstate, hdone⟩
      · obtain ⟨input, hgood, hnext, hlower⟩ := hprogress state hstate hdone
        exact .later hgood (ih _ (hrank ▸ hlower) hnext rfl)

end Usahp.Library.Machine
