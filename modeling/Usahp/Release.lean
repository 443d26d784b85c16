import Mathlib.Data.List.Perm.Basic
import Usahp.StateHistory

/-!
Letting everything go. `release_all` empties the sets of all switches in one
pass; here it is compared with releases of the held mappings one by one, in any
order. A switch reports its release with the last of its mappings, so the order
decides which mapping that is and nothing else.
-/

namespace Usahp.SwitchStateMachine

open Std Usahp.Library

/-- Some switch records the mapping as held. -/
def Holding (machine : SwitchStateMachine) (mappingId : String) : Prop :=
  ∃ switchId, mappingId ∈ machine.active switchId

/-- One `apply` with `Released` and `Some(0.0)` for each mapping, in order. The
first error ends it. -/
def releaseEach (machine : SwitchStateMachine) :
    List String → Except StateError (List LogicalTransition) × SwitchStateMachine
  | [] => (.ok [], machine)
  | mappingId :: rest =>
      match machine.apply mappingId .released (some (.finite 0)) with
      | (.error error, after) => (.error error, after)
      | (.ok transition, after) =>
          let (transitions, final) := after.releaseEach rest
          (transitions.map (transition.toList ++ ·), final)

/-- What is held, is held by its own switch. -/
def Owned (machine : SwitchStateMachine) : Prop :=
  ∀ mappingId switchId, mappingId ∈ machine.active switchId →
    machine.mappingToSwitch[mappingId]? = some switchId

/-- The switches of some mappings, each where the last of its mappings is. -/
def lastSwitches (machine : SwitchStateMachine) (mappingIds : List String) : List String :=
  (mappingIds.filterMap fun mappingId => machine.mappingToSwitch[mappingId]?).dedup

variable {machine : SwitchStateMachine}

theorem Reflects.owned {mappings : List Mapping} {calls : List Call}
    (h : Reflects mappings calls machine) : machine.Owned := by
  intro mappingId switchId hmem
  rw [h.known]
  exact ((h.holds mappingId switchId).mp hmem).1

theorem activeBySwitch_getElem? (machine : SwitchStateMachine) (switchId : String) :
    machine.activeBySwitch[switchId]? =
      if switchId ∈ machine.switches then some (machine.active switchId) else none := by
  split_ifs with hmem
  · rw [mem_switches] at hmem
    rw [active, ExtTreeMap.getElem?_eq_some_getElem hmem]
    rfl
  · rw [mem_switches] at hmem
    exact ExtTreeMap.getElem?_eq_none hmem

/-- A state machine is its mappings, its switches and what each switch holds. -/
theorem ext_active {first second : SwitchStateMachine}
    (hmappings : first.mappingToSwitch = second.mappingToSwitch)
    (hswitches : first.switches = second.switches) (hactive : first.active = second.active) :
    first = second := by
  have hmap : first.activeBySwitch = second.activeBySwitch := by
    apply ExtTreeMap.ext_getElem?
    intro switchId
    rw [activeBySwitch_getElem?, activeBySwitch_getElem?, hswitches, hactive]
  cases first
  cases second
  dsimp only at hmappings hmap
  subst hmappings hmap
  rfl

/-- Everything is let go in the same way from states that differ in what is
held only. -/
theorem releaseAll_congr {first second : SwitchStateMachine}
    (hmappings : first.mappingToSwitch = second.mappingToSwitch)
    (hswitches : first.switches = second.switches) :
    first.releaseAll.2 = second.releaseAll.2 := by
  apply ext_active
  · exact hmappings
  · rw [releaseAll_switches, releaseAll_switches, hswitches]
  · funext switchId
    rw [active_releaseAll, active_releaseAll]

/-- A state that holds nothing is one in which everything has been let go. -/
theorem releaseAll_of_idle (hidle : ∀ mappingId, ¬ machine.Holding mappingId) :
    machine.releaseAll.2 = machine := by
  apply ext_active
  · rfl
  · exact machine.releaseAll_switches
  · funext switchId
    rw [active_releaseAll]
    symm
    apply Finset.eq_empty_of_forall_notMem
    intro mappingId hmem
    exact hidle mappingId ⟨switchId, hmem⟩

section Release

variable {mappingId switchId : String}

/-- A release takes its mapping away and nothing else. -/
theorem mem_active_release (hknown : machine.mappingToSwitch[mappingId]? = some switchId)
    (hholds : machine.Owned) (other otherSwitch : String) :
    other ∈ (machine.apply mappingId .released (some (.finite 0))).2.active otherSwitch ↔
      other ∈ machine.active otherSwitch ∧ other ≠ mappingId := by
  rw [machine.mem_active_apply hknown]
  split_ifs with hself
  · simp [hself.1]
  · constructor
    · intro hmem
      refine ⟨hmem, ?_⟩
      rintro rfl
      have hswitch := hholds other otherSwitch hmem
      rw [hknown, Option.some.injEq] at hswitch
      exact hself ⟨rfl, hswitch.symm⟩
    · exact And.left

theorem holding_release (hknown : machine.mappingToSwitch[mappingId]? = some switchId)
    (hholds : machine.Owned) (other : String) :
    (machine.apply mappingId .released (some (.finite 0))).2.Holding other ↔
      machine.Holding other ∧ other ≠ mappingId := by
  unfold Holding
  simp only [mem_active_release hknown hholds, exists_and_right]

theorem Owned.release (h : machine.Owned)
    (hknown : machine.mappingToSwitch[mappingId]? = some switchId) :
    (machine.apply mappingId .released (some (.finite 0))).2.Owned := by
  intro other otherSwitch hmem
  rw [mem_active_release hknown h] at hmem
  rw [apply_mappingToSwitch]
  exact h other otherSwitch hmem.1

/-- The answer to the release of a held mapping: the switch reports it when no
other mapping holds it. -/
theorem apply_release (hknown : machine.mappingToSwitch[mappingId]? = some switchId)
    (hheld : mappingId ∈ machine.active switchId) :
    (machine.apply mappingId .released (some (.finite 0))).1 =
      .ok (if ∃ other ∈ machine.active switchId, other ≠ mappingId then none
        else some (release switchId)) := by
  rw [machine.apply_known hknown]
  have hlast : (machine.active switchId).erase mappingId = ∅ ↔
      ¬ ∃ other ∈ machine.active switchId, other ≠ mappingId := by
    rw [← Finset.not_nonempty_iff_eq_empty, not_iff_not]
    constructor
    · rintro ⟨other, hother⟩
      obtain ⟨hne, hmem⟩ := Finset.mem_erase.mp hother
      exact ⟨other, hmem, hne⟩
    · rintro ⟨other, hmem, hne⟩
      exact ⟨other, Finset.mem_erase.mpr ⟨hne, hmem⟩⟩
  dsimp only
  rw [if_neg (not_not_intro hheld)]
  by_cases hothers : ∃ other ∈ machine.active switchId, other ≠ mappingId
  · rw [if_neg (mt hlast.mp (not_not_intro hothers)), if_pos hothers]
  · rw [if_pos (hlast.mpr hothers), if_neg hothers]
    rfl

/-- What else holds the switch of the first mapping comes later. -/
theorem others_hold_iff (hholds : machine.Owned) {rest : List String} (hfirst : mappingId ∉ rest)
    (horder : ∀ other, other ∈ mappingId :: rest ↔ machine.Holding other) :
    (∃ other ∈ machine.active switchId, other ≠ mappingId) ↔
      switchId ∈ rest.filterMap fun other => machine.mappingToSwitch[other]? := by
  rw [List.mem_filterMap]
  constructor
  · rintro ⟨other, hmem, hne⟩
    refine ⟨other, ?_, hholds other switchId hmem⟩
    exact (List.mem_cons.mp ((horder other).mpr ⟨switchId, hmem⟩)).resolve_left hne
  · rintro ⟨other, hmem, hswitch⟩
    obtain ⟨otherSwitch, hother⟩ := (horder other).mp (by simp [hmem])
    rw [hholds other otherSwitch hother, Option.some.injEq] at hswitch
    subst hswitch
    exact ⟨other, hother, fun hsame => hfirst (hsame ▸ hmem)⟩

end Release

/-- The held mappings, released in any order: no release fails, each switch
reports with the last of its mappings, and nothing is held any more. -/
theorem releaseEach_eq (hholds : machine.Owned) {order : List String} (hnodup : order.Nodup)
    (horder : ∀ mappingId, mappingId ∈ order ↔ machine.Holding mappingId) :
    machine.releaseEach order =
      (.ok ((machine.lastSwitches order).map release), machine.releaseAll.2) := by
  induction order generalizing machine with
  | nil =>
      have hidle : ∀ mappingId, ¬ machine.Holding mappingId := by
        intro mappingId hheld
        cases (horder mappingId).mpr hheld
      rw [releaseAll_of_idle hidle]
      rfl
  | cons mappingId rest ih =>
      obtain ⟨hfirst, hrest⟩ := List.nodup_cons.mp hnodup
      obtain ⟨switchId, hheld⟩ := (horder mappingId).mp (by simp)
      have hknown := hholds mappingId switchId hheld
      have hanswer := apply_release hknown hheld
      simp only [others_hold_iff hholds hfirst horder] at hanswer
      have hlater := @ih (machine.apply mappingId .released (some (.finite 0))).2
        (hholds.release hknown) hrest (by
          intro other
          rw [holding_release hknown hholds, ← horder other, List.mem_cons]
          constructor
          · intro hmem
            exact ⟨Or.inr hmem, fun hsame => hfirst (hsame ▸ hmem)⟩
          · rintro ⟨hmem, hne⟩
            exact hmem.resolve_left hne)
      rw [releaseAll_congr (machine.apply_mappingToSwitch _ _ _) (machine.apply_switches _ _ _)]
        at hlater
      simp only [lastSwitches, apply_mappingToSwitch] at hlater
      rw [releaseEach]
      generalize machine.apply mappingId .released (some (.finite 0)) = applied at hanswer hlater
      obtain ⟨answer, after⟩ := applied
      dsimp only at hanswer hlater
      subst hanswer
      dsimp only
      rw [hlater, lastSwitches, List.filterMap_cons_some hknown]
      by_cases hagain : switchId ∈ rest.filterMap fun other => machine.mappingToSwitch[other]?
      · rw [if_pos hagain, List.dedup_cons_of_mem hagain]
        rfl
      · rw [if_neg hagain, List.dedup_cons_of_notMem hagain]
        rfl

/-- `release_all` reports one release for each pressed switch. -/
theorem releaseAll_filter (machine : SwitchStateMachine) (switchId : String) :
    machine.releaseAll.1.filter (·.switchId = switchId) =
      if machine.level switchId = .pressed then [release switchId] else [] := by
  rw [releaseAll_transitions, List.filter_map]
  change ((machine.switches.filter _).filter (· = switchId)).map release = _
  rw [List.filter_eq, (machine.switches_nodup.filter _).count]
  by_cases hpressed : machine.level switchId = .pressed
  · have hmem : switchId ∈ machine.switches.filter (machine.level · = .pressed) := by
      simpa [hpressed] using machine.mem_switches_of_pressed hpressed
    rw [if_pos hmem, if_pos hpressed]
    rfl
  · have hmem : switchId ∉ machine.switches.filter (machine.level · = .pressed) := by
      simp [hpressed]
    rw [if_neg hmem, if_neg hpressed]
    rfl

/-- The switches that report are the pressed ones, in whatever order. -/
theorem lastSwitches_perm (hholds : machine.Owned) {order : List String}
    (horder : ∀ mappingId, mappingId ∈ order ↔ machine.Holding mappingId) :
    (machine.lastSwitches order).Perm
      (machine.switches.filter (machine.level · = .pressed)) := by
  apply (List.perm_ext_iff_of_nodup (List.nodup_dedup _) (machine.switches_nodup.filter _)).mpr
  intro switchId
  rw [List.mem_dedup, List.mem_filterMap, List.mem_filter, decide_eq_true_iff]
  constructor
  · rintro ⟨mappingId, hmem, hswitch⟩
    obtain ⟨other, hheld⟩ := (horder mappingId).mp hmem
    rw [hholds mappingId other hheld, Option.some.injEq] at hswitch
    subst hswitch
    have hpressed := machine.level_eq_pressed_iff.mpr (Finset.ne_empty_of_mem hheld)
    exact ⟨machine.mem_switches_of_pressed hpressed, hpressed⟩
  · rintro ⟨-, hpressed⟩
    rw [level_eq_pressed_iff, ← Finset.nonempty_iff_ne_empty] at hpressed
    obtain ⟨mappingId, hheld⟩ := hpressed
    exact ⟨mappingId, (horder mappingId).mpr ⟨switchId, hheld⟩, hholds _ _ hheld⟩

/-- From any state that calls lead to, releasing the held mappings one by one, in
any order, succeeds and ends where `release_all` does; the releases reported are
the same up to order. `release_all` reports one for each pressed switch, in the
order of the switches, and a second one does nothing. -/
theorem releaseAll_one_by_one (mappings : List Mapping) (calls : List Call) :
    let machine := (stateMachine mappings).run calls
    let released := machine.releaseAll.2
    (∀ order : List String, order.Nodup →
      (∀ mappingId, mappingId ∈ order ↔ machine.Holding mappingId) →
        ∃ transitions, machine.releaseEach order = (.ok transitions, released) ∧
          transitions.Perm machine.releaseAll.1) ∧
    (∀ switchId, machine.releaseAll.1.filter (·.switchId = switchId) =
      if machine.level switchId = .pressed then
        [⟨switchId, .released, some (.finite 0)⟩] else []) ∧
    (machine.releaseAll.1.map (·.switchId)).Pairwise (· < ·) ∧
    released.releaseAll = ([], released) := by
  intro machine released
  have hholds : machine.Owned := (reflects_run mappings calls).owned
  have hreported : machine.releaseAll.1.map (·.switchId) =
      machine.switches.filter (machine.level · = .pressed) := by
    rw [releaseAll_transitions, List.map_map]
    exact List.map_id _
  refine ⟨?_, ?_, ?_, ?_⟩
  · intro order hnodup horder
    refine ⟨_, releaseEach_eq hholds hnodup horder, ?_⟩
    rw [releaseAll_transitions]
    exact (lastSwitches_perm hholds horder).map release
  · exact machine.releaseAll_filter
  · rw [hreported]
    exact machine.switches_sorted.filter _
  · apply Prod.ext
    · exact released.releaseAll_of_allReleased machine.allReleased_releaseAll
    · exact releaseAll_congr rfl machine.releaseAll_switches

example :
    let mappings : List Mapping :=
      [⟨"space", "switch_1", .keyboard, "space", none⟩,
        ⟨"enter", "switch_1", .keyboard, "enter", none⟩, ⟨"z", "switch_0", .keyboard, "z", none⟩]
    let machine := (stateMachine mappings).run
      (["space", "enter", "z"].map fun mappingId => .apply mappingId .pressed none)
    (machine.releaseEach ["enter", "space", "z"]).1 =
        .ok [release "switch_1", release "switch_0"] ∧
      machine.releaseAll.1 = [release "switch_0", release "switch_1"] := by
  decide +kernel

end Usahp.SwitchStateMachine
