import Mathlib.Data.Finset.Card
import Mathlib.Data.List.Sort
import Mathlib.Data.String.Basic
import Std.Data.ExtTreeMap
import Usahp.Config
import Usahp.Library.Edges
import Usahp.Protocol

/-!
The logical state machine. Many physical mappings drive one switch; the
switch is pressed while at least one of them is held.

Both maps of the source are extensional finite maps here. For the `HashMap`
the iteration order is lost, which no function of this module uses; for the
`BTreeMap` it is the order of the keys. The field `covered` is the invariant
behind the `unwrap` in `apply`: every mapping drives a switch that has an
entry. `apply` reads the entry through it, so no run can reach the panic.
-/

namespace Usahp

open Std

structure LogicalTransition where
  switchId : String
  action : Action
  confidence : Option F32
  deriving DecidableEq

inductive StateError where
  | unknownMapping (mappingId : String)
  | invalidTransition (mappingId : String) (action : Action)
  deriving DecidableEq

structure SwitchStateMachine where
  mappingToSwitch : ExtTreeMap String String
  activeBySwitch : ExtTreeMap String (Finset String)
  covered : ∀ mappingId switchId : String,
    mappingToSwitch[mappingId]? = some switchId → switchId ∈ activeBySwitch

/-- Collecting pairs into a map: a later pair replaces an earlier one. -/
def collectMappings (mappings : List Mapping) : ExtTreeMap String String :=
  mappings.foldl (fun map mapping => map.insert mapping.id mapping.switchId) ∅

/-- `entry(switch_id).or_default()` for every mapping. -/
def emptySwitches (mappings : List Mapping) : ExtTreeMap String (Finset String) :=
  mappings.foldl (fun map mapping => map.insertIfNew mapping.switchId ∅) ∅

private theorem collect_subset_switches (mappings : List Mapping)
    (known : ExtTreeMap String String) (switches : ExtTreeMap String (Finset String))
    (h : ∀ mappingId switchId : String, known[mappingId]? = some switchId → switchId ∈ switches)
    (mappingId switchId : String)
    (hknown : (mappings.foldl (fun map mapping =>
      map.insert mapping.id mapping.switchId) known)[mappingId]? = some switchId) :
    switchId ∈ mappings.foldl (fun map mapping =>
      map.insertIfNew mapping.switchId ∅) switches := by
  induction mappings generalizing known switches with
  | nil => exact h mappingId switchId hknown
  | cons mapping rest ih =>
      refine ih _ _ ?_ hknown
      intro other otherSwitch hother
      rw [ExtTreeMap.getElem?_insert] at hother
      rw [ExtTreeMap.mem_insertIfNew]
      split at hother
      · left
        rw [Option.some.inj hother]
        exact compare_self
      · right
        exact h other otherSwitch hother

def SwitchStateMachine.new (mappings : List Mapping) : SwitchStateMachine where
  mappingToSwitch := collectMappings mappings
  activeBySwitch := emptySwitches mappings
  covered mappingId switchId h :=
    collect_subset_switches mappings ∅ ∅ (by simp) mappingId switchId h

namespace SwitchStateMachine

/-- Writing back through the reference that `get_mut` returns. -/
def setActive (machine : SwitchStateMachine) (switchId : String)
    (active : Finset String) : SwitchStateMachine where
  mappingToSwitch := machine.mappingToSwitch
  activeBySwitch := machine.activeBySwitch.insert switchId active
  covered mappingId other h := by
    rw [ExtTreeMap.mem_insert]
    exact Or.inr (machine.covered mappingId other h)

/-- As in the source the set is changed first and the outcome of the insertion
or removal is looked at afterwards, also on the path that returns an error. -/
def apply (machine : SwitchStateMachine) (mappingId : String) (action : Action)
    (confidence : Option F32) :
    Except StateError (Option LogicalTransition) × SwitchStateMachine :=
  match hswitch : machine.mappingToSwitch[mappingId]? with
  | none => (.error (.unknownMapping mappingId), machine)
  | some switchId =>
      let active := machine.activeBySwitch.get switchId
        (machine.covered mappingId switchId hswitch)
      match action with
      | .pressed =>
          let inserted := insert mappingId active
          let machine := machine.setActive switchId inserted
          if mappingId ∈ active then
            (.error (.invalidTransition mappingId action), machine)
          else if inserted.card = 1 then
            (.ok (some ⟨switchId, action, confidence⟩), machine)
          else
            (.ok none, machine)
      | .released =>
          let remaining := active.erase mappingId
          let machine := machine.setActive switchId remaining
          if mappingId ∉ active then
            (.error (.invalidTransition mappingId action), machine)
          else if remaining = ∅ then
            (.ok (some ⟨switchId, action, confidence⟩), machine)
          else
            (.ok none, machine)

def snapshots (machine : SwitchStateMachine) : List SwitchSnapshot :=
  machine.activeBySwitch.toList.map fun (switchId, active) =>
    ⟨switchId, if active = ∅ then .released else .pressed, none⟩

/-- One pass over the map in key order that clears each non-empty set and
collects its release. -/
def releaseAll (machine : SwitchStateMachine) :
    List LogicalTransition × SwitchStateMachine :=
  (machine.activeBySwitch.toList.filterMap fun (switchId, active) =>
      if active = ∅ then none else some ⟨switchId, .released, some (.finite 0)⟩,
    { mappingToSwitch := machine.mappingToSwitch
      activeBySwitch := machine.activeBySwitch.map fun _ active =>
        if active = ∅ then active else ∅
      covered := fun mappingId switchId h => by
        rw [ExtTreeMap.mem_map]
        exact machine.covered mappingId switchId h })

/-- The mappings that hold a switch; none for a switch that is not configured. -/
def active (machine : SwitchStateMachine) (switchId : String) : Finset String :=
  machine.activeBySwitch[switchId]?.getD ∅

def level (machine : SwitchStateMachine) (switchId : String) : SwitchState :=
  if machine.active switchId = ∅ then .released else .pressed

/-- The configured switches, in the order of the map. -/
def switches (machine : SwitchStateMachine) : List String :=
  machine.activeBySwitch.keys

def AllReleased (machine : SwitchStateMachine) : Prop :=
  ∀ switchId, machine.level switchId = .released

variable (machine : SwitchStateMachine)

private theorem get_eq_active (switchId : String)
    (h : switchId ∈ machine.activeBySwitch) :
    machine.activeBySwitch.get switchId h = machine.active switchId := by
  rw [active, ExtTreeMap.getElem?_eq_some_getElem h]
  rfl

private theorem toList_eq :
    machine.activeBySwitch.toList =
      machine.switches.map fun switchId => (switchId, machine.active switchId) := by
  rw [switches, ← ExtTreeMap.map_fst_toList_eq_keys, List.map_map]
  refine (List.map_id _).symm.trans (List.map_congr_left ?_)
  rintro ⟨switchId, held⟩ hmem
  have hentry := ExtTreeMap.mem_toList_iff_getElem?_eq_some.mp hmem
  simp [active, hentry]

theorem active_setActive (switchId : String) (held : Finset String) :
    (machine.setActive switchId held).active =
      Function.update machine.active switchId held := by
  funext other
  rw [active, setActive, ExtTreeMap.getElem?_insert, Function.update_apply]
  by_cases h : other = switchId
  · simp [h]
  · simp [h, Ne.symm h, active]

theorem level_setActive (switchId : String) (held : Finset String) :
    (machine.setActive switchId held).level =
      Function.update machine.level switchId
        (if held = ∅ then .released else .pressed) := by
  funext other
  rw [level, active_setActive, Function.update_apply, Function.update_apply]
  split <;> rfl

@[simp] theorem mem_switches {switchId : String} :
    switchId ∈ machine.switches ↔ switchId ∈ machine.activeBySwitch :=
  ExtTreeMap.mem_keys

theorem switches_sorted : machine.switches.Pairwise (· < ·) := by
  apply (ExtTreeMap.ordered_keys (t := machine.activeBySwitch)).imp
  intro first second h
  exact compareOfLessAndEq_eq_lt.mp h

theorem switches_nodup : machine.switches.Nodup :=
  machine.switches_sorted.imp fun h => h.ne

theorem switches_setActive {switchId : String} (held : Finset String)
    (h : switchId ∈ machine.activeBySwitch) :
    (machine.setActive switchId held).switches = machine.switches := by
  refine (switches_sorted _).eq_of_mem_iff machine.switches_sorted fun other => ?_
  rw [mem_switches, mem_switches, setActive, ExtTreeMap.mem_insert]
  constructor
  · rintro (heq | hold)
    · rwa [← LawfulEqCmp.eq_of_compare heq]
    · exact hold
  · exact Or.inr

theorem level_eq_pressed_iff {switchId : String} :
    machine.level switchId = .pressed ↔ machine.active switchId ≠ ∅ := by
  rw [level]
  split <;> simp_all

theorem level_eq_released_iff {switchId : String} :
    machine.level switchId = .released ↔ machine.active switchId = ∅ := by
  rw [level]
  split <;> simp_all

theorem mem_switches_of_pressed {switchId : String}
    (h : machine.level switchId = .pressed) : switchId ∈ machine.switches := by
  rw [level_eq_pressed_iff, active] at h
  rw [mem_switches]
  by_contra hmissing
  rw [ExtTreeMap.getElem?_eq_none hmissing] at h
  exact h rfl

theorem snapshots_eq :
    machine.snapshots =
      machine.switches.map fun switchId => ⟨switchId, machine.level switchId, none⟩ := by
  rw [snapshots, toList_eq, List.map_map]
  rfl

/-- The two branches of `apply` for a known mapping, with the set it reads
named `active`. Writing an unchanged set back is shown to be no change by
`setActive_self`. -/
theorem apply_known {mappingId switchId : String}
    (h : machine.mappingToSwitch[mappingId]? = some switchId) (action : Action)
    (confidence : Option F32) :
    machine.apply mappingId action confidence =
      match action with
      | .pressed =>
          (if mappingId ∈ machine.active switchId then
              .error (.invalidTransition mappingId .pressed)
            else if (insert mappingId (machine.active switchId)).card = 1 then
              .ok (some ⟨switchId, .pressed, confidence⟩)
            else .ok none,
            machine.setActive switchId (insert mappingId (machine.active switchId)))
      | .released =>
          (if mappingId ∉ machine.active switchId then
              .error (.invalidTransition mappingId .released)
            else if (machine.active switchId).erase mappingId = ∅ then
              .ok (some ⟨switchId, .released, confidence⟩)
            else .ok none,
            machine.setActive switchId ((machine.active switchId).erase mappingId)) := by
  rw [apply]
  split
  · rename_i hnone
    rw [h] at hnone
    cases hnone
  · rename_i other hother
    rw [h] at hother
    cases hother
    rw [get_eq_active]
    cases action with
    | pressed => dsimp only; split_ifs <;> rfl
    | released => dsimp only; split_ifs <;> rfl

theorem apply_unknown {mappingId : String}
    (h : machine.mappingToSwitch[mappingId]? = none) (action : Action)
    (confidence : Option F32) :
    machine.apply mappingId action confidence =
      (.error (.unknownMapping mappingId), machine) := by
  rw [apply]
  split
  · rfl
  · rename_i other hother
    rw [h] at hother
    cases hother

theorem setActive_self {switchId : String} (h : switchId ∈ machine.activeBySwitch) :
    machine.setActive switchId (machine.active switchId) = machine := by
  have hmap : machine.activeBySwitch.insert switchId (machine.active switchId) =
      machine.activeBySwitch := by
    refine ExtTreeMap.ext_getElem? fun other => ?_
    rw [ExtTreeMap.getElem?_insert]
    split
    · rename_i heq
      cases LawfulEqCmp.eq_of_compare heq
      rw [active, ExtTreeMap.getElem?_eq_some_getElem h]
      rfl
    · rfl
  cases machine
  simp only [setActive, mk.injEq, true_and]
  exact hmap

/-- What one call of `apply` can do: report a change of the switch's level,
record an inner edge silently, or fail and change nothing. -/
inductive Applied (machine : SwitchStateMachine) (mappingId : String)
    (action : Action) (confidence : Option F32) :
    Except StateError (Option LogicalTransition) × SwitchStateMachine → Prop
  | outer (switchId : String) (after : SwitchStateMachine)
      (known : machine.mappingToSwitch[mappingId]? = some switchId)
      (changed : machine.level switchId ≠ action.state)
      (level : after.level = Function.update machine.level switchId action.state) :
      Applied machine mappingId action confidence
        (.ok (some ⟨switchId, action, confidence⟩), after)
  | inner (after : SwitchStateMachine) (level : after.level = machine.level) :
      Applied machine mappingId action confidence (.ok none, after)
  | failed (error : StateError) :
      Applied machine mappingId action confidence (.error error, machine)

theorem apply_applied (mappingId : String) (action : Action) (confidence : Option F32) :
    Applied machine mappingId action confidence
      (machine.apply mappingId action confidence) := by
  cases hknown : machine.mappingToSwitch[mappingId]? with
  | none =>
      rw [machine.apply_unknown hknown]
      exact .failed _
  | some switchId =>
      have hcovered := machine.covered mappingId switchId hknown
      rw [machine.apply_known hknown]
      cases action with
      | pressed =>
          have hpressed : (insert mappingId (machine.active switchId)) ≠ ∅ :=
            Finset.insert_ne_empty _ _
          have hlevel := machine.level_setActive switchId
            (insert mappingId (machine.active switchId))
          rw [if_neg hpressed] at hlevel
          dsimp only
          split_ifs with hheld hfirst
          · rw [Finset.insert_eq_of_mem hheld, machine.setActive_self hcovered]
            exact .failed _
          · refine .outer switchId _ hknown ?_ hlevel
            rw [Finset.card_insert_of_notMem hheld] at hfirst
            have hempty : machine.active switchId = ∅ :=
              Finset.card_eq_zero.mp (by omega)
            rw [(machine.level_eq_released_iff).mpr hempty]
            decide
          · refine .inner _ (hlevel.trans ?_)
            rw [Finset.card_insert_of_notMem hheld] at hfirst
            have hheldBefore : machine.active switchId ≠ ∅ := by
              intro hempty
              simp [hempty] at hfirst
            rw [← machine.level_eq_pressed_iff.mpr hheldBefore]
            exact Function.update_eq_self _ _
      | released =>
          have hlevel := machine.level_setActive switchId
            ((machine.active switchId).erase mappingId)
          dsimp only
          split_ifs with hheld hlast
          · rw [if_pos hlast] at hlevel
            refine .outer switchId _ hknown ?_ hlevel
            rw [machine.level_eq_pressed_iff.mpr (Finset.ne_empty_of_mem hheld)]
            decide
          · rw [if_neg hlast] at hlevel
            refine .inner _ (hlevel.trans ?_)
            rw [← machine.level_eq_pressed_iff.mpr (Finset.ne_empty_of_mem hheld)]
            exact Function.update_eq_self _ _
          · rw [Finset.erase_eq_of_notMem hheld, machine.setActive_self hcovered]
            exact .failed _

@[simp] theorem apply_mappingToSwitch (mappingId : String) (action : Action)
    (confidence : Option F32) :
    (machine.apply mappingId action confidence).2.mappingToSwitch =
      machine.mappingToSwitch := by
  cases hknown : machine.mappingToSwitch[mappingId]? with
  | none => rw [machine.apply_unknown hknown]
  | some switchId =>
      rw [machine.apply_known hknown]
      cases action <;> rfl

@[simp] theorem apply_switches (mappingId : String) (action : Action)
    (confidence : Option F32) :
    (machine.apply mappingId action confidence).2.switches = machine.switches := by
  cases hknown : machine.mappingToSwitch[mappingId]? with
  | none => rw [machine.apply_unknown hknown]
  | some switchId =>
      have hcovered := machine.covered mappingId switchId hknown
      rw [machine.apply_known hknown]
      cases action <;> exact machine.switches_setActive _ hcovered

theorem apply_snd_of_error {mappingId : String} {action : Action}
    {confidence : Option F32} {error : StateError}
    (h : (machine.apply mappingId action confidence).1 = .error error) :
    (machine.apply mappingId action confidence).2 = machine := by
  have happlied := machine.apply_applied mappingId action confidence
  cases hresult : machine.apply mappingId action confidence with
  | mk result after =>
      rw [hresult] at happlied h
      cases happlied with
      | outer => cases h
      | inner => cases h
      | failed => rfl

/-- The set of a known mapping after an edge, whatever the edge is answered
with: in it after a press, not in it after a release. -/
theorem mem_active_apply {mappingId switchId : String}
    (hknown : machine.mappingToSwitch[mappingId]? = some switchId) (action : Action)
    (confidence : Option F32) (other otherSwitch : String) :
    other ∈ (machine.apply mappingId action confidence).2.active otherSwitch ↔
      if other = mappingId ∧ otherSwitch = switchId then action = .pressed
      else other ∈ machine.active otherSwitch := by
  have hactive : (machine.apply mappingId action confidence).2.active otherSwitch =
      if otherSwitch = switchId then
        match action with
        | .pressed => insert mappingId (machine.active switchId)
        | .released => (machine.active switchId).erase mappingId
      else machine.active otherSwitch := by
    rw [machine.apply_known hknown]
    cases action <;> exact (congrFun (machine.active_setActive switchId _) otherSwitch).trans
      (Function.update_apply _ _ _ _)
  rw [hactive]
  by_cases hswitch : otherSwitch = switchId
  · subst hswitch
    by_cases hother : other = mappingId
    · subst hother
      cases action <;> simp
    · cases action <;> simp [hother]
  · simp [hswitch]

/-- The release a pressed switch gets when everything is let go. -/
def release (switchId : String) : LogicalTransition :=
  ⟨switchId, .released, some (.finite 0)⟩

theorem releaseAll_transitions :
    machine.releaseAll.1 =
      (machine.switches.filter (machine.level · = .pressed)).map release := by
  rw [releaseAll, toList_eq, List.filterMap_map, ← List.filterMap_eq_map,
    List.filterMap_filter]
  refine List.filterMap_congr fun switchId _ => ?_
  simp only [Function.comp_apply, level_eq_pressed_iff, decide_not,
    Bool.not_eq_eq_eq_not, Bool.not_true, decide_eq_false_iff_not]
  split_ifs <;> simp_all [release]

theorem active_releaseAll (switchId : String) :
    machine.releaseAll.2.active switchId = ∅ := by
  rw [active, releaseAll, ExtTreeMap.getElem?_map]
  cases machine.activeBySwitch[switchId]? with
  | none => rfl
  | some held => by_cases h : held = ∅ <;> simp [h]

theorem allReleased_releaseAll : machine.releaseAll.2.AllReleased :=
  fun switchId => (level_eq_released_iff _).mpr (machine.active_releaseAll switchId)

@[simp] theorem releaseAll_switches :
    machine.releaseAll.2.switches = machine.switches :=
  ExtTreeMap.keys_map

theorem releaseAll_of_allReleased (h : machine.AllReleased) :
    machine.releaseAll.1 = [] := by
  rw [releaseAll_transitions, List.filter_eq_nil_iff.mpr, List.map_nil]
  intro switchId _
  simp [h switchId]

end SwitchStateMachine

end Usahp
