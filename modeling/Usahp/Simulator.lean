import Usahp.StateHistory

/-!
The mappings that the simulator adds to the configured ones: one for each
switch, under an id derived from the switch. The configuration is checked
before they are added, so a configured id can be the same as a derived one;
that is the only way in which the added mappings disturb the others.
-/

namespace Usahp

open Std Usahp.Library

/-- `format!("sim:{}", switch_id)`. -/
def simulatorId (switchId : String) : String := "sim:" ++ switchId

def simulatorMapping (switchId : String) : Mapping where
  id := simulatorId switchId
  switchId := switchId
  input := .keyboard
  code := "simulator"
  device := none

/-- The `filter_map` of `mappings_for`, with the switches inserted so far. -/
def mappingsFrom (switchIds : Finset String) : List Mapping → List Mapping
  | [] => []
  | mapping :: rest =>
      if mapping.switchId ∈ switchIds then mappingsFrom switchIds rest
      else
        simulatorMapping mapping.switchId ::
          mappingsFrom (insert mapping.switchId switchIds) rest

def mappingsFor (mappings : List Mapping) : List Mapping :=
  mappingsFrom ∅ mappings

/-- The list that `main` passes to the broker. -/
def Config.brokerMappings (config : Config) : List Mapping :=
  if config.simulator.stdin then config.mappings ++ mappingsFor config.mappings
  else config.mappings

namespace SwitchStateMachine

/-- The logical transitions that one call reports. -/
def reported (machine : SwitchStateMachine) : Call → List LogicalTransition
  | .apply mappingId action confidence =>
      match (machine.apply mappingId action confidence).1 with
      | .ok (some transition) => [transition]
      | _ => []
  | .releaseAll => machine.releaseAll.1

def transitions (machine : SwitchStateMachine) : List Call → List LogicalTransition
  | [] => []
  | call :: rest => machine.reported call ++ (machine.perform call).transitions rest

/-- The edges of the calls come from configured mappings, as those of the
capture backends do. -/
def Configured (mappings : List Mapping) (calls : List Call) : Prop :=
  ∀ mappingId action confidence, .apply mappingId action confidence ∈ calls →
    ∃ mapping ∈ mappings, mapping.id = mappingId

/-- The second state machine knows more mappings, and the same of those given
by `known`. -/
structure Extends (known : String → Prop) (machine extended : SwitchStateMachine) : Prop where
  active : extended.activeBySwitch = machine.activeBySwitch
  switches : ∀ mappingId, known mappingId →
    extended.mappingToSwitch[mappingId]? = machine.mappingToSwitch[mappingId]?

end SwitchStateMachine

theorem simulatorId_injective : Function.Injective simulatorId := by
  intro first second h
  simpa [simulatorId] using h

/-- The derived mappings are those of the configured switches. -/
theorem mem_mappingsFrom (switchIds : Finset String) (mappings : List Mapping)
    (mapping : Mapping) :
    mapping ∈ mappingsFrom switchIds mappings ↔
      ∃ other ∈ mappings, other.switchId ∉ switchIds ∧
        mapping = simulatorMapping other.switchId := by
  induction mappings generalizing switchIds with
  | nil => simp [mappingsFrom]
  | cons first rest ih =>
      unfold mappingsFrom
      split_ifs with hseen
      · rw [ih]
        simp [hseen]
      · rw [List.mem_cons, ih]
        constructor
        · rintro (rfl | ⟨other, hother, hfresh, rfl⟩)
          · exact ⟨first, by simp, hseen, rfl⟩
          · simp only [Finset.mem_insert, not_or] at hfresh
            exact ⟨other, by simp [hother], hfresh.2, rfl⟩
        · rintro ⟨other, hother, hfresh, rfl⟩
          by_cases hsame : other.switchId = first.switchId
          · exact Or.inl (by rw [hsame])
          · rcases List.mem_cons.mp hother with rfl | hrest
            · exact absurd rfl hsame
            · exact Or.inr ⟨other, hrest, by simp [hsame, hfresh], rfl⟩

theorem mem_mappingsFor (mappings : List Mapping) (mapping : Mapping) :
    mapping ∈ mappingsFor mappings ↔
      ∃ other ∈ mappings, mapping = simulatorMapping other.switchId := by
  simp [mappingsFor, mem_mappingsFrom]

theorem nodup_mappingsFrom (switchIds : Finset String) (mappings : List Mapping) :
    ((mappingsFrom switchIds mappings).map (·.id)).Nodup := by
  induction mappings generalizing switchIds with
  | nil => simp [mappingsFrom]
  | cons first rest ih =>
      unfold mappingsFrom
      split_ifs with hseen
      · exact ih switchIds
      · have hnew : simulatorId first.switchId ∉
            (mappingsFrom (insert first.switchId switchIds) rest).map (·.id) := by
          intro hmem
          obtain ⟨mapping, hmapping, hid⟩ := List.mem_map.mp hmem
          obtain ⟨other, _, hfresh, rfl⟩ := (mem_mappingsFrom _ _ _).mp hmapping
          have hsame := simulatorId_injective hid
          simp [hsame] at hfresh
        exact List.nodup_cons.mpr ⟨hnew, ih _⟩

namespace SwitchStateMachine

/-- With distinct ids every mapping drives its own switch. -/
theorem configuredSwitch_of_nodup {mappings : List Mapping}
    (hnodup : (mappings.map (·.id)).Nodup) {mapping : Mapping} (hmem : mapping ∈ mappings) :
    configuredSwitch mappings mapping.id = some mapping.switchId := by
  obtain ⟨switchId, hswitch⟩ := configuredSwitch_of_mem hmem rfl
  obtain ⟨other, hother, hid, rfl⟩ := mem_of_configuredSwitch hswitch
  have hsame := List.inj_on_of_nodup_map hnodup hother hmem hid
  rw [hswitch, hsame]

/-- Further mappings of switches that have an entry already change no entry. -/
theorem emptySwitches_append {mappings more : List Mapping}
    (hknown : ∀ mapping ∈ more, ∃ other ∈ mappings, other.switchId = mapping.switchId) :
    emptySwitches (mappings ++ more) = emptySwitches mappings := by
  induction more using List.reverseRecOn with
  | nil => simp
  | append_singleton more mapping ih =>
      have hbefore := ih fun other hother => hknown other (by simp [hother])
      have hmem : mapping.switchId ∈ emptySwitches mappings := by
        rw [mem_emptySwitches]
        exact hknown mapping (by simp)
      rw [← List.append_assoc, emptySwitches, List.foldl_concat]
      change ExtTreeMap.insertIfNew (emptySwitches (mappings ++ more)) _ _ = _
      rw [hbefore]
      apply ExtTreeMap.ext_getElem?
      intro switchId
      rw [ExtTreeMap.getElem?_insertIfNew]
      split_ifs with h
      · exact absurd hmem h.2
      · rfl

variable {known : String → Prop} {machine extended : SwitchStateMachine}

theorem Extends.active_eq (h : Extends known machine extended) :
    extended.active = machine.active := by
  funext switchId
  rw [SwitchStateMachine.active, h.active]
  rfl

theorem Extends.reported (h : Extends known machine extended) {call : Call}
    (hcall : ∀ mappingId action confidence, call = .apply mappingId action confidence →
      known mappingId) : extended.reported call = machine.reported call := by
  have hactive := h.active_eq
  cases call with
  | apply mappingId action confidence =>
      have hsame := h.switches mappingId (hcall mappingId action confidence rfl)
      simp only [SwitchStateMachine.reported]
      cases hswitch : machine.mappingToSwitch[mappingId]? with
      | none => rw [machine.apply_unknown hswitch, extended.apply_unknown (hsame.trans hswitch)]
      | some switchId =>
          rw [machine.apply_known hswitch, extended.apply_known (hsame.trans hswitch)]
          cases action <;> simp only [hactive]
  | releaseAll =>
      simp only [SwitchStateMachine.reported, releaseAll, h.active]

theorem Extends.perform (h : Extends known machine extended) {call : Call}
    (hcall : ∀ mappingId action confidence, call = .apply mappingId action confidence →
      known mappingId) : Extends known (machine.perform call) (extended.perform call) := by
  have hactive := h.active_eq
  cases call with
  | apply mappingId action confidence =>
      have hsame := h.switches mappingId (hcall mappingId action confidence rfl)
      constructor
      · simp only [SwitchStateMachine.perform]
        cases hswitch : machine.mappingToSwitch[mappingId]? with
        | none =>
            rw [machine.apply_unknown hswitch, extended.apply_unknown (hsame.trans hswitch)]
            exact h.active
        | some switchId =>
            rw [machine.apply_known hswitch, extended.apply_known (hsame.trans hswitch)]
            cases action <;> simp only [hactive, setActive, h.active]
      · intro other hother
        simp only [SwitchStateMachine.perform, apply_mappingToSwitch]
        exact h.switches other hother
  | releaseAll =>
      constructor
      · simp only [SwitchStateMachine.perform, releaseAll, h.active]
      · exact h.switches

/-- Calls about known mappings cannot tell the two apart. -/
theorem Extends.transitions (h : Extends known machine extended) (calls : List Call)
    (hcalls : ∀ mappingId action confidence, .apply mappingId action confidence ∈ calls →
      known mappingId) : extended.transitions calls = machine.transitions calls := by
  induction calls generalizing machine extended with
  | nil => rfl
  | cons call rest ih =>
      have hcall : ∀ mappingId action confidence,
          call = .apply mappingId action confidence → known mappingId := by
        rintro mappingId action confidence rfl
        exact hcalls mappingId action confidence (by simp)
      have hrest := ih (h.perform hcall) fun mappingId action confidence hmem =>
        hcalls mappingId action confidence (by simp [hmem])
      simp only [SwitchStateMachine.transitions, h.reported hcall, hrest]

end SwitchStateMachine

open SwitchStateMachine

/-- With the simulator enabled, the mappings are those of the configuration and
the silent ones of the simulator exactly when no configured id is a derived
one. -/
theorem simulator_apart_iff (config : Config) (hvalid : config.validate = .ok ())
    (henabled : config.simulator.stdin = true) :
    let machine := SwitchStateMachine.new config.brokerMappings
    ((config.brokerMappings.map (·.id)).Nodup ∧
      (∀ mapping ∈ config.mappings,
        machine.mappingToSwitch[mapping.id]? = some mapping.switchId) ∧
      (∀ mapping ∈ config.mappings,
        machine.mappingToSwitch[simulatorId mapping.switchId]? = some mapping.switchId) ∧
      ∀ calls, Configured config.mappings calls →
        machine.transitions calls =
          (SwitchStateMachine.new config.mappings).transitions calls) ↔
    ∀ mapping ∈ config.mappings, ∀ other ∈ config.mappings,
      mapping.id ≠ simulatorId other.switchId := by
  intro machine
  have hlist : config.brokerMappings = config.mappings ++ mappingsFor config.mappings := by
    simp [Config.brokerMappings, henabled]
  have hconfigured := config.nodup_of_validate hvalid
  constructor
  · rintro ⟨hnodup, _⟩ mapping hmapping other hother hsame
    rw [hlist, List.map_append] at hnodup
    have hderived : simulatorMapping other.switchId ∈ mappingsFor config.mappings :=
      (mem_mappingsFor _ _).mpr ⟨other, hother, rfl⟩
    have hapart := List.disjoint_of_nodup_append hnodup
    apply hapart (List.mem_map_of_mem hmapping)
    rw [hsame]
    exact List.mem_map_of_mem hderived
  · intro hapart
    have hnodup : (config.brokerMappings.map (·.id)).Nodup := by
      rw [hlist, List.map_append]
      apply hconfigured.append (nodup_mappingsFrom ∅ config.mappings)
      intro id hid hderived
      obtain ⟨mapping, hmapping, rfl⟩ := List.mem_map.mp hid
      obtain ⟨derived, hmem, hsame⟩ := List.mem_map.mp hderived
      obtain ⟨other, hother, rfl⟩ := (mem_mappingsFor _ _).mp hmem
      exact hapart mapping hmapping other hother hsame.symm
    have hdrives {mapping : Mapping} (hmem : mapping ∈ config.brokerMappings) :
        machine.mappingToSwitch[mapping.id]? = some mapping.switchId := by
      have hswitch := configuredSwitch_of_nodup hnodup hmem
      rw [← collectMappings_getElem?] at hswitch
      exact hswitch
    have hown : ∀ mapping ∈ config.mappings,
        machine.mappingToSwitch[mapping.id]? = some mapping.switchId := by
      intro mapping hmapping
      apply hdrives
      simp [hlist, hmapping]
    refine ⟨hnodup, hown, ?_, ?_⟩
    · intro mapping hmapping
      have hderived : simulatorMapping mapping.switchId ∈ config.brokerMappings := by
        rw [hlist]
        exact List.mem_append_right _ ((mem_mappingsFor _ _).mpr ⟨mapping, hmapping, rfl⟩)
      exact hdrives hderived
    · intro calls hcalls
      have hextends : Extends (fun mappingId => ∃ mapping ∈ config.mappings,
          mapping.id = mappingId) (SwitchStateMachine.new config.mappings) machine := by
        constructor
        · change emptySwitches config.brokerMappings = emptySwitches config.mappings
          rw [hlist]
          apply emptySwitches_append
          intro derived hmem
          obtain ⟨other, hother, rfl⟩ := (mem_mappingsFor _ _).mp hmem
          exact ⟨other, hother, rfl⟩
        · rintro _ ⟨mapping, hmapping, rfl⟩
          rw [hown mapping hmapping]
          change _ = (collectMappings config.mappings)[mapping.id]?
          rw [collectMappings_getElem?]
          exact (configuredSwitch_of_nodup hconfigured hmapping).symm
      exact hextends.transitions calls hcalls

/-- Two keys, one simulator. -/
def plainConfig : Config where
  server := ⟨256⟩
  simulator := ⟨true⟩
  mappings :=
    [⟨"space", "primary", .keyboard, "Space", none⟩,
      ⟨"enter", "primary", .keyboard, "Return", none⟩]

theorem plainConfig_apart : (plainConfig.brokerMappings.map (·.id)).Nodup :=
  ((simulator_apart_iff plainConfig (by decide) rfl).mpr (by decide)).1

/-- A mapping of the switch "b" under the id that is derived for "a". -/
def clashingConfig : Config where
  server := ⟨256⟩
  simulator := ⟨true⟩
  mappings :=
    [⟨"sim:a", "b", .keyboard, "Space", none⟩, ⟨"x", "a", .keyboard, "Return", none⟩]

/-- The configuration is accepted, and its key for "b" drives "a". -/
theorem clashingConfig_misrouted :
    clashingConfig.validate = .ok () ∧
      ¬ (clashingConfig.brokerMappings.map (·.id)).Nodup ∧
      (SwitchStateMachine.new clashingConfig.brokerMappings).mappingToSwitch["sim:a"]? =
        some "a" := by
  decide

end Usahp
