import Usahp.Broker.Steady
import Usahp.Capture.Tables
import Usahp.SimulatorInput

/-!
The start of the daemon on Linux, and what the parts do that it puts together.
The configured switches are wired ors: a switch is pressed while one of the
controls that are mapped to it is, or while it was last pressed on the standard
input. Threads deliver their inputs interleaved, and each keeps its own order.
-/

namespace Usahp

open Std Usahp.Library Usahp.Broker Usahp.Capture SwitchStateMachine

inductive StartError where
  | config (error : ConfigError)
  | validation (failure : Failure)
  | capture (error : SpawnError)

/-- What `main` has handed to the broker, the capture threads and the thread
that reads the standard input. -/
structure Started where
  mappings : List Mapping
  tables : Tables
  known : Option (ExtTreeMap String String)

/-- `main` up to where the server begins to listen. -/
def start (config : Config) : Except StartError Started := do
  config.validate.mapError .config
  (validate .linux config.mappings).mapError .validation
  let tables ← (spawn config.mappings).mapError .capture
  return {
    mappings := config.brokerMappings
    tables
    known := if config.simulator.stdin then some (knownSwitches config.mappings) else none }

/-- The inputs that the broker has taken are those of the edges of each control
and of the lines, in some interleaving. -/
structure Delivers (daemon : Started) (edges : Control → List Action)
    (lines : List (Option String)) (delivered : List PhysicalEvent) : Prop where
  captured : ∀ place,
    delivered.filter (·.mappingId ∈ daemon.tables.slot place) =
      (edges place).flatMap (daemon.tables.captured place)
  read : ∀ known, daemon.known = some known → ∀ switchId mappingId : String,
    known[switchId]? = some mappingId →
      delivered.filter (·.mappingId = mappingId) =
        (stdinInputs known lines).filter (·.mappingId = mappingId)

/-- What the lines have last said of a switch. -/
def lastTyped (config : Config) (lines : List (Option String)) (switchId : String) :
    Option Action :=
  ((stdinInputs (knownSwitches config.mappings) lines).filter
    (·.mappingId = simulatorId switchId)).getLast?.map (·.action)

/-- A switch is wired to the controls of its mappings and to the lines. -/
def Wired (config : Config) (edges : Control → List Action) (lines : List (Option String))
    (switchId : String) : Prop :=
  ∃ mapping ∈ config.mappings, mapping.switchId = switchId ∧
    ((∃ place, control mapping = some place ∧ (edges place).getLast? = some .pressed) ∨
      config.simulator.stdin = true ∧ lastTyped config lines switchId = some .pressed)

theorem start_ok {config : Config} {daemon : Started} (h : start config = .ok daemon) :
    config.validate = .ok () ∧ validate .linux config.mappings = .ok () ∧
      spawn config.mappings = .ok daemon.tables ∧
      daemon.mappings = config.brokerMappings ∧
      daemon.known =
        if config.simulator.stdin then some (knownSwitches config.mappings) else none := by
  unfold start at h
  cases hconfig : config.validate with
  | error error =>
      rw [hconfig] at h
      cases h
  | ok _ =>
      rw [hconfig] at h
      cases hvalid : validate .linux config.mappings with
      | error failure =>
          rw [hvalid] at h
          cases h
      | ok _ =>
          rw [hvalid] at h
          cases hspawn : spawn config.mappings with
          | error error =>
              rw [hspawn] at h
              cases h
          | ok tables =>
              rw [hspawn] at h
              cases h
              exact ⟨rfl, rfl, rfl, rfl, rfl⟩

/-- A configuration that passes both checks starts. -/
theorem start_isOk_iff (config : Config) :
    (∃ daemon, start config = .ok daemon) ↔
      config.validate = .ok () ∧ validate .linux config.mappings = .ok () := by
  constructor
  · rintro ⟨daemon, hstart⟩
    obtain ⟨hconfig, hvalid, _⟩ := start_ok hstart
    exact ⟨hconfig, hvalid⟩
  · rintro ⟨hconfig, hvalid⟩
    obtain ⟨tables, hspawn, _⟩ := spawn_ok hvalid
    apply Exists.intro
    unfold start
    rw [hconfig, hvalid, hspawn]
    rfl

/-- The latest edge of a mapping is that of the last input for it. -/
theorem latestEdge_inputs (mappingId : String) (delivered : List PhysicalEvent) :
    latestEdge mappingId (delivered.map callOf) =
      (delivered.filter (·.mappingId = mappingId)).getLast?.map (·.action) := by
  induction delivered using List.reverseRecOn with
  | nil => rfl
  | append_singleton delivered event ih =>
      rw [List.map_append, List.map_singleton, latestEdge_concat, ih, List.filter_append]
      by_cases hself : event.mappingId = mappingId
      · simp [callOf, Call.edge, hself]
      · simp [callOf, Call.edge, hself]

section Wiring

variable {config : Config} {tables : Tables}
  (hslot : ∀ place, tables.slot place =
    (config.mappings.filter (control · = some place)).map (·.id))
  (hnodup : (config.mappings.map (·.id)).Nodup)

include hslot hnodup

/-- Of the inputs of one edge, those for one mapping of the control. -/
theorem captured_filter {mapping : Mapping} (hmem : mapping ∈ config.mappings)
    {place : Control} (hplace : control mapping = some place) (action : Action) :
    (tables.captured place action).filter (·.mappingId = mapping.id) =
      [⟨mapping.id, action, some (binaryConfidence action)⟩] := by
  have hin : mapping.id ∈ tables.slot place := by
    rw [hslot]
    exact List.mem_map_of_mem (List.mem_filter.mpr ⟨hmem, by simpa using hplace⟩)
  have hdistinct : (tables.slot place).Nodup := by
    rw [hslot]
    exact hnodup.sublist (List.filter_sublist.map _)
  have honly : (tables.slot place).filter (· = mapping.id) = [mapping.id] := by
    have hcount := List.count_eq_one_of_mem hdistinct hin
    rw [List.filter_eq, hcount]
    rfl
  rw [tables.captured_eq, List.filter_map]
  change (List.filter (· = mapping.id) _).map _ = _
  rw [honly]
  rfl

/-- The latest input for a mapping is the latest edge of its control. -/
theorem latest_of_control {edges : Control → List Action} {delivered : List PhysicalEvent}
    (hcaptured : ∀ place, delivered.filter (·.mappingId ∈ tables.slot place) =
      (edges place).flatMap (tables.captured place))
    {mapping : Mapping} (hmem : mapping ∈ config.mappings) {place : Control}
    (hplace : control mapping = some place) :
    latestEdge mapping.id (delivered.map callOf) = (edges place).getLast? := by
  have hin : mapping.id ∈ tables.slot place := by
    rw [hslot]
    exact List.mem_map_of_mem (List.mem_filter.mpr ⟨hmem, by simpa using hplace⟩)
  have hwithin : delivered.filter (·.mappingId = mapping.id) =
      (delivered.filter (·.mappingId ∈ tables.slot place)).filter (·.mappingId = mapping.id) := by
    rw [List.filter_filter]
    apply List.filter_congr
    intro event _
    by_cases hself : event.mappingId = mapping.id
    · simp [hself, hin]
    · simp [hself]
  have hmapped : delivered.filter (·.mappingId = mapping.id) =
      (edges place).map fun action => ⟨mapping.id, action, some (binaryConfidence action)⟩ := by
    rw [hwithin, hcaptured, List.filter_flatMap]
    have heach := captured_filter hslot hnodup hmem hplace
    simp only [heach]
    exact List.map_eq_flatMap.symm
  rw [latestEdge_inputs, hmapped, List.getLast?_map, Option.map_map]
  exact Option.map_id'

end Wiring

/-- No configured id is a derived one, as far as there are derived ones. -/
def Apart (config : Config) : Prop :=
  config.simulator.stdin = true →
    ∀ mapping ∈ config.mappings, ∀ other ∈ config.mappings,
      mapping.id ≠ simulatorId other.switchId

instance (config : Config) : Decidable (Apart config) :=
  inferInstanceAs (Decidable (_ → _))

theorem mem_brokerMappings {config : Config} {mapping : Mapping} :
    mapping ∈ config.brokerMappings ↔ mapping ∈ config.mappings ∨
      config.simulator.stdin = true ∧
        ∃ other ∈ config.mappings, mapping = simulatorMapping other.switchId := by
  unfold Config.brokerMappings
  split_ifs with henabled
  · simp [henabled, mem_mappingsFor]
  · simp [henabled]

theorem nodup_brokerMappings {config : Config} (hvalid : config.validate = .ok ())
    (hapart : Apart config) : (config.brokerMappings.map (·.id)).Nodup := by
  have hconfigured := config.nodup_of_validate hvalid
  unfold Config.brokerMappings
  split_ifs with henabled
  · rw [List.map_append]
    apply hconfigured.append (nodup_mappingsFrom ∅ config.mappings)
    intro id hid hderived
    obtain ⟨mapping, hmapping, rfl⟩ := List.mem_map.mp hid
    obtain ⟨derived, hmem, hsame⟩ := List.mem_map.mp hderived
    obtain ⟨other, hother, rfl⟩ := (mem_mappingsFor _ _).mp hmem
    exact hapart henabled mapping hmapping other hother hsame.symm
  · exact hconfigured

/-- The latest input for a simulator mapping is what was last typed. -/
theorem latest_of_lines {config : Config} {daemon : Started} (hstart : start config = .ok daemon)
    {edges : Control → List Action} {lines : List (Option String)}
    {delivered : List PhysicalEvent} (h : Delivers daemon edges lines delivered)
    (henabled : config.simulator.stdin = true) {switchId : String}
    (hconfigured : ∃ mapping ∈ config.mappings, mapping.switchId = switchId) :
    latestEdge (simulatorId switchId) (delivered.map callOf) = lastTyped config lines switchId := by
  obtain ⟨_, _, _, _, hknown⟩ := start_ok hstart
  rw [if_pos henabled] at hknown
  have hentry : (knownSwitches config.mappings)[switchId]? = some (simulatorId switchId) := by
    rw [knownSwitches_getElem?, if_pos hconfigured]
  rw [latestEdge_inputs, h.read _ hknown switchId _ hentry]
  rfl

/-- The history of the inputs says of a switch what its wires say. -/
theorem pressed_iff_wired {config : Config} {daemon : Started}
    (hstart : start config = .ok daemon) (hapart : Apart config)
    {edges : Control → List Action} {lines : List (Option String)}
    {delivered : List PhysicalEvent} (h : Delivers daemon edges lines delivered)
    (switchId : String) :
    Pressed daemon.mappings (delivered.map callOf) switchId ↔
      Wired config edges lines switchId := by
  obtain ⟨hconfig, hvalid, hspawn, hmappings, _⟩ := start_ok hstart
  obtain ⟨tables, htables, hslot⟩ := spawn_ok hvalid
  cases hspawn.symm.trans htables
  have hnodup := config.nodup_of_validate hconfig
  have hlatest {mapping : Mapping} (hmem : mapping ∈ config.mappings) {place : Control}
      (hplace : control mapping = some place) :
      latestEdge mapping.id (delivered.map callOf) = (edges place).getLast? :=
    latest_of_control hslot hnodup h.captured hmem hplace
  rw [hmappings, pressed_iff]
  constructor
  · rintro ⟨mappingId, hswitch, hheld⟩
    obtain ⟨mapping, hmem, rfl, rfl⟩ := mem_of_configuredSwitch hswitch
    rcases mem_brokerMappings.mp hmem with hown | ⟨henabled, other, hother, rfl⟩
    · obtain ⟨place, hplace⟩ := control_of_validate hvalid hown
      exact ⟨mapping, hown, rfl, .inl ⟨place, hplace, (hlatest hown hplace).symm.trans hheld⟩⟩
    · have htyped := latest_of_lines hstart h henabled ⟨other, hother, rfl⟩
      exact ⟨other, hother, rfl, .inr ⟨henabled, htyped.symm.trans hheld⟩⟩
  · rintro ⟨mapping, hmem, rfl, ⟨place, hplace, hlast⟩ | ⟨henabled, hlast⟩⟩
    · refine ⟨mapping.id, ?_, (hlatest hmem hplace).trans hlast⟩
      exact configuredSwitch_of_nodup (nodup_brokerMappings hconfig hapart)
        (mem_brokerMappings.mpr (.inl hmem))
    · refine ⟨simulatorId mapping.switchId, ?_, ?_⟩
      · exact configuredSwitch_simulatorId henabled ⟨mapping, hmem, rfl⟩
      · exact (latest_of_lines hstart h henabled ⟨mapping, hmem, rfl⟩).trans hlast

/-- The space key goes down; the line that presses the same switch comes first. -/
def typedAndPressed : List Step :=
  [passAt 1 (.command (.input ⟨"sim:primary", .pressed, some (.finite 100)⟩)),
    passAt 2 .tick,
    passAt 3 (.command (.input ⟨"space", .pressed, some (.finite 100)⟩))]

end Usahp
