import Usahp.Library.Words
import Usahp.Broker.Pulse
import Usahp.Capture.Keyboard
import Usahp.Simulator

/-!
The simulator on the standard input. A line is split at whitespace; its first
word is the command and its second one the switch. A switch whose id has
whitespace in it is never the second word of a line, so it cannot be driven;
every other configured switch can.
-/

namespace Usahp

open Std Usahp.Library Usahp.Broker SwitchStateMachine

/-- `str::split_whitespace`. -/
def splitWhitespace (text : String) : List String :=
  (words isWhitespace text.toList).map String.ofList

/-- The map `known` of `spawn_stdin`, from switches to the ids of their simulator
mappings. -/
def knownSwitches (mappings : List Mapping) : ExtTreeMap String String :=
  mappings.foldl (fun known mapping =>
    known.insert mapping.switchId (simulatorId mapping.switchId)) ∅

/-- What comes of a line: an input, a warning or nothing. -/
inductive LineOutcome where
  | input (event : PhysicalEvent)
  | warning (message : String)
  | blank
  deriving DecidableEq

def commandAction (word : String) : Option Action :=
  if word = "press" then some .pressed
  else if word = "release" then some .released
  else none

/-- One turn of the loop over the lines. Words after the second are not looked at. -/
def readLine (known : ExtTreeMap String String) (line : String) : LineOutcome :=
  match splitWhitespace line with
  | [] => .blank
  | command :: parts =>
      match commandAction command with
      | none => .warning "unknown simulator command"
      | some action =>
          match parts with
          | [] => .warning "simulator command requires a switch id"
          | switchId :: _ =>
              match known[switchId]? with
              | none => .warning "unknown simulated switch"
              | some mappingId =>
                  .input
                    { mappingId, action, confidence := some (Capture.binaryConfidence action) }

/-- What the thread sends while the broker runs. It ends with a line that cannot
be read. -/
def stdinInputs (known : ExtTreeMap String String) : List (Option String) → List PhysicalEvent
  | [] => []
  | none :: _ => []
  | some line :: rest =>
      match readLine known line with
      | .input event => event :: stdinInputs known rest
      | .warning _ => stdinInputs known rest
      | .blank => stdinInputs known rest

def pressLine (switchId : String) : String := "press" ++ " " ++ switchId

def releaseLine (switchId : String) : String := "release" ++ " " ++ switchId

theorem knownSwitches_getElem? (mappings : List Mapping) (switchId : String) :
    (knownSwitches mappings)[switchId]? =
      if ∃ mapping ∈ mappings, mapping.switchId = switchId then some (simulatorId switchId)
      else none := by
  unfold knownSwitches
  induction mappings using List.reverseRecOn with
  | nil => simp
  | append_singleton mappings mapping ih =>
      rw [List.foldl_concat, ExtTreeMap.getElem?_insert, ih]
      by_cases hsame : mapping.switchId = switchId
      · simp [hsame]
      · simp [hsame]

theorem oneWord_of_any {word : String} (h : word.toList.any isWhitespace = false) :
    ∀ character ∈ word.toList, isWhitespace character = false := by
  simpa using h

/-- The words of a line that is a command word, a space and a switch. -/
theorem splitWhitespace_command {command : String}
    (hcommand : ∀ character ∈ command.toList, isWhitespace character = false)
    (hsome : command.toList ≠ []) (switchId : String) :
    splitWhitespace (command ++ " " ++ switchId) = command :: splitWhitespace switchId := by
  unfold splitWhitespace
  have hline : (command ++ " " ++ switchId).toList =
      command.toList ++ ' ' :: switchId.toList := by simp
  rw [hline, words_append isWhitespace hcommand hsome (by decide), List.map_cons,
    String.ofList_toList]

theorem head?_splitWhitespace_iff {switchId : String} (hsome : switchId.toList ≠ []) :
    (splitWhitespace switchId).head? = some switchId ↔
      ∀ character ∈ switchId.toList, isWhitespace character = false := by
  rw [← head?_words_iff isWhitespace hsome, splitWhitespace, List.head?_map,
    Option.map_eq_some_iff]
  constructor
  · rintro ⟨word, hword, hsame⟩
    rw [hword, ← hsame, String.toList_ofList]
  · intro hword
    exact ⟨switchId.toList, hword, String.ofList_toList⟩

/-- A line drives a configured switch exactly when the id of the switch is one
word. -/
theorem readLine_iff {mappings : List Mapping} {command switchId : String} {action : Action}
    (hcommand : ∀ character ∈ command.toList, isWhitespace character = false)
    (hnamed : command.toList ≠ []) (haction : commandAction command = some action)
    (hconfigured : ∃ mapping ∈ mappings, mapping.switchId = switchId)
    (hsome : switchId.toList ≠ []) :
    readLine (knownSwitches mappings) (command ++ " " ++ switchId) =
        .input ⟨simulatorId switchId, action, some (Capture.binaryConfidence action)⟩ ↔
      ∀ character ∈ switchId.toList, isWhitespace character = false := by
  rw [← head?_splitWhitespace_iff hsome, readLine,
    splitWhitespace_command hcommand hnamed switchId]
  simp only [haction]
  cases splitWhitespace switchId with
  | nil => simp
  | cons first rest =>
      rw [List.head?_cons, Option.some.injEq]
      constructor
      · intro hread
        cases hknown : (knownSwitches mappings)[first]? with
        | none =>
            simp only [hknown] at hread
            cases hread
        | some mappingId =>
            simp only [hknown, LineOutcome.input.injEq, PhysicalEvent.mk.injEq] at hread
            rw [knownSwitches_getElem?] at hknown
            split_ifs at hknown
            rw [Option.some.injEq, hread.1] at hknown
            exact simulatorId_injective hknown
      · rintro rfl
        simp only [knownSwitches_getElem?, if_pos hconfigured]

theorem stdinInputs_singleton {known : ExtTreeMap String String} {line : String}
    {event : PhysicalEvent} :
    stdinInputs known [some line] = [event] ↔ readLine known line = .input event := by
  unfold stdinInputs
  cases readLine known line with
  | input other => simp [stdinInputs]
  | warning message => simp [stdinInputs]
  | blank => simp [stdinInputs]

/-- Of two lists the second one counts. -/
theorem configuredSwitch_append {first second : List Mapping} {mappingId switchId : String}
    (h : configuredSwitch second mappingId = some switchId) :
    configuredSwitch (first ++ second) mappingId = some switchId := by
  unfold configuredSwitch at h ⊢
  obtain ⟨mapping, hfound, hswitch⟩ := Option.map_eq_some_iff.mp h
  rw [List.reverse_append, List.find?_append, hfound, Option.some_or, Option.map_some, hswitch]

/-- The broker knows the simulator mapping of each configured switch, whatever
ids the configured mappings have. -/
theorem configuredSwitch_simulatorId {config : Config} (henabled : config.simulator.stdin = true)
    {switchId : String} (hconfigured : ∃ mapping ∈ config.mappings, mapping.switchId = switchId) :
    configuredSwitch config.brokerMappings (simulatorId switchId) = some switchId := by
  obtain ⟨mapping, hmapping, rfl⟩ := hconfigured
  rw [Config.brokerMappings, if_pos henabled]
  apply configuredSwitch_append
  have hderived : simulatorMapping mapping.switchId ∈ mappingsFor config.mappings :=
    (mem_mappingsFor config.mappings _).mpr ⟨mapping, hmapping, rfl⟩
  exact configuredSwitch_of_nodup (nodup_mappingsFrom ∅ config.mappings) hderived

/-- With the simulator enabled, a configured switch can be driven exactly when its
id has no whitespace in it: its lines become one input each, for the mapping that
the broker has for it, and a press and a release are one `Pressed` and one
`Released` event of the switch. -/
theorem simulator_drives_iff (config : Config) (hvalid : config.validate = .ok ())
    (henabled : config.simulator.stdin = true) (switchId : String)
    (hconfigured : ∃ mapping ∈ config.mappings, mapping.switchId = switchId) :
    let known := knownSwitches config.mappings
    let lines := [some (pressLine switchId), some (releaseLine switchId)]
    (∃ derived ∈ mappingsFor config.mappings, derived.switchId = switchId ∧
      stdinInputs known [some (pressLine switchId)] =
        [⟨derived.id, .pressed, some (.finite 100)⟩] ∧
      stdinInputs known [some (releaseLine switchId)] =
        [⟨derived.id, .released, some (.finite 0)⟩] ∧
      ∀ (started : Instant) (steps : List Step) (first second : Surroundings),
        let before := (broker config.brokerMappings started).run steps
        let after := (broker config.brokerMappings started).runFrom before
          (inputSteps [first, second] (stdinInputs known lines))
        before.Listening → before.state.level switchId = .released →
          ((createdSince before after).filter (·.switchId = switchId)).map (·.action) =
            [.pressed, .released] ∧
          (after.Listening → (createdSince before after).map
            (fun event => (event.switchId, event.action)) =
              [(switchId, .pressed), (switchId, .released)])) ↔
    ∀ character ∈ switchId.toList, isWhitespace character = false := by
  intro known lines
  have hsome : switchId.toList ≠ [] := by
    obtain ⟨mapping, hmapping, rfl⟩ := hconfigured
    intro hempty
    apply config.trim_of_validate hvalid mapping hmapping
    simp [trim, hempty]
  have hpress : readLine known (pressLine switchId) =
      .input ⟨simulatorId switchId, .pressed, some (.finite 100)⟩ ↔ _ :=
    readLine_iff (oneWord_of_any (by decide)) (by decide) rfl hconfigured hsome
  have hrelease : readLine known (releaseLine switchId) =
      .input ⟨simulatorId switchId, .released, some (.finite 0)⟩ ↔ _ :=
    readLine_iff (oneWord_of_any (by decide)) (by decide) rfl hconfigured hsome
  constructor
  · rintro ⟨derived, hderived, rfl, hinput, _⟩
    obtain ⟨mapping, _, rfl⟩ := (mem_mappingsFor config.mappings derived).mp hderived
    exact hpress.mp (stdinInputs_singleton.mp hinput)
  · intro hword
    have hfirst := hpress.mpr hword
    have hsecond := hrelease.mpr hword
    obtain ⟨mapping, hmapping, rfl⟩ := hconfigured
    refine ⟨simulatorMapping mapping.switchId, (mem_mappingsFor config.mappings _).mpr
      ⟨mapping, hmapping, rfl⟩, rfl, stdinInputs_singleton.mpr hfirst,
      stdinInputs_singleton.mpr hsecond, ?_⟩
    · intro started steps first second before after hlistening hreleased
      have hknown : before.state.mappingToSwitch[simulatorId mapping.switchId]? =
          some mapping.switchId :=
        (known_run config.brokerMappings started steps _).trans
          (configuredSwitch_simulatorId henabled ⟨mapping, hmapping, rfl⟩)
      have hpulse := pulse_creates hknown hlistening hreleased (some (.finite 100))
        (some (.finite 0)) first second
      have hafter : inputSteps [first, second] (stdinInputs known lines) =
          [⟨first, .command (.input ⟨simulatorId mapping.switchId, .pressed,
            some (.finite 100)⟩)⟩,
          ⟨second, .command (.input ⟨simulatorId mapping.switchId, .released,
            some (.finite 0)⟩)⟩] := by
        simp only [lines, stdinInputs, hfirst, hsecond]
        rfl
      simp only [after, hafter]
      exact hpulse

/-- Two switches, one of which has a name of two words. -/
def spacedConfig : Config where
  server := ⟨256⟩
  simulator := ⟨true⟩
  mappings :=
    [⟨"space", "primary", .keyboard, "Space", none⟩,
      ⟨"enter", "second switch", .keyboard, "Return", none⟩]

theorem spacedConfig_driven :
    ∃ derived ∈ mappingsFor spacedConfig.mappings, derived.switchId = "primary" ∧
      stdinInputs (knownSwitches spacedConfig.mappings) [some (pressLine "primary")] =
        [⟨derived.id, .pressed, some (.finite 100)⟩] := by
  obtain ⟨derived, hderived, hswitch, hpress, _⟩ :=
    (simulator_drives_iff spacedConfig (by decide) rfl "primary" (by decide)).mpr
      (oneWord_of_any (by decide))
  exact ⟨derived, hderived, hswitch, hpress⟩

/-- The configuration is accepted, and nothing comes of the line for its second
switch. -/
theorem spacedConfig_undriven :
    spacedConfig.validate = .ok () ∧
      (∃ mapping ∈ spacedConfig.mappings, mapping.switchId = "second switch") ∧
      stdinInputs (knownSwitches spacedConfig.mappings)
        [some (pressLine "second switch")] = [] := by
  decide +kernel

end Usahp
