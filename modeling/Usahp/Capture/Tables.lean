import Usahp.Library.Buckets
import Usahp.Capture.Keyboard

/-!
The start of capture on Linux. `validate` looks at every mapping; the tables of
the keyboard callback and of the evdev threads are built after that, by other
functions that parse the codes once more. What the first accepts the others can
build, and no mapping gets lost on the way to its table.
-/

namespace Usahp.Capture

open Usahp.Library Usahp.Broker

/-- The systems the daemon is built for, as `std::env::consts::OS` names them. -/
inductive Platform where
  | linux
  | other (os : String)
  deriving DecidableEq

inductive ParseIntError where
  | empty
  | invalidDigit
  | posOverflow
  deriving DecidableEq

def ParseIntError.message : ParseIntError → String
  | .empty => "cannot parse integer from empty string"
  | .invalidDigit => "invalid digit found in string"
  | .posOverflow => "number too large to fit in target type"

/-- The digits of a `u16`, most significant first, after those in `result`. -/
def parseDigits (result : Nat) : List Char → Except ParseIntError UInt16
  | [] => .ok (UInt16.ofNat result)
  | character :: rest =>
      if '0' ≤ character ∧ character ≤ '9' then
        let next := result * 10 + (character.toNat - '0'.toNat)
        if 2 ^ 16 ≤ next then .error .posOverflow else parseDigits next rest
      else .error .invalidDigit

/-- `str::parse::<u16>`. A sign alone is not a number; a minus is no digit. -/
def parseUInt16 (text : String) : Except ParseIntError UInt16 :=
  match text.toList with
  | [] => .error .empty
  | ['+'] => .error .invalidDigit
  | '+' :: digits => parseDigits 0 digits
  | digits => parseDigits 0 digits

example : parseUInt16 "+0304" = parseUInt16 "304" := by decide

example : parseUInt16 "65536" = .error .posOverflow := by decide

/-- An `anyhow` error: its contexts from the outside in, then its cause. -/
abbrev Failure := List String

def validateGamepad (platform : Platform) (mapping : Mapping) : Except Failure Unit :=
  match platform with
  | .linux =>
      if mapping.device.getD "" = "" then
        .error ["gamepad mapping '" ++ mapping.id ++ "' requires an evdev device path"]
      else
        match parseUInt16 mapping.code with
        | .error error =>
            .error ["gamepad mapping '" ++ mapping.id ++
              "' code must be a numeric evdev key code", error.message]
        | .ok _ => .ok ()
  | .other os =>
      .error ["gamepad mapping '" ++ mapping.id ++ "' cannot guarantee suppression on " ++ os ++
        "; use Linux evdev or remove it"]

/-- One turn of the loop of `validate`. -/
def validateMapping (platform : Platform) (mapping : Mapping) : Except Failure Unit :=
  match mapping.input with
  | .keyboard =>
      match parseKey mapping.code with
      | .error error => .error ["mapping '" ++ mapping.id ++ "'", error]
      | .ok _ =>
          if mapping.device.isSome then
            .error ["keyboard mapping '" ++ mapping.id ++ "' must not set device"]
          else .ok ()
  | .gamepad => validateGamepad platform mapping

def validate (platform : Platform) (mappings : List Mapping) : Except Failure Unit :=
  mappings.forM (validateMapping platform)

/-- How the start of capture can go wrong. -/
inductive SpawnError where
  | failed (failure : Failure)
  | panicked
  deriving DecidableEq

/-- The ids of the mappings of each key code, for each device. -/
abbrev DeviceTables := String → Option (KeyTable UInt16)

/-- `entry(device).or_default().entry(code).or_default().push(id)`. -/
def DeviceTables.push (byDevice : DeviceTables) (device : String) (code : UInt16)
    (id : String) : DeviceTables :=
  Function.update byDevice device
    (some (((byDevice device).getD fun _ => none).push code id))

/-- The tables of `spawn_gamepads`, one for each thread it starts. The device is
unwrapped. -/
def gamepadTables (mappings : List Mapping) : Except SpawnError DeviceTables :=
  (mappings.filter (·.input = .gamepad)).foldlM
    (fun byDevice mapping =>
      match mapping.device with
      | none => .error .panicked
      | some device =>
          match parseUInt16 mapping.code with
          | .error error => .error (.failed [error.message])
          | .ok code => .ok (byDevice.push device code mapping.id))
    (fun _ => none)

structure Tables where
  keyboard : Option (KeyTable Key)
  gamepads : DeviceTables

/-- The keyboard is not grabbed where nothing is mapped to it. -/
def spawn (mappings : List Mapping) : Except SpawnError Tables := do
  let keyboard ←
    if (mappings.filter (·.input = .keyboard)).isEmpty then pure none
    else
      match keyboardTable mappings with
      | .error error => .error (.failed [error])
      | .ok byKey => pure (some byKey)
  let gamepads ← gamepadTables mappings
  return { keyboard, gamepads }

structure EvdevEvent where
  isKey : Bool
  code : UInt16
  value : Int

/-- What an evdev thread sends for an event when it finds the flag `enabled`. A
repeat has another value than 0 and 1. -/
def gamepadInputs (codes : KeyTable UInt16) (enabled : Bool) (event : EvdevEvent) :
    List PhysicalEvent :=
  if !enabled then []
  else if !event.isKey then []
  else
    match event.value with
    | 1 => inputsOf codes event.code .pressed
    | 0 => inputsOf codes event.code .released
    | _ => []

/-- Something that can be pressed: a key of the keyboard, or one of a device. -/
inductive Control where
  | key (key : Key)
  | evdev (device : String) (code : UInt16)
  deriving DecidableEq

/-- The control a mapping is configured for. -/
def control (mapping : Mapping) : Option Control :=
  match mapping.input with
  | .keyboard =>
      match parseKey mapping.code with
      | .ok key => some (.key key)
      | .error _ => none
  | .gamepad =>
      match mapping.device, parseUInt16 mapping.code with
      | some device, .ok code => some (.evdev device code)
      | _, _ => none

namespace Tables

/-- All tables as one. -/
def slot (tables : Tables) : Control → List String
  | .key key => (tables.keyboard.bind fun byKey => byKey key).getD []
  | .evdev device code => ((tables.gamepads device).bind fun codes => codes code).getD []

/-- What the edge of a control sends while capture is on. -/
def captured (tables : Tables) (control : Control) (action : Usahp.Action) :
    List PhysicalEvent :=
  match control with
  | .key key =>
      match tables.keyboard with
      | none => []
      | some byKey =>
          keyboardInputs byKey true
            (match action with
              | .pressed => .keyPress key
              | .released => .keyRelease key)
  | .evdev device code =>
      match tables.gamepads device with
      | none => []
      | some codes =>
          gamepadInputs codes true
            ⟨true, code, match action with | .pressed => 1 | .released => 0⟩

end Tables

section Validate

variable {platform : Platform} {mappings : List Mapping}

/-- What `validate` accepts, it accepts mapping by mapping. -/
theorem validateMapping_of_validate (h : validate platform mappings = .ok ()) :
    ∀ mapping ∈ mappings, validateMapping platform mapping = .ok () := by
  induction mappings with
  | nil => simp
  | cons first rest ih =>
      change (validateMapping platform first >>= fun _ => validate platform rest) = .ok () at h
      cases hfirst : validateMapping platform first with
      | error failure =>
          rw [hfirst] at h
          cases h
      | ok value =>
          rw [hfirst] at h
          intro mapping hmem
          rcases List.mem_cons.mp hmem with rfl | hrest
          · exact hfirst
          · exact ih h mapping hrest

theorem parseKey_of_validate (h : validate platform mappings = .ok ()) {mapping : Mapping}
    (hmem : mapping ∈ mappings) (hkeyboard : mapping.input = .keyboard) :
    ∃ key, parseKey mapping.code = .ok key := by
  have hvalid := validateMapping_of_validate h mapping hmem
  unfold validateMapping at hvalid
  rw [hkeyboard] at hvalid
  cases hparsed : parseKey mapping.code with
  | error error =>
      simp only [hparsed] at hvalid
      cases hvalid
  | ok key => exact ⟨key, rfl⟩

/-- A gamepad mapping that is accepted has a device and a number. -/
theorem parseUInt16_of_validate (h : validate .linux mappings = .ok ()) {mapping : Mapping}
    (hmem : mapping ∈ mappings) (hgamepad : mapping.input = .gamepad) :
    ∃ device code, mapping.device = some device ∧ parseUInt16 mapping.code = .ok code := by
  have hvalid := validateMapping_of_validate h mapping hmem
  unfold validateMapping validateGamepad at hvalid
  rw [hgamepad] at hvalid
  dsimp only at hvalid
  split_ifs at hvalid with hdevice
  cases hname : mapping.device with
  | none => simp [hname] at hdevice
  | some device =>
      cases hparsed : parseUInt16 mapping.code with
      | error error =>
          rw [hparsed] at hvalid
          cases hvalid
      | ok code => exact ⟨device, code, rfl, rfl⟩

theorem control_of_validate (h : validate .linux mappings = .ok ()) {mapping : Mapping}
    (hmem : mapping ∈ mappings) : ∃ own, control mapping = some own := by
  unfold control
  cases hinput : mapping.input with
  | keyboard =>
      obtain ⟨key, hkey⟩ := parseKey_of_validate h hmem hinput
      exact ⟨.key key, by simp only [hkey]⟩
  | gamepad =>
      obtain ⟨device, code, hdevice, hcode⟩ := parseUInt16_of_validate h hmem hinput
      exact ⟨.evdev device code, by simp only [hdevice, hcode]⟩

end Validate

section Build

variable {mappings : List Mapping}

/-- The entries of the keyboard table. -/
def keyOf (mapping : Mapping) : Option Key := (parseKey mapping.code).toOption

theorem keyOf_eq_some_iff (mapping : Mapping) (key : Key) :
    keyOf mapping = some key ↔ parseKey mapping.code = .ok key := by
  unfold keyOf
  cases parseKey mapping.code <;> simp [Except.toOption]

/-- The place of a gamepad mapping in the tables of the devices. -/
def deviceKeyOf (mapping : Mapping) : Option (String × UInt16) :=
  mapping.device.bind fun device =>
    (parseUInt16 mapping.code).toOption.map fun code => (device, code)

theorem keyboardTable_ok
    (h : ∀ mapping ∈ mappings, mapping.input = .keyboard → ∃ key, parseKey mapping.code = .ok key) :
    keyboardTable mappings = .ok (Buckets.collect
      (Buckets.entriesOf keyOf (·.id) (mappings.filter (·.input = .keyboard)))) := by
  have hbuilt : ∃ byKey, keyboardTable mappings = .ok byKey ∧ byKey = Buckets.collect
      (Buckets.entriesOf keyOf (·.id) (mappings.filter (·.input = .keyboard))) := by
    unfold keyboardTable
    apply foldlM_invariant (fun dealt (byKey : KeyTable Key) =>
      byKey = Buckets.collect (Buckets.entriesOf keyOf (·.id) dealt))
    · rintro dealt _ mapping hmem rfl
      obtain ⟨hin, hkeyboard⟩ := List.mem_filter.mp hmem
      obtain ⟨key, hkey⟩ := h mapping hin (by simpa using hkeyboard)
      refine ⟨_, by rw [hkey]; rfl, ?_⟩
      have hentry : keyOf mapping = some key := (keyOf_eq_some_iff mapping key).mpr hkey
      rw [Buckets.entriesOf_concat, hentry]
      exact (Buckets.collect_concat _ key mapping.id).symm
    · rfl
  obtain ⟨_, hok, rfl⟩ := hbuilt
  exact hok

/-- The tables of the devices as one table. -/
def DeviceTables.joined (byDevice : DeviceTables) : Buckets (String × UInt16) String :=
  fun place => (byDevice place.1).bind fun codes => codes place.2

theorem DeviceTables.joined_push (byDevice : DeviceTables) (device : String) (code : UInt16)
    (id : String) :
    (byDevice.push device code id).joined = byDevice.joined.push (device, code) id := by
  funext place
  obtain ⟨otherDevice, otherCode⟩ := place
  simp only [joined, DeviceTables.push, KeyTable.push, Buckets.push, Function.update_apply,
    Prod.mk.injEq]
  by_cases hdevice : otherDevice = device
  · subst hdevice
    by_cases hcode : otherCode = code
    · subst hcode
      cases hcodes : byDevice otherDevice with
      | none => simp
      | some codes => simp
    · cases hcodes : byDevice otherDevice with
      | none => simp [hcode]
      | some codes => simp [hcode]
  · simp [hdevice]

theorem gamepadTables_ok (h : ∀ mapping ∈ mappings, mapping.input = .gamepad →
      ∃ device code, mapping.device = some device ∧ parseUInt16 mapping.code = .ok code) :
    ∃ byDevice, gamepadTables mappings = .ok byDevice ∧
      byDevice.joined = Buckets.collect
        (Buckets.entriesOf deviceKeyOf (·.id) (mappings.filter (·.input = .gamepad))) := by
  unfold gamepadTables
  apply foldlM_invariant (fun dealt (byDevice : DeviceTables) => byDevice.joined =
    Buckets.collect (Buckets.entriesOf deviceKeyOf (·.id) dealt))
  · intro dealt byDevice mapping hmem hdealt
    obtain ⟨hin, hgamepad⟩ := List.mem_filter.mp hmem
    obtain ⟨device, code, hdevice, hcode⟩ := h mapping hin (by simpa using hgamepad)
    refine ⟨byDevice.push device code mapping.id, by rw [hdevice, hcode], ?_⟩
    have hentry : deviceKeyOf mapping = some (device, code) := by
      simp [deviceKeyOf, hdevice, hcode, Except.toOption]
    rw [DeviceTables.joined_push, hdealt, Buckets.entriesOf_concat, hentry]
    exact (Buckets.collect_concat _ (device, code) mapping.id).symm
  · rfl

theorem control_eq_key_iff (mapping : Mapping) (key : Key) :
    control mapping = some (.key key) ↔ mapping.input = .keyboard ∧ keyOf mapping = some key := by
  unfold control keyOf
  cases hinput : mapping.input with
  | keyboard => cases hparsed : parseKey mapping.code <;> simp [Except.toOption]
  | gamepad =>
      cases hdevice : mapping.device with
      | none => simp
      | some device => cases hparsed : parseUInt16 mapping.code <;> simp

theorem control_eq_evdev_iff (mapping : Mapping) (device : String) (code : UInt16) :
    control mapping = some (.evdev device code) ↔
      mapping.input = .gamepad ∧ deviceKeyOf mapping = some (device, code) := by
  unfold control deviceKeyOf
  cases hinput : mapping.input with
  | keyboard => cases hparsed : parseKey mapping.code <;> simp
  | gamepad =>
      cases hdevice : mapping.device with
      | none => simp
      | some other => cases hparsed : parseUInt16 mapping.code <;> simp [Except.toOption]

/-- Accepted mappings are built into tables, each control with its own. -/
theorem spawn_ok (h : validate .linux mappings = .ok ()) :
    ∃ tables, spawn mappings = .ok tables ∧
      ∀ place, tables.slot place =
        (mappings.filter (control · = some place)).map (·.id) := by
  obtain ⟨byDevice, hdevices, hjoined⟩ :=
    gamepadTables_ok fun mapping hmem => parseUInt16_of_validate h hmem
  have hkeyboard := keyboardTable_ok fun mapping hmem => parseKey_of_validate h hmem
  generalize hbuilt : Buckets.collect (Buckets.entriesOf keyOf _ _) = byKey at hkeyboard
  have hkeys (key : Key) : (mappings.filter (·.input = .keyboard)).filter (keyOf · = some key) =
      mappings.filter (control · = some (.key key)) := by
    rw [List.filter_filter]
    apply List.filter_congr
    intro mapping _
    simp [control_eq_key_iff, Bool.and_comm]
  have hgamepads (device : String) (code : UInt16) :
      ((byDevice device).bind fun codes => codes code).getD [] =
        (mappings.filter (control · = some (.evdev device code))).map (·.id) := by
    have hslot := congrFun hjoined (device, code)
    change (byDevice device).bind (fun codes => codes code) = _ at hslot
    rw [hslot, Buckets.collect_getD, Buckets.bucket_entriesOf, List.filter_filter]
    congr 1
    apply List.filter_congr
    intro mapping _
    simp [control_eq_evdev_iff, Bool.and_comm]
  by_cases hempty : (mappings.filter (·.input = .keyboard)).isEmpty
  · refine ⟨⟨none, byDevice⟩, ?_, ?_⟩
    · unfold spawn
      rw [if_pos hempty, hdevices]
      rfl
    · intro place
      cases place with
      | key key =>
          rw [← hkeys, List.isEmpty_iff.mp hempty]
          rfl
      | evdev device code => exact hgamepads device code
  · refine ⟨⟨some byKey, byDevice⟩, ?_, ?_⟩
    · unfold spawn
      rw [if_neg hempty, hkeyboard, hdevices]
      rfl
    · intro place
      cases place with
      | key key =>
          change (byKey key).getD [] = _
          rw [← hbuilt, Buckets.collect_getD, Buckets.bucket_entriesOf, hkeys]
      | evdev device code => exact hgamepads device code

end Build

theorem inputsOf_eq {κ : Type*} (byKey : KeyTable κ) (key : κ) (action : Usahp.Action) :
    inputsOf byKey key action = ((byKey key).getD []).map fun mappingId =>
      { mappingId, action, confidence := some (binaryConfidence action) } := by
  unfold inputsOf
  cases byKey key with
  | none => rfl
  | some mappingIds => rfl

/-- An edge sends one input for each mapping of its control. -/
theorem Tables.captured_eq (tables : Tables) (place : Control) (action : Usahp.Action) :
    tables.captured place action = (tables.slot place).map fun mappingId =>
      { mappingId, action, confidence := some (binaryConfidence action) } := by
  cases place with
  | key key =>
      unfold captured slot
      cases tables.keyboard with
      | none => rfl
      | some byKey => cases action <;> exact inputsOf_eq byKey key _
  | evdev device code =>
      unfold captured slot
      dsimp only
      cases tables.gamepads device with
      | none => rfl
      | some codes => cases action <;> exact inputsOf_eq codes code _

/-- The tables of an accepted configuration: they can be built, every mapping is
in them once, in the slot of its own control and in configuration order, and the
edge of a control becomes one input for each of its mappings and for no other. -/
theorem dispatched_without_loss (config : Config) (hconfig : config.validate = .ok ())
    (hinput : validate .linux config.mappings = .ok ()) :
    ∃ tables, spawn config.mappings = .ok tables ∧
      (∀ place, tables.slot place =
        (config.mappings.filter (control · = some place)).map (·.id)) ∧
      (∀ mapping ∈ config.mappings, ∃ own, control mapping = some own ∧
        ∀ place, (tables.slot place).count mapping.id = if place = own then 1 else 0) ∧
      ∀ place action,
        tables.captured place action =
          (config.mappings.filter (control · = some place)).map (fun mapping =>
            { mappingId := mapping.id, action, confidence := some (binaryConfidence action) }) ∧
        ∀ mapping ∈ config.mappings,
          ((tables.captured place action).map (·.mappingId)).count mapping.id =
            if control mapping = some place then 1 else 0 := by
  obtain ⟨tables, hspawn, hslot⟩ := spawn_ok hinput
  have hnodup := config.nodup_of_validate hconfig
  have hcount : ∀ place, ∀ mapping ∈ config.mappings,
      (tables.slot place).count mapping.id = if control mapping = some place then 1 else 0 := by
    intro place mapping hmem
    have hsublist := List.filter_sublist (l := config.mappings) (p := (control · = some place))
    rw [hslot, (hnodup.sublist (hsublist.map _)).count]
    congr 1
    rw [eq_iff_iff]
    constructor
    · intro hin
      obtain ⟨other, hother, hsame⟩ := List.mem_map.mp hin
      obtain ⟨hlisted, hplace⟩ := List.mem_filter.mp hother
      rw [List.inj_on_of_nodup_map hnodup hlisted hmem hsame] at hplace
      simpa using hplace
    · intro hplace
      exact List.mem_map_of_mem (List.mem_filter.mpr ⟨hmem, by simpa using hplace⟩)
  refine ⟨tables, hspawn, hslot, ?_, ?_⟩
  · intro mapping hmem
    obtain ⟨own, hown⟩ := control_of_validate hinput hmem
    refine ⟨own, hown, ?_⟩
    intro place
    rw [hcount place mapping hmem, hown]
    simp only [Option.some.injEq, eq_comm]
  · intro place action
    constructor
    · rw [tables.captured_eq, hslot, List.map_map]
      rfl
    · intro mapping hmem
      rw [tables.captured_eq, List.map_map]
      change ((tables.slot place).map id).count mapping.id = _
      rw [List.map_id, hcount place mapping hmem]

/-- Two keys under one switch, two spellings of one key code, and another
device. -/
def mixedConfig : Config where
  server := ⟨256⟩
  simulator := ⟨false⟩
  mappings :=
    [⟨"space", "primary", .keyboard, "SPACE", none⟩,
      ⟨"south", "secondary", .gamepad, "304", some "/dev/input/event5"⟩,
      ⟨"again", "primary", .gamepad, "+0304", some "/dev/input/event5"⟩,
      ⟨"pedal", "primary", .gamepad, "304", some "/dev/input/event7"⟩]

theorem mixedConfig_dispatched : ∃ tables, spawn mixedConfig.mappings = .ok tables ∧
    tables.slot (.evdev "/dev/input/event5" 304) = ["south", "again"] := by
  obtain ⟨tables, hspawn, hslot, _⟩ :=
    dispatched_without_loss mixedConfig (by decide) (by decide +kernel)
  refine ⟨tables, hspawn, ?_⟩
  rw [hslot]
  decide +kernel

end Usahp.Capture
