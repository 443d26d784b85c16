import Mathlib.Data.Finset.Insert
import Mathlib.Data.List.Basic

/-!
The daemon's configuration and the checks it has to pass. What the TOML reader
does before, and the fields that only the server reads, are not modelled.
-/

namespace Usahp

inductive InputKind where
  | keyboard
  | gamepad
  deriving DecidableEq

structure Mapping where
  id : String
  switchId : String
  input : InputKind
  code : String
  device : Option String
  deriving DecidableEq

structure ServerConfig where
  clientQueueCapacity : Nat

structure SimulatorConfig where
  stdin : Bool

structure Config where
  server : ServerConfig
  simulator : SimulatorConfig
  mappings : List Mapping

inductive ConfigError where
  | noMappings
  | duplicateMappingId (id : String)
  | emptySwitchId (id : String)
  | emptyCode (id : String)
  | zeroQueueCapacity
  deriving DecidableEq

/-- `char::is_whitespace`, the code points of the property White_Space. -/
def isWhitespace (character : Char) : Bool :=
  let code := character.toNat
  (0x9 ≤ code && code ≤ 0xD) || code == 0x20 || code == 0x85 || code == 0xA0 ||
    code == 0x1680 || (0x2000 ≤ code && code ≤ 0x200A) || code == 0x2028 ||
    code == 0x2029 || code == 0x202F || code == 0x205F || code == 0x3000

/-- `str::trim`, as the characters that are left. -/
def trim (text : String) : List Char :=
  ((text.toList.dropWhile isWhitespace).reverse.dropWhile isWhitespace).reverse

/-- The loop of `validate`, with the ids seen so far. -/
def validateMappings (ids : Finset String) : List Mapping → Except ConfigError Unit
  | [] => .ok ()
  | mapping :: rest =>
      if mapping.id ∈ ids then .error (.duplicateMappingId mapping.id)
      else if trim mapping.switchId = [] then .error (.emptySwitchId mapping.id)
      else if trim mapping.code = [] then .error (.emptyCode mapping.id)
      else validateMappings (insert mapping.id ids) rest

def Config.validate (config : Config) : Except ConfigError Unit :=
  if config.mappings = [] then .error .noMappings
  else if config.server.clientQueueCapacity = 0 then .error .zeroQueueCapacity
  else validateMappings ∅ config.mappings

theorem validateMappings_cons {ids : Finset String} {mapping : Mapping} {rest : List Mapping} :
    validateMappings ids (mapping :: rest) = .ok () ↔
      mapping.id ∉ ids ∧ trim mapping.switchId ≠ [] ∧ trim mapping.code ≠ [] ∧
        validateMappings (insert mapping.id ids) rest = .ok () := by
  rw [validateMappings]
  split_ifs with hseen hswitch hcode
  · simp [hseen]
  · simp [hswitch]
  · simp [hcode]
  · simp [hseen, hswitch, hcode]

/-- The loop accepts ids that are new and distinct. -/
theorem validateMappings_ok {ids : Finset String} {mappings : List Mapping}
    (h : validateMappings ids mappings = .ok ()) :
    (mappings.map (·.id)).Nodup ∧ ∀ mapping ∈ mappings, mapping.id ∉ ids := by
  induction mappings generalizing ids with
  | nil => simp
  | cons mapping rest ih =>
      obtain ⟨hseen, _, _, hrest⟩ := validateMappings_cons.mp h
      obtain ⟨hnodup, hfresh⟩ := ih hrest
      constructor
      · have hnew : mapping.id ∉ rest.map (·.id) := by
          intro hmem
          obtain ⟨other, hother, hsame⟩ := List.mem_map.mp hmem
          apply hfresh other hother
          simp [hsame]
        exact List.nodup_cons.mpr ⟨hnew, hnodup⟩
      · intro other hmem
        rcases List.mem_cons.mp hmem with rfl | hlater
        · exact hseen
        · have hother := hfresh other hlater
          simp only [Finset.mem_insert, not_or] at hother
          exact hother.2

/-- It accepts no switch that is blank. -/
theorem trim_of_validateMappings {ids : Finset String} {mappings : List Mapping}
    (h : validateMappings ids mappings = .ok ()) :
    ∀ mapping ∈ mappings, trim mapping.switchId ≠ [] := by
  induction mappings generalizing ids with
  | nil => simp
  | cons mapping rest ih =>
      obtain ⟨_, hswitch, _, hrest⟩ := validateMappings_cons.mp h
      intro other hmem
      rcases List.mem_cons.mp hmem with rfl | hlater
      · exact hswitch
      · exact ih hrest other hlater

theorem Config.nodup_of_validate {config : Config} (h : config.validate = .ok ()) :
    (config.mappings.map (·.id)).Nodup := by
  unfold Config.validate at h
  split_ifs at h
  exact (validateMappings_ok h).1

theorem Config.trim_of_validate {config : Config} (h : config.validate = .ok ()) :
    ∀ mapping ∈ config.mappings, trim mapping.switchId ≠ [] := by
  unfold Config.validate at h
  split_ifs at h
  exact trim_of_validateMappings h

example : trim "\u00a0 \t" = [] := by decide

end Usahp
