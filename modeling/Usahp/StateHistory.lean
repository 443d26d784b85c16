import Usahp.Library.Machine
import Usahp.State

/-!
The state machine against its history. The abstract model has no state: what
is held, what is pressed and what the next edge reports is read off the list
of all calls made so far. The two maps of the state machine are shown to be a
cache of it.
-/

namespace Usahp.SwitchStateMachine

open Std Usahp.Library

/-- A call from outside. The results are not part of it. -/
inductive Call where
  | apply (mappingId : String) (action : Action) (confidence : Option F32)
  | releaseAll

def perform (machine : SwitchStateMachine) : Call → SwitchStateMachine
  | .apply mappingId action confidence => (machine.apply mappingId action confidence).2
  | .releaseAll => machine.releaseAll.2

def stateMachine (mappings : List Mapping) : Machine SwitchStateMachine Call where
  start := SwitchStateMachine.new mappings
  step := perform

/-- The switch of a mapping; of two mappings with one id the last one counts. -/
def configuredSwitch (mappings : List Mapping) (mappingId : String) : Option String :=
  (mappings.reverse.find? (·.id = mappingId)).map (·.switchId)

/-- What one call makes of the latest edge of a mapping. -/
def Call.edge (mappingId : String) (latest : Option Action) : Call → Option Action
  | .apply other action _ => if other = mappingId then some action else latest
  | .releaseAll => none

/-- The latest edge of a mapping since everything was last let go. An edge
that was answered with an error is an edge too. -/
def latestEdge (mappingId : String) (calls : List Call) : Option Action :=
  calls.foldl (Call.edge mappingId) none

def Held (calls : List Call) (mappingId : String) : Prop :=
  latestEdge mappingId calls = some .pressed

instance (calls : List Call) (mappingId : String) : Decidable (Held calls mappingId) :=
  inferInstanceAs (Decidable (_ = _))

/-- Some mapping of the switch is held. -/
def Pressed (mappings : List Mapping) (calls : List Call) (switchId : String) : Prop :=
  ∃ mapping ∈ mappings,
    configuredSwitch mappings mapping.id = some switchId ∧ Held calls mapping.id

instance (mappings : List Mapping) (calls : List Call) (switchId : String) :
    Decidable (Pressed mappings calls switchId) :=
  inferInstanceAs (Decidable (∃ mapping ∈ mappings, _))

/-- What the next edge has to be answered with, given the calls before it. -/
def answer (mappings : List Mapping) (calls : List Call) (mappingId : String)
    (action : Action) (confidence : Option F32) :
    Except StateError (Option LogicalTransition) :=
  match configuredSwitch mappings mappingId with
  | none => .error (.unknownMapping mappingId)
  | some switchId =>
      let later := calls ++ [.apply mappingId action confidence]
      if Held later mappingId ↔ Held calls mappingId then
        .error (.invalidTransition mappingId action)
      else if Pressed mappings later switchId ↔ Pressed mappings calls switchId then
        .ok none
      else
        .ok (some ⟨switchId, action, confidence⟩)

theorem latestEdge_concat (mappingId : String) (calls : List Call) (call : Call) :
    latestEdge mappingId (calls ++ [call]) =
      call.edge mappingId (latestEdge mappingId calls) :=
  List.foldl_concat _ _ _ _

theorem held_apply_self (calls : List Call) (mappingId : String) (action : Action)
    (confidence : Option F32) :
    Held (calls ++ [.apply mappingId action confidence]) mappingId ↔
      action = .pressed := by
  rw [Held, latestEdge_concat, Call.edge, if_pos rfl, Option.some.injEq]

theorem held_apply_of_ne (calls : List Call) {mappingId other : String}
    (hne : other ≠ mappingId) (action : Action) (confidence : Option F32) :
    Held (calls ++ [.apply mappingId action confidence]) other ↔ Held calls other := by
  rw [Held, latestEdge_concat, Call.edge, if_neg (Ne.symm hne)]
  rfl

theorem not_held_releaseAll (calls : List Call) (mappingId : String) :
    ¬ Held (calls ++ [.releaseAll]) mappingId := by
  rw [Held, latestEdge_concat]
  simp [Call.edge]

/-- The switch of a mapping comes from one of the listed mappings. -/
theorem mem_of_configuredSwitch {mappings : List Mapping} {mappingId switchId : String}
    (h : configuredSwitch mappings mappingId = some switchId) :
    ∃ mapping ∈ mappings, mapping.id = mappingId ∧ mapping.switchId = switchId := by
  obtain ⟨mapping, hfind, hswitch⟩ := Option.map_eq_some_iff.mp h
  refine ⟨mapping, List.mem_reverse.mp (List.mem_of_find?_eq_some hfind), ?_, hswitch⟩
  simpa using List.find?_some hfind

theorem configuredSwitch_of_mem {mappings : List Mapping} {mapping : Mapping}
    (hmem : mapping ∈ mappings) {mappingId : String} (hid : mapping.id = mappingId) :
    ∃ switchId, configuredSwitch mappings mappingId = some switchId := by
  have hfound : (mappings.reverse.find? (·.id = mappingId)).isSome := by
    refine List.find?_isSome.mpr ⟨mapping, List.mem_reverse.mpr hmem, ?_⟩
    simpa using hid
  obtain ⟨found, hfind⟩ := Option.isSome_iff_exists.mp hfound
  refine ⟨found.switchId, ?_⟩
  rw [configuredSwitch, hfind]
  rfl

theorem pressed_iff {mappings : List Mapping} {calls : List Call} {switchId : String} :
    Pressed mappings calls switchId ↔
      ∃ mappingId, configuredSwitch mappings mappingId = some switchId ∧
        Held calls mappingId := by
  constructor
  · rintro ⟨mapping, _, hswitch, hheld⟩
    exact ⟨mapping.id, hswitch, hheld⟩
  · rintro ⟨mappingId, hswitch, hheld⟩
    obtain ⟨mapping, hmem, rfl, _⟩ := mem_of_configuredSwitch hswitch
    exact ⟨mapping, hmem, hswitch, hheld⟩

theorem collectMappings_getElem? (mappings : List Mapping) (mappingId : String) :
    (collectMappings mappings)[mappingId]? = configuredSwitch mappings mappingId := by
  unfold collectMappings configuredSwitch
  induction mappings using List.reverseRecOn with
  | nil => simp
  | append_singleton mappings mapping ih =>
      rw [List.foldl_concat, ExtTreeMap.getElem?_insert, List.reverse_append,
        List.reverse_singleton, List.singleton_append, List.find?_cons]
      by_cases h : mapping.id = mappingId
      · simp [h]
      · simp [h, ih]

theorem mem_emptySwitches (mappings : List Mapping) (switchId : String) :
    switchId ∈ emptySwitches mappings ↔
      ∃ mapping ∈ mappings, mapping.switchId = switchId := by
  unfold emptySwitches
  induction mappings using List.reverseRecOn with
  | nil => simp
  | append_singleton mappings mapping ih =>
      rw [List.foldl_concat, ExtTreeMap.mem_insertIfNew, ih]
      simp [or_comm]

theorem active_new (mappings : List Mapping) (switchId : String) :
    (SwitchStateMachine.new mappings).active switchId = ∅ := by
  change (emptySwitches mappings)[switchId]?.getD ∅ = ∅
  unfold emptySwitches
  induction mappings using List.reverseRecOn with
  | nil => simp
  | append_singleton mappings mapping ih =>
      rw [List.foldl_concat, ExtTreeMap.getElem?_insertIfNew]
      split_ifs with hfresh
      · rfl
      · exact ih

/-- The representation invariant: the two maps say what the history says. -/
structure Reflects (mappings : List Mapping) (calls : List Call)
    (machine : SwitchStateMachine) : Prop where
  known : ∀ mappingId : String,
    machine.mappingToSwitch[mappingId]? = configuredSwitch mappings mappingId
  listed : ∀ switchId, switchId ∈ machine.switches ↔
    ∃ mapping ∈ mappings, mapping.switchId = switchId
  holds : ∀ mappingId switchId, mappingId ∈ machine.active switchId ↔
    configuredSwitch mappings mappingId = some switchId ∧ Held calls mappingId

theorem reflects_new (mappings : List Mapping) :
    Reflects mappings [] (SwitchStateMachine.new mappings) where
  known := collectMappings_getElem? mappings
  listed switchId := by
    rw [mem_switches]
    exact mem_emptySwitches mappings switchId
  holds mappingId switchId := by
    rw [active_new]
    simp [Held, latestEdge]

variable {mappings : List Mapping} {calls : List Call} {machine : SwitchStateMachine}

theorem Reflects.apply (h : Reflects mappings calls machine) (mappingId : String)
    (action : Action) (confidence : Option F32) :
    Reflects mappings (calls ++ [.apply mappingId action confidence])
      (machine.apply mappingId action confidence).2 where
  known := by
    rw [apply_mappingToSwitch]
    exact h.known
  listed := by
    rw [apply_switches]
    exact h.listed
  holds other otherSwitch := by
    cases hknown : machine.mappingToSwitch[mappingId]? with
    | none =>
        rw [machine.apply_unknown hknown, h.holds]
        by_cases hother : other = mappingId
        · -- an edge of an unknown mapping is in the history, but holds nothing
          subst hother
          rw [h.known] at hknown
          simp [hknown]
        · rw [held_apply_of_ne calls hother]
    | some switchId =>
        rw [machine.mem_active_apply hknown, h.holds]
        rw [h.known] at hknown
        by_cases hother : other = mappingId
        · subst hother
          rw [held_apply_self, hknown]
          by_cases hswitch : otherSwitch = switchId
          · simp [hswitch]
          · simp [hswitch, Ne.symm hswitch]
        · rw [held_apply_of_ne calls hother, if_neg fun hsame => hother hsame.1]

theorem Reflects.releaseAll (h : Reflects mappings calls machine) :
    Reflects mappings (calls ++ [.releaseAll]) machine.releaseAll.2 where
  known := h.known
  listed := by
    rw [releaseAll_switches]
    exact h.listed
  holds mappingId switchId := by
    rw [active_releaseAll]
    simp [not_held_releaseAll]

theorem reflects_run (mappings : List Mapping) (calls : List Call) :
    Reflects mappings calls ((stateMachine mappings).run calls) := by
  refine (stateMachine mappings).history_invariant (Reflects mappings)
    (reflects_new mappings) ?_ calls
  intro calls call h
  cases call with
  | apply mappingId action confidence => exact h.apply mappingId action confidence
  | releaseAll => exact h.releaseAll

theorem Reflects.level (h : Reflects mappings calls machine) (switchId : String) :
    machine.level switchId = .pressed ↔ Pressed mappings calls switchId := by
  rw [level_eq_pressed_iff, pressed_iff, ← Finset.nonempty_iff_ne_empty]
  constructor
  · rintro ⟨mappingId, hmem⟩
    exact ⟨mappingId, (h.holds mappingId switchId).mp hmem⟩
  · rintro ⟨mappingId, hheld⟩
    exact ⟨mappingId, (h.holds mappingId switchId).mpr hheld⟩

/-- An edge of a mapping moves no other mapping, so its switch is pressed
afterwards when the edge is a press or another of its mappings is held. -/
theorem Reflects.pressed_apply (h : Reflects mappings calls machine)
    {mappingId switchId : String}
    (hknown : configuredSwitch mappings mappingId = some switchId) (action : Action)
    (confidence : Option F32) :
    Pressed mappings (calls ++ [.apply mappingId action confidence]) switchId ↔
      action = .pressed ∨ (machine.active switchId).erase mappingId ≠ ∅ := by
  have hlater := (h.apply mappingId action confidence).level switchId
  have hmapped := h.known mappingId
  rw [hknown] at hmapped
  rw [← hlater, level_eq_pressed_iff, ← Finset.nonempty_iff_ne_empty]
  constructor
  · rintro ⟨other, hother⟩
    rw [machine.mem_active_apply hmapped] at hother
    split_ifs at hother with hself
    · exact Or.inl hother
    · refine Or.inr (Finset.ne_empty_of_mem (Finset.mem_erase.mpr ⟨?_, hother⟩))
      exact fun heq => hself ⟨heq, rfl⟩
  · rintro (hpress | hothers)
    · refine ⟨mappingId, ?_⟩
      rw [machine.mem_active_apply hmapped, if_pos ⟨rfl, rfl⟩]
      exact hpress
    · obtain ⟨other, hother⟩ := Finset.nonempty_iff_ne_empty.mpr hothers
      obtain ⟨hne, hmem⟩ := Finset.mem_erase.mp hother
      refine ⟨other, ?_⟩
      rw [machine.mem_active_apply hmapped, if_neg fun hself => hne hself.1]
      exact hmem

/-- `apply` answers what the history demands. -/
theorem Reflects.apply_answer (h : Reflects mappings calls machine) (mappingId : String)
    (action : Action) (confidence : Option F32) :
    (machine.apply mappingId action confidence).1 =
      answer mappings calls mappingId action confidence := by
  have hmapped := h.known mappingId
  unfold answer
  cases hknown : configuredSwitch mappings mappingId with
  | none =>
      rw [hknown] at hmapped
      rw [machine.apply_unknown hmapped]
  | some switchId =>
      rw [hknown] at hmapped
      have hheld : mappingId ∈ machine.active switchId ↔ Held calls mappingId := by
        rw [h.holds, hknown]
        simp
      have hbefore := h.level switchId
      rw [level_eq_pressed_iff] at hbefore
      simp only [held_apply_self, h.pressed_apply hknown, ← hheld, ← hbefore]
      rw [machine.apply_known hmapped]
      cases action with
      | pressed =>
          by_cases hin : mappingId ∈ machine.active switchId
          · simp [hin]
          · simp [hin, Finset.card_insert_of_notMem]
      | released =>
          by_cases hin : mappingId ∈ machine.active switchId
          · have hsome := Finset.ne_empty_of_mem hin
            by_cases hlast : (machine.active switchId).erase mappingId = ∅
            · simp [hin, hlast, hsome]
            · simp [hin, hlast, hsome]
          · simp [hin]

/-- After any calls the state machine is the one its history describes, its
snapshots list what the history says is pressed, and the next edge is answered
as the history demands. -/
theorem history_exact (mappings : List Mapping) (calls : List Call) :
    let machine := (stateMachine mappings).run calls
    (∀ mappingId switchId, configuredSwitch mappings mappingId = some switchId →
      ∀ other, mappingId ∈ machine.active other ↔
        other = switchId ∧ latestEdge mappingId calls = some .pressed) ∧
    (machine.snapshots.map (·.switchId)).Pairwise (· < ·) ∧
    (∀ switchId, switchId ∈ machine.snapshots.map (·.switchId) ↔
      ∃ mapping ∈ mappings, mapping.switchId = switchId) ∧
    (∀ snapshot ∈ machine.snapshots, snapshot.state = .pressed ↔
      ∃ mappingId, configuredSwitch mappings mappingId = some snapshot.switchId ∧
        latestEdge mappingId calls = some .pressed) ∧
    (∀ mappingId action confidence,
      (machine.apply mappingId action confidence).1 =
        answer mappings calls mappingId action confidence) ∧
    (∀ mappingId action confidence error,
      (machine.apply mappingId action confidence).1 = .error error →
      (machine.apply mappingId action confidence).2 = machine) ∧
    (∀ mappingId switchId : String,
      machine.mappingToSwitch[mappingId]? = some switchId →
      machine.activeBySwitch[switchId]?.isSome) := by
  intro machine
  have h := reflects_run mappings calls
  have hlisted : machine.snapshots.map (·.switchId) = machine.switches := by
    rw [snapshots_eq, List.map_map]
    exact List.map_id _
  refine ⟨?_, ?_, ?_, ?_, ?_, ?_, ?_⟩
  · intro mappingId switchId hknown other
    rw [h.holds, hknown, Option.some.injEq, eq_comm]
    rfl
  · rw [hlisted]
    exact machine.switches_sorted
  · rw [hlisted]
    exact h.listed
  · intro snapshot hmem
    rw [snapshots_eq] at hmem
    obtain ⟨switchId, _, rfl⟩ := List.mem_map.mp hmem
    rw [h.level switchId, pressed_iff]
    rfl
  · exact h.apply_answer
  · intro mappingId action confidence error herror
    exact machine.apply_snd_of_error herror
  · intro mappingId switchId hmapped
    exact ExtTreeMap.mem_iff_isSome_getElem?.mp (machine.covered mappingId switchId hmapped)

end Usahp.SwitchStateMachine
