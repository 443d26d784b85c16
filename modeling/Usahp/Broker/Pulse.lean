import Usahp.Broker.Calls
import Usahp.Broker.Stream
import Usahp.Release

/-!
A pulse: the press and the release of one mapping, one right after the other.
While the broker listens and the switch is released, a pulse is one press and one
release of the switch. Where the queue of the session holder is full the
session ends with the press; the release is then the one that the end of a
session brings, and other switches may be released with it.
-/

namespace Usahp.Broker

open Std Usahp.Library SwitchStateMachine

/-- What everything let go brings for one switch. -/
theorem Runtime.releases_filter (runtime : Runtime) (now : Instant) (switchId : String) :
    ((runtime.releases now).filter (·.switchId = switchId)).map (·.action) =
      if runtime.state.level switchId = .pressed then [.released] else [] := by
  have hown := runtime.state.releaseAll_filter switchId
  rw [← stamp_transitions runtime.started now runtime.sequence runtime.state.releaseAll.1,
    List.filter_map] at hown
  have hactions := congrArg (List.map LogicalTransition.action) hown
  rw [List.map_map] at hactions
  refine Eq.trans hactions ?_
  split_ifs
  · rfl
  · rfl

/-- The two ways of an input that changes the level of its switch: the event
reaches whom it is for, or the session ends with it. -/
theorem step_outer {runtime : Runtime} {surroundings : Surroundings} {event : PhysicalEvent}
    {transition : LogicalTransition} {state : SwitchStateMachine}
    (hlistening : runtime.Listening) (houter : Outer runtime event transition state) :
    let after := runtime.step ⟨surroundings, .command (.input event)⟩
    let own := stampOne runtime.started surroundings.now (runtime.sequence + 1) transition
    (after.Listening ∧ after.state = state ∧
      Creates runtime.core surroundings.now [own] after.core) ∨
    (after.paused = true ∧ ∃ releases,
      Creates runtime.core surroundings.now (own :: releases) after.core ∧
      ∀ switchId, (releases.filter (·.switchId = switchId)).map (·.action) =
        if state.level switchId = .pressed then [.released] else []) := by
  intro after own
  have hcreates := runtime.published_creates surroundings.now houter
  have hturn : Turn runtime surroundings (.command (.input event)) after :=
    runtime.step_turn ⟨surroundings, .command (.input event)⟩
  generalize after = result at hturn ⊢
  cases hturn with
  | muted _ hdeaf => exact absurd hlistening hdeaf
  | unchanged _ _ error hfailed =>
      rw [houter.applied] at hfailed
      cases hfailed
  | inner _ _ other hsilent _ => cases houter.applied.symm.trans hsilent
  | announced _ _ _ other otherState hother =>
      cases houter.applied.symm.trans hother.applied
      exact Or.inl ⟨hlistening, rfl, hcreates⟩
  | routed _ _ session _ other otherState hother _ =>
      cases houter.applied.symm.trans hother.applied
      have hcore := (runtime.published surroundings.now state transition).trySend_core
        session.clientId (runtime.news surroundings.now transition)
      left
      refine ⟨⟨?_, ?_⟩, congrArg Core.state hcore, ?_⟩
      · exact (congrArg Core.paused hcore).trans hlistening.1
      · exact (congrArg (fun core : Core => core.capture.enabled) hcore).trans hlistening.2
      · rw [hcore]
        exact hcreates
  | overflowed _ _ session hactive other otherState hother _ =>
      cases houter.applied.symm.trans hother.applied
      have hdropped := runtime.dropped_core surroundings.now state transition session.clientId
      have hsession := runtime.dropped_session surroundings.now state transition
        session.clientId hactive
      generalize Runtime.removeClient _ session.clientId = dropped at hdropped hsession ⊢
      have hended := dropped.revoke_creates surroundings .queueOverflow hsession
      rw [hdropped] at hended
      right
      refine ⟨congrArg Core.paused (dropped.revoke_core surroundings _ hsession),
        dropped.releases surroundings.now, hcreates.trans hended, ?_⟩
      intro switchId
      have hstate : dropped.state = state := congrArg Core.state hdropped
      rw [dropped.releases_filter, hstate]
  | revoked _ _ _ _ hdemand => cases hdemand
  | ignored _ hkind _ =>
      rcases hkind with hkind | ⟨_, hkind⟩ | ⟨_, hkind⟩
      · cases hkind
      · cases hkind
      · cases hkind

/-- What the inputs of a sender become when the broker takes them one after the
other. -/
def inputSteps (surroundings : List Surroundings) (inputs : List PhysicalEvent) : List Step :=
  List.zipWith (fun surroundings event => ⟨surroundings, .command (.input event)⟩)
    surroundings inputs

/-- The events created between two states. -/
def createdSince (before after : Runtime) : List SwitchEvent :=
  (after.history.created.drop before.history.created.length).map (·.event)

theorem Creates.created_events {before after : Runtime} {now : Instant}
    {events : List SwitchEvent} (h : Creates before.core now events after.core) :
    after.history.created.map (·.event) =
      before.history.created.map (·.event) ++ events := by
  have hcreated : after.history.created =
      before.history.created ++ events.map fun event => ⟨now, event⟩ := h.created
  rw [hcreated, List.map_append, List.map_map]
  exact congrArg _ (List.map_id _)

theorem createdSince_eq {before after : Runtime} {events : List SwitchEvent}
    (h : after.history.created.map (·.event) =
      before.history.created.map (·.event) ++ events) : createdSince before after = events := by
  have hlength : before.history.created.length =
      (before.history.created.map (·.event)).length := by simp
  rw [createdSince, List.map_drop, h, hlength, List.drop_left]

theorem createdSince_two {before middle after : Runtime} {first second : Instant}
    {earlier later : List SwitchEvent}
    (hfirst : Creates before.core first earlier middle.core)
    (hsecond : Creates middle.core second later after.core) :
    createdSince before after = earlier ++ later := by
  apply createdSince_eq
  rw [hsecond.created_events, hfirst.created_events, List.append_assoc]

section Pulse

variable {runtime : Runtime} {mappingId switchId : String}

/-- The press of a mapping whose switch is released. -/
theorem press_outer (hknown : runtime.state.mappingToSwitch[mappingId]? = some switchId)
    (hreleased : runtime.state.level switchId = .released) (confidence : Option F32) :
    ∃ state, Outer runtime ⟨mappingId, .pressed, confidence⟩
      ⟨switchId, .pressed, confidence.bind validateConfidence⟩ state ∧
      state.mappingToSwitch = runtime.state.mappingToSwitch ∧
      state.active switchId = {mappingId} := by
  have hempty := runtime.state.level_eq_released_iff.mp hreleased
  have hanswer : (runtime.state.apply mappingId .pressed
      (confidence.bind validateConfidence)).1 =
        .ok (some ⟨switchId, .pressed, confidence.bind validateConfidence⟩) := by
    rw [runtime.state.apply_known hknown]
    simp [hempty]
  obtain ⟨state, houter⟩ : ∃ state, Outer runtime ⟨mappingId, .pressed, confidence⟩ _ state :=
    outer_of_applied hanswer
  have hstate := congrArg Prod.snd houter.applied
  dsimp only at hstate
  refine ⟨state, houter, ?_, ?_⟩
  · rw [← hstate, apply_mappingToSwitch]
  · ext other
    rw [← hstate, runtime.state.mem_active_apply hknown, hempty]
    simp

/-- The release of the only mapping that holds its switch. -/
theorem release_outer (hknown : runtime.state.mappingToSwitch[mappingId]? = some switchId)
    (hheld : runtime.state.active switchId = {mappingId}) (confidence : Option F32) :
    ∃ state, Outer runtime ⟨mappingId, .released, confidence⟩
      ⟨switchId, .released, confidence.bind validateConfidence⟩ state ∧
      state.level switchId = .released := by
  have hanswer : (runtime.state.apply mappingId .released
      (confidence.bind validateConfidence)).1 =
        .ok (some ⟨switchId, .released, confidence.bind validateConfidence⟩) := by
    rw [runtime.state.apply_known hknown]
    simp [hheld]
  obtain ⟨state, houter⟩ : ∃ state, Outer runtime ⟨mappingId, .released, confidence⟩ _ state :=
    outer_of_applied hanswer
  refine ⟨state, houter, ?_⟩
  rw [houter.level, Function.update_self]
  rfl

/-- The events of a pulse. -/
theorem pulse_creates (hknown : runtime.state.mappingToSwitch[mappingId]? = some switchId)
    (hlistening : runtime.Listening) (hreleased : runtime.state.level switchId = .released)
    (pressed released : Option F32) (first second : Surroundings) :
    let after := (runtime.step ⟨first, .command (.input ⟨mappingId, .pressed, pressed⟩)⟩).step
      ⟨second, .command (.input ⟨mappingId, .released, released⟩)⟩
    ((createdSince runtime after).filter (·.switchId = switchId)).map (·.action) =
      [.pressed, .released] ∧
    (after.Listening → (createdSince runtime after).map
      (fun event => (event.switchId, event.action)) =
        [(switchId, .pressed), (switchId, .released)]) := by
  obtain ⟨state, houter, hmappings, hheld⟩ := press_outer hknown hreleased pressed
  have hpressed : state.level switchId = .pressed :=
    state.level_eq_pressed_iff.mpr (by simp [hheld])
  have hfirst := @step_outer _ first _ _ _ hlistening houter
  dsimp only at hfirst ⊢
  generalize runtime.step ⟨first, .command (.input ⟨mappingId, .pressed, pressed⟩)⟩ = middle
    at hfirst ⊢
  rcases hfirst with ⟨hopen, hstate, hcreates⟩ | ⟨hpaused, releases, hcreates, hreleases⟩
  · rw [← hmappings, ← hstate] at hknown
    rw [← hstate] at hheld
    obtain ⟨final, hinner, hdown⟩ := release_outer hknown hheld released
    have hsecond := @step_outer _ second _ _ _ hopen hinner
    dsimp only at hsecond
    generalize middle.step ⟨second, .command (.input ⟨mappingId, .released, released⟩)⟩ = after
      at hsecond ⊢
    rcases hsecond with ⟨_, _, hlast⟩ | ⟨hpaused, releases, hlast, hreleases⟩
    · rw [createdSince_two hcreates hlast]
      constructor
      · simp [stampOne]
      · simp [stampOne]
    · rw [createdSince_two hcreates hlast]
      constructor
      · simp [stampOne, hreleases, hdown]
      · rintro ⟨hrunning, _⟩
        cases hpaused.symm.trans hrunning
  · -- the session has ended with the press, and capture is paused
    have hmuted : middle.step ⟨second, .command (.input ⟨mappingId, .released, released⟩)⟩ =
        middle := middle.input_of_paused second _ hpaused
    rw [hmuted, createdSince_eq hcreates.created_events]
    constructor
    · simp [stampOne, hreleases, hpressed]
    · rintro ⟨hrunning, _⟩
      cases hpaused.symm.trans hrunning

end Pulse

end Usahp.Broker
