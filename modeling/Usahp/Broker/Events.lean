import Usahp.Broker.Turn

/-!
The events a pass of the loop creates. Whatever the command, they are numbered
on from the last number used, and they are an exact log of what happened to
the levels of the switches in that pass. Who gets to see them is a separate
matter, treated with the deliveries.
-/

namespace Usahp.Broker

open Std Usahp.Library

/-- What an event says about its switch. -/
def eventEdge (event : SwitchEvent) : String × SwitchState :=
  (event.switchId, event.action.state)

/-- Between two states exactly the listed events were created. -/
structure Creates (before : Core) (now : Instant) (events : List SwitchEvent)
    (after : Core) : Prop where
  created : after.created = before.created ++ events.map fun event => ⟨now, event⟩
  sequence : after.sequence = before.sequence + events.length
  numbered : events.map (·.sequence) = List.range' (before.sequence + 1) events.length
  changes : Changes before.state.level (events.map eventEdge) after.state.level

theorem Creates.of_eq {before after : Core} (now : Instant)
    (hcreated : after.created = before.created) (hsequence : after.sequence = before.sequence)
    (hlevel : after.state.level = before.state.level) :
    Creates before now [] after where
  created := by
    rw [hcreated]
    exact (List.append_nil _).symm
  sequence := hsequence
  numbered := rfl
  changes := hlevel

/-- Numbers run on over a border. -/
theorem numbered_append {sequence next : Nat} {first second : List SwitchEvent}
    (hfirst : first.map (·.sequence) = List.range' (sequence + 1) first.length)
    (hnext : next = sequence + first.length)
    (hsecond : second.map (·.sequence) = List.range' (next + 1) second.length) :
    (first ++ second).map (·.sequence) =
      List.range' (sequence + 1) (first ++ second).length := by
  have hborder : next + 1 = sequence + 1 + 1 * first.length := by omega
  rw [List.map_append, hfirst, hsecond, List.length_append, hborder, List.range'_append]

theorem Creates.trans {before middle after : Core} {now : Instant}
    {first second : List SwitchEvent} (hfirst : Creates before now first middle)
    (hsecond : Creates middle now second after) :
    Creates before now (first ++ second) after where
  created := by
    rw [hsecond.created, hfirst.created, List.map_append, List.append_assoc]
  sequence := by
    rw [hsecond.sequence, hfirst.sequence, List.length_append]
    omega
  numbered := numbered_append hfirst.numbered hfirst.sequence hsecond.numbered
  changes := by
    rw [List.map_append]
    exact hfirst.changes.append hsecond.changes

@[simp] theorem stamp_length (started now : Instant) (sequence : Nat)
    (transitions : List LogicalTransition) :
    (stamp started now sequence transitions).length = transitions.length := by
  induction transitions generalizing sequence with
  | nil => rfl
  | cons transition rest ih => exact congrArg (· + 1) (ih (sequence + 1))

theorem stamp_numbered (started now : Instant) (sequence : Nat)
    (transitions : List LogicalTransition) :
    (stamp started now sequence transitions).map (·.sequence) =
      List.range' (sequence + 1) transitions.length := by
  induction transitions generalizing sequence with
  | nil => rfl
  | cons transition rest ih =>
      rw [stamp, List.map_cons, ih, List.length_cons, List.range'_succ]
      rfl

theorem stamp_edges (started now : Instant) (sequence : Nat)
    (transitions : List LogicalTransition) :
    (stamp started now sequence transitions).map eventEdge =
      transitions.map fun transition => (transition.switchId, transition.action.state) := by
  induction transitions generalizing sequence with
  | nil => rfl
  | cons transition rest ih =>
      rw [stamp, List.map_cons, ih]
      rfl

end Usahp.Broker

namespace Usahp.SwitchStateMachine

open Usahp.Library

/-- Letting everything go is an exact log: one release for each pressed switch
and no other. -/
theorem releaseAll_changes (machine : SwitchStateMachine) :
    Changes machine.level
      (machine.releaseAll.1.map fun transition =>
        (transition.switchId, transition.action.state))
      machine.releaseAll.2.level := by
  have hpressed : ∀ switchId ∈ machine.switches.filter (machine.level · = .pressed),
      machine.level switchId ≠ .released := by
    intro switchId hmem hreleased
    have hlevel := (List.mem_filter.mp hmem).2
    rw [hreleased] at hlevel
    cases hlevel
  have hchanges := changes_of_nodup SwitchState.released
    (machine.switches_nodup.filter (machine.level · = .pressed)) hpressed
  rw [releaseAll_transitions, List.map_map]
  have hafter : machine.releaseAll.2.level = fun switchId =>
      if switchId ∈ machine.switches.filter (machine.level · = .pressed) then .released
      else machine.level switchId := by
    funext switchId
    rw [machine.allReleased_releaseAll switchId]
    split_ifs with hmem
    · rfl
    · symm
      rw [SwitchState.eq_released_iff]
      intro hlevel
      exact hmem (List.mem_filter.mpr ⟨machine.mem_switches_of_pressed hlevel, by simpa⟩)
  rw [hafter]
  exact hchanges

end Usahp.SwitchStateMachine

namespace Usahp.Broker

open Std Usahp.Library

namespace Runtime

variable (runtime : Runtime) (surroundings : Surroundings)

theorem record_creates (now : Instant) (state : SwitchStateMachine)
    {transitions : List LogicalTransition}
    (hchanges : Changes runtime.state.level
      (transitions.map fun transition => (transition.switchId, transition.action.state))
      state.level) :
    Creates runtime.core now (stamp runtime.started now runtime.sequence transitions)
      ({ runtime with state }.record now
        (stamp runtime.started now runtime.sequence transitions)).core where
  created := rfl
  sequence := rfl
  numbered := by
    rw [stamp_length]
    exact stamp_numbered _ _ _ _
  changes := by
    rw [stamp_edges]
    exact hchanges

theorem letGo_creates (now : Instant) :
    Creates runtime.core now (runtime.releases now) (runtime.letGo now).core :=
  runtime.record_creates now _ runtime.state.releaseAll_changes

theorem stopped_creates :
    Creates runtime.core surroundings.now (runtime.releases surroundings.now)
      (runtime.stopped surroundings).core := by
  have h := (runtime.suspend surroundings).letGo_creates surroundings.now
  exact ⟨h.created, h.sequence, h.numbered, h.changes⟩

/-- Ending a session creates the releases, nothing else. -/
theorem revoke_creates (reason : SessionRevocationReason) {session : Session}
    (h : runtime.session = some session) :
    Creates runtime.core surroundings.now (runtime.releases surroundings.now)
      (runtime.revoke surroundings reason).core := by
  have hstopped := runtime.stopped_creates surroundings
  rw [runtime.revoke_core surroundings reason h]
  exact ⟨hstopped.created, hstopped.sequence, hstopped.numbered, hstopped.changes⟩

theorem published_creates (now : Instant) {event : PhysicalEvent}
    {transition : LogicalTransition} {state : SwitchStateMachine}
    (houter : Outer runtime event transition state) :
    Creates runtime.core now
      [stampOne runtime.started now (runtime.sequence + 1) transition]
      (runtime.published now state transition).core := by
  have hchanges : Changes runtime.state.level
      ([transition].map fun transition => (transition.switchId, transition.action.state))
      state.level := by
    exact changes_singleton.mpr ⟨houter.changed, houter.level⟩
  have h := runtime.record_creates now state hchanges
  exact ⟨h.created, h.sequence, h.numbered, h.changes⟩

/-- The events at the border to an exclusive session. -/
def legacy (now : Instant) : List SwitchEvent :=
  if runtime.paused then [] else runtime.releases now

theorem releaseLegacy_creates :
    Creates runtime.core surroundings.now (runtime.legacy surroundings.now)
      (runtime.releaseLegacy surroundings).core := by
  rw [releaseLegacy_core, legacy]
  split_ifs
  · exact .of_eq _ rfl rfl rfl
  · exact runtime.letGo_creates surroundings.now

theorem ready_creates {base : Runtime} (hready : Ready runtime surroundings base) :
    Creates runtime.core surroundings.now (runtime.legacy surroundings.now)
      (base.releaseLegacy surroundings).core := by
  cases hready with
  | running _ => exact runtime.releaseLegacy_creates surroundings
  | resumed hpaused hok =>
      have h := (runtime.resumeCapture surroundings).2.releaseLegacy_creates surroundings
      rw [runtime.resumeCapture_of_ok surroundings hok] at h ⊢
      exact ⟨h.created, h.sequence, h.numbered, h.changes⟩

end Runtime

/-- The events a step creates. -/
def createdBy (before : Runtime) (step : Step) : List SwitchEvent :=
  ((before.step step).history.created.drop before.history.created.length).map (·.event)

theorem Creates.createdBy_eq {runtime : Runtime} {step : Step} {now : Instant}
    {events : List SwitchEvent}
    (h : Creates runtime.core now events (runtime.step step).core) :
    createdBy runtime step = events := by
  have hcreated : (runtime.step step).history.created = _ := h.created
  rw [createdBy, hcreated]
  change List.map _ (List.drop _ (runtime.history.created ++ _)) = _
  rw [List.drop_left, List.map_map]
  exact List.map_id _

end Usahp.Broker
