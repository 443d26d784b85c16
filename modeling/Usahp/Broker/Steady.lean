import Usahp.Broker.Calls
import Usahp.Broker.View

/-!
The broker between two releases. As long as it listens and the session does not
change, its state machine sees the inputs and nothing else, so that what is
pressed can be read off the inputs alone.
-/

namespace Usahp.Broker

open Std Usahp.Library SwitchStateMachine

def input? (step : Step) : Option PhysicalEvent :=
  match step.wakeup with
  | .command (.input event) => some event
  | _ => none

/-- The inputs that the steps deliver. -/
def inputsIn (steps : List Step) : List PhysicalEvent := steps.filterMap input?

/-- The commands that the broker takes in a run of its own. -/
def commandsOf (steps : List Step) : List BrokerCommand :=
  steps.filterMap fun step =>
    match step.wakeup with
    | .command command => some command
    | .tick => none

theorem commandsOf_append (first second : List Step) :
    commandsOf (first ++ second) = commandsOf first ++ commandsOf second :=
  List.filterMap_append

/-- What the state machine is asked for an input. -/
def callOf (event : PhysicalEvent) : Call :=
  .apply event.mappingId event.action (event.confidence.bind validateConfidence)

/-- The broker listens, in one session or in none. -/
def Steady (key : Option SessionKey) (runtime : Runtime) : Prop :=
  runtime.Listening ∧ runtime.session.map Session.key = key

instance (key : Option SessionKey) (runtime : Runtime) : Decidable (Steady key runtime) :=
  inferInstanceAs (Decidable (_ ∧ _))

theorem heard_eq (state : SwitchStateMachine) (step : Step) :
    heard state step.wakeup = ((input? step).map callOf).elim state state.perform := by
  obtain ⟨surroundings, wakeup⟩ := step
  cases wakeup with
  | tick => rfl
  | command command => cases command <;> rfl

namespace Runtime

variable (runtime : Runtime) (surroundings : Surroundings)

/-- In broadcast mode nothing but an input moves a switch. -/
theorem turn_heard (hidle : runtime.session = none) (hlistening : runtime.Listening)
    {wakeup : Wakeup} {after : Runtime} (hturn : Turn runtime surroundings wakeup after)
    (hstill : after.session = none) (hlater : after.Listening) :
    after.state = heard runtime.state wakeup := by
  have hnever {session : Session} {goal : Prop} (hactive : runtime.session = some session) :
      goal := by
    rw [hidle] at hactive
    cases hactive
  cases hturn with
  | registered channel => exact congrArg Core.state (runtime.register_core channel)
  | left _ _ => rfl
  | disconnected _ hactive => exact hnever hactive
  | muted _ hdeaf => exact absurd hlistening hdeaf
  | unchanged _ _ error happlied => exact (runtime.state.apply_snd_of_error happlied).symm
  | inner _ _ state happlied _ => exact (congrArg Prod.snd happlied).symm
  | announced _ _ _ transition state houter =>
      have hstate := congrArg Core.state ((runtime.published surroundings.now state
        transition).broadcast_core (runtime.news surroundings.now transition))
      exact hstate.trans (congrArg Prod.snd houter.applied).symm
  | routed _ _ _ hactive _ _ _ _ => exact hnever hactive
  | overflowed _ _ _ hactive _ _ _ _ => exact hnever hactive
  | rejected clientId _ reason _ => exact congrArg Core.state (runtime.reject_core clientId reason)
  | unavailable _ _ _ hpaused _ _ => exact absurd (hlistening.1.symm.trans hpaused) (by decide)
  | abandoned _ _ _ base _ _ => exact absurd hlater.1 Bool.noConfusion
  | accepted clientId handshake _ base _ _ =>
      rw [opened_session] at hstill
      cases hstill
  | refused clientId handshake _ base _ _ _ =>
      have hrevoked := revoke_settled _ surroundings .queueOverflow
        (opened_session (base.releaseLegacy surroundings) surroundings clientId handshake.pid
          (acceptance surroundings.uuid))
      exact absurd (hlater.1.symm.trans hrevoked.1.2.1) (by decide)
  | renewed _ hactive => exact hnever hactive
  | stale _ _ _ => rfl
  | revoked _ hactive _ _ _ => exact hnever hactive
  | ignored _ hkind _ =>
      rcases hkind with rfl | ⟨_, rfl⟩ | ⟨_, rfl⟩
      · rfl
      · rfl
      · rfl

end Runtime

/-- A step of a steady broker. -/
theorem Sound.state_of_steady {runtime : Runtime} (hsound : Sound runtime) (step : Step)
    {key : Option SessionKey} (hbefore : Steady key runtime)
    (hafter : Steady key (runtime.step step)) :
    (runtime.step step).state = heard runtime.state step.wakeup := by
  cases hactive : runtime.session with
  | none =>
      have hidle : key = none := by
        rw [← hbefore.2, hactive]
        rfl
      have hstill : (runtime.step step).session = none := by
        have hkey := hafter.2
        rw [hidle] at hkey
        exact Option.map_eq_none_iff.mp hkey
      exact runtime.turn_heard step.surroundings hactive hbefore.1 (runtime.step_turn step)
        hstill hafter.1
  | some session =>
      have hlasts : (runtime.step step).session ≠ none := by
        intro hnone
        have hkey := hbefore.2.trans hafter.2.symm
        rw [hactive, hnone] at hkey
        cases hkey
      exact ((hsound.change step).kept_of_lasts hactive hlasts).2.1

/-- With nothing pressed the state machine reflects an empty history. -/
theorem reflects_of_allReleased {mappings : List Mapping} {calls : List Call}
    {machine : SwitchStateMachine} (h : Reflects mappings calls machine)
    (hreleased : machine.AllReleased) : Reflects mappings [] machine where
  known := h.known
  listed := h.listed
  holds mappingId switchId := by
    have hempty := machine.level_eq_released_iff.mp (hreleased switchId)
    rw [hempty]
    simp [Held, latestEdge]

variable (mappings : List Mapping) (started : Instant)

/-- From a state with nothing pressed on, the inputs are the history. -/
theorem reflects_steady (earlier during : List Step) {key : Option SessionKey}
    (hreleased : ((broker mappings started).run earlier).state.AllReleased)
    (hsteady : (broker mappings started).Throughout (Steady key)
      ((broker mappings started).run earlier) during) :
    Reflects mappings ((inputsIn during).map callOf)
      ((broker mappings started).run (earlier ++ during)).state := by
  induction during using List.reverseRecOn with
  | nil =>
      obtain ⟨calls, hcalls⟩ := state_of_calls mappings started earlier
      rw [List.append_nil]
      rw [hcalls] at hreleased ⊢
      exact reflects_of_allReleased (reflects_run mappings calls) hreleased
  | append_singleton during step ih =>
      obtain ⟨hsofar, hlast⟩ := (broker mappings started).throughout_concat.mp hsteady
      have hreflects := ih hsofar
      have hpresent := (broker mappings started).throughout_last hsofar
      rw [← Machine.run_append] at hpresent hlast
      have hstate : (((broker mappings started).run (earlier ++ during)).step step).state =
          heard _ step.wakeup :=
        (sound_run mappings started (earlier ++ during)).state_of_steady step hpresent hlast
      rw [← List.append_assoc, Machine.run_concat]
      change Reflects mappings _
        (((broker mappings started).run (earlier ++ during)).step step).state
      rw [hstate, heard_eq, inputsIn, List.filterMap_append]
      cases hinput : input? step with
      | none =>
          have hnothing : [step].filterMap input? = [] := by simp [hinput]
          rw [hnothing, List.append_nil]
          exact hreflects
      | some event =>
          have hone : [step].filterMap input? = [event] := by simp [hinput]
          rw [hone, List.map_append]
          exact hreflects.apply _ _ _

end Usahp.Broker
