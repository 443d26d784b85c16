import Usahp.Broker.Change
import Usahp.StateHistory

/-!
The broker as a caller of the state machine. Every pass makes some list of
calls, so the state machine inside any reachable broker is one that its own
history describes, and everything known about such histories holds of it.
-/

namespace Usahp.Broker

open Std Usahp.Library SwitchStateMachine

/-- One state comes from another by calls. -/
def Called (before after : SwitchStateMachine) : Prop :=
  ∃ calls : List SwitchStateMachine.Call, after = calls.foldl perform before

theorem Called.refl (state : SwitchStateMachine) : Called state state :=
  ⟨[], rfl⟩

theorem Called.trans {before middle after : SwitchStateMachine}
    (hfirst : Called before middle) (hsecond : Called middle after) :
    Called before after := by
  obtain ⟨first, rfl⟩ := hfirst
  obtain ⟨second, rfl⟩ := hsecond
  exact ⟨first ++ second, List.foldl_append.symm⟩

theorem called_apply (state : SwitchStateMachine) (mappingId : String) (action : Action)
    (confidence : Option F32) :
    Called state (state.apply mappingId action confidence).2 :=
  ⟨[.apply mappingId action confidence], rfl⟩

theorem called_releaseAll (state : SwitchStateMachine) :
    Called state state.releaseAll.2 :=
  ⟨[.releaseAll], rfl⟩

namespace Runtime

variable (runtime : Runtime) (surroundings : Surroundings)

theorem called_revoke (reason : SessionRevocationReason) {session : Session}
    (h : runtime.session = some session) :
    Called runtime.core.state (runtime.revoke surroundings reason).core.state := by
  rw [runtime.revoke_core surroundings reason h]
  exact called_releaseAll runtime.state

theorem called_ready {base : Runtime} (hready : Ready runtime surroundings base) :
    Called runtime.core.state (base.releaseLegacy surroundings).core.state := by
  rw [releaseLegacy_core]
  cases hready with
  | running _ =>
      split_ifs
      · exact .refl _
      · exact called_releaseAll runtime.state
  | resumed _ _ =>
      split_ifs
      · exact .refl _
      · exact called_releaseAll runtime.state

theorem called_outer {event : PhysicalEvent} {transition : LogicalTransition}
    {state : SwitchStateMachine} (houter : Outer runtime event transition state) :
    Called runtime.core.state state := by
  have hcall := called_apply runtime.state event.mappingId event.action
    (event.confidence.bind validateConfidence)
  rw [houter.applied] at hcall
  exact hcall

theorem turn_called {wakeup : Wakeup} {after : Runtime}
    (hturn : Turn runtime surroundings wakeup after) :
    Called runtime.core.state after.core.state := by
  cases hturn with
  | registered channel =>
      rw [register_core]
      exact .refl _
  | left _ _ => exact .refl _
  | disconnected session hactive =>
      exact (runtime.removeClient session.clientId).called_revoke surroundings _ hactive
  | muted _ _ => exact .refl _
  | unchanged _ _ _ _ => exact .refl _
  | inner event _ state happlied _ =>
      have hcall := called_apply runtime.state event.mappingId event.action
        (event.confidence.bind validateConfidence)
      rw [happlied] at hcall
      exact hcall
  | announced _ _ _ _ _ houter => exact runtime.called_outer houter
  | routed _ _ _ _ _ _ houter _ =>
      rw [trySend_core]
      exact runtime.called_outer houter
  | overflowed _ _ session hactive transition state houter _ =>
      have hended := called_revoke _ surroundings .queueOverflow
        (runtime.dropped_session surroundings.now state transition session.clientId hactive)
      rw [dropped_core] at hended
      exact (runtime.called_outer houter).trans hended
  | rejected _ _ _ _ =>
      rw [reject_core]
      exact .refl _
  | unavailable _ _ _ _ _ _ =>
      rw [reject_core]
      exact .refl _
  | abandoned _ _ _ base hready _ => exact runtime.called_ready surroundings hready
  | accepted _ _ _ base hready _ =>
      rw [sendResponse_core]
      exact runtime.called_ready surroundings hready
  | refused clientId handshake _ base hready _ _ =>
      have hsent := ((base.releaseLegacy surroundings).opened surroundings clientId
        handshake.pid).sendResponse_core clientId (acceptance surroundings.uuid)
      have hended := called_revoke _ surroundings .queueOverflow
        (congrArg Core.session hsent)
      rw [hsent] at hended
      exact (runtime.called_ready surroundings hready).trans hended
  | renewed _ _ => exact .refl _
  | stale _ _ _ => exact .refl _
  | revoked _ hactive _ reason _ => exact runtime.called_revoke surroundings reason hactive
  | ignored _ _ _ => exact .refl _

end Runtime

variable (mappings : List Mapping) (started : Instant)

/-- The state machine of a reachable broker is the state machine of its own
calls. -/
theorem state_of_calls (steps : List Step) :
    ∃ calls, ((broker mappings started).run steps).state =
      (stateMachine mappings).run calls := by
  have hcalled : Called (SwitchStateMachine.new mappings)
      ((broker mappings started).run steps).state := by
    refine (broker mappings started).invariant
      (fun runtime => Called (SwitchStateMachine.new mappings) runtime.state) (.refl _) ?_ steps
    intro runtime step hbefore
    exact hbefore.trans (runtime.turn_called step.surroundings (runtime.step_turn step))
  obtain ⟨calls, hcalls⟩ := hcalled
  exact ⟨calls, hcalls⟩

theorem known_run (steps : List Step) (mappingId : String) :
    ((broker mappings started).run steps).state.mappingToSwitch[mappingId]? =
      configuredSwitch mappings mappingId := by
  obtain ⟨calls, hcalls⟩ := state_of_calls mappings started steps
  rw [hcalls]
  exact (reflects_run mappings calls).known mappingId

end Usahp.Broker
