import Usahp.Broker.Mode

/-!
The calls of the capture control that one pass of the loop makes. A pass ends
or abandons a session with a pause; a handshake that finds the broker paused
resumes first. `Commands` lists these sequences with the flag they leave.
-/

namespace Usahp.Broker

open Std Usahp.Library

/-- The calls a pass makes, and the flag after it. -/
inductive Commands (runtime : Runtime) (reply : Except String Unit) :
    List CaptureCall → Bool → Prop
  | quiet : Commands runtime reply [] runtime.capture.enabled
  | paused : Commands runtime reply [.pause] false
  | resumed (before : runtime.paused = true) (acknowledged : reply = .ok ()) :
      Commands runtime reply [.resume] true
  | failed (before : runtime.paused = true) (error : String)
      (refused : reply = .error error) :
      Commands runtime reply [.resume] runtime.capture.enabled
  | returned (before : runtime.paused = true) (acknowledged : reply = .ok ()) :
      Commands runtime reply [.resume, .pause] false

/-- The calls a step makes. -/
def Runtime.calls (runtime : Runtime) (step : Step) : List CaptureCall :=
  (runtime.step step).history.captureCalls.drop runtime.history.captureCalls.length

namespace Runtime

variable (runtime : Runtime) (surroundings : Surroundings)

theorem revoke_capture (reason : SessionRevocationReason) {session : Session}
    (h : runtime.session = some session) :
    (runtime.revoke surroundings reason).core.captureCalls =
        runtime.core.captureCalls ++ [.pause] ∧
      (runtime.revoke surroundings reason).core.capture.enabled = false := by
  rw [runtime.revoke_core surroundings reason h]
  exact ⟨rfl, rfl⟩

theorem releaseLegacy_capture :
    (runtime.releaseLegacy surroundings).core.captureCalls = runtime.core.captureCalls ∧
      (runtime.releaseLegacy surroundings).core.capture = runtime.core.capture := by
  rw [releaseLegacy_core]
  split_ifs
  · exact ⟨rfl, rfl⟩
  · exact ⟨rfl, rfl⟩

/-- What a pass does that pauses the runtime `before`, which the present one
has led to. -/
theorem commands_of_pause {before after : Runtime} {base : Runtime}
    (hready : Ready runtime surroundings base)
    (hbefore : before.core.captureCalls = (base.releaseLegacy surroundings).core.captureCalls)
    (hcalls : after.core.captureCalls = before.core.captureCalls ++ [.pause])
    (hflag : after.core.capture.enabled = false) :
    ∃ calls, after.core.captureCalls = runtime.core.captureCalls ++ calls ∧
      Commands runtime surroundings.resumeReply calls after.core.capture.enabled := by
  rw [hcalls, hbefore, hflag, (base.releaseLegacy_capture surroundings).1]
  cases hready with
  | running _ => exact ⟨_, rfl, .paused⟩
  | resumed hpaused hok =>
      rw [runtime.resumeCapture_of_ok surroundings hok]
      refine ⟨[.resume, .pause], ?_, .returned hpaused hok⟩
      exact List.append_assoc _ [CaptureCall.resume] [CaptureCall.pause]

theorem turn_commands {wakeup : Wakeup} {after : Runtime}
    (hturn : Turn runtime surroundings wakeup after) :
    ∃ calls, after.core.captureCalls = runtime.core.captureCalls ++ calls ∧
      Commands runtime surroundings.resumeReply calls after.core.capture.enabled := by
  have hquiet {after : Runtime} (hcalls : after.core.captureCalls = runtime.core.captureCalls)
      (hflag : after.core.capture = runtime.core.capture) :
      ∃ calls, after.core.captureCalls = runtime.core.captureCalls ++ calls ∧
        Commands runtime surroundings.resumeReply calls after.core.capture.enabled := by
    rw [hcalls, hflag]
    exact ⟨[], (List.append_nil _).symm, .quiet⟩
  have hended {before : Runtime} {session : Session} (reason : SessionRevocationReason)
      (hbefore : before.session = some session)
      (hcalls : before.core.captureCalls = runtime.core.captureCalls) :
      ∃ calls, (before.revoke surroundings reason).core.captureCalls =
          runtime.core.captureCalls ++ calls ∧
        Commands runtime surroundings.resumeReply calls
          (before.revoke surroundings reason).core.capture.enabled := by
    obtain ⟨hmore, hflag⟩ := before.revoke_capture surroundings reason hbefore
    rw [hmore, hflag, hcalls]
    exact ⟨_, rfl, .paused⟩
  cases hturn with
  | registered channel =>
      apply hquiet
      · rw [register_core]
      · rw [register_core]
  | left _ _ => exact hquiet rfl rfl
  | disconnected session hactive => exact hended .explicitRevocation hactive rfl
  | muted _ _ => exact hquiet rfl rfl
  | unchanged _ _ _ _ => exact hquiet rfl rfl
  | inner _ _ _ _ _ => exact hquiet rfl rfl
  | announced _ _ _ _ _ _ => exact hquiet rfl rfl
  | routed _ _ _ _ transition state _ _ =>
      apply hquiet
      · rw [trySend_core]
        rfl
      · rw [trySend_core]
        rfl
  | overflowed _ _ session hactive transition state _ _ =>
      have hcalls := congrArg Core.captureCalls
        (runtime.dropped_core surroundings.now state transition session.clientId)
      exact hended .queueOverflow
        (runtime.dropped_session surroundings.now state transition session.clientId hactive)
        hcalls
  | rejected clientId _ reason _ =>
      apply hquiet
      · rw [reject_core]
      · rw [reject_core]
  | unavailable clientId _ _ hpaused error hfailed =>
      rw [reject_core, runtime.resumeCapture_of_error surroundings hfailed]
      exact ⟨_, rfl, .failed hpaused error hfailed⟩
  | abandoned _ _ _ base hready _ =>
      exact runtime.commands_of_pause surroundings hready rfl rfl rfl
  | accepted clientId handshake _ base hready _ =>
      obtain ⟨hcalls, hflag⟩ := base.releaseLegacy_capture surroundings
      rw [sendResponse_core]
      change ∃ calls, (base.releaseLegacy surroundings).core.captureCalls = _ ∧
        Commands _ _ calls (base.releaseLegacy surroundings).core.capture.enabled
      rw [hcalls, hflag]
      cases hready with
      | running _ => exact ⟨[], (List.append_nil _).symm, .quiet⟩
      | resumed hpaused hok =>
          rw [runtime.resumeCapture_of_ok surroundings hok]
          exact ⟨_, rfl, .resumed hpaused hok⟩
  | refused clientId handshake _ base hready _ _ =>
      have hsent := ((base.releaseLegacy surroundings).opened surroundings clientId
        handshake.pid).sendResponse_core clientId (acceptance surroundings.uuid)
      obtain ⟨hcalls, hflag⟩ := revoke_capture _ surroundings .queueOverflow
        (congrArg Core.session hsent)
      have hopened := congrArg Core.captureCalls hsent
      exact runtime.commands_of_pause surroundings hready hopened hcalls hflag
  | renewed _ _ => exact hquiet rfl rfl
  | stale _ _ _ => exact hquiet rfl rfl
  | revoked session hactive _ reason _ => exact hended reason hactive rfl
  | ignored _ _ _ => exact hquiet rfl rfl

theorem step_commands (step : Step) :
    Commands runtime step.surroundings.resumeReply (runtime.calls step)
      (runtime.step step).capture.enabled := by
  obtain ⟨made, hmade, hcommands⟩ :=
    runtime.turn_commands step.surroundings (runtime.step_turn step)
  have hlog : (runtime.step step).history.captureCalls = _ := hmade
  rw [calls, hlog]
  change Commands _ _ (List.drop _ (runtime.history.captureCalls ++ _)) _
  rw [List.drop_left]
  exact hcommands

end Runtime

end Usahp.Broker
