import Usahp.Broker.Clients

/-!
What one pass of the loop can do. `Turn` lists the outcomes with the
conditions under which they happen, and `step_turn` shows that there are no
others. The invariants of the later modules are case analyses on it and do
not look at the handlers again.
-/

namespace Usahp.Broker

open Std Usahp.Library

/-- A wakeup that ends the active session by itself, with the reason. -/
inductive Demands (runtime : Runtime) (session : Session) (now : Instant) :
    Wakeup → SessionRevocationReason → Prop
  | requested (reason : SessionRevocationReason) :
      Demands runtime session now (.command (.revokeSession reason)) reason
  | focusLost (pid : UInt32) (frontmostPid : Option UInt32)
      (bound : session.pid = some pid) (other : frontmostPid ≠ some pid) :
      Demands runtime session now (.command (.focusChanged frontmostPid)) .focusLost
  | timedOut (late : millis leaseMs ≤ elapsed now session.lastHeartbeat) :
      Demands runtime session now .tick .heartbeatTimeout
  | escape (fresh : ¬ millis leaseMs ≤ elapsed now session.lastHeartbeat)
      (switchId : String) (pressedAt : Instant)
      (tracked : runtime.escapeTracker[switchId]? = some pressedAt)
      (held : millis escapeHoldMs ≤ elapsed now pressedAt) :
      Demands runtime session now .tick .escapeHatch

/-- Input is looked at: not paused and the capture flag is up. -/
def Runtime.Listening (runtime : Runtime) : Prop :=
  runtime.paused = false ∧ runtime.capture.enabled = true

instance (runtime : Runtime) : Decidable runtime.Listening :=
  inferInstanceAs (Decidable (_ ∧ _))

/-- The state after a transition of the state machine is tracked and its event
is created, before the event is sent. -/
def Runtime.published (runtime : Runtime) (now : Instant)
    (state : SwitchStateMachine) (transition : LogicalTransition) : Runtime :=
  ({ runtime with state }.track now transition).record now
    [stampOne runtime.started now (runtime.sequence + 1) transition]

/-- The message that `published` is about. -/
def Runtime.news (runtime : Runtime) (now : Instant)
    (transition : LogicalTransition) : ServerMessage :=
  .switchEvent (stampOne runtime.started now (runtime.sequence + 1) transition)

/-- An input edge that changes the level of its switch. -/
structure Outer (runtime : Runtime) (event : PhysicalEvent)
    (transition : LogicalTransition) (state : SwitchStateMachine) : Prop where
  applied : runtime.state.apply event.mappingId event.action
    (event.confidence.bind validateConfidence) = (.ok (some transition), state)
  known : runtime.state.mappingToSwitch[event.mappingId]? = some transition.switchId
  action : transition.action = event.action
  changed : runtime.state.level transition.switchId ≠ transition.action.state
  level : state.level =
    Function.update runtime.state.level transition.switchId transition.action.state

def acceptance (sessionId : String) : HandshakeResponse :=
  .accepted protocolVersion sessionId heartbeatIntervalMs missedHeartbeatLimit

/-- Where a handshake that passed its checks goes on: capture runs already, or
it was paused and every backend is reacquired. -/
inductive Ready (runtime : Runtime) (surroundings : Surroundings) : Runtime → Prop
  | running (running : runtime.paused = false) : Ready runtime surroundings runtime
  | resumed (paused : runtime.paused = true)
      (acknowledged : surroundings.resumeReply = .ok ()) :
      Ready runtime surroundings (runtime.resumeCapture surroundings).2

inductive Turn (runtime : Runtime) (surroundings : Surroundings) :
    Wakeup → Runtime → Prop
  | registered (channel : Channel) :
      Turn runtime surroundings (.command (.register channel))
        (runtime.register channel)
  | left (clientId : ClientId)
      (other : ∀ session, runtime.session = some session → session.clientId ≠ clientId) :
      Turn runtime surroundings (.command (.unregister clientId))
        (runtime.removeClient clientId)
  | disconnected (session : Session) (active : runtime.session = some session) :
      Turn runtime surroundings (.command (.unregister session.clientId))
        ((runtime.removeClient session.clientId).revoke surroundings .explicitRevocation)
  | muted (event : PhysicalEvent) (deaf : ¬ runtime.Listening) :
      Turn runtime surroundings (.command (.input event)) runtime
  | unchanged (event : PhysicalEvent) (listening : runtime.Listening)
      (error : StateError)
      (applied : (runtime.state.apply event.mappingId event.action
        (event.confidence.bind validateConfidence)).1 = .error error) :
      Turn runtime surroundings (.command (.input event)) runtime
  | inner (event : PhysicalEvent) (listening : runtime.Listening)
      (state : SwitchStateMachine)
      (applied : runtime.state.apply event.mappingId event.action
        (event.confidence.bind validateConfidence) = (.ok none, state))
      (level : state.level = runtime.state.level) :
      Turn runtime surroundings (.command (.input event)) { runtime with state }
  | announced (event : PhysicalEvent) (listening : runtime.Listening)
      (open_ : runtime.session = none) (transition : LogicalTransition)
      (state : SwitchStateMachine)
      (outer : Outer runtime event transition state) :
      Turn runtime surroundings (.command (.input event))
        ((runtime.published surroundings.now state transition).broadcast
          (runtime.news surroundings.now transition))
  | routed (event : PhysicalEvent) (listening : runtime.Listening)
      (session : Session) (active : runtime.session = some session)
      (transition : LogicalTransition) (state : SwitchStateMachine)
      (outer : Outer runtime event transition state)
      (accepts : runtime.Accepts session.clientId) :
      Turn runtime surroundings (.command (.input event))
        ((runtime.published surroundings.now state transition).trySend session.clientId
          (runtime.news surroundings.now transition)).2
  | overflowed (event : PhysicalEvent) (listening : runtime.Listening)
      (session : Session) (active : runtime.session = some session)
      (transition : LogicalTransition) (state : SwitchStateMachine)
      (outer : Outer runtime event transition state)
      (refuses : ¬ runtime.Accepts session.clientId) :
      Turn runtime surroundings (.command (.input event))
        ((((runtime.published surroundings.now state transition).trySend session.clientId
          (runtime.news surroundings.now transition)).2.removeClient
            session.clientId).revoke surroundings .queueOverflow)
  | rejected (clientId : ClientId) (handshake : Handshake)
      (reason : HandshakeRejectionReason)
      (rejection : runtime.rejection handshake = some reason) :
      Turn runtime surroundings (.command (.handshake clientId handshake))
        (runtime.reject clientId reason)
  | unavailable (clientId : ClientId) (handshake : Handshake)
      (rejection : runtime.rejection handshake = none)
      (paused : runtime.paused = true) (error : String)
      (failed : surroundings.resumeReply = .error error) :
      Turn runtime surroundings (.command (.handshake clientId handshake))
        ((runtime.resumeCapture surroundings).2.reject clientId .captureUnavailable)
  | abandoned (clientId : ClientId) (handshake : Handshake)
      (rejection : runtime.rejection handshake = none)
      (base : Runtime) (ready : Ready runtime surroundings base)
      (gone : clientId ∉ (base.releaseLegacy surroundings).clients) :
      Turn runtime surroundings (.command (.handshake clientId handshake))
        { ((base.releaseLegacy surroundings).pauseCapture surroundings).2 with
          paused := true }
  | accepted (clientId : ClientId) (handshake : Handshake)
      (rejection : runtime.rejection handshake = none)
      (base : Runtime) (ready : Ready runtime surroundings base)
      (accepts : (base.releaseLegacy surroundings).Accepts clientId) :
      Turn runtime surroundings (.command (.handshake clientId handshake))
        (((base.releaseLegacy surroundings).opened surroundings clientId
          handshake.pid).sendResponse clientId (acceptance surroundings.uuid)).2
  | refused (clientId : ClientId) (handshake : Handshake)
      (rejection : runtime.rejection handshake = none)
      (base : Runtime) (ready : Ready runtime surroundings base)
      (registered : clientId ∈ (base.releaseLegacy surroundings).clients)
      (refuses : ¬ (base.releaseLegacy surroundings).Accepts clientId) :
      Turn runtime surroundings (.command (.handshake clientId handshake))
        ((((base.releaseLegacy surroundings).opened surroundings clientId
          handshake.pid).sendResponse clientId (acceptance surroundings.uuid)).2.revoke
            surroundings .queueOverflow)
  | renewed (session : Session) (active : runtime.session = some session) :
      Turn runtime surroundings
        (.command (.heartbeat session.clientId session.sessionId))
        { runtime with session := some { session with lastHeartbeat := surroundings.now } }
  | stale (clientId : ClientId) (sessionId : String)
      (other : ∀ session, runtime.session = some session →
        ¬ (session.clientId = clientId ∧ session.sessionId = sessionId)) :
      Turn runtime surroundings (.command (.heartbeat clientId sessionId)) runtime
  | revoked (session : Session) (active : runtime.session = some session)
      (wakeup : Wakeup) (reason : SessionRevocationReason)
      (demand : Demands runtime session surroundings.now wakeup reason) :
      Turn runtime surroundings wakeup (runtime.revoke surroundings reason)
  | ignored (wakeup : Wakeup)
      (kind : wakeup = .tick ∨
        (∃ reason, wakeup = .command (.revokeSession reason)) ∨
        ∃ frontmostPid, wakeup = .command (.focusChanged frontmostPid))
      (undemanded : ∀ session, runtime.session = some session →
        ∀ reason, ¬ Demands runtime session surroundings.now wakeup reason) :
      Turn runtime surroundings wakeup runtime

namespace Runtime

variable (runtime : Runtime) (surroundings : Surroundings)

theorem not_listening_iff :
    ¬ runtime.Listening ↔ (runtime.paused || !runtime.capture.enabled) = true := by
  unfold Listening
  cases runtime.paused <;> cases runtime.capture.enabled <;> simp

theorem route_turn (event : PhysicalEvent) (listening : runtime.Listening)
    (transition : LogicalTransition) (state : SwitchStateMachine)
    (outer : Outer runtime event transition state) :
    Turn runtime surroundings (.command (.input event))
      ((runtime.published surroundings.now state transition).route surroundings
        (runtime.news surroundings.now transition)) := by
  have hsame : (runtime.published surroundings.now state transition).session =
      runtime.session := rfl
  unfold route
  rw [hsame]
  cases hsession : runtime.session with
  | none => exact .announced event listening hsession transition state outer
  | some session =>
      have haccepts := (runtime.published surroundings.now state transition).trySend_fst_iff
        session.clientId (runtime.news surroundings.now transition)
      have hrouted : runtime.Accepts session.clientId → Turn runtime surroundings _ _ :=
        .routed event listening session hsession transition state outer
      have hoverflowed : ¬ runtime.Accepts session.clientId →
          Turn runtime surroundings _ _ :=
        .overflowed event listening session hsession transition state outer
      cases hsend : (runtime.published surroundings.now state transition).trySend
        session.clientId (runtime.news surroundings.now transition) with
      | mk sent next =>
          rw [hsend] at haccepts hrouted hoverflowed
          simp only [hsend]
          cases sent with
          | true => exact hrouted (haccepts.mp rfl)
          | false => exact hoverflowed fun h => Bool.noConfusion (haccepts.mpr h)

theorem input_turn (event : PhysicalEvent) :
    Turn runtime surroundings (.command (.input event))
      (runtime.input surroundings event) := by
  unfold input
  split_ifs with hdeaf
  · exact .muted event (runtime.not_listening_iff.mpr hdeaf)
  · have hlistening : runtime.Listening := by
      by_contra hcontra
      exact hdeaf (runtime.not_listening_iff.mp hcontra)
    have happlied := runtime.state.apply_applied event.mappingId event.action
      (event.confidence.bind validateConfidence)
    cases hresult : runtime.state.apply event.mappingId event.action
      (event.confidence.bind validateConfidence) with
    | mk result state =>
        rw [hresult] at happlied
        simp only [hresult]
        cases happlied with
        | outer switchId _ known changed level =>
            exact runtime.route_turn surroundings event hlistening _ state
              ⟨hresult, known, rfl, changed, level⟩
        | inner _ level => exact .inner event hlistening state hresult level
        | failed error => exact .unchanged event hlistening error (by rw [hresult])

theorem grant_turn (clientId : ClientId) (handshake : Handshake)
    (hrejection : runtime.rejection handshake = none) {base : Runtime}
    (hready : Ready runtime surroundings base) :
    Turn runtime surroundings (.command (.handshake clientId handshake))
      (base.grant surroundings clientId handshake.pid) := by
  have habandoned := Turn.abandoned clientId handshake hrejection base hready
  have haccepted := Turn.accepted clientId handshake hrejection base hready
  have hrefused := Turn.refused clientId handshake hrejection base hready
  have hsent := ((base.releaseLegacy surroundings).opened surroundings clientId
    handshake.pid).sendResponse_fst_iff clientId (acceptance surroundings.uuid)
  change Turn _ _ _ (if clientId ∉ (base.releaseLegacy surroundings).clients then _ else
    if (sendResponse _ _ (acceptance surroundings.uuid)).1 then
      (sendResponse _ _ (acceptance surroundings.uuid)).2
    else (sendResponse _ _ (acceptance surroundings.uuid)).2.revoke _ _)
  by_cases hregistered : clientId ∈ (base.releaseLegacy surroundings).clients
  · rw [if_neg (not_not.mpr hregistered)]
    split_ifs with hok
    · exact haccepted (hsent.mp hok)
    · exact hrefused hregistered fun h => hok (hsent.mpr h)
  · rw [if_pos hregistered]
    exact habandoned hregistered

theorem handshake_turn (clientId : ClientId) (handshake : Handshake) :
    Turn runtime surroundings (.command (.handshake clientId handshake))
      (runtime.handshake surroundings clientId handshake) := by
  unfold Runtime.handshake
  cases hrejection : runtime.rejection handshake with
  | some reason => exact .rejected clientId handshake reason hrejection
  | none =>
      dsimp only
      split_ifs with hpaused
      · cases hreply : surroundings.resumeReply with
        | error error =>
            have h : Turn runtime surroundings _ _ :=
              .unavailable clientId handshake hrejection hpaused error hreply
            simpa [resumeCapture, CaptureControl.resume, hreply] using h
        | ok value =>
            have h := runtime.grant_turn surroundings clientId handshake hrejection
              (.resumed hpaused hreply)
            simpa [resumeCapture, CaptureControl.resume, hreply] using h
      · exact runtime.grant_turn surroundings clientId handshake hrejection
          (.running (by simpa using hpaused))

theorem unregister_turn (clientId : ClientId) :
    Turn runtime surroundings (.command (.unregister clientId))
      (runtime.unregister surroundings clientId) := by
  have hsame : (runtime.removeClient clientId).session = runtime.session := rfl
  unfold unregister
  dsimp only
  rw [hsame]
  cases hsession : runtime.session with
  | none => exact .left clientId (by simp [hsession])
  | some session =>
      dsimp only
      split_ifs with hholder
      · subst hholder
        exact .disconnected session hsession
      · refine .left clientId ?_
        intro other hother
        rw [hsession] at hother
        cases hother
        exact hholder

theorem heartbeat_turn (clientId : ClientId) (sessionId : String) :
    Turn runtime surroundings (.command (.heartbeat clientId sessionId))
      (runtime.heartbeat surroundings clientId sessionId) := by
  unfold heartbeat
  cases hsession : runtime.session with
  | none => exact .stale clientId sessionId (by simp [hsession])
  | some session =>
      dsimp only
      split_ifs with hmatch
      · obtain ⟨rfl, rfl⟩ := hmatch
        exact .renewed session hsession
      · refine .stale clientId sessionId ?_
        intro other hother
        rw [hsession] at hother
        cases hother
        exact hmatch

theorem revokeSession_turn (reason : SessionRevocationReason) :
    Turn runtime surroundings (.command (.revokeSession reason))
      (runtime.revoke surroundings reason) := by
  cases hsession : runtime.session with
  | none =>
      rw [runtime.revoke_of_none surroundings reason hsession]
      exact .ignored _ (.inr (.inl ⟨reason, rfl⟩)) (by simp [hsession])
  | some session => exact .revoked session hsession _ reason (.requested reason)

theorem focusChanged_turn (frontmostPid : Option UInt32) :
    Turn runtime surroundings (.command (.focusChanged frontmostPid))
      (runtime.focusChanged surroundings frontmostPid) := by
  unfold focusChanged
  cases hsession : runtime.session with
  | none => exact .ignored _ (.inr (.inr ⟨frontmostPid, rfl⟩)) (by simp [hsession])
  | some session =>
      cases hpid : session.pid with
      | none =>
          simp only [Option.any_some, hpid, Option.any_none, Bool.false_eq_true, if_false]
          refine .ignored _ (.inr (.inr ⟨frontmostPid, rfl⟩)) ?_
          intro other hother reason hdemand
          rw [hsession] at hother
          cases hother
          cases hdemand with
          | focusLost pid _ bound _ => simp [hpid] at bound
      | some pid =>
          simp only [Option.any_some, hpid, decide_eq_true_eq]
          split_ifs with hother
          · exact .revoked session hsession _ _ (.focusLost pid frontmostPid hpid
              (Ne.symm hother))
          · refine .ignored _ (.inr (.inr ⟨frontmostPid, rfl⟩)) ?_
            intro active hactive reason hdemand
            rw [hsession] at hactive
            cases hactive
            cases hdemand with
            | focusLost bound _ hbound hne =>
                rw [hpid] at hbound
                cases hbound
                exact hother (Ne.symm hne)

theorem tracked_long_iff (now : Instant) :
    (runtime.escapeTracker.toList.any fun (_, pressedAt) =>
        millis escapeHoldMs ≤ elapsed now pressedAt) = true ↔
      ∃ (switchId : String) (pressedAt : Instant),
        runtime.escapeTracker[switchId]? = some pressedAt ∧
        millis escapeHoldMs ≤ elapsed now pressedAt := by
  simp only [List.any_eq_true, Prod.exists, decide_eq_true_eq,
    ExtTreeMap.mem_toList_iff_getElem?_eq_some]

theorem tick_turn : Turn runtime surroundings .tick (runtime.tick surroundings) := by
  unfold tick
  cases hsession : runtime.session with
  | none => exact .ignored _ (.inl rfl) (by simp [hsession])
  | some session =>
      simp only [Option.any_some, decide_eq_true_eq, Option.isSome_some, if_true]
      split_ifs with hlate hheld
      · exact .revoked session hsession _ _ (.timedOut hlate)
      · obtain ⟨switchId, pressedAt, htracked, hlong⟩ :=
          (runtime.tracked_long_iff surroundings.now).mp hheld
        exact .revoked session hsession _ _
          (.escape hlate switchId pressedAt htracked hlong)
      · refine .ignored _ (.inl rfl) ?_
        intro other hother reason hdemand
        rw [hsession] at hother
        cases hother
        cases hdemand with
        | timedOut late => exact hlate late
        | escape _ switchId pressedAt htracked hlong =>
            exact hheld ((runtime.tracked_long_iff surroundings.now).mpr
              ⟨switchId, pressedAt, htracked, hlong⟩)

/-- Every pass of the loop is one of the listed turns. -/
theorem step_turn (step : Step) :
    Turn runtime step.surroundings step.wakeup (runtime.step step) := by
  obtain ⟨surroundings, wakeup⟩ := step
  cases wakeup with
  | tick => exact runtime.tick_turn surroundings
  | command command =>
      cases command with
      | input event => exact runtime.input_turn surroundings event
      | register channel => exact .registered channel
      | unregister clientId => exact runtime.unregister_turn surroundings clientId
      | handshake clientId handshake =>
          exact runtime.handshake_turn surroundings clientId handshake
      | heartbeat clientId sessionId =>
          exact runtime.heartbeat_turn surroundings clientId sessionId
      | revokeSession reason => exact runtime.revokeSession_turn surroundings reason
      | focusChanged frontmostPid =>
          exact runtime.focusChanged_turn surroundings frontmostPid

@[simp] theorem reject_core (clientId : ClientId) (reason : HandshakeRejectionReason) :
    (runtime.reject clientId reason).core = runtime.core :=
  runtime.sendResponse_core clientId _

@[simp] theorem register_core (channel : Channel) :
    (runtime.register channel).core =
      { runtime.core with nextClient := runtime.nextClient + 1 } := by
  unfold register
  dsimp only
  split_ifs <;> rfl

/-- The holder whose queue has not taken an event is dropped. Nothing else has
changed since the event was published. -/
theorem dropped_core (now : Instant) (state : SwitchStateMachine)
    (transition : LogicalTransition) (clientId : ClientId) :
    (((runtime.published now state transition).trySend clientId
      (runtime.news now transition)).2.removeClient clientId).core =
      (runtime.published now state transition).core :=
  trySend_core _ clientId _

theorem dropped_session (now : Instant) (state : SwitchStateMachine)
    (transition : LogicalTransition) (clientId : ClientId) {session : Session}
    (h : runtime.session = some session) :
    (((runtime.published now state transition).trySend clientId
      (runtime.news now transition)).2.removeClient clientId).session = some session :=
  (congrArg Core.session (runtime.dropped_core now state transition clientId)).trans h

/-- The session is there already when the acceptance is sent. -/
theorem opened_session (clientId : ClientId) (pid : Option UInt32)
    (response : HandshakeResponse) :
    ((runtime.opened surroundings clientId pid).sendResponse clientId response).2.session =
      some ⟨clientId, surroundings.uuid, pid, surroundings.now⟩ :=
  congrArg Core.session (sendResponse_core _ clientId response)

theorem releaseLegacy_of_paused (h : runtime.paused = true) :
    runtime.releaseLegacy surroundings = runtime := by
  unfold releaseLegacy
  rw [if_pos h]

theorem releaseLegacy_of_running (h : runtime.paused = false) :
    runtime.releaseLegacy surroundings =
      ((runtime.releases surroundings.now).map .switchEvent).foldl broadcast
        (runtime.letGo surroundings.now) := by
  unfold releaseLegacy
  rw [if_neg (by simp [h]), releaseMessages_eq]

theorem releaseLegacy_core :
    (runtime.releaseLegacy surroundings).core =
      if runtime.paused then runtime.core else (runtime.letGo surroundings.now).core := by
  cases h : runtime.paused with
  | true => rw [runtime.releaseLegacy_of_paused surroundings h]; rfl
  | false =>
      rw [runtime.releaseLegacy_of_running surroundings h, foldl_broadcast_core]
      rfl

theorem resumeCapture_of_ok (h : surroundings.resumeReply = .ok ()) :
    (runtime.resumeCapture surroundings).2 =
      { runtime with
        capture := { enabled := true }
        history.captureCalls := runtime.history.captureCalls ++ [.resume] } := by
  unfold resumeCapture CaptureControl.resume
  rw [h]

theorem resumeCapture_of_error {error : String}
    (h : surroundings.resumeReply = .error error) :
    (runtime.resumeCapture surroundings).2 =
      { runtime with
        history.captureCalls := runtime.history.captureCalls ++ [.resume] } := by
  unfold resumeCapture CaptureControl.resume
  rw [h]

end Runtime

end Usahp.Broker
