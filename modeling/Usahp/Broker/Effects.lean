import Usahp.Broker.Runtime

/-!
What the building blocks of the handlers change. Sending touches only the
clients and the record of attempts; everything else is the `core` of the
state. Creating events touches only the sequence counter and the record of
created events. The handlers are put together from these facts.
-/

namespace Usahp.Broker

open Std Usahp.Library

/-- The part of the state that sending a message leaves alone. -/
structure Core where
  state : SwitchStateMachine
  capture : CaptureControl
  started : Instant
  sequence : Nat
  nextClient : ClientId
  session : Option Session
  paused : Bool
  escapeTracker : ExtTreeMap String Instant
  created : List Created
  revoked : List (Session × SessionRevocationReason)
  captureCalls : List CaptureCall

def stampOne (started now : Instant) (sequence : Nat)
    (transition : LogicalTransition) : SwitchEvent where
  protocolVersion := protocolVersion
  sequence := sequence
  monotonicUs := min (elapsed now started / 1000) (2 ^ 64 - 1)
  switchId := transition.switchId
  action := transition.action
  confidence := transition.confidence

/-- The events of a list of transitions, numbered upwards from `sequence + 1`. -/
def stamp (started now : Instant) (sequence : Nat) :
    List LogicalTransition → List SwitchEvent
  | [] => []
  | transition :: rest =>
      stampOne started now (sequence + 1) transition ::
        stamp started now (sequence + 1) rest

namespace Runtime

def core (runtime : Runtime) : Core where
  state := runtime.state
  capture := runtime.capture
  started := runtime.started
  sequence := runtime.sequence
  nextClient := runtime.nextClient
  session := runtime.session
  paused := runtime.paused
  escapeTracker := runtime.escapeTracker
  created := runtime.history.created
  revoked := runtime.history.revoked
  captureCalls := runtime.history.captureCalls

/-- Record freshly created events. -/
def record (runtime : Runtime) (now : Instant) (events : List SwitchEvent) : Runtime :=
  { runtime with
    sequence := runtime.sequence + events.length
    history.created := runtime.history.created ++ events.map fun event => ⟨now, event⟩ }

variable (runtime : Runtime)

@[simp] theorem trySend_core (clientId : ClientId) (message : ServerMessage) :
    (runtime.trySend clientId message).2.core = runtime.core := by
  unfold trySend
  split <;> rfl

@[simp] theorem removeClient_core (clientId : ClientId) :
    (runtime.removeClient clientId).core = runtime.core := rfl

@[simp] theorem broadcast_core (message : ServerMessage) :
    (runtime.broadcast message).core = runtime.core := rfl

@[simp] theorem foldl_broadcast_core (messages : List ServerMessage) :
    (messages.foldl broadcast runtime).core = runtime.core := by
  induction messages generalizing runtime with
  | nil => rfl
  | cons message rest ih => exact (ih _).trans (runtime.broadcast_core message)

@[simp] theorem sendResponse_core (clientId : ClientId) (response : HandshakeResponse) :
    (runtime.sendResponse clientId response).2.core = runtime.core := by
  unfold sendResponse
  have h := runtime.trySend_core clientId (.handshakeResponse response)
  cases hsend : runtime.trySend clientId (.handshakeResponse response) with
  | mk sent next =>
      rw [hsend] at h
      cases sent <;> exact h

@[simp] theorem deliver_core (clientId : ClientId) (messages : List ServerMessage) :
    (runtime.deliver clientId messages).2.core = runtime.core := by
  induction messages generalizing runtime with
  | nil => rfl
  | cons message rest ih =>
      exact (ih _).trans (runtime.trySend_core clientId message)

theorem events_eq (now : Instant) (transitions : List LogicalTransition) :
    runtime.events now transitions =
      ((stamp runtime.started now runtime.sequence transitions).map .switchEvent,
        runtime.record now
          (stamp runtime.started now runtime.sequence transitions)) := by
  induction transitions generalizing runtime with
  | nil => simp [events, stamp, record]
  | cons transition rest ih =>
      simp only [events, event, ih, stamp, record, List.map_cons, List.length_cons,
        List.append_assoc, List.singleton_append]
      congr 2
      omega

/-- The releases that `release_all` would produce now. -/
def releases (now : Instant) : List SwitchEvent :=
  stamp runtime.started now runtime.sequence runtime.state.releaseAll.1

/-- Everything is let go and the releases are recorded, not yet sent. -/
def letGo (now : Instant) : Runtime :=
  { runtime with state := runtime.state.releaseAll.2 }.record now (runtime.releases now)

theorem releaseMessages_eq (now : Instant) :
    runtime.releaseMessages now =
      ((runtime.releases now).map .switchEvent, runtime.letGo now) :=
  events_eq { runtime with state := runtime.state.releaseAll.2 } now _

/-- The state of `revoke` after the releases are created and before anything
is delivered. -/
def stopped (surroundings : Surroundings) : Runtime :=
  (runtime.suspend surroundings).letGo surroundings.now

/-- The messages that `revoke` tries to deliver to the holder. -/
def farewell (surroundings : Surroundings) (session : Session)
    (reason : SessionRevocationReason) : List ServerMessage :=
  (runtime.releases surroundings.now).map .switchEvent ++
    [.sessionRevoked { protocolVersion, sessionId := session.sessionId, reason }]

theorem revoke_of_none (surroundings : Surroundings)
    (reason : SessionRevocationReason) (h : runtime.session = none) :
    runtime.revoke surroundings reason = runtime := by
  unfold revoke
  rw [h]

theorem revoke_of_some (surroundings : Surroundings)
    (reason : SessionRevocationReason) {session : Session}
    (h : runtime.session = some session) :
    runtime.revoke surroundings reason =
      ((runtime.stopped surroundings).dismiss session.clientId
        (runtime.farewell surroundings session reason)).logRevoked session reason := by
  unfold revoke
  rw [h]
  simp only [releaseMessages_eq]
  rfl

@[simp] theorem dismiss_core (clientId : ClientId) (messages : List ServerMessage) :
    (runtime.dismiss clientId messages).core = runtime.core := by
  have h := runtime.deliver_core clientId messages
  unfold dismiss
  split_ifs
  · cases hdeliver : runtime.deliver clientId messages with
    | mk failed next =>
        rw [hdeliver] at h
        cases failed <;> exact h
  · rfl

theorem revoke_core (surroundings : Surroundings) (reason : SessionRevocationReason)
    {session : Session} (h : runtime.session = some session) :
    (runtime.revoke surroundings reason).core =
      { (runtime.stopped surroundings).core with
        revoked := runtime.history.revoked ++ [(session, reason)] } := by
  rw [runtime.revoke_of_some surroundings reason h]
  have hcore := (runtime.stopped surroundings).dismiss_core session.clientId
    (runtime.farewell surroundings session reason)
  exact congrArg (fun core : Core =>
    { core with revoked := core.revoked ++ [(session, reason)] }) hcore

theorem revoke_session (surroundings : Surroundings) (reason : SessionRevocationReason)
    {session : Session} (h : runtime.session = some session) :
    (runtime.revoke surroundings reason).session = none :=
  congrArg Core.session (runtime.revoke_core surroundings reason h)

theorem revoke_state (surroundings : Surroundings) (reason : SessionRevocationReason)
    {session : Session} (h : runtime.session = some session) :
    (runtime.revoke surroundings reason).state = runtime.state.releaseAll.2 :=
  congrArg Core.state (runtime.revoke_core surroundings reason h)

end Runtime

end Usahp.Broker
