import Usahp.Library.Channel
import Usahp.Library.Machine
import Usahp.State

/-!
The broker task. One input of the machine is one pass of its `select!` loop:
a command from the channel or a tick of the timer, together with what the
surroundings decide during that pass (the clock, the next random session id,
and how the capture backends answer).

A handler runs to its end before the next command is received, also where it
awaits the backends, so a pass is one step. The clock is read once for each
pass. Everything that is random, timed or concurrent is an input, and every
statement about all runs ranges over it.
-/

namespace Usahp.Broker

open Std Usahp.Library

abbrev ClientId := Nat

/-- Nanoseconds on the monotonic clock. -/
abbrev Instant := Nat

def millis (count : Nat) : Nat := count * 1000000

/-- `Instant::elapsed`, which saturates at zero. -/
def elapsed (now earlier : Instant) : Nat := now - earlier

def heartbeatIntervalMs : UInt32 := 500
def missedHeartbeatLimit : UInt32 := 3
def escapeHoldMs : Nat := 4000

/-- `u64::from(HEARTBEAT_INTERVAL_MS) * u64::from(MISSED_HEARTBEAT_LIMIT)`. -/
def leaseMs : Nat := heartbeatIntervalMs.toNat * missedHeartbeatLimit.toNat

structure PhysicalEvent where
  mappingId : String
  action : Action
  confidence : Option F32
  deriving DecidableEq

/-- `register` carries the channel whose sending half the source passes; the
reply carries the new client id exactly when the client is inserted. -/
inductive BrokerCommand where
  | input (event : PhysicalEvent)
  | register (channel : Channel)
  | unregister (clientId : ClientId)
  | handshake (clientId : ClientId) (handshake : Handshake)
  | heartbeat (clientId : ClientId) (sessionId : String)
  | revokeSession (reason : SessionRevocationReason)
  | focusChanged (frontmostPid : Option UInt32)

/-- One pass of the `select!` loop. -/
inductive Wakeup where
  | command (command : BrokerCommand)
  | tick

structure Surroundings where
  now : Instant
  /-- What `Uuid::new_v4` returns. -/
  uuid : String
  pauseReply : Except String Unit
  resumeReply : Except String Unit

structure Step where
  surroundings : Surroundings
  wakeup : Wakeup

structure Session where
  clientId : ClientId
  sessionId : String
  pid : Option UInt32
  lastHeartbeat : Instant
  deriving DecidableEq

/-- The flag that the capture backends share with the broker. The replies are
those of `command_backends`. -/
structure CaptureControl where
  enabled : Bool
  deriving DecidableEq

def CaptureControl.pause (capture : CaptureControl) (reply : Except String Unit) :
    Except String Unit × CaptureControl :=
  (reply, { capture with enabled := false })

def CaptureControl.resume (capture : CaptureControl) (reply : Except String Unit) :
    Except String Unit × CaptureControl :=
  match reply with
  | .error error => (.error error, capture)
  | .ok () => (.ok (), { capture with enabled := true })

structure Attempt where
  message : ServerMessage
  sent : Bool
  deriving DecidableEq

structure Created where
  at_ : Instant
  event : SwitchEvent
  deriving DecidableEq

inductive CaptureCall where
  | pause
  | resume
  deriving DecidableEq

/-- What an observer of the task sees, and nothing the task reads: every
`try_send` to each client with its outcome, every event created, every session
ended with the reason that is logged, and every call of the capture control. -/
structure History where
  attempts : ClientId → List Attempt
  created : List Created
  revoked : List (Session × SessionRevocationReason)
  captureCalls : List CaptureCall

structure Runtime where
  state : SwitchStateMachine
  capture : CaptureControl
  started : Instant
  sequence : Nat
  nextClient : ClientId
  clients : ExtTreeMap ClientId (Sender ServerMessage)
  session : Option Session
  paused : Bool
  /-- Press times of the switches whose press was seen since the last clear. -/
  escapeTracker : ExtTreeMap String Instant
  history : History

namespace Runtime

def new (mappings : List Mapping) (started : Instant) : Runtime where
  state := SwitchStateMachine.new mappings
  capture := { enabled := true }
  started := started
  sequence := 0
  nextClient := 1
  clients := ∅
  session := none
  paused := false
  escapeTracker := ∅
  history := { attempts := fun _ => [], created := [], revoked := [], captureCalls := [] }

/-- One `try_send` through the sender stored for a client; `false` also when
there is none. -/
def trySend (runtime : Runtime) (clientId : ClientId) (message : ServerMessage) :
    Bool × Runtime :=
  match runtime.clients[clientId]? with
  | none => (false, runtime)
  | some sender =>
      let (outcome, sender) := sender.trySend message
      (outcome.isOk,
        { runtime with
          clients := runtime.clients.insert clientId sender
          history.attempts := Function.update runtime.history.attempts clientId
            (runtime.history.attempts clientId ++ [⟨message, outcome.isOk⟩]) })

def removeClient (runtime : Runtime) (clientId : ClientId) : Runtime :=
  { runtime with clients := runtime.clients.erase clientId }

def pauseCapture (runtime : Runtime) (surroundings : Surroundings) :
    Except String Unit × Runtime :=
  let (outcome, capture) := runtime.capture.pause surroundings.pauseReply
  (outcome,
    { runtime with
      capture
      history.captureCalls := runtime.history.captureCalls ++ [.pause] })

def resumeCapture (runtime : Runtime) (surroundings : Surroundings) :
    Except String Unit × Runtime :=
  let (outcome, capture) := runtime.capture.resume surroundings.resumeReply
  (outcome,
    { runtime with
      capture
      history.captureCalls := runtime.history.captureCalls ++ [.resume] })

def event (runtime : Runtime) (now : Instant) (transition : LogicalTransition) :
    ServerMessage × Runtime :=
  let sequence := runtime.sequence + 1
  let event : SwitchEvent :=
    { protocolVersion
      sequence
      monotonicUs := min (elapsed now runtime.started / 1000) (2 ^ 64 - 1)
      switchId := transition.switchId
      action := transition.action
      confidence := transition.confidence }
  (.switchEvent event,
    { runtime with
      sequence
      history.created := runtime.history.created ++ [⟨now, event⟩] })

/-- One event for each transition, in order. -/
def events (runtime : Runtime) (now : Instant) :
    List LogicalTransition → List ServerMessage × Runtime
  | [] => ([], runtime)
  | transition :: rest =>
      let (message, runtime) := runtime.event now transition
      let (messages, runtime) := runtime.events now rest
      (message :: messages, runtime)

def releaseMessages (runtime : Runtime) (now : Instant) :
    List ServerMessage × Runtime :=
  let (transitions, state) := runtime.state.releaseAll
  { runtime with state }.events now transitions

/-- `clients.retain`: a client whose send fails is dropped. -/
def broadcast (runtime : Runtime) (message : ServerMessage) : Runtime :=
  { runtime with
    clients := runtime.clients.filterMap fun _ sender =>
      match sender.trySend message with
      | (.ok _, sender) => some sender
      | (.error _, _) => none
    history.attempts := fun clientId =>
      match runtime.clients[clientId]? with
      | none => runtime.history.attempts clientId
      | some sender =>
          runtime.history.attempts clientId ++
            [⟨message, (sender.trySend message).1.isOk⟩] }

def sendResponse (runtime : Runtime) (clientId : ClientId)
    (response : HandshakeResponse) : Bool × Runtime :=
  let (sent, runtime) := runtime.trySend clientId (.handshakeResponse response)
  if sent then
    (true, runtime)
  else
    (false, runtime.removeClient clientId)

/-- The loop of `revoke`: every message is tried, also after one has failed.
Returns `delivery_failed`. -/
def deliver (runtime : Runtime) (clientId : ClientId) :
    List ServerMessage → Bool × Runtime
  | [] => (false, runtime)
  | message :: rest =>
      let (sent, runtime) := runtime.trySend clientId message
      let (failed, runtime) := runtime.deliver clientId rest
      (!sent || failed, runtime)

/-- The delivery of `revoke`: nothing for a holder who is gone, and the end of
the registration for one whose queue refused a message. -/
def dismiss (runtime : Runtime) (clientId : ClientId)
    (messages : List ServerMessage) : Runtime :=
  if clientId ∈ runtime.clients then
    let (deliveryFailed, runtime) := runtime.deliver clientId messages
    if deliveryFailed then runtime.removeClient clientId else runtime
  else runtime

/-- The session is taken and capture is stopped; a failed pause is only
logged. -/
def suspend (runtime : Runtime) (surroundings : Surroundings) : Runtime :=
  let runtime := { runtime with session := none, escapeTracker := ∅ }
  let (_, runtime) := runtime.pauseCapture surroundings
  { runtime with paused := true }

/-- The log line "managed session revoked". -/
def logRevoked (runtime : Runtime) (session : Session)
    (reason : SessionRevocationReason) : Runtime :=
  { runtime with history.revoked := runtime.history.revoked ++ [(session, reason)] }

def revoke (runtime : Runtime) (surroundings : Surroundings)
    (reason : SessionRevocationReason) : Runtime :=
  match runtime.session with
  | none => runtime
  | some session =>
      let runtime := runtime.suspend surroundings
      let (releases, runtime) := runtime.releaseMessages surroundings.now
      let revoked := .sessionRevoked
        { protocolVersion, sessionId := session.sessionId, reason }
      (runtime.dismiss session.clientId (releases ++ [revoked])).logRevoked session reason

def register (runtime : Runtime) (channel : Channel) : Runtime :=
  let clientId := runtime.nextClient
  let runtime := { runtime with nextClient := runtime.nextClient + 1 }
  let hello := .hello { protocolVersion, switches := runtime.state.snapshots }
  let (outcome, sender) := (Sender.ofChannel channel).trySend hello
  let runtime :=
    { runtime with
      history.attempts := Function.update runtime.history.attempts clientId
        (runtime.history.attempts clientId ++ [⟨hello, outcome.isOk⟩]) }
  if outcome.isOk then
    { runtime with clients := runtime.clients.insert clientId sender }
  else runtime

def unregister (runtime : Runtime) (surroundings : Surroundings)
    (clientId : ClientId) : Runtime :=
  let runtime := runtime.removeClient clientId
  match runtime.session with
  | some session =>
      if session.clientId = clientId then
        runtime.revoke surroundings .explicitRevocation
      else runtime
  | none => runtime

def track (runtime : Runtime) (now : Instant) (transition : LogicalTransition) :
    Runtime :=
  { runtime with
    escapeTracker :=
      match transition.action with
      | .pressed => runtime.escapeTracker.insert transition.switchId now
      | .released => runtime.escapeTracker.erase transition.switchId }

/-- The event of a transition goes to the session holder, or to everyone while
there is no session. -/
def route (runtime : Runtime) (surroundings : Surroundings)
    (message : ServerMessage) : Runtime :=
  match runtime.session with
  | some session =>
      let (sent, runtime) := runtime.trySend session.clientId message
      if sent then runtime
      else
        (runtime.removeClient session.clientId).revoke surroundings .queueOverflow
  | none => runtime.broadcast message

def input (runtime : Runtime) (surroundings : Surroundings)
    (event : PhysicalEvent) : Runtime :=
  if runtime.paused || !runtime.capture.enabled then runtime
  else
    let confidence := event.confidence.bind validateConfidence
    match runtime.state.apply event.mappingId event.action confidence with
    | (.ok (some transition), state) =>
        let runtime := { runtime with state }.track surroundings.now transition
        let (message, runtime) := runtime.event surroundings.now transition
        runtime.route surroundings message
    | (.ok none, state) => { runtime with state }
    | (.error _, state) => { runtime with state }

/-- The checks of `handshake` that are made before anything changes. -/
def rejection (runtime : Runtime) (handshake : Handshake) :
    Option HandshakeRejectionReason :=
  if handshake.protocolVersion ≠ protocolVersion then some .protocolMismatch
  else if !validAppId handshake.appId then some .invalidAppId
  else if handshake.requestedMode ≠ .exclusiveForeground then some .unsupportedMode
  else if runtime.session.isSome then some .sessionBusy
  else none

def reject (runtime : Runtime) (clientId : ClientId)
    (reason : HandshakeRejectionReason) : Runtime :=
  (runtime.sendResponse clientId (.rejected protocolVersion reason)).2

/-- The first session ends the legacy broadcast: held switches are released to
every client before exclusive events begin. -/
def releaseLegacy (runtime : Runtime) (surroundings : Surroundings) : Runtime :=
  if runtime.paused then runtime
  else
    let (releases, runtime) := runtime.releaseMessages surroundings.now
    releases.foldl broadcast runtime

/-- The state of an accepted handshake, before the answer is sent. -/
def opened (runtime : Runtime) (surroundings : Surroundings) (clientId : ClientId)
    (pid : Option UInt32) : Runtime :=
  let session : Session :=
    { clientId, sessionId := surroundings.uuid, pid, lastHeartbeat := surroundings.now }
  { runtime with paused := false, escapeTracker := ∅, session := some session }

def openSession (runtime : Runtime) (surroundings : Surroundings)
    (clientId : ClientId) (pid : Option UInt32) : Runtime :=
  let runtime := runtime.opened surroundings clientId pid
  let (accepted, runtime) := runtime.sendResponse clientId
    (.accepted protocolVersion surroundings.uuid heartbeatIntervalMs missedHeartbeatLimit)
  if accepted then runtime
  else runtime.revoke surroundings .queueOverflow

/-- What follows once capture is known to run. -/
def grant (runtime : Runtime) (surroundings : Surroundings) (clientId : ClientId)
    (pid : Option UInt32) : Runtime :=
  let runtime := runtime.releaseLegacy surroundings
  if clientId ∉ runtime.clients then
    let (_, runtime) := runtime.pauseCapture surroundings
    { runtime with paused := true }
  else runtime.openSession surroundings clientId pid

def handshake (runtime : Runtime) (surroundings : Surroundings)
    (clientId : ClientId) (handshake : Handshake) : Runtime :=
  match runtime.rejection handshake with
  | some reason => runtime.reject clientId reason
  | none =>
      if runtime.paused then
        match runtime.resumeCapture surroundings with
        | (.error _, runtime) => runtime.reject clientId .captureUnavailable
        | (.ok _, runtime) => runtime.grant surroundings clientId handshake.pid
      else runtime.grant surroundings clientId handshake.pid

def heartbeat (runtime : Runtime) (surroundings : Surroundings)
    (clientId : ClientId) (sessionId : String) : Runtime :=
  match runtime.session with
  | some session =>
      if session.clientId = clientId ∧ session.sessionId = sessionId then
        { runtime with session := some { session with lastHeartbeat := surroundings.now } }
      else runtime
  | none => runtime

def focusChanged (runtime : Runtime) (surroundings : Surroundings)
    (frontmostPid : Option UInt32) : Runtime :=
  let needsRevoke := runtime.session.any fun session =>
    session.pid.any fun pid => some pid ≠ frontmostPid
  if needsRevoke then runtime.revoke surroundings .focusLost else runtime

/-- The iteration order of the tracker decides only which switch is logged. -/
def tick (runtime : Runtime) (surroundings : Surroundings) : Runtime :=
  let timedOut := runtime.session.any fun session =>
    millis leaseMs ≤ elapsed surroundings.now session.lastHeartbeat
  if timedOut then runtime.revoke surroundings .heartbeatTimeout
  else if runtime.session.isSome then
    if runtime.escapeTracker.toList.any fun (_, pressedAt) =>
        millis escapeHoldMs ≤ elapsed surroundings.now pressedAt then
      runtime.revoke surroundings .escapeHatch
    else runtime
  else runtime

def handle (runtime : Runtime) (surroundings : Surroundings) :
    BrokerCommand → Runtime
  | .input event => runtime.input surroundings event
  | .register channel => runtime.register channel
  | .unregister clientId => runtime.unregister surroundings clientId
  | .handshake clientId handshake => runtime.handshake surroundings clientId handshake
  | .heartbeat clientId sessionId => runtime.heartbeat surroundings clientId sessionId
  | .revokeSession reason => runtime.revoke surroundings reason
  | .focusChanged frontmostPid => runtime.focusChanged surroundings frontmostPid

def step (runtime : Runtime) (step : Step) : Runtime :=
  match step.wakeup with
  | .command command => runtime.handle step.surroundings command
  | .tick => runtime.tick step.surroundings

end Runtime

/-- The task that `spawn` starts at the instant `started`. -/
def broker (mappings : List Mapping) (started : Instant) : Machine Runtime Step where
  start := Runtime.new mappings started
  step := Runtime.step

end Usahp.Broker
