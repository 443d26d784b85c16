import Usahp.Broker.Holder

/-!
Isolation of the clients. One client and everything it does is removed from a
run; its queue, with its receiver, goes with its registration. Unless it opens
a session, nobody else can tell the difference. `Matches` is the simulation
relation, each building block of the handlers keeps it, and so do the handlers,
which are put together from them.
-/

namespace Usahp.Broker

open Std Usahp.Library

/-- The id of another client when the client `gone` never registers. -/
def renamed (gone clientId : Nat) : Nat :=
  if gone < clientId then clientId - 1 else clientId

def Session.renamed (gone : ClientId) (session : Session) : Session :=
  { session with clientId := Broker.renamed gone session.clientId }

def Core.renamed (gone : ClientId) (core : Core) : Core :=
  { core with
    nextClient := Broker.renamed gone core.nextClient
    session := core.session.map (Session.renamed gone)
    revoked := core.revoked.map fun (session, reason) => (session.renamed gone, reason) }

def BrokerCommand.renamed (gone : ClientId) : BrokerCommand → BrokerCommand
  | .input event => .input event
  | .register channel => .register channel
  | .unregister clientId => .unregister (Broker.renamed gone clientId)
  | .handshake clientId request => .handshake (Broker.renamed gone clientId) request
  | .heartbeat clientId sessionId => .heartbeat (Broker.renamed gone clientId) sessionId
  | .revokeSession reason => .revokeSession reason
  | .focusChanged frontmostPid => .focusChanged frontmostPid

/-- A command of the client; the next registration is the client's own when it
is the one that gets the id. -/
def BrokerCommand.isOf (clientId next : ClientId) : BrokerCommand → Bool
  | .register _ => next = clientId
  | .unregister sender => sender = clientId
  | .handshake sender _ => sender = clientId
  | .heartbeat sender _ => sender = clientId
  | .input _ => false
  | .revokeSession _ => false
  | .focusChanged _ => false

/-- A step as it is in the run without the client, if it is there. -/
def withoutClient (gone : ClientId) (runtime : Runtime) (step : Step) : Option Step :=
  match step.wakeup with
  | .tick => some step
  | .command command =>
      if command.isOf gone runtime.nextClient then none
      else some { step with wakeup := .command (command.renamed gone) }

/-- The state with the client and the one without it. -/
structure Matches (gone : ClientId) (full reduced : Runtime) : Prop where
  core : reduced.core = full.core.renamed gone
  clients : ∀ clientId, clientId ≠ gone →
    reduced.clients[renamed gone clientId]? = full.clients[clientId]?
  attempts : ∀ clientId, clientId ≠ gone →
    reduced.history.attempts (renamed gone clientId) = full.history.attempts clientId
  holder : ∀ session, full.session = some session → session.clientId ≠ gone

theorem Core.renamed_logged (gone : ClientId) (core : Core) (session : Session)
    (reason : SessionRevocationReason) :
    { core.renamed gone with
      revoked := (core.renamed gone).revoked ++ [(session.renamed gone, reason)] } =
    ({ core with revoked := core.revoked ++ [(session, reason)] } : Core).renamed gone := by
  simp [Core.renamed]

theorem renamed_injective {gone first second : Nat} (hfirst : first ≠ gone)
    (hsecond : second ≠ gone) (h : renamed gone first = renamed gone second) :
    first = second := by
  unfold renamed at h
  split_ifs at h
  · omega
  · omega
  · omega
  · omega

/-- The next id of the reduced run, after a registration that is kept. -/
theorem renamed_succ {gone next : Nat} (h : next ≠ gone) :
    renamed gone (next + 1) = renamed gone next + 1 := by
  unfold renamed
  split_ifs
  · omega
  · omega
  · omega
  · omega

@[simp] theorem renamed_self (gone : Nat) : renamed gone gone = gone :=
  if_neg (Nat.lt_irrefl gone)

@[simp] theorem renamed_succ_self (gone : Nat) : renamed gone (gone + 1) = gone :=
  if_pos (Nat.lt_succ_self gone)

theorem renamed_one {gone : Nat} (h : 0 < gone) : renamed gone 1 = 1 := by
  unfold renamed
  split_ifs
  · omega
  · rfl

namespace Matches

variable {gone : ClientId} {full reduced : Runtime}

theorem state (h : Matches gone full reduced) : reduced.state = full.state :=
  congrArg Core.state h.core

theorem capture (h : Matches gone full reduced) : reduced.capture = full.capture :=
  congrArg Core.capture h.core

theorem started (h : Matches gone full reduced) : reduced.started = full.started :=
  congrArg Core.started h.core

theorem sequence (h : Matches gone full reduced) : reduced.sequence = full.sequence :=
  congrArg Core.sequence h.core

theorem paused (h : Matches gone full reduced) : reduced.paused = full.paused :=
  congrArg Core.paused h.core

theorem escapeTracker (h : Matches gone full reduced) :
    reduced.escapeTracker = full.escapeTracker :=
  congrArg Core.escapeTracker h.core

theorem nextClient (h : Matches gone full reduced) :
    reduced.nextClient = renamed gone full.nextClient :=
  congrArg Core.nextClient h.core

theorem session (h : Matches gone full reduced) :
    reduced.session = full.session.map (Session.renamed gone) :=
  congrArg Core.session h.core

theorem mem_iff (h : Matches gone full reduced) {clientId : ClientId}
    (hother : clientId ≠ gone) :
    renamed gone clientId ∈ reduced.clients ↔ clientId ∈ full.clients := by
  rw [Runtime.mem_clients_iff, Runtime.mem_clients_iff, h.clients clientId hother]

/-- What changes neither the clients nor the attempts is judged by its core. -/
theorem of_core (h : Matches gone full reduced) {full' reduced' : Runtime}
    (hcore : reduced'.core = full'.core.renamed gone)
    (hfull : full'.clients = full.clients ∧
      full'.history.attempts = full.history.attempts)
    (hreduced : reduced'.clients = reduced.clients ∧
      reduced'.history.attempts = reduced.history.attempts)
    (hholder : ∀ session, full'.session = some session → session.clientId ≠ gone) :
    Matches gone full' reduced' where
  core := hcore
  clients clientId hother := by
    rw [hfull.1, hreduced.1]
    exact h.clients clientId hother
  attempts clientId hother := by
    rw [hfull.2, hreduced.2]
    exact h.attempts clientId hother
  holder := hholder

theorem trySend (h : Matches gone full reduced) {clientId : ClientId}
    (hother : clientId ≠ gone) (message : ServerMessage) :
    (reduced.trySend (renamed gone clientId) message).1 = (full.trySend clientId message).1 ∧
      Matches gone (full.trySend clientId message).2
        (reduced.trySend (renamed gone clientId) message).2 := by
  have hsender := h.clients clientId hother
  cases hfull : full.clients[clientId]? with
  | none =>
      rw [hfull] at hsender
      rw [full.trySend_of_none hfull, reduced.trySend_of_none hsender]
      exact ⟨rfl, h⟩
  | some sender =>
      rw [hfull] at hsender
      refine ⟨by rw [full.trySend_of_some hfull, reduced.trySend_of_some hsender], ?_, ?_, ?_, ?_⟩
      · rw [Runtime.trySend_core, Runtime.trySend_core]
        exact h.core
      · intro other hne
        by_cases hsame : other = clientId
        · subst hsame
          rw [full.getElem?_trySend_self hfull, reduced.getElem?_trySend_self hsender]
        · rw [full.getElem?_trySend_of_ne hsame, reduced.getElem?_trySend_of_ne
            fun heq => hsame (renamed_injective hne hother heq)]
          exact h.clients other hne
      · intro other hne
        by_cases hsame : other = clientId
        · subst hsame
          rw [full.attempts_trySend_self hfull, reduced.attempts_trySend_self hsender,
            h.attempts other hne]
        · rw [full.attempts_trySend_of_ne hsame, reduced.attempts_trySend_of_ne
            fun heq => hsame (renamed_injective hne hother heq)]
          exact h.attempts other hne
      · intro session hactive
        exact h.holder session
          ((congrArg Core.session (full.trySend_core clientId message)).symm.trans hactive)

theorem trySend_gone (h : Matches gone full reduced) (message : ServerMessage) :
    Matches gone (full.trySend gone message).2 reduced where
  core := by
    rw [Runtime.trySend_core]
    exact h.core
  clients clientId hother := by
    rw [full.getElem?_trySend_of_ne hother]
    exact h.clients clientId hother
  attempts clientId hother := by
    rw [full.attempts_trySend_of_ne hother]
    exact h.attempts clientId hother
  holder session hactive := h.holder session
    ((congrArg Core.session (full.trySend_core gone message)).symm.trans hactive)

theorem removeClient (h : Matches gone full reduced) {clientId : ClientId}
    (hother : clientId ≠ gone) :
    Matches gone (full.removeClient clientId)
      (reduced.removeClient (renamed gone clientId)) where
  core := h.core
  clients other hne := by
    rw [Runtime.getElem?_removeClient, Runtime.getElem?_removeClient]
    by_cases hsame : other = clientId
    · rw [if_pos hsame, if_pos (congrArg (renamed gone) hsame)]
    · rw [if_neg hsame, if_neg fun heq => hsame (renamed_injective hne hother heq)]
      exact h.clients other hne
  attempts := h.attempts
  holder := h.holder

theorem removeClient_gone (h : Matches gone full reduced) :
    Matches gone (full.removeClient gone) reduced where
  core := h.core
  clients other hne := by
    rw [Runtime.getElem?_removeClient, if_neg hne]
    exact h.clients other hne
  attempts := h.attempts
  holder := h.holder

theorem broadcast (h : Matches gone full reduced) (message : ServerMessage) :
    Matches gone (full.broadcast message) (reduced.broadcast message) where
  core := h.core
  clients clientId hother := by
    rw [Runtime.getElem?_broadcast, Runtime.getElem?_broadcast, h.clients clientId hother]
  attempts clientId hother := by
    rw [Runtime.attempts_broadcast, Runtime.attempts_broadcast, h.clients clientId hother,
      h.attempts clientId hother]
  holder := h.holder

theorem foldl_broadcast (h : Matches gone full reduced) (messages : List ServerMessage) :
    Matches gone (messages.foldl Runtime.broadcast full)
      (messages.foldl Runtime.broadcast reduced) := by
  induction messages generalizing full reduced with
  | nil => exact h
  | cons message rest ih => exact ih (h.broadcast message)

theorem sendResponse (h : Matches gone full reduced) {clientId : ClientId}
    (hother : clientId ≠ gone) (response : HandshakeResponse) :
    (reduced.sendResponse (renamed gone clientId) response).1 =
        (full.sendResponse clientId response).1 ∧
      Matches gone (full.sendResponse clientId response).2
        (reduced.sendResponse (renamed gone clientId) response).2 := by
  obtain ⟨hsent, hnext⟩ := h.trySend hother (.handshakeResponse response)
  rw [Runtime.sendResponse_eq, Runtime.sendResponse_eq, hsent]
  split_ifs
  · exact ⟨rfl, hnext⟩
  · exact ⟨rfl, hnext.removeClient hother⟩

theorem sendResponse_gone (h : Matches gone full reduced) (response : HandshakeResponse) :
    Matches gone (full.sendResponse gone response).2 reduced := by
  have hnext := h.trySend_gone (.handshakeResponse response)
  rw [Runtime.sendResponse_eq]
  split_ifs
  · exact hnext
  · exact hnext.removeClient_gone

theorem deliver (h : Matches gone full reduced) {clientId : ClientId}
    (hother : clientId ≠ gone) (messages : List ServerMessage) :
    (reduced.deliver (renamed gone clientId) messages).1 = (full.deliver clientId messages).1 ∧
      Matches gone (full.deliver clientId messages).2
        (reduced.deliver (renamed gone clientId) messages).2 := by
  induction messages generalizing full reduced with
  | nil => exact ⟨rfl, h⟩
  | cons message rest ih =>
      obtain ⟨hsent, hnext⟩ := h.trySend hother message
      obtain ⟨hfailed, hlast⟩ := ih hnext
      refine ⟨?_, hlast⟩
      simp only [Runtime.deliver, hsent, hfailed]

theorem dismiss (h : Matches gone full reduced) {clientId : ClientId}
    (hother : clientId ≠ gone) (messages : List ServerMessage) :
    Matches gone (full.dismiss clientId messages)
      (reduced.dismiss (renamed gone clientId) messages) := by
  obtain ⟨hfailed, hnext⟩ := h.deliver hother messages
  rw [Runtime.dismiss_eq, Runtime.dismiss_eq, hfailed]
  simp only [h.mem_iff hother]
  split_ifs
  · exact hnext.removeClient hother
  · exact hnext
  · exact h

theorem releases (h : Matches gone full reduced) (now : Instant) :
    reduced.releases now = full.releases now :=
  congrArg (fun core : Core =>
    stamp core.started now core.sequence core.state.releaseAll.1) h.core

/-- The same events are recorded on both sides. -/
theorem record (h : Matches gone full reduced) (now : Instant) (events : List SwitchEvent) :
    Matches gone (full.record now events) (reduced.record now events) := by
  refine h.of_core ?_ ⟨rfl, rfl⟩ ⟨rfl, rfl⟩ h.holder
  exact congrArg (fun core : Core => { core with
    sequence := core.sequence + events.length
    created := core.created ++ events.map fun event => (⟨now, event⟩ : Created) }) h.core

theorem letGo (h : Matches gone full reduced) (now : Instant) :
    Matches gone (full.letGo now) (reduced.letGo now) := by
  unfold Runtime.letGo
  rw [h.releases now]
  refine Matches.record ?_ now _
  refine h.of_core ?_ ⟨rfl, rfl⟩ ⟨rfl, rfl⟩ h.holder
  exact congrArg (fun core : Core => { core with state := core.state.releaseAll.2 }) h.core

theorem pauseCapture (h : Matches gone full reduced) (surroundings : Surroundings) :
    Matches gone (full.pauseCapture surroundings).2 (reduced.pauseCapture surroundings).2 := by
  refine h.of_core ?_ ⟨rfl, rfl⟩ ⟨rfl, rfl⟩ h.holder
  exact congrArg (fun core : Core => { core with
    capture := { core.capture with enabled := false }
    captureCalls := core.captureCalls ++ [CaptureCall.pause] }) h.core

theorem stopped (h : Matches gone full reduced) (surroundings : Surroundings) :
    Matches gone (full.stopped surroundings) (reduced.stopped surroundings) := by
  refine Matches.letGo ?_ surroundings.now
  refine h.of_core ?_ ⟨rfl, rfl⟩ ⟨rfl, rfl⟩ (by rintro _ ⟨⟩)
  exact congrArg (fun core : Core => { core with
    session := none
    escapeTracker := ∅
    capture := { core.capture with enabled := false }
    captureCalls := core.captureCalls ++ [CaptureCall.pause]
    paused := true }) h.core

theorem revoke (h : Matches gone full reduced) (surroundings : Surroundings)
    (reason : SessionRevocationReason) :
    Matches gone (full.revoke surroundings reason) (reduced.revoke surroundings reason) := by
  have hsession := h.session
  cases hactive : full.session with
  | none =>
      rw [hactive] at hsession
      rw [full.revoke_of_none surroundings reason hactive,
        reduced.revoke_of_none surroundings reason hsession]
      exact h
  | some session =>
      rw [hactive] at hsession
      rw [full.revoke_of_some surroundings reason hactive,
        reduced.revoke_of_some surroundings reason hsession]
      have hfarewell : reduced.farewell surroundings (session.renamed gone) reason =
          full.farewell surroundings session reason := by
        rw [Runtime.farewell, Runtime.farewell, h.releases]
        rfl
      have hdismissed := (h.stopped surroundings).dismiss (h.holder session hactive)
        (full.farewell surroundings session reason)
      rw [hfarewell]
      refine hdismissed.of_core ?_ ⟨rfl, rfl⟩ ⟨rfl, rfl⟩ hdismissed.holder
      have hcore := congrArg (fun core : Core => { core with
        revoked := core.revoked ++ [(session.renamed gone, reason)] }) hdismissed.core
      exact hcore.trans (Core.renamed_logged gone _ session reason)

theorem stampOne (h : Matches gone full reduced) (now : Instant)
    (transition : LogicalTransition) :
    Broker.stampOne reduced.started now (reduced.sequence + 1) transition =
      Broker.stampOne full.started now (full.sequence + 1) transition := by
  rw [h.started, h.sequence]

theorem published (h : Matches gone full reduced) (now : Instant)
    (state : SwitchStateMachine) (transition : LogicalTransition) :
    Matches gone (full.published now state transition)
      (reduced.published now state transition) := by
  have htracked : Matches gone ({ full with state }.track now transition)
      ({ reduced with state }.track now transition) := by
    refine h.of_core ?_ ⟨rfl, rfl⟩ ⟨rfl, rfl⟩ h.holder
    unfold Runtime.track
    cases transition.action with
    | pressed =>
        exact congrArg (fun core : Core => { core with
          state
          escapeTracker := core.escapeTracker.insert transition.switchId now }) h.core
    | released =>
        exact congrArg (fun core : Core => { core with
          state
          escapeTracker := core.escapeTracker.erase transition.switchId }) h.core
  unfold Runtime.published
  rw [h.stampOne]
  exact htracked.record now _

theorem route (h : Matches gone full reduced) (surroundings : Surroundings)
    (message : ServerMessage) :
    Matches gone (full.route surroundings message) (reduced.route surroundings message) := by
  have hsession := h.session
  unfold Runtime.route
  cases hactive : full.session with
  | none =>
      rw [hactive] at hsession
      rw [hsession]
      exact h.broadcast message
  | some session =>
      rw [hactive] at hsession
      rw [hsession]
      have hother := h.holder session hactive
      obtain ⟨hsent, hnext⟩ := h.trySend hother message
      change Matches gone
        (if (full.trySend session.clientId message).1 then
          (full.trySend session.clientId message).2
        else ((full.trySend session.clientId message).2.removeClient
          session.clientId).revoke surroundings .queueOverflow)
        (if (reduced.trySend (renamed gone session.clientId) message).1 then
          (reduced.trySend (renamed gone session.clientId) message).2
        else ((reduced.trySend (renamed gone session.clientId) message).2.removeClient
          (renamed gone session.clientId)).revoke surroundings .queueOverflow)
      rw [hsent]
      split_ifs
      · exact hnext
      · exact (hnext.removeClient hother).revoke surroundings .queueOverflow

theorem input (h : Matches gone full reduced) (surroundings : Surroundings)
    (event : PhysicalEvent) :
    Matches gone (full.input surroundings event) (reduced.input surroundings event) := by
  have hstate (state : SwitchStateMachine) :
      Matches gone { full with state } { reduced with state } := by
    refine h.of_core ?_ ⟨rfl, rfl⟩ ⟨rfl, rfl⟩ h.holder
    exact congrArg (fun core : Core => { core with state }) h.core
  have hdeaf : (reduced.paused || !reduced.capture.enabled) =
      (full.paused || !full.capture.enabled) := by
    rw [h.paused, h.capture]
  have happly : reduced.state.apply event.mappingId event.action
      (event.confidence.bind validateConfidence) =
        full.state.apply event.mappingId event.action
          (event.confidence.bind validateConfidence) := by
    rw [h.state]
  unfold Runtime.input
  dsimp only
  rw [hdeaf, happly]
  split_ifs
  · exact h
  · cases full.state.apply event.mappingId event.action
      (event.confidence.bind validateConfidence) with
    | mk result state =>
        cases result with
        | error _ => exact hstate state
        | ok outcome =>
            cases outcome with
            | none => exact hstate state
            | some transition =>
                have hnews : reduced.news surroundings.now transition =
                    full.news surroundings.now transition :=
                  congrArg ServerMessage.switchEvent (h.stampOne surroundings.now transition)
                change Matches gone
                  ((full.published surroundings.now state transition).route surroundings
                    (full.news surroundings.now transition))
                  ((reduced.published surroundings.now state transition).route surroundings
                    (reduced.news surroundings.now transition))
                rw [hnews]
                exact (h.published surroundings.now state transition).route surroundings _

theorem register (h : Matches gone full reduced) (channel : Channel)
    (hother : full.nextClient ≠ gone) :
    Matches gone (full.register channel) (reduced.register channel) := by
  have hgreeting : reduced.greeting = full.greeting := by
    rw [Runtime.greeting, Runtime.greeting, h.state]
  refine ⟨?_, ?_, ?_, ?_⟩
  · rw [Runtime.register_core, Runtime.register_core, h.nextClient, h.core]
    exact congrArg (fun next => { full.core.renamed gone with nextClient := next })
      (renamed_succ hother).symm
  · intro clientId hne
    have hnew : renamed gone clientId = renamed gone full.nextClient ↔
        clientId = full.nextClient :=
      ⟨renamed_injective hne hother, congrArg (renamed gone)⟩
    rw [Runtime.getElem?_register, Runtime.getElem?_register, hgreeting, h.nextClient,
      h.clients clientId hne]
    simp only [hnew]
  · intro clientId hne
    by_cases hnew : clientId = full.nextClient
    · subst hnew
      have hself := reduced.register_attempts_self channel
      rw [h.nextClient, hgreeting] at hself
      rw [hself, full.register_attempts_self, h.attempts _ hne]
    · have hold : renamed gone clientId ≠ reduced.nextClient := by
        rw [h.nextClient]
        exact fun heq => hnew (renamed_injective hne hother heq)
      rw [reduced.register_attempts_of_ne channel hold,
        full.register_attempts_of_ne channel hnew, h.attempts clientId hne]
  · intro session hactive
    exact h.holder session ((congrArg Core.session (full.register_core channel)).symm.trans hactive)

theorem register_gone (h : Matches gone full reduced) (channel : Channel)
    (hself : full.nextClient = gone) : Matches gone (full.register channel) reduced := by
  subst hself
  refine ⟨?_, ?_, ?_, ?_⟩
  · rw [Runtime.register_core, h.core]
    exact congrArg (fun next => { full.core.renamed full.nextClient with nextClient := next })
      ((renamed_self full.nextClient).trans (renamed_succ_self full.nextClient).symm)
  · intro clientId hne
    rw [Runtime.getElem?_register, if_neg fun heq => hne heq.1]
    exact h.clients clientId hne
  · intro clientId hne
    rw [full.register_attempts_of_ne channel hne]
    exact h.attempts clientId hne
  · intro session hactive
    exact h.holder session ((congrArg Core.session (full.register_core channel)).symm.trans hactive)

/-- The two sides agree on who the holder is. -/
theorem holder_iff (h : Matches gone full reduced) {session : Session}
    (hactive : full.session = some session) {clientId : ClientId} (hother : clientId ≠ gone) :
    (session.renamed gone).clientId = renamed gone clientId ↔ session.clientId = clientId :=
  ⟨renamed_injective (h.holder session hactive) hother, congrArg (renamed gone)⟩

theorem unregister (h : Matches gone full reduced) (surroundings : Surroundings)
    {clientId : ClientId} (hother : clientId ≠ gone) :
    Matches gone (full.unregister surroundings clientId)
      (reduced.unregister surroundings (renamed gone clientId)) := by
  have hremoved := h.removeClient hother
  have hsession := hremoved.session
  unfold Runtime.unregister
  dsimp only
  cases hactive : (full.removeClient clientId).session with
  | none =>
      rw [hactive] at hsession
      rw [hsession]
      exact hremoved
  | some session =>
      rw [hactive] at hsession
      rw [hsession]
      simp only [Option.map_some, h.holder_iff hactive hother]
      split_ifs
      · exact hremoved.revoke surroundings .explicitRevocation
      · exact hremoved

theorem unregister_gone (h : Matches gone full reduced) (surroundings : Surroundings) :
    Matches gone (full.unregister surroundings gone) reduced := by
  have hremoved := h.removeClient_gone
  unfold Runtime.unregister
  dsimp only
  cases hactive : (full.removeClient gone).session with
  | none => exact hremoved
  | some session =>
      dsimp only
      rw [if_neg (h.holder session hactive)]
      exact hremoved

theorem rejection (h : Matches gone full reduced) (handshake : Handshake) :
    reduced.rejection handshake = full.rejection handshake := by
  have hbusy : reduced.session.isSome = full.session.isSome := by
    rw [h.session, Option.isSome_map]
  unfold Runtime.rejection
  rw [hbusy]

theorem releaseLegacy (h : Matches gone full reduced) (surroundings : Surroundings) :
    Matches gone (full.releaseLegacy surroundings) (reduced.releaseLegacy surroundings) := by
  have hpaused := h.paused
  cases hmode : full.paused with
  | true =>
      rw [hmode] at hpaused
      rw [full.releaseLegacy_of_paused surroundings hmode,
        reduced.releaseLegacy_of_paused surroundings hpaused]
      exact h
  | false =>
      rw [hmode] at hpaused
      rw [full.releaseLegacy_of_running surroundings hmode,
        reduced.releaseLegacy_of_running surroundings hpaused, h.releases]
      exact (h.letGo surroundings.now).foldl_broadcast _

theorem opened (h : Matches gone full reduced) (surroundings : Surroundings)
    {clientId : ClientId} (hother : clientId ≠ gone) (pid : Option UInt32) :
    Matches gone (full.opened surroundings clientId pid)
      (reduced.opened surroundings (renamed gone clientId) pid) := by
  refine h.of_core ?_ ⟨rfl, rfl⟩ ⟨rfl, rfl⟩ ?_
  · exact congrArg (fun core : Core => { core with
      paused := false
      escapeTracker := ∅
      session := some ⟨renamed gone clientId, surroundings.uuid, pid, surroundings.now⟩ }) h.core
  · intro session hactive
    cases hactive
    exact hother

theorem openSession (h : Matches gone full reduced) (surroundings : Surroundings)
    {clientId : ClientId} (hother : clientId ≠ gone) (pid : Option UInt32) :
    Matches gone (full.openSession surroundings clientId pid)
      (reduced.openSession surroundings (renamed gone clientId) pid) := by
  obtain ⟨haccepted, hnext⟩ := (h.opened surroundings hother pid).sendResponse hother
    (acceptance surroundings.uuid)
  change Matches gone
    (if ((full.opened surroundings clientId pid).sendResponse clientId
        (acceptance surroundings.uuid)).1 then
      ((full.opened surroundings clientId pid).sendResponse clientId
        (acceptance surroundings.uuid)).2
    else ((full.opened surroundings clientId pid).sendResponse clientId
        (acceptance surroundings.uuid)).2.revoke surroundings .queueOverflow)
    (if ((reduced.opened surroundings (renamed gone clientId) pid).sendResponse
        (renamed gone clientId) (acceptance surroundings.uuid)).1 then
      ((reduced.opened surroundings (renamed gone clientId) pid).sendResponse
        (renamed gone clientId) (acceptance surroundings.uuid)).2
    else ((reduced.opened surroundings (renamed gone clientId) pid).sendResponse
        (renamed gone clientId) (acceptance surroundings.uuid)).2.revoke surroundings
          .queueOverflow)
  rw [haccepted]
  split_ifs
  · exact hnext
  · exact hnext.revoke surroundings .queueOverflow

theorem grant (h : Matches gone full reduced) (surroundings : Surroundings)
    {clientId : ClientId} (hother : clientId ≠ gone) (pid : Option UInt32) :
    Matches gone (full.grant surroundings clientId pid)
      (reduced.grant surroundings (renamed gone clientId) pid) := by
  have hlegacy := h.releaseLegacy surroundings
  unfold Runtime.grant
  simp only [hlegacy.mem_iff hother]
  split_ifs
  · exact hlegacy.openSession surroundings hother pid
  · have hpaused := hlegacy.pauseCapture surroundings
    refine hpaused.of_core ?_ ⟨rfl, rfl⟩ ⟨rfl, rfl⟩ hpaused.holder
    exact congrArg (fun core : Core => { core with paused := true }) hpaused.core

theorem resumeCapture (h : Matches gone full reduced) (surroundings : Surroundings) :
    (reduced.resumeCapture surroundings).1 = (full.resumeCapture surroundings).1 ∧
      Matches gone (full.resumeCapture surroundings).2
        (reduced.resumeCapture surroundings).2 := by
  cases hreply : surroundings.resumeReply with
  | error error =>
      constructor
      · simp only [Runtime.resumeCapture, CaptureControl.resume, hreply]
      · rw [full.resumeCapture_of_error surroundings hreply,
          reduced.resumeCapture_of_error surroundings hreply]
        refine h.of_core ?_ ⟨rfl, rfl⟩ ⟨rfl, rfl⟩ h.holder
        exact congrArg (fun core : Core => { core with
          captureCalls := core.captureCalls ++ [CaptureCall.resume] }) h.core
  | ok _ =>
      constructor
      · simp only [Runtime.resumeCapture, CaptureControl.resume, hreply]
      · rw [full.resumeCapture_of_ok surroundings hreply,
          reduced.resumeCapture_of_ok surroundings hreply]
        refine h.of_core ?_ ⟨rfl, rfl⟩ ⟨rfl, rfl⟩ h.holder
        exact congrArg (fun core : Core => { core with
          capture := { enabled := true }
          captureCalls := core.captureCalls ++ [CaptureCall.resume] }) h.core

theorem handshake (h : Matches gone full reduced) (surroundings : Surroundings)
    {clientId : ClientId} (hother : clientId ≠ gone) (request : Handshake) :
    Matches gone (full.handshake surroundings clientId request)
      (reduced.handshake surroundings (renamed gone clientId) request) := by
  have hreject {full reduced : Runtime} (h : Matches gone full reduced)
      (reason : HandshakeRejectionReason) :
      Matches gone (full.reject clientId reason)
        (reduced.reject (renamed gone clientId) reason) :=
    (h.sendResponse hother _).2
  obtain ⟨houtcome, hresumed⟩ := h.resumeCapture surroundings
  have hpaused := h.paused
  unfold Runtime.handshake
  rw [h.rejection request]
  cases full.rejection request with
  | some reason => exact hreject h reason
  | none =>
      dsimp only
      rw [hpaused]
      split_ifs
      · cases hfull : full.resumeCapture surroundings with
        | mk outcome next =>
            cases hreduced : reduced.resumeCapture surroundings with
            | mk same other =>
                rw [hfull, hreduced] at houtcome hresumed
                cases houtcome
                cases outcome with
                | error error => exact hreject hresumed .captureUnavailable
                | ok _ => exact hresumed.grant surroundings hother request.pid
      · exact h.grant surroundings hother request.pid

theorem handshake_gone (h : Matches gone full reduced) (surroundings : Surroundings)
    {request : Handshake} {reason : HandshakeRejectionReason}
    (hrejection : full.rejection request = some reason) :
    Matches gone (full.handshake surroundings gone request) reduced := by
  unfold Runtime.handshake
  rw [hrejection]
  exact h.sendResponse_gone _

theorem heartbeat (h : Matches gone full reduced) (surroundings : Surroundings)
    {clientId : ClientId} (hother : clientId ≠ gone) (sessionId : String) :
    Matches gone (full.heartbeat surroundings clientId sessionId)
      (reduced.heartbeat surroundings (renamed gone clientId) sessionId) := by
  have hsession := h.session
  unfold Runtime.heartbeat
  cases hactive : full.session with
  | none =>
      rw [hactive] at hsession
      rw [hsession]
      exact h
  | some session =>
      rw [hactive] at hsession
      rw [hsession]
      have hholder := h.holder_iff hactive hother
      have hsame : (session.renamed gone).sessionId = session.sessionId := rfl
      simp only [Option.map_some, hholder, hsame]
      split_ifs
      · refine h.of_core ?_ ⟨rfl, rfl⟩ ⟨rfl, rfl⟩ ?_
        · exact congrArg (fun core : Core => { core with
            session := some { session.renamed gone with
              lastHeartbeat := surroundings.now } }) h.core
        · intro renewed hrenewed
          cases hrenewed
          exact h.holder session hactive
      · exact h

theorem heartbeat_gone (h : Matches gone full reduced) (surroundings : Surroundings)
    (sessionId : String) : Matches gone (full.heartbeat surroundings gone sessionId) reduced := by
  unfold Runtime.heartbeat
  cases hactive : full.session with
  | none => exact h
  | some session =>
      dsimp only
      rw [if_neg fun heq => h.holder session hactive heq.1]
      exact h

theorem focusChanged (h : Matches gone full reduced) (surroundings : Surroundings)
    (frontmostPid : Option UInt32) :
    Matches gone (full.focusChanged surroundings frontmostPid)
      (reduced.focusChanged surroundings frontmostPid) := by
  have hneeds : (reduced.session.any fun session =>
      session.pid.any fun pid => some pid ≠ frontmostPid) =
        full.session.any fun session => session.pid.any fun pid => some pid ≠ frontmostPid := by
    rw [h.session, Option.any_map]
    rfl
  unfold Runtime.focusChanged
  dsimp only
  rw [hneeds]
  split_ifs
  · exact h.revoke surroundings .focusLost
  · exact h

theorem tick (h : Matches gone full reduced) (surroundings : Surroundings) :
    Matches gone (full.tick surroundings) (reduced.tick surroundings) := by
  have htimedOut : (reduced.session.any fun session =>
      millis leaseMs ≤ elapsed surroundings.now session.lastHeartbeat) =
        full.session.any fun session =>
          millis leaseMs ≤ elapsed surroundings.now session.lastHeartbeat := by
    rw [h.session, Option.any_map]
    rfl
  have hactive : reduced.session.isSome = full.session.isSome := by
    rw [h.session, Option.isSome_map]
  unfold Runtime.tick
  dsimp only
  rw [htimedOut, hactive, h.escapeTracker]
  split_ifs
  · exact h.revoke surroundings .heartbeatTimeout
  · exact h.revoke surroundings .escapeHatch
  · exact h
  · exact h

/-- A step of somebody else is taken on both sides. -/
theorem step_shown (h : Matches gone full reduced) {step shown : Step}
    (hshown : withoutClient gone full step = some shown) :
    Matches gone (full.step step) (reduced.step shown) := by
  obtain ⟨surroundings, wakeup⟩ := step
  cases wakeup with
  | tick =>
      cases hshown
      exact h.tick surroundings
  | command command =>
      cases command with
      | input event =>
          cases hshown
          exact h.input surroundings event
      | revokeSession reason =>
          cases hshown
          exact h.revoke surroundings reason
      | focusChanged frontmostPid =>
          cases hshown
          exact h.focusChanged surroundings frontmostPid
      | register channel =>
          by_cases hself : full.nextClient = gone
          · simp [withoutClient, BrokerCommand.isOf, hself] at hshown
          · simp only [withoutClient, BrokerCommand.isOf, hself, decide_false,
              Bool.false_eq_true, if_false, Option.some.injEq] at hshown
            subst hshown
            exact h.register channel hself
      | unregister clientId =>
          by_cases hself : clientId = gone
          · simp [withoutClient, BrokerCommand.isOf, hself] at hshown
          · simp only [withoutClient, BrokerCommand.isOf, hself, decide_false,
              Bool.false_eq_true, if_false, Option.some.injEq] at hshown
            subst hshown
            exact h.unregister surroundings hself
      | handshake clientId request =>
          by_cases hself : clientId = gone
          · simp [withoutClient, BrokerCommand.isOf, hself] at hshown
          · simp only [withoutClient, BrokerCommand.isOf, hself, decide_false,
              Bool.false_eq_true, if_false, Option.some.injEq] at hshown
            subst hshown
            exact h.handshake surroundings hself request
      | heartbeat clientId sessionId =>
          by_cases hself : clientId = gone
          · simp [withoutClient, BrokerCommand.isOf, hself] at hshown
          · simp only [withoutClient, BrokerCommand.isOf, hself, decide_false,
              Bool.false_eq_true, if_false, Option.some.injEq] at hshown
            subst hshown
            exact h.heartbeat surroundings hself sessionId

end Matches

/-- A handshake that fails the version, the app id or the mode check. -/
def Malformed (handshake : Handshake) : Prop :=
  handshake.protocolVersion ≠ protocolVersion ∨ validAppId handshake.appId = false ∨
    handshake.requestedMode ≠ .exclusiveForeground

/-- The client has no chance of a session: its handshakes are malformed or come
during the session of somebody else. -/
def Excluded (clientId : ClientId) (runtime : Runtime) (step : Step) : Prop :=
  ∀ handshake, step.wakeup = .command (.handshake clientId handshake) →
    Malformed handshake ∨
      ∃ session, runtime.session = some session ∧ session.clientId ≠ clientId

theorem Excluded.rejection {clientId : ClientId} {runtime : Runtime} {step : Step}
    (h : Excluded clientId runtime step) {handshake : Handshake}
    (hwakeup : step.wakeup = .command (.handshake clientId handshake)) :
    ∃ reason, runtime.rejection handshake = some reason := by
  rw [← Option.isSome_iff_exists, Option.isSome_iff_ne_none]
  intro hnone
  unfold Runtime.rejection at hnone
  split_ifs at hnone with hversion happ hmode hbusy
  rcases h handshake hwakeup with (hbad | hbad | hbad) | ⟨session, hactive, _⟩
  · exact hbad (not_not.mp hversion)
  · exact happ (by rw [hbad]; rfl)
  · exact hbad (not_not.mp hmode)
  · exact hbusy (by rw [hactive]; rfl)

/-- A step of the client itself changes nothing for the others. -/
theorem Matches.step_hidden {gone : ClientId} {full reduced : Runtime}
    (h : Matches gone full reduced) {step : Step} (hexcluded : Excluded gone full step)
    (hhidden : withoutClient gone full step = none) :
    Matches gone (full.step step) reduced := by
  obtain ⟨surroundings, wakeup⟩ := step
  cases wakeup with
  | tick => cases hhidden
  | command command =>
      have hown : command.isOf gone full.nextClient = true := by
        by_contra hother
        simp [withoutClient, hother] at hhidden
      cases command with
      | input event => cases hown
      | revokeSession reason => cases hown
      | focusChanged frontmostPid => cases hown
      | register channel => exact h.register_gone channel (of_decide_eq_true hown)
      | unregister clientId =>
          cases of_decide_eq_true hown
          exact h.unregister_gone surroundings
      | handshake clientId request =>
          cases of_decide_eq_true hown
          obtain ⟨reason, hreason⟩ := hexcluded.rejection rfl
          exact h.handshake_gone surroundings hreason
      | heartbeat clientId sessionId =>
          cases of_decide_eq_true hown
          exact h.heartbeat_gone surroundings sessionId

variable (mappings : List Mapping) (started : Instant)

/-- The run without one of the clients. -/
def runWithout (gone : ClientId) (steps : List Step) : List Step :=
  (broker mappings started).visible (withoutClient gone) (Runtime.new mappings started) steps

theorem matches_run {gone : ClientId} (hclient : 0 < gone) {steps : List Step}
    (hexcluded : (broker mappings started).Along (Excluded gone)
      (Runtime.new mappings started) steps) :
    Matches gone ((broker mappings started).run steps)
      ((broker mappings started).run (runWithout mappings started gone steps)) := by
  refine (broker mappings started).simulation (broker mappings started) (withoutClient gone)
    (Excluded gone) (Matches gone) ?_ ?_ ?_ hexcluded
  · intro full reduced step h hstep hhidden
    exact h.step_hidden hstep hhidden
  · intro full reduced step shown h _ hshown
    exact h.step_shown hshown
  · refine ⟨?_, fun _ _ => rfl, fun _ _ => rfl, by rintro _ ⟨⟩⟩
    exact congrArg (fun next => { (Runtime.new mappings started).core with nextClient := next })
      (renamed_one hclient).symm

/-- At every point of a run, a client that has no chance of a session makes no
difference for anyone else. -/
theorem others_unaffected {gone : ClientId} (hclient : 0 < gone) {steps : List Step}
    (hexcluded : (broker mappings started).Along (Excluded gone)
      (Runtime.new mappings started) steps)
    {first second : List Step} (hsplit : steps = first ++ second) :
    runWithout mappings started gone first <+: runWithout mappings started gone steps ∧
    let full := (broker mappings started).run first
    let reduced := (broker mappings started).run (runWithout mappings started gone first)
    reduced.session = full.session.map (Session.renamed gone) ∧
    reduced.paused = full.paused ∧ reduced.capture = full.capture ∧
    reduced.state = full.state ∧ reduced.sequence = full.sequence ∧
    reduced.escapeTracker = full.escapeTracker ∧
    ∀ other, other ≠ gone →
      enqueued reduced (renamed gone other) = enqueued full other := by
  subst hsplit
  constructor
  · rw [runWithout, runWithout, Machine.visible_append]
    exact List.prefix_append _ _
  · intro full reduced
    have h : Matches gone full reduced := matches_run mappings started hclient
      ((broker mappings started).along_append.mp hexcluded).1
    refine ⟨h.session, h.paused, h.capture, h.state, h.sequence, h.escapeTracker, ?_⟩
    intro other hother
    rw [enqueued, enqueued, h.attempts other hother]

/-- The second client is rejected as busy and sends a heartbeat for a session
that is not its own. -/
def crowdedSession : List Step :=
  [passAt 0 (.command (.register (stuckChannel 1))),
    passAt 1 (.command (.register (stuckChannel 0))),
    passAt 2 (.command (.handshake 1 exclusiveHandshake)),
    passAt 3 (.command (.handshake 2 exclusiveHandshake)),
    passAt 4 (.command (.heartbeat 2 "session"))]

theorem crowdedSession_unaffected :
    let full := (broker [] 0).run crowdedSession
    let reduced := (broker [] 0).run (runWithout [] 0 2 crowdedSession)
    reduced.session = full.session.map (Session.renamed 2) ∧
      enqueued reduced 1 = enqueued full 1 := by
  have hexcluded : (broker [] 0).Along (Excluded 2) (Runtime.new [] 0) crowdedSession := by
    refine ⟨?_, ?_, ?_, ?_, ?_, trivial⟩
    · rintro _ ⟨⟩
    · rintro _ ⟨⟩
    · rintro _ ⟨⟩
    · rintro _ _
      exact Or.inr ⟨⟨1, "session", none, 2⟩, by decide, by decide⟩
    · rintro _ ⟨⟩
  obtain ⟨_, hsession, _, _, _, _, _, hqueues⟩ :=
    others_unaffected [] 0 (by decide) hexcluded (List.append_nil crowdedSession).symm
  exact ⟨hsession, hqueues 1 (by decide)⟩

end Usahp.Broker
