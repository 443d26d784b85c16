import Usahp.Broker.Events
import Usahp.Broker.Mode

/-!
The account of one pass of the loop. `addressed` says which messages of a pass
are meant for a client, from what the pass created and without looking at any
queue. A client who is registered after the pass has had exactly these
messages enqueued in it; what was tried for any other client is bounded by
them.
-/

namespace Usahp.Broker

open Std Usahp.Library

/-- The answer that a handshake gets in a state. -/
def Runtime.reply (runtime : Runtime) (surroundings : Surroundings)
    (handshake : Handshake) : HandshakeResponse :=
  match runtime.rejection handshake with
  | some reason => .rejected protocolVersion reason
  | none =>
      match runtime.paused, surroundings.resumeReply with
      | true, .error _ => .rejected protocolVersion .captureUnavailable
      | _, _ => acceptance surroundings.uuid

def Runtime.greeting (runtime : Runtime) : ServerMessage :=
  .hello { protocolVersion, switches := runtime.state.snapshots }

/-- The announcement of the end of a session. -/
def revocation (ended : Session × SessionRevocationReason) : ServerMessage :=
  .sessionRevoked { protocolVersion, sessionId := ended.1.sessionId, reason := ended.2 }

/-- Events are for the session holder, or for everyone while there is none. -/
def eventsFor (clientId : ClientId) (session : Option Session)
    (events : List SwitchEvent) : List ServerMessage :=
  if session.all (·.clientId = clientId) then events.map .switchEvent else []

def responsesFor (clientId : ClientId) (runtime : Runtime)
    (surroundings : Surroundings) : Wakeup → List ServerMessage
  | .command (.handshake sender handshake) =>
      if sender = clientId then [.handshakeResponse (runtime.reply surroundings handshake)]
      else []
  | _ => []

def revocationsFor (clientId : ClientId)
    (ended : List (Session × SessionRevocationReason)) : List ServerMessage :=
  (ended.filter (·.1.clientId = clientId)).map revocation

def greetingsFor (clientId : ClientId) (runtime : Runtime) : Wakeup → List ServerMessage
  | .command (.register _) =>
      if clientId = runtime.nextClient then [runtime.greeting] else []
  | _ => []

theorem kind_of_mem_eventsFor {clientId : ClientId} {session : Option Session}
    {events : List SwitchEvent} {message : ServerMessage}
    (h : message ∈ eventsFor clientId session events) :
    ∃ event, message = .switchEvent event := by
  unfold eventsFor at h
  split_ifs at h
  · obtain ⟨event, -, rfl⟩ := List.mem_map.mp h
    exact ⟨event, rfl⟩
  · cases h

theorem kind_of_mem_responsesFor {clientId : ClientId} {runtime : Runtime}
    {surroundings : Surroundings} {wakeup : Wakeup} {message : ServerMessage}
    (h : message ∈ responsesFor clientId runtime surroundings wakeup) :
    ∃ response, message = .handshakeResponse response := by
  unfold responsesFor at h
  split at h
  · split_ifs at h
    · exact ⟨_, List.mem_singleton.mp h⟩
    · cases h
  · cases h

theorem kind_of_mem_greetingsFor {clientId : ClientId} {runtime : Runtime} {wakeup : Wakeup}
    {message : ServerMessage} (h : message ∈ greetingsFor clientId runtime wakeup) :
    message = runtime.greeting := by
  unfold greetingsFor at h
  split at h
  · split_ifs at h
    · exact List.mem_singleton.mp h
    · cases h
  · cases h

/-- What a pass has for a client, given the events it creates and the sessions
it ends: the hello for a client who registers in it, and events, answers and
announcements for one who was registered before. -/
def addressed (clientId : ClientId) (runtime : Runtime) (surroundings : Surroundings)
    (wakeup : Wakeup) (events : List SwitchEvent)
    (ended : List (Session × SessionRevocationReason)) : List ServerMessage :=
  if clientId ∈ runtime.clients then
    eventsFor clientId runtime.session events ++
      (responsesFor clientId runtime surroundings wakeup ++ revocationsFor clientId ended)
  else greetingsFor clientId runtime wakeup

/-- The account of one pass. -/
structure Passed (runtime : Runtime) (surroundings : Surroundings) (wakeup : Wakeup)
    (events : List SwitchEvent) (ended : List (Session × SessionRevocationReason))
    (after : Runtime) : Prop where
  creates : Creates runtime.core surroundings.now events after.core
  revoked : after.core.revoked = runtime.core.revoked ++ ended
  members : ∀ clientId ∈ after.clients, clientId ∈ runtime.clients ∨
    clientId = runtime.nextClient ∧ ∃ channel, wakeup = .command (.register channel)
  delivered : ∀ clientId ∈ after.clients,
    after.history.attempts clientId = runtime.history.attempts clientId ++
      allSent (addressed clientId runtime surroundings wakeup events ended)
  tried : ∀ clientId, Tried clientId
    (· ∈ addressed clientId runtime surroundings wakeup events ended) runtime after

/-- The client ids a pass gives out. -/
def Wakeup.registrations : Wakeup → Nat
  | .command (.register _) => 1
  | _ => 0

@[simp] theorem eventsFor_nil (clientId : ClientId) (session : Option Session) :
    eventsFor clientId session [] = [] :=
  ite_self _

@[simp] theorem eventsFor_none (clientId : ClientId) (events : List SwitchEvent) :
    eventsFor clientId none events = events.map .switchEvent := rfl

theorem eventsFor_some (clientId : ClientId) (session : Session)
    (events : List SwitchEvent) :
    eventsFor clientId (some session) events =
      if clientId = session.clientId then events.map .switchEvent else [] := by
  simp [eventsFor, eq_comm]

@[simp] theorem revocationsFor_nil (clientId : ClientId) :
    revocationsFor clientId [] = [] := rfl

theorem revocationsFor_singleton (clientId : ClientId) (session : Session)
    (reason : SessionRevocationReason) :
    revocationsFor clientId [(session, reason)] =
      if clientId = session.clientId then [revocation (session, reason)] else [] := by
  by_cases h : session.clientId = clientId
  · simp [revocationsFor, h]
  · simp [revocationsFor, h, Ne.symm h]

theorem Tried.mono {clientId : ClientId} {allowed wider : ServerMessage → Prop}
    {before after : Runtime} (h : Tried clientId allowed before after)
    (hwider : ∀ message, allowed message → wider message) :
    Tried clientId wider before after := by
  obtain ⟨more, hattempts, hallowed⟩ := h
  exact ⟨more, hattempts, fun attempt hmem => hwider _ (hallowed attempt hmem)⟩

/-- The account of a pass in which nobody registers. -/
theorem Passed.of_messages {runtime : Runtime} {surroundings : Surroundings}
    {wakeup : Wakeup} {events : List SwitchEvent}
    {ended : List (Session × SessionRevocationReason)} {after : Runtime}
    (messages : ClientId → List ServerMessage)
    (hcreates : Creates runtime.core surroundings.now events after.core)
    (hrevoked : after.core.revoked = runtime.core.revoked ++ ended)
    (hdelivered : ∀ clientId, Delivered clientId (messages clientId) runtime after)
    (htried : ∀ clientId, Tried clientId
      (fun message => clientId ∈ runtime.clients ∧ message ∈
        eventsFor clientId runtime.session events ++
          (responsesFor clientId runtime surroundings wakeup ++
            revocationsFor clientId ended)) runtime after)
    (hmessages : ∀ clientId ∈ after.clients, messages clientId =
      eventsFor clientId runtime.session events ++
        (responsesFor clientId runtime surroundings wakeup ++
          revocationsFor clientId ended)) :
    Passed runtime surroundings wakeup events ended after where
  creates := hcreates
  revoked := hrevoked
  members clientId hmem := Or.inl (hdelivered clientId hmem).1
  delivered clientId hmem := by
    obtain ⟨hbefore, hattempts⟩ := hdelivered clientId hmem
    rw [hattempts, hmessages clientId hmem, addressed, if_pos hbefore]
  tried clientId := by
    apply (htried clientId).mono
    rintro message ⟨hbefore, hmessage⟩
    rw [addressed, if_pos hbefore]
    exact hmessage

namespace Runtime

variable (runtime : Runtime) (surroundings : Surroundings)

/-- A pass that creates nothing and sends nothing. -/
theorem passed_quiet {wakeup : Wakeup} {after : Runtime}
    (hcreated : after.core.created = runtime.core.created)
    (hsequence : after.core.sequence = runtime.core.sequence)
    (hlevel : after.core.state.level = runtime.core.state.level)
    (hrevoked : after.core.revoked = runtime.core.revoked)
    (hclients : ∀ clientId ∈ after.clients, clientId ∈ runtime.clients)
    (hattempts : after.history.attempts = runtime.history.attempts)
    (hresponses : ∀ clientId, responsesFor clientId runtime surroundings wakeup = []) :
    Passed runtime surroundings wakeup [] [] after := by
  refine .of_messages (fun _ => []) (.of_eq _ hcreated hsequence hlevel) ?_ ?_ ?_ ?_
  · rw [hrevoked, List.append_nil]
  · intro clientId hmem
    refine ⟨hclients clientId hmem, ?_⟩
    rw [hattempts]
    exact (List.append_nil _).symm
  · intro clientId
    exact .of_eq (congrFun hattempts clientId)
  · intro clientId _
    rw [hresponses, eventsFor_nil, revocationsFor_nil]
    rfl

theorem responsesFor_handshake (other clientId : ClientId) (handshake : Handshake) :
    responsesFor other runtime surroundings (.command (.handshake clientId handshake)) =
      if other = clientId then
        [.handshakeResponse (runtime.reply surroundings handshake)] else [] := by
  simp only [responsesFor, eq_comm]

/-- A pass that answers a handshake and does nothing else. -/
theorem passed_reply (clientId : ClientId) (handshake : Handshake) {before : Runtime}
    (hcore : before.core.created = runtime.core.created ∧
      before.core.sequence = runtime.core.sequence ∧
      before.core.state.level = runtime.core.state.level ∧
      before.core.revoked = runtime.core.revoked)
    (hclients : before.clients = runtime.clients)
    (hattempts : before.history.attempts = runtime.history.attempts) :
    Passed runtime surroundings (.command (.handshake clientId handshake)) [] []
      (before.sendResponse clientId (runtime.reply surroundings handshake)).2 := by
  refine .of_messages
    (fun other => if other = clientId then
      [.handshakeResponse (runtime.reply surroundings handshake)] else [])
    ?_ ?_ ?_ ?_ ?_
  · rw [sendResponse_core]
    exact .of_eq _ hcore.1 hcore.2.1 hcore.2.2.1
  · rw [sendResponse_core, hcore.2.2.2, List.append_nil]
  · intro other
    exact (Delivered.of_eq hclients hattempts).trans
      (before.sendResponse_delivered clientId other _)
  · intro other
    refine (Tried.of_eq (congrFun hattempts other)).trans
      (before.sendResponse_tried clientId other _ ?_)
    intro hother hmem
    rw [hclients] at hmem
    refine ⟨hmem, ?_⟩
    simp [responsesFor_handshake, hother]
  · intro other _
    rw [responsesFor_handshake, eventsFor_nil, revocationsFor_nil, List.append_nil]
    rfl

theorem register_attempts_of_ne (channel : Channel) {clientId : ClientId}
    (hne : clientId ≠ runtime.nextClient) :
    (runtime.register channel).history.attempts clientId =
      runtime.history.attempts clientId := by
  unfold register
  dsimp only
  split_ifs
  · exact Function.update_of_ne hne _ _
  · exact Function.update_of_ne hne _ _

theorem register_attempts_self (channel : Channel) :
    (runtime.register channel).history.attempts runtime.nextClient =
      runtime.history.attempts runtime.nextClient ++
        [⟨runtime.greeting,
          ((Sender.ofChannel channel).trySend runtime.greeting).1.isOk⟩] := by
  unfold register
  dsimp only
  split_ifs
  · exact Function.update_self _ _ _
  · exact Function.update_self _ _ _

theorem mem_register_clients (channel : Channel) (clientId : ClientId) :
    clientId ∈ (runtime.register channel).clients ↔
      clientId ∈ runtime.clients ∨ clientId = runtime.nextClient ∧
        ((Sender.ofChannel channel).trySend runtime.greeting).1.isOk := by
  unfold register greeting
  dsimp only
  split_ifs with hok
  · rw [ExtTreeMap.mem_insert, Std.compare_eq_iff_eq]
    simp [hok, eq_comm, or_comm]
  · simp [hok]

theorem getElem?_register (channel : Channel) (clientId : ClientId) :
    (runtime.register channel).clients[clientId]? =
      if clientId = runtime.nextClient ∧
          ((Sender.ofChannel channel).trySend runtime.greeting).1.isOk = true then
        some ((Sender.ofChannel channel).trySend runtime.greeting).2
      else runtime.clients[clientId]? := by
  unfold register greeting
  dsimp only
  split_ifs with hok hnew hnew
  · obtain ⟨rfl, _⟩ := hnew
    exact ExtTreeMap.getElem?_insert_self
  · rw [ExtTreeMap.getElem?_insert, if_neg]
    intro heq
    exact hnew ⟨(LawfulEqCmp.eq_of_compare heq).symm, hok⟩
  · exact absurd hnew.2 hok
  · rfl

theorem passed_register (channel : Channel) (hfresh : runtime.nextClient ∉ runtime.clients) :
    Passed runtime surroundings (.command (.register channel)) [] []
      (runtime.register channel) := by
  have haddressed (clientId : ClientId) : addressed clientId runtime surroundings
      (.command (.register channel)) [] [] =
        if clientId = runtime.nextClient then [runtime.greeting] else [] := by
    unfold addressed
    by_cases hself : clientId = runtime.nextClient
    · subst hself
      rw [if_neg hfresh]
      rfl
    · rw [if_neg hself]
      simp [responsesFor, greetingsFor, hself]
  constructor
  · rw [register_core]
    exact .of_eq _ rfl rfl rfl
  · rw [register_core]
    exact (List.append_nil _).symm
  · intro clientId hmem
    rcases (runtime.mem_register_clients channel clientId).mp hmem with hold | ⟨hself, _⟩
    · exact Or.inl hold
    · exact Or.inr ⟨hself, channel, rfl⟩
  · intro clientId hmem
    rw [haddressed]
    by_cases hself : clientId = runtime.nextClient
    · subst hself
      rcases (runtime.mem_register_clients channel _).mp hmem with hold | ⟨_, hok⟩
      · exact absurd hold hfresh
      · rw [register_attempts_self, hok, if_pos rfl]
        rfl
    · rw [runtime.register_attempts_of_ne channel hself, if_neg hself]
      exact (List.append_nil _).symm
  · intro clientId
    by_cases hself : clientId = runtime.nextClient
    · subst hself
      refine ⟨_, runtime.register_attempts_self channel, ?_⟩
      rw [haddressed]
      simp
    · exact .of_eq (runtime.register_attempts_of_ne channel hself)

/-- The end of a session, whatever was done before in the same pass. The
holder may have been removed already. -/
theorem passed_revoke {wakeup : Wakeup} (reason : SessionRevocationReason)
    {session : Session} (hactive : runtime.session = some session) {before : Runtime}
    (hcore : before.core = runtime.core)
    (hclients : ∀ clientId ∈ before.clients, clientId ∈ runtime.clients)
    (hattempts : before.history.attempts = runtime.history.attempts)
    (hresponses : ∀ clientId, responsesFor clientId runtime surroundings wakeup = []) :
    Passed runtime surroundings wakeup (runtime.releases surroundings.now)
      [(session, reason)] (before.revoke surroundings reason) := by
  have hbefore : before.session = some session := (congrArg Core.session hcore).trans hactive
  have hreleases : before.releases surroundings.now = runtime.releases surroundings.now :=
    congrArg (fun core : Core =>
      stamp core.started surroundings.now core.sequence core.state.releaseAll.1) hcore
  have hmessages (clientId : ClientId) :
      (if clientId = session.clientId then before.farewell surroundings session reason
        else []) =
      eventsFor clientId runtime.session (runtime.releases surroundings.now) ++
        (responsesFor clientId runtime surroundings wakeup ++
          revocationsFor clientId [(session, reason)]) := by
    rw [hactive, eventsFor_some, revocationsFor_singleton, hresponses, farewell, hreleases]
    split_ifs <;> rfl
  refine .of_messages
    (fun clientId => if clientId = session.clientId then
      before.farewell surroundings session reason else []) ?_ ?_ ?_ ?_ ?_
  · have hrevoked := before.revoke_creates surroundings reason hbefore
    rw [hcore, hreleases] at hrevoked
    exact hrevoked
  · have hrevoked := congrArg Core.revoked (before.revoke_core surroundings reason hbefore)
    exact hrevoked.trans (congrArg (fun core : Core => core.revoked ++ [(session, reason)])
      hcore)
  · intro clientId
    have hfirst : Delivered clientId [] runtime before := fun hmem =>
      ⟨hclients clientId hmem, by rw [hattempts]; exact (List.append_nil _).symm⟩
    exact hfirst.trans (before.revoke_delivered surroundings reason hbefore clientId)
  · intro clientId
    refine (Tried.of_eq (congrFun hattempts clientId)).trans
      (before.revoke_tried surroundings reason hbefore clientId ?_)
    intro hholder hmem message hmessage
    refine ⟨hclients clientId hmem, ?_⟩
    rw [← hmessages clientId, if_pos hholder]
    exact hmessage
  · intro clientId _
    exact hmessages clientId

theorem published_delivered (now : Instant) (state : SwitchStateMachine)
    (transition : LogicalTransition) (clientId : ClientId) :
    Delivered clientId [] runtime (runtime.published now state transition) :=
  .of_eq rfl rfl

theorem published_tried (now : Instant) (state : SwitchStateMachine)
    (transition : LogicalTransition) (clientId : ClientId)
    {allowed : ServerMessage → Prop} :
    Tried clientId allowed runtime (runtime.published now state transition) :=
  .of_eq rfl

/-- An outer edge while there is no session. -/
theorem passed_announced {event : PhysicalEvent} (hidle : runtime.session = none)
    {transition : LogicalTransition} {state : SwitchStateMachine}
    (houter : Outer runtime event transition state) :
    Passed runtime surroundings (.command (.input event))
      [stampOne runtime.started surroundings.now (runtime.sequence + 1) transition] []
      ((runtime.published surroundings.now state transition).broadcast
        (runtime.news surroundings.now transition)) := by
  refine .of_messages (fun _ => [runtime.news surroundings.now transition])
    (runtime.published_creates surroundings.now houter) (List.append_nil _).symm ?_ ?_ ?_
  · intro clientId
    exact (runtime.published_delivered surroundings.now state transition clientId).trans
      (broadcast_delivered _ _ clientId)
  · intro clientId
    refine (runtime.published_tried surroundings.now state transition clientId).trans
      (broadcast_tried _ _ clientId fun hmem => ⟨hmem, ?_⟩)
    rw [hidle]
    simp [news]
  · intro clientId _
    rw [hidle]
    rfl

/-- An outer edge that the holder's queue takes. -/
theorem passed_routed {event : PhysicalEvent} {session : Session}
    (hactive : runtime.session = some session)
    {transition : LogicalTransition} {state : SwitchStateMachine}
    (houter : Outer runtime event transition state)
    (haccepts : runtime.Accepts session.clientId) :
    Passed runtime surroundings (.command (.input event))
      [stampOne runtime.started surroundings.now (runtime.sequence + 1) transition] []
      ((runtime.published surroundings.now state transition).trySend session.clientId
        (runtime.news surroundings.now transition)).2 := by
  have hsent := ((runtime.published surroundings.now state transition).trySend_fst_iff
    session.clientId (runtime.news surroundings.now transition)).mpr haccepts
  have hmessages (clientId : ClientId) :
      (if clientId = session.clientId then [runtime.news surroundings.now transition]
        else []) =
      eventsFor clientId runtime.session
        [stampOne runtime.started surroundings.now (runtime.sequence + 1) transition] ++
        (responsesFor clientId runtime surroundings (.command (.input event)) ++
          revocationsFor clientId []) := by
    rw [hactive, eventsFor_some]
    split_ifs <;> rfl
  refine .of_messages _ ?_ ?_ (fun clientId =>
    (runtime.published_delivered surroundings.now state transition clientId).trans
      (trySend_delivered _ hsent clientId)) ?_ fun clientId _ => hmessages clientId
  · rw [trySend_core]
    exact runtime.published_creates surroundings.now houter
  · rw [trySend_core]
    exact (List.append_nil _).symm
  · intro clientId
    refine (runtime.published_tried surroundings.now state transition clientId).trans
      (trySend_tried _ session.clientId clientId _ ?_)
    intro hholder hmem
    refine ⟨hmem, ?_⟩
    rw [← hmessages clientId, if_pos hholder]
    exact List.mem_singleton_self _

/-- An outer edge that the holder's queue does not take ends the session. -/
theorem passed_overflowed {event : PhysicalEvent} {session : Session}
    (hactive : runtime.session = some session)
    {transition : LogicalTransition} {state : SwitchStateMachine}
    (houter : Outer runtime event transition state) :
    Passed runtime surroundings (.command (.input event))
      (stampOne runtime.started surroundings.now (runtime.sequence + 1) transition ::
        (runtime.published surroundings.now state transition).releases surroundings.now)
      [(session, .queueOverflow)]
      ((((runtime.published surroundings.now state transition).trySend session.clientId
        (runtime.news surroundings.now transition)).2.removeClient
          session.clientId).revoke surroundings .queueOverflow) := by
  have hsent := (runtime.published surroundings.now state transition).trySend_core
    session.clientId (runtime.news surroundings.now transition)
  generalize hnext : ((runtime.published surroundings.now state transition).trySend
    session.clientId (runtime.news surroundings.now transition)).2 = next at hsent ⊢
  have hsession : (next.removeClient session.clientId).session = some session :=
    (congrArg Core.session hsent).trans hactive
  have hpublished := runtime.published_creates surroundings.now houter
  rw [← hsent] at hpublished
  have hrevoked := (next.removeClient session.clientId).revoke_creates surroundings
    .queueOverflow hsession
  have hreleases : (next.removeClient session.clientId).releases surroundings.now =
      (runtime.published surroundings.now state transition).releases surroundings.now :=
    congrArg (fun core : Core =>
      stamp core.started surroundings.now core.sequence core.state.releaseAll.1) hsent
  rw [hreleases] at hrevoked
  have hgone : session.clientId ∉ ((next.removeClient session.clientId).revoke surroundings
      .queueOverflow).clients := by
    intro hmem
    exact next.not_mem_removeClient session.clientId
      ((next.removeClient session.clientId).revoke_delivered surroundings _ hsession _ hmem).1
  have hdelivered (clientId : ClientId) : Delivered clientId [] runtime
      ((next.removeClient session.clientId).revoke surroundings .queueOverflow) := by
    intro hmem
    have hne : clientId ≠ session.clientId := by
      rintro rfl
      exact hgone hmem
    have hrevoke := (next.removeClient session.clientId).revoke_delivered surroundings
      .queueOverflow hsession clientId
    rw [if_neg hne] at hrevoke
    have hfirst : Delivered clientId [] runtime next := by
      intro hmem
      rw [← hnext] at hmem ⊢
      refine ⟨(mem_trySend_clients (runtime.published surroundings.now state transition)
        session.clientId clientId _).mp hmem, ?_⟩
      rw [attempts_trySend_of_ne _ hne]
      exact (List.append_nil _).symm
    exact (hfirst.trans ((next.removeClient_delivered session.clientId clientId).trans
      hrevoke)) hmem
  refine .of_messages (fun _ => []) (hpublished.trans hrevoked) ?_ hdelivered ?_ ?_
  · have hlog := congrArg Core.revoked
      ((next.removeClient session.clientId).revoke_core surroundings .queueOverflow hsession)
    exact hlog.trans (congrArg (fun core : Core =>
      core.revoked ++ [(session, .queueOverflow)]) hsent)
  · intro clientId
    have hfirst : Tried clientId (fun message => clientId ∈ runtime.clients ∧
        message ∈ eventsFor clientId runtime.session
          (stampOne runtime.started surroundings.now (runtime.sequence + 1) transition ::
            (runtime.published surroundings.now state transition).releases
              surroundings.now) ++
          (responsesFor clientId runtime surroundings (.command (.input event)) ++
            revocationsFor clientId [(session, .queueOverflow)])) runtime next := by
      rw [← hnext]
      refine (runtime.published_tried surroundings.now state transition clientId).trans
        (trySend_tried _ session.clientId clientId _ ?_)
      intro hholder hmem
      refine ⟨hmem, ?_⟩
      rw [hactive, eventsFor_some, if_pos hholder]
      simp [news]
    refine hfirst.trans ((next.removeClient_tried session.clientId clientId).trans
      ((next.removeClient session.clientId).revoke_tried surroundings .queueOverflow
        hsession clientId ?_))
    intro hholder hmem
    rw [hholder] at hmem
    exact absurd hmem (next.not_mem_removeClient session.clientId)
  · intro clientId hmem
    have hne : clientId ≠ session.clientId := by
      rintro rfl
      exact hgone hmem
    rw [hactive, eventsFor_some, revocationsFor_singleton, if_neg hne, if_neg hne]
    rfl

theorem ready_delivered {base : Runtime} (hready : Ready runtime surroundings base)
    (clientId : ClientId) :
    Delivered clientId ((runtime.legacy surroundings.now).map .switchEvent) runtime
      (base.releaseLegacy surroundings) := by
  cases hready with
  | running hrunning =>
      rw [runtime.releaseLegacy_of_running surroundings hrunning, legacy, hrunning]
      have hletGo : Delivered clientId [] runtime (runtime.letGo surroundings.now) :=
        .of_eq rfl rfl
      exact hletGo.trans (foldl_broadcast_delivered _ _ clientId)
  | resumed hpaused hok =>
      rw [(runtime.resumeCapture surroundings).2.releaseLegacy_of_paused surroundings hpaused,
        legacy, hpaused]
      exact .of_eq rfl rfl

theorem ready_revoked {base : Runtime} (hready : Ready runtime surroundings base) :
    (base.releaseLegacy surroundings).core.revoked = runtime.core.revoked := by
  rw [releaseLegacy_core]
  cases hready with
  | running hrunning =>
      split_ifs
      · rfl
      · rfl
  | resumed hpaused hok =>
      split_ifs
      · rfl
      · rfl

theorem ready_nextClient {base : Runtime} (hready : Ready runtime surroundings base) :
    (base.releaseLegacy surroundings).core.nextClient = runtime.core.nextClient := by
  rw [releaseLegacy_core]
  cases hready with
  | running hrunning =>
      split_ifs
      · rfl
      · rfl
  | resumed hpaused hok =>
      split_ifs
      · rfl
      · rfl

theorem ready_tried {base : Runtime} (hready : Ready runtime surroundings base)
    (clientId : ClientId) {allowed : ServerMessage → Prop}
    (h : clientId ∈ runtime.clients → ∀ event ∈ runtime.legacy surroundings.now,
      allowed (.switchEvent event)) :
    Tried clientId allowed runtime (base.releaseLegacy surroundings) := by
  cases hready with
  | running hrunning =>
      rw [runtime.releaseLegacy_of_running surroundings hrunning]
      rw [legacy, hrunning] at h
      have hletGo : Tried clientId allowed runtime (runtime.letGo surroundings.now) :=
        .of_eq rfl
      refine hletGo.trans (foldl_broadcast_tried _ _ clientId ?_)
      intro hmem message hmessage
      obtain ⟨event, hevent, rfl⟩ := List.mem_map.mp hmessage
      exact h hmem event hevent
  | resumed hpaused hok =>
      rw [(runtime.resumeCapture surroundings).2.releaseLegacy_of_paused surroundings hpaused]
      exact .of_eq rfl

theorem reply_of_rejected {handshake : Handshake} {reason : HandshakeRejectionReason}
    (h : runtime.rejection handshake = some reason) :
    runtime.reply surroundings handshake = .rejected protocolVersion reason := by
  unfold reply
  rw [h]

theorem reply_of_unavailable {handshake : Handshake} {error : String}
    (h : runtime.rejection handshake = none) (hpaused : runtime.paused = true)
    (hfailed : surroundings.resumeReply = .error error) :
    runtime.reply surroundings handshake =
      .rejected protocolVersion .captureUnavailable := by
  unfold reply
  rw [h, hpaused, hfailed]

theorem reply_of_ready {handshake : Handshake} {base : Runtime}
    (h : runtime.rejection handshake = none) (hready : Ready runtime surroundings base) :
    runtime.reply surroundings handshake = acceptance surroundings.uuid := by
  unfold reply
  rw [h]
  cases hready with
  | running hrunning => rw [hrunning]
  | resumed hpaused hok => rw [hpaused, hok]

/-- What `opened` sets does not reach the clients. -/
theorem opened_delivered (clientId other : ClientId) (pid : Option UInt32) :
    Delivered other [] runtime (runtime.opened surroundings clientId pid) :=
  .of_eq rfl rfl

theorem opened_tried (clientId other : ClientId) (pid : Option UInt32)
    {allowed : ServerMessage → Prop} :
    Tried other allowed runtime (runtime.opened surroundings clientId pid) :=
  .of_eq rfl

theorem opened_creates {before : Core} {events : List SwitchEvent}
    (h : Creates before surroundings.now events runtime.core) (clientId : ClientId)
    (pid : Option UInt32) :
    Creates before surroundings.now events
      (runtime.opened surroundings clientId pid).core :=
  ⟨h.created, h.sequence, h.numbered, h.changes⟩

/-- The client did not survive the broadcast of the legacy releases. -/
theorem passed_abandoned (clientId : ClientId) (handshake : Handshake)
    (hrejection : runtime.rejection handshake = none) {base : Runtime}
    (hready : Ready runtime surroundings base)
    (hgone : clientId ∉ (base.releaseLegacy surroundings).clients) :
    Passed runtime surroundings (.command (.handshake clientId handshake))
      (runtime.legacy surroundings.now) []
      { ((base.releaseLegacy surroundings).pauseCapture surroundings).2 with
        paused := true } := by
  have hcreates := runtime.ready_creates surroundings hready
  have hrevoked := runtime.ready_revoked surroundings hready
  refine .of_messages (fun _ => (runtime.legacy surroundings.now).map .switchEvent)
    ⟨hcreates.created, hcreates.sequence, hcreates.numbered, hcreates.changes⟩
    (hrevoked.trans (List.append_nil _).symm) ?_ ?_ ?_
  · intro other
    exact runtime.ready_delivered surroundings hready other
  · intro other
    refine (runtime.ready_tried surroundings hready other ?_).trans (.of_eq rfl)
    intro hmem event hevent
    refine ⟨hmem, ?_⟩
    rw [runtime.rejection_eq_none hrejection, eventsFor_none]
    exact List.mem_append_left _ (List.mem_map_of_mem hevent)
  · intro other hmem
    have hne : other ≠ clientId := by
      rintro rfl
      exact hgone hmem
    rw [runtime.rejection_eq_none hrejection, responsesFor_handshake, if_neg hne]
    exact (List.append_nil _).symm

theorem passed_accepted (clientId : ClientId) (handshake : Handshake)
    (hrejection : runtime.rejection handshake = none) {base : Runtime}
    (hready : Ready runtime surroundings base) :
    Passed runtime surroundings (.command (.handshake clientId handshake))
      (runtime.legacy surroundings.now) []
      (((base.releaseLegacy surroundings).opened surroundings clientId
        handshake.pid).sendResponse clientId (acceptance surroundings.uuid)).2 := by
  have hcreates := runtime.ready_creates surroundings hready
  have hrevoked := runtime.ready_revoked surroundings hready
  have hreply := runtime.reply_of_ready surroundings hrejection hready
  have hmessages (other : ClientId) :
      (runtime.legacy surroundings.now).map .switchEvent ++
        (if other = clientId then [.handshakeResponse (acceptance surroundings.uuid)]
          else []) =
      eventsFor other runtime.session (runtime.legacy surroundings.now) ++
        (responsesFor other runtime surroundings
          (.command (.handshake clientId handshake)) ++ revocationsFor other []) := by
    rw [runtime.rejection_eq_none hrejection, responsesFor_handshake, hreply,
      revocationsFor_nil, List.append_nil, eventsFor_none]
  refine .of_messages _ ?_ ?_ (fun other =>
    (runtime.ready_delivered surroundings hready other).trans
      ((opened_delivered _ surroundings clientId other handshake.pid).trans
        (sendResponse_delivered _ clientId other _))) ?_ fun other _ => hmessages other
  · rw [sendResponse_core]
    exact opened_creates _ surroundings hcreates clientId handshake.pid
  · rw [sendResponse_core]
    exact hrevoked.trans (List.append_nil _).symm
  · intro other
    refine (runtime.ready_tried surroundings hready other ?_).trans
      ((opened_tried _ surroundings clientId other handshake.pid).trans
        (sendResponse_tried _ clientId other _ ?_))
    · intro hmem event hevent
      refine ⟨hmem, ?_⟩
      rw [← hmessages other]
      exact List.mem_append_left _ (List.mem_map_of_mem hevent)
    · intro hself hmem
      refine ⟨(runtime.ready_delivered surroundings hready other hmem).1, ?_⟩
      rw [← hmessages other, if_pos hself]
      exact List.mem_append_right _ (List.mem_singleton_self _)

theorem releases_of_allReleased (now : Instant) (h : runtime.core.state.AllReleased) :
    runtime.releases now = [] := by
  have htransitions : runtime.state.releaseAll.1 = [] :=
    runtime.state.releaseAll_of_allReleased h
  rw [releases, htransitions]
  rfl

/-- The session that a refused acceptance leaves behind for an instant. -/
theorem passed_refused (clientId : ClientId) (handshake : Handshake)
    (hrejection : runtime.rejection handshake = none) {base : Runtime}
    (hready : Ready runtime surroundings base)
    (hrefuses : ¬ (base.releaseLegacy surroundings).Accepts clientId)
    (hreleased : (base.releaseLegacy surroundings).core.state.AllReleased) :
    Passed runtime surroundings (.command (.handshake clientId handshake))
      (runtime.legacy surroundings.now)
      [(⟨clientId, surroundings.uuid, handshake.pid, surroundings.now⟩, .queueOverflow)]
      ((((base.releaseLegacy surroundings).opened surroundings clientId
        handshake.pid).sendResponse clientId (acceptance surroundings.uuid)).2.revoke
          surroundings .queueOverflow) := by
  have hlegacy := runtime.rejection_eq_none hrejection
  have hcreates := opened_creates _ surroundings
    (runtime.ready_creates surroundings hready) clientId handshake.pid
  have hrevoked := runtime.ready_revoked surroundings hready
  have hgone := ((base.releaseLegacy surroundings).opened surroundings clientId
    handshake.pid).not_mem_sendResponse hrefuses (acceptance surroundings.uuid)
  have hanswered (other : ClientId) := (runtime.ready_delivered surroundings hready other).trans
    ((opened_delivered _ surroundings clientId other handshake.pid).trans
      (sendResponse_delivered _ clientId other (acceptance surroundings.uuid)))
  have hcore := ((base.releaseLegacy surroundings).opened surroundings clientId
    handshake.pid).sendResponse_core clientId (acceptance surroundings.uuid)
  have htried (other : ClientId) : Tried other
      (fun message => other ∈ runtime.clients ∧ message ∈
        eventsFor other runtime.session (runtime.legacy surroundings.now) ++
          (responsesFor other runtime surroundings
            (.command (.handshake clientId handshake)) ++
            revocationsFor other [(⟨clientId, surroundings.uuid, handshake.pid,
              surroundings.now⟩, .queueOverflow)]))
      runtime (((base.releaseLegacy surroundings).opened surroundings clientId
        handshake.pid).sendResponse clientId (acceptance surroundings.uuid)).2 := by
    refine (runtime.ready_tried surroundings hready other ?_).trans
      ((opened_tried _ surroundings clientId other handshake.pid).trans
        (sendResponse_tried _ clientId other _ ?_))
    · intro hmem event hevent
      refine ⟨hmem, ?_⟩
      rw [hlegacy, eventsFor_none]
      exact List.mem_append_left _ (List.mem_map_of_mem hevent)
    · intro hself hmem
      refine ⟨(runtime.ready_delivered surroundings hready other hmem).1, ?_⟩
      rw [responsesFor_handshake, if_pos hself,
        runtime.reply_of_ready surroundings hrejection hready]
      simp
  generalize (((base.releaseLegacy surroundings).opened surroundings clientId
    handshake.pid).sendResponse clientId (acceptance surroundings.uuid)).2 = answered
    at hgone hanswered hcore htried ⊢
  have hsession : answered.session =
      some ⟨clientId, surroundings.uuid, handshake.pid, surroundings.now⟩ :=
    congrArg Core.session hcore
  have hnothing : answered.releases surroundings.now = [] := by
    apply answered.releases_of_allReleased surroundings.now
    rw [hcore]
    exact hreleased
  have hleft (other : ClientId)
      (hmem : other ∈ (answered.revoke surroundings .queueOverflow).clients) :
      other ≠ clientId := by
    rintro rfl
    exact hgone (answered.revoke_delivered surroundings _ hsession other hmem).1
  refine .of_messages (fun _ => (runtime.legacy surroundings.now).map .switchEvent)
    ?_ ?_ ?_ ?_ ?_
  · have hended := answered.revoke_creates surroundings .queueOverflow hsession
    rw [hnothing, hcore] at hended
    have hboth := hcreates.trans hended
    rwa [List.append_nil] at hboth
  · rw [answered.revoke_core surroundings .queueOverflow hsession]
    exact congrArg (· ++ [_]) ((congrArg Core.revoked hcore).trans hrevoked)
  · intro other hmem
    have hne := hleft other hmem
    have hrevoke := answered.revoke_delivered surroundings .queueOverflow hsession other
    have hfirst := hanswered other
    rw [if_neg hne] at hrevoke hfirst
    have hboth := (hfirst.trans hrevoke) hmem
    simpa using hboth
  · intro other
    refine (htried other).trans (answered.revoke_tried surroundings .queueOverflow
      hsession other ?_)
    intro hself hmem
    rw [hself] at hmem
    exact absurd hmem hgone
  · intro other hmem
    have hne := hleft other hmem
    rw [hlegacy, responsesFor_handshake, if_neg hne, revocationsFor_singleton, if_neg hne]
    exact (List.append_nil _).symm

/-- The next client id has not been given out. -/
def Unused : Prop :=
  ∀ clientId, runtime.nextClient ≤ clientId →
    clientId ∉ runtime.clients ∧ runtime.history.attempts clientId = []

/-- Every pass of the loop can be accounted for. -/
theorem turn_passed {mode : Mode} (hsettled : runtime.core.Settled mode)
    (hunused : runtime.Unused) {wakeup : Wakeup} {after : Runtime}
    (hturn : Turn runtime surroundings wakeup after) :
    ∃ events ended, Passed runtime surroundings wakeup events ended after := by
  cases hturn with
  | registered channel =>
      exact ⟨[], [], runtime.passed_register surroundings channel (hunused _ le_rfl).1⟩
  | left clientId _ =>
      refine ⟨[], [], runtime.passed_quiet surroundings rfl rfl rfl rfl ?_ rfl fun _ => rfl⟩
      intro other hmem
      exact ((runtime.mem_removeClient_clients clientId other).mp hmem).2
  | disconnected session hactive =>
      refine ⟨_, _, runtime.passed_revoke surroundings .explicitRevocation hactive rfl
        ?_ rfl fun _ => rfl⟩
      intro other hmem
      exact ((runtime.mem_removeClient_clients session.clientId other).mp hmem).2
  | muted _ _ =>
      exact ⟨[], [], runtime.passed_quiet surroundings rfl rfl rfl rfl
        (fun _ => id) rfl fun _ => rfl⟩
  | unchanged _ _ _ _ =>
      exact ⟨[], [], runtime.passed_quiet surroundings rfl rfl rfl rfl
        (fun _ => id) rfl fun _ => rfl⟩
  | inner _ _ state _ hlevel =>
      exact ⟨[], [], runtime.passed_quiet surroundings rfl rfl hlevel rfl
        (fun _ => id) rfl fun _ => rfl⟩
  | announced _ _ hidle _ _ houter =>
      exact ⟨_, _, runtime.passed_announced surroundings hidle houter⟩
  | routed _ _ _ hactive _ _ houter haccepts =>
      exact ⟨_, _, runtime.passed_routed surroundings hactive houter haccepts⟩
  | overflowed _ _ _ hactive _ _ houter _ =>
      exact ⟨_, _, runtime.passed_overflowed surroundings hactive houter⟩
  | rejected clientId handshake reason hrejection =>
      have hreply := runtime.reply_of_rejected surroundings hrejection
      have hpassed := runtime.passed_reply surroundings clientId handshake
        ⟨rfl, rfl, rfl, rfl⟩ rfl rfl
      rw [hreply] at hpassed
      exact ⟨[], [], hpassed⟩
  | unavailable clientId handshake hrejection hpaused error hfailed =>
      have hreply := runtime.reply_of_unavailable surroundings hrejection hpaused hfailed
      have hpassed := @passed_reply runtime surroundings clientId handshake
        (runtime.resumeCapture surroundings).2 ⟨rfl, rfl, rfl, rfl⟩ rfl rfl
      rw [hreply] at hpassed
      exact ⟨[], [], hpassed⟩
  | abandoned clientId handshake hrejection base hready hgone =>
      exact ⟨_, _, runtime.passed_abandoned surroundings clientId handshake hrejection
        hready hgone⟩
  | accepted clientId handshake hrejection base hready _ =>
      exact ⟨_, _, runtime.passed_accepted surroundings clientId handshake hrejection hready⟩
  | refused clientId handshake hrejection base hready _ hrefuses =>
      exact ⟨_, _, runtime.passed_refused surroundings clientId handshake hrejection hready
        hrefuses (runtime.releaseLegacy_allReleased surroundings hsettled hready)⟩
  | renewed session _ =>
      exact ⟨[], [], runtime.passed_quiet surroundings rfl rfl rfl rfl
        (fun _ => id) rfl fun _ => rfl⟩
  | stale _ _ _ =>
      exact ⟨[], [], runtime.passed_quiet surroundings rfl rfl rfl rfl
        (fun _ => id) rfl fun _ => rfl⟩
  | revoked session hactive _ reason hdemand =>
      refine ⟨_, _, runtime.passed_revoke surroundings reason hactive rfl
        (fun _ => id) rfl fun _ => ?_⟩
      cases hdemand <;> rfl
  | ignored _ hkind _ =>
      refine ⟨[], [], runtime.passed_quiet surroundings rfl rfl rfl rfl
        (fun _ => id) rfl fun _ => ?_⟩
      rcases hkind with rfl | ⟨_, rfl⟩ | ⟨_, rfl⟩
      · rfl
      · rfl
      · rfl

/-- Only a registration moves the counter of client ids, by one. -/
theorem turn_nextClient {wakeup : Wakeup} {after : Runtime}
    (hturn : Turn runtime surroundings wakeup after) :
    after.core.nextClient = runtime.core.nextClient + wakeup.registrations := by
  cases hturn with
  | registered channel =>
      rw [register_core]
      rfl
  | left _ _ => rfl
  | disconnected session hactive =>
      rw [(runtime.removeClient session.clientId).revoke_core surroundings _ hactive]
      rfl
  | muted _ _ => rfl
  | unchanged _ _ _ _ => rfl
  | inner _ _ _ _ _ => rfl
  | announced _ _ _ _ _ _ => rfl
  | routed _ _ _ _ _ _ _ _ =>
      rw [trySend_core]
      rfl
  | overflowed _ _ session hactive transition state _ _ =>
      rw [revoke_core _ surroundings .queueOverflow
        (runtime.dropped_session surroundings.now state transition session.clientId hactive)]
      have hcounter := congrArg Core.nextClient
        (runtime.dropped_core surroundings.now state transition session.clientId)
      exact hcounter
  | rejected clientId _ reason _ => exact congrArg Core.nextClient (reject_core _ clientId reason)
  | unavailable clientId _ _ _ _ _ =>
      rw [reject_core]
      rfl
  | abandoned _ _ _ base hready _ => exact runtime.ready_nextClient surroundings hready
  | accepted _ _ _ base hready _ =>
      rw [sendResponse_core]
      exact runtime.ready_nextClient surroundings hready
  | refused clientId handshake _ base hready _ _ =>
      have hsent := ((base.releaseLegacy surroundings).opened surroundings clientId
        handshake.pid).sendResponse_core clientId (acceptance surroundings.uuid)
      rw [revoke_core _ surroundings .queueOverflow (congrArg Core.session hsent)]
      exact (congrArg Core.nextClient hsent).trans
        (runtime.ready_nextClient surroundings hready)
  | renewed _ _ => rfl
  | stale _ _ _ => rfl
  | revoked session hactive _ reason hdemand =>
      rw [runtime.revoke_core surroundings reason hactive]
      cases hdemand <;> rfl
  | ignored _ hkind _ =>
      rcases hkind with rfl | ⟨_, rfl⟩ | ⟨_, rfl⟩
      · rfl
      · rfl
      · rfl

theorem Unused.step {runtime after : Runtime} {surroundings : Surroundings}
    {wakeup : Wakeup} {events : List SwitchEvent}
    {ended : List (Session × SessionRevocationReason)} (hunused : runtime.Unused)
    (hpassed : Passed runtime surroundings wakeup events ended after)
    (hnext : after.core.nextClient = runtime.core.nextClient + wakeup.registrations) :
    after.Unused := by
  intro clientId hle
  have hlater : runtime.nextClient + wakeup.registrations ≤ clientId := hnext ▸ hle
  have hold : runtime.nextClient ≤ clientId := (Nat.le_add_right _ _).trans hlater
  obtain ⟨habsent, hempty⟩ := hunused clientId hold
  have hother : ∀ channel, wakeup = .command (.register channel) →
      clientId ≠ runtime.nextClient := by
    rintro channel rfl rfl
    exact Nat.not_succ_le_self _ hlater
  constructor
  · intro hmem
    rcases hpassed.members clientId hmem with h | ⟨hself, channel, hregister⟩
    · exact habsent h
    · exact hother channel hregister hself
  · obtain ⟨more, hattempts, hallowed⟩ := hpassed.tried clientId
    have hnothing : addressed clientId runtime surroundings wakeup events ended = [] := by
      rw [addressed, if_neg habsent]
      unfold greetingsFor
      split
      · exact if_neg (hother _ rfl)
      · rfl
    rw [hnothing] at hallowed
    have hmore : more = [] := List.eq_nil_iff_forall_not_mem.mpr fun attempt hmem =>
      List.not_mem_nil (hallowed attempt hmem)
    rw [hattempts, hempty, hmore]
    rfl

end Runtime

end Usahp.Broker
