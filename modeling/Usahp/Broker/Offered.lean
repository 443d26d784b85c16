import Mathlib.Data.List.Sort
import Usahp.Broker.Stream

/-!
What any client is sent, also one who is dropped on the way. `Delivered` is
silent about such a client and `Tried` forgets the order; `Offered` keeps it:
what was tried for the client in between is a part of the listed messages, in
their order.

Over a run, what a client was ever sent is a part of what was addressed to it,
and two clients never see two events in different orders.
-/

namespace Usahp.Broker

open Std Usahp.Library

def Offered (clientId : ClientId) (messages : List ServerMessage)
    (before after : Runtime) : Prop :=
  ∃ more, after.history.attempts clientId =
      before.history.attempts clientId ++ more ∧
    (more.map (·.message)).Sublist messages

theorem Offered.of_eq {clientId : ClientId} {before after : Runtime}
    (h : after.history.attempts clientId = before.history.attempts clientId)
    (messages : List ServerMessage) : Offered clientId messages before after :=
  ⟨[], by rw [h, List.append_nil], List.nil_sublist _⟩

theorem Offered.trans {clientId : ClientId} {first second : List ServerMessage}
    {before middle after : Runtime} (hfirst : Offered clientId first before middle)
    (hsecond : Offered clientId second middle after) :
    Offered clientId (first ++ second) before after := by
  obtain ⟨early, hmiddle, hearly⟩ := hfirst
  obtain ⟨late, hafter, hlate⟩ := hsecond
  refine ⟨early ++ late, ?_, ?_⟩
  · rw [hafter, hmiddle, List.append_assoc]
  · rw [List.map_append]
    exact hearly.append hlate

/-- A step that sends nothing before, seen from after it. -/
theorem Offered.after_eq {clientId : ClientId} {messages : List ServerMessage}
    {before middle after : Runtime}
    (h : middle.history.attempts clientId = before.history.attempts clientId)
    (hsecond : Offered clientId messages middle after) :
    Offered clientId messages before after := by
  unfold Offered at hsecond ⊢
  rwa [h] at hsecond

theorem enqueued_sublist_attempted (runtime : Runtime) (clientId : ClientId) :
    (enqueued runtime clientId).Sublist (attempted runtime clientId) :=
  List.filter_sublist.map _

theorem Offered.attempted_sublist {clientId : ClientId}
    {messages earlier : List ServerMessage} {before after : Runtime}
    (h : Offered clientId messages before after)
    (hearlier : (attempted before clientId).Sublist earlier) :
    (attempted after clientId).Sublist (earlier ++ messages) := by
  obtain ⟨more, hattempts, hmore⟩ := h
  rw [attempted, hattempts, List.map_append]
  exact hearlier.append hmore

namespace Runtime

variable (runtime : Runtime) (surroundings : Surroundings)

theorem trySend_offered (clientId other : ClientId) (message : ServerMessage) :
    Offered other (if other = clientId then [message] else []) runtime
      (runtime.trySend clientId message).2 := by
  by_cases hother : other = clientId
  · subst hother
    rw [if_pos rfl]
    cases hclient : runtime.clients[other]? with
    | none =>
        rw [runtime.trySend_of_none hclient]
        exact .of_eq rfl _
    | some sender =>
        exact ⟨_, runtime.attempts_trySend_self hclient message, List.Sublist.refl _⟩
  · exact .of_eq (runtime.attempts_trySend_of_ne hother message) _

theorem broadcast_offered (message : ServerMessage) (clientId : ClientId) :
    Offered clientId [message] runtime (runtime.broadcast message) := by
  unfold Offered
  rw [attempts_broadcast]
  cases runtime.clients[clientId]? with
  | none => exact ⟨[], (List.append_nil _).symm, List.nil_sublist _⟩
  | some sender => exact ⟨_, rfl, List.Sublist.refl _⟩

theorem foldl_broadcast_offered (messages : List ServerMessage) (clientId : ClientId) :
    Offered clientId messages runtime (messages.foldl broadcast runtime) := by
  induction messages generalizing runtime with
  | nil => exact .of_eq rfl _
  | cons message rest ih => exact (runtime.broadcast_offered message clientId).trans (ih _)

theorem sendResponse_offered (clientId other : ClientId) (response : HandshakeResponse) :
    Offered other (if other = clientId then [.handshakeResponse response] else []) runtime
      (runtime.sendResponse clientId response).2 := by
  have hsent := runtime.trySend_offered clientId other (.handshakeResponse response)
  generalize (if other = clientId then _ else _) = messages at hsent ⊢
  rw [sendResponse_eq]
  split_ifs
  · exact hsent
  · exact hsent

theorem deliver_offered (clientId other : ClientId) (messages : List ServerMessage) :
    Offered other (if other = clientId then messages else []) runtime
      (runtime.deliver clientId messages).2 := by
  induction messages generalizing runtime with
  | nil => exact .of_eq rfl _
  | cons message rest ih =>
      have hstep := (runtime.trySend_offered clientId other message).trans (ih _)
      split_ifs at hstep ⊢
      · exact hstep
      · exact hstep

theorem dismiss_offered (clientId other : ClientId) (messages : List ServerMessage) :
    Offered other (if other = clientId then messages else []) runtime
      (runtime.dismiss clientId messages) := by
  have hdelivered := runtime.deliver_offered clientId other messages
  generalize (if other = clientId then _ else _) = listed at hdelivered ⊢
  rw [dismiss_eq]
  split_ifs
  · exact hdelivered
  · exact hdelivered
  · exact .of_eq rfl _

theorem revoke_offered (reason : SessionRevocationReason) {session : Session}
    (h : runtime.session = some session) (clientId : ClientId) :
    Offered clientId
      (if clientId = session.clientId then runtime.farewell surroundings session reason
        else [])
      runtime (runtime.revoke surroundings reason) := by
  rw [runtime.revoke_of_some surroundings reason h]
  exact (runtime.stopped surroundings).dismiss_offered session.clientId clientId _

theorem ready_offered {base : Runtime} (hready : Ready runtime surroundings base)
    (clientId : ClientId) :
    Offered clientId ((runtime.legacy surroundings.now).map .switchEvent) runtime
      (base.releaseLegacy surroundings) := by
  cases hready with
  | running hrunning =>
      rw [runtime.releaseLegacy_of_running surroundings hrunning, legacy, hrunning]
      exact .after_eq rfl (foldl_broadcast_offered _ _ clientId)
  | resumed hpaused hok =>
      rw [(runtime.resumeCapture surroundings).2.releaseLegacy_of_paused surroundings hpaused]
      exact .of_eq rfl _

/-- What a pass has for a client who was registered before. -/
def mailFor (clientId : ClientId) (wakeup : Wakeup) (events : List SwitchEvent)
    (ended : List (Session × SessionRevocationReason)) : List ServerMessage :=
  eventsFor clientId runtime.session events ++
    (responsesFor clientId runtime surroundings wakeup ++ revocationsFor clientId ended)

theorem addressed_of_mem {clientId : ClientId} (h : clientId ∈ runtime.clients)
    (wakeup : Wakeup) (events : List SwitchEvent)
    (ended : List (Session × SessionRevocationReason)) :
    addressed clientId runtime surroundings wakeup events ended =
      runtime.mailFor surroundings clientId wakeup events ended :=
  if_pos h

theorem mailFor_revoked {session : Session} (hactive : runtime.session = some session)
    {wakeup : Wakeup} (hresponses : ∀ clientId,
      responsesFor clientId runtime surroundings wakeup = [])
    (events : List SwitchEvent) (reason : SessionRevocationReason) (clientId : ClientId) :
    runtime.mailFor surroundings clientId wakeup events [(session, reason)] =
      if clientId = session.clientId then
        events.map .switchEvent ++ [revocation (session, reason)] else [] := by
  rw [mailFor, hactive, eventsFor_some, hresponses, revocationsFor_singleton]
  split_ifs <;> rfl

theorem mailFor_handshake (hidle : runtime.session = none) (clientId other : ClientId)
    (handshake : Handshake) (events : List SwitchEvent)
    (ended : List (Session × SessionRevocationReason)) :
    runtime.mailFor surroundings other (.command (.handshake clientId handshake)) events ended =
      events.map .switchEvent ++
        ((if other = clientId then
            [.handshakeResponse (runtime.reply surroundings handshake)] else []) ++
          revocationsFor other ended) := by
  rw [mailFor, hidle, eventsFor_none, responsesFor_handshake]

/-- Where nothing was tried, nothing is out of order. -/
theorem offered_quiet {after : Runtime}
    (h : after.history.attempts = runtime.history.attempts) (clientId : ClientId)
    (messages : List ServerMessage) : Offered clientId messages runtime after :=
  .of_eq (congrFun h clientId) messages

theorem reply_offered (clientId : ClientId) (handshake : Handshake) {before : Runtime}
    (hattempts : before.history.attempts = runtime.history.attempts) (other : ClientId) :
    Offered other (runtime.mailFor surroundings other
      (.command (.handshake clientId handshake)) [] []) runtime
      (before.sendResponse clientId (runtime.reply surroundings handshake)).2 := by
  rw [mailFor, eventsFor_nil, responsesFor_handshake, revocationsFor_nil, List.append_nil,
    List.nil_append]
  exact .after_eq (congrFun hattempts other) (before.sendResponse_offered clientId other _)

theorem overflowed_offered {event : PhysicalEvent} {session : Session}
    (hactive : runtime.session = some session)
    (transition : LogicalTransition) (state : SwitchStateMachine) (clientId : ClientId) :
    Offered clientId (runtime.mailFor surroundings clientId (.command (.input event))
      (stampOne runtime.started surroundings.now (runtime.sequence + 1) transition ::
        (runtime.published surroundings.now state transition).releases surroundings.now)
      [(session, .queueOverflow)]) runtime
      ((((runtime.published surroundings.now state transition).trySend session.clientId
        (runtime.news surroundings.now transition)).2.removeClient
          session.clientId).revoke surroundings .queueOverflow) := by
  rw [runtime.mailFor_revoked surroundings hactive fun _ => rfl]
  have hsent := (runtime.published surroundings.now state transition).trySend_offered
    session.clientId clientId (runtime.news surroundings.now transition)
  have hcore := (runtime.published surroundings.now state transition).trySend_core
    session.clientId (runtime.news surroundings.now transition)
  generalize ((runtime.published surroundings.now state transition).trySend
    session.clientId (runtime.news surroundings.now transition)).2 = next at hsent hcore ⊢
  have hsession : (next.removeClient session.clientId).session = some session :=
    (congrArg Core.session hcore).trans hactive
  have hreleases : (next.removeClient session.clientId).releases surroundings.now =
      (runtime.published surroundings.now state transition).releases surroundings.now :=
    congrArg (fun core : Core =>
      stamp core.started surroundings.now core.sequence core.state.releaseAll.1) hcore
  have hrevoked := (next.removeClient session.clientId).revoke_offered surroundings
    .queueOverflow hsession clientId
  rw [farewell, hreleases] at hrevoked
  have hfirst : Offered clientId (if clientId = session.clientId then
      [runtime.news surroundings.now transition] else []) runtime next := .after_eq rfl hsent
  have hboth := hfirst.trans (.after_eq rfl hrevoked)
  split_ifs at hboth ⊢
  · exact hboth
  · exact hboth

theorem opened_offered (clientId : ClientId) (handshake : Handshake) {base : Runtime}
    (hready : Ready runtime surroundings base) (other : ClientId) :
    Offered other ((runtime.legacy surroundings.now).map .switchEvent ++
      if other = clientId then [.handshakeResponse (acceptance surroundings.uuid)] else [])
      runtime (((base.releaseLegacy surroundings).opened surroundings clientId
        handshake.pid).sendResponse clientId (acceptance surroundings.uuid)).2 :=
  (runtime.ready_offered surroundings hready other).trans
    (.after_eq rfl (sendResponse_offered _ clientId other _))

theorem refused_offered (clientId : ClientId) (handshake : Handshake)
    (hrejection : runtime.rejection handshake = none) {base : Runtime}
    (hready : Ready runtime surroundings base)
    (hreleased : (base.releaseLegacy surroundings).core.state.AllReleased)
    (other : ClientId) :
    Offered other (runtime.mailFor surroundings other
      (.command (.handshake clientId handshake)) (runtime.legacy surroundings.now)
      [(⟨clientId, surroundings.uuid, handshake.pid, surroundings.now⟩, .queueOverflow)])
      runtime ((((base.releaseLegacy surroundings).opened surroundings clientId
        handshake.pid).sendResponse clientId (acceptance surroundings.uuid)).2.revoke
          surroundings .queueOverflow) := by
  have hopened := runtime.opened_offered surroundings clientId handshake hready other
  have hcore := ((base.releaseLegacy surroundings).opened surroundings clientId
    handshake.pid).sendResponse_core clientId (acceptance surroundings.uuid)
  generalize (((base.releaseLegacy surroundings).opened surroundings clientId
    handshake.pid).sendResponse clientId (acceptance surroundings.uuid)).2 = answered
    at hopened hcore ⊢
  have hnothing : answered.releases surroundings.now = [] := by
    apply answered.releases_of_allReleased surroundings.now
    rw [hcore]
    exact hreleased
  have hrevoked := answered.revoke_offered surroundings .queueOverflow
    (congrArg Core.session hcore) other
  rw [farewell, hnothing] at hrevoked
  rw [runtime.mailFor_handshake surroundings (runtime.rejection_eq_none hrejection),
    runtime.reply_of_ready surroundings hrejection hready, revocationsFor_singleton,
    ← List.append_assoc]
  exact hopened.trans hrevoked

/-- Every pass sends to each client a part of what it has for it, in order. -/
theorem turn_offered {mode : Mode} (hsettled : runtime.core.Settled mode)
    (hunused : runtime.Unused) {wakeup : Wakeup} {after : Runtime}
    (hturn : Turn runtime surroundings wakeup after) :
    ∃ events ended, Passed runtime surroundings wakeup events ended after ∧
      ∀ clientId ∈ runtime.clients, Offered clientId
        (runtime.mailFor surroundings clientId wakeup events ended) runtime after := by
  have hquiet (same : after.history.attempts = runtime.history.attempts) :
      ∃ events ended, Passed runtime surroundings wakeup events ended after ∧
        ∀ clientId ∈ runtime.clients, Offered clientId
          (runtime.mailFor surroundings clientId wakeup events ended) runtime after := by
    obtain ⟨events, ended, hpassed⟩ := runtime.turn_passed surroundings hsettled hunused hturn
    exact ⟨events, ended, hpassed, fun clientId _ =>
      runtime.offered_quiet same clientId _⟩
  cases hturn with
  | registered channel =>
      have hfresh := (hunused _ le_rfl).1
      refine ⟨[], [], runtime.passed_register surroundings channel hfresh, ?_⟩
      intro clientId hmem
      refine .of_eq (runtime.register_attempts_of_ne channel ?_) _
      rintro rfl
      exact hfresh hmem
  | left clientId _ => exact hquiet rfl
  | disconnected session hactive =>
      refine ⟨_, _, runtime.passed_revoke surroundings .explicitRevocation hactive rfl
        ?_ rfl fun _ => rfl, ?_⟩
      · intro other hmem
        exact ((runtime.mem_removeClient_clients session.clientId other).mp hmem).2
      · intro clientId _
        rw [runtime.mailFor_revoked surroundings hactive fun _ => rfl]
        exact (runtime.removeClient session.clientId).revoke_offered surroundings _
          hactive clientId
  | muted _ _ => exact hquiet rfl
  | unchanged _ _ _ _ => exact hquiet rfl
  | inner _ _ _ _ _ => exact hquiet rfl
  | announced _ _ hidle transition state houter =>
      refine ⟨_, _, runtime.passed_announced surroundings hidle houter, ?_⟩
      intro clientId _
      rw [mailFor, hidle]
      exact .after_eq rfl (broadcast_offered (runtime.published surroundings.now state
        transition) (runtime.news surroundings.now transition) clientId)
  | routed _ _ session hactive transition state houter haccepts =>
      refine ⟨_, _, runtime.passed_routed surroundings hactive houter haccepts, ?_⟩
      intro clientId _
      have hsent := (runtime.published surroundings.now state transition).trySend_offered
        session.clientId clientId (runtime.news surroundings.now transition)
      rw [mailFor, hactive, eventsFor_some, revocationsFor_nil]
      refine Offered.after_eq rfl ?_
      split_ifs at hsent ⊢
      · exact hsent
      · exact hsent
  | overflowed _ _ session hactive transition state houter _ =>
      exact ⟨_, _, runtime.passed_overflowed surroundings hactive houter, fun clientId _ =>
        runtime.overflowed_offered surroundings hactive transition state clientId⟩
  | rejected clientId handshake reason hrejection =>
      have hreply := runtime.reply_of_rejected surroundings hrejection
      have hpassed := runtime.passed_reply surroundings clientId handshake
        ⟨rfl, rfl, rfl, rfl⟩ rfl rfl
      have hoffered := runtime.reply_offered surroundings clientId handshake rfl
      rw [hreply] at hpassed hoffered
      exact ⟨[], [], hpassed, fun other _ => hoffered other⟩
  | unavailable clientId handshake hrejection hpaused error hfailed =>
      have hreply := runtime.reply_of_unavailable surroundings hrejection hpaused hfailed
      have hpassed := @passed_reply runtime surroundings clientId handshake
        (runtime.resumeCapture surroundings).2 ⟨rfl, rfl, rfl, rfl⟩ rfl rfl
      have hoffered := @reply_offered runtime surroundings clientId handshake
        (runtime.resumeCapture surroundings).2 rfl
      rw [hreply] at hpassed hoffered
      exact ⟨[], [], hpassed, fun other _ => hoffered other⟩
  | abandoned clientId handshake hrejection base hready hgone =>
      refine ⟨_, _, runtime.passed_abandoned surroundings clientId handshake hrejection
        hready hgone, ?_⟩
      intro other _
      obtain ⟨more, hattempts, hmore⟩ := runtime.ready_offered surroundings hready other
      rw [runtime.mailFor_handshake surroundings (runtime.rejection_eq_none hrejection)]
      exact ⟨more, hattempts, hmore.trans (List.sublist_append_left _ _)⟩
  | accepted clientId handshake hrejection base hready _ =>
      refine ⟨_, _, runtime.passed_accepted surroundings clientId handshake hrejection
        hready, ?_⟩
      intro other _
      rw [runtime.mailFor_handshake surroundings (runtime.rejection_eq_none hrejection),
        runtime.reply_of_ready surroundings hrejection hready, revocationsFor_nil,
        List.append_nil]
      exact runtime.opened_offered surroundings clientId handshake hready other
  | refused clientId handshake hrejection base hready _ hrefuses =>
      have hreleased := runtime.releaseLegacy_allReleased surroundings hsettled hready
      exact ⟨_, _, runtime.passed_refused surroundings clientId handshake hrejection hready
        hrefuses hreleased, fun other _ => runtime.refused_offered surroundings clientId
          handshake hrejection hready hreleased other⟩
  | renewed _ _ => exact hquiet rfl
  | stale _ _ _ => exact hquiet rfl
  | revoked session hactive _ reason hdemand =>
      have hresponses (clientId : ClientId) :
          responsesFor clientId runtime surroundings wakeup = [] := by
        cases hdemand <;> rfl
      refine ⟨_, _, runtime.passed_revoke surroundings reason hactive rfl
        (fun _ => id) rfl hresponses, ?_⟩
      intro clientId _
      rw [runtime.mailFor_revoked surroundings hactive hresponses]
      exact runtime.revoke_offered surroundings reason hactive clientId
  | ignored _ _ _ => exact hquiet rfl

end Runtime

/-- What one step sends to any client, registered or not, is a part of what the
step has for it. -/
theorem Sound.offered {runtime : Runtime} (hsound : Sound runtime) (step : Step)
    (clientId : ClientId) :
    Offered clientId (addressedBy clientId runtime step) runtime (runtime.step step) := by
  have hpassed := hsound.passed step
  by_cases hmem : clientId ∈ runtime.clients
  · obtain ⟨mode, hsettled⟩ := hsound.settled
    obtain ⟨events, ended, hother, hoffered⟩ := runtime.turn_offered step.surroundings
      hsettled hsound.unused (runtime.step_turn step)
    have hended : ended = revokedBy runtime step :=
      List.append_cancel_left (hother.revoked.symm.trans hpassed.revoked)
    rw [addressedBy, runtime.addressed_of_mem step.surroundings hmem, ← hended,
      hother.creates.createdBy_eq]
    exact hoffered clientId hmem
  · by_cases hnew : ∃ channel, step.wakeup = .command (.register channel) ∧
        clientId = runtime.nextClient
    · obtain ⟨channel, hregister, rfl⟩ := hnew
      have hstep : runtime.step step = runtime.register channel := by
        unfold Runtime.step
        rw [hregister]
        rfl
      rw [addressedBy, addressed, if_neg hmem, hregister, hstep, greetingsFor, if_pos rfl]
      exact ⟨_, runtime.register_attempts_self channel, List.Sublist.refl _⟩
    · have hnothing : addressedBy clientId runtime step = [] :=
        addressedBy_of_absent hmem fun channel hregister hself =>
          hnew ⟨channel, hregister, hself⟩
      obtain ⟨more, hattempts, hallowed⟩ := hpassed.tried clientId
      change ∀ attempt ∈ more, attempt.message ∈ addressedBy clientId runtime step at hallowed
      rw [hnothing] at hallowed
      have hmore : more = [] := List.eq_nil_iff_forall_not_mem.mpr fun attempt hattempt =>
        List.not_mem_nil (hallowed attempt hattempt)
      refine .of_eq ?_ _
      rw [hattempts, hmore, List.append_nil]

variable (mappings : List Mapping) (started : Instant)

theorem attempted_sublist (steps : List Step) (clientId : ClientId) :
    (attempted ((broker mappings started).run steps) clientId).Sublist
      (addressedAlong clientId (Runtime.new mappings started) steps) := by
  refine (broker mappings started).history_invariant
    (fun steps runtime => (attempted runtime clientId).Sublist
      (addressedAlong clientId (Runtime.new mappings started) steps))
    (List.nil_sublist _) ?_ steps
  intro steps step ih
  rw [addressedAlong_concat mappings started]
  exact ((sound_run mappings started steps).offered step clientId).attempted_sublist ih

theorem created_ascending (steps : List Step) :
    (((broker mappings started).run steps).history.created.map (·.event)).Pairwise
      (·.sequence < ·.sequence) := by
  rw [List.pairwise_map, ← List.pairwise_map (f := fun c : Created => c.event.sequence),
    created_numbered mappings started steps]
  exact List.pairwise_lt_range'

theorem received_sublist (steps : List Step) (clientId : ClientId) :
    (eventsOf (enqueued ((broker mappings started).run steps) clientId)).Sublist
      (((broker mappings started).run steps).history.created.map (·.event)) := by
  have hoffered := (enqueued_sublist_attempted _ clientId).trans
    (attempted_sublist mappings started steps clientId)
  have hevents : (eventsOf _).Sublist (eventsOf _) := hoffered.filterMap _
  exact hevents.trans (eventsOf_addressedAlong mappings started steps clientId)

theorem received_ascending (steps : List Step) (clientId : ClientId) :
    (eventsOf (enqueued ((broker mappings started).run steps) clientId)).Pairwise
      (·.sequence < ·.sequence) :=
  (created_ascending mappings started steps).sublist
    (received_sublist mappings started steps clientId)

/-- Lists that ascend in the same way have their common members in common. -/
theorem common_eq {first second : List SwitchEvent}
    (hfirst : first.Pairwise (·.sequence < ·.sequence))
    (hsecond : second.Pairwise (·.sequence < ·.sequence)) :
    first.filter (· ∈ second) = second.filter (· ∈ first) := by
  have : Std.Antisymm fun earlier later : SwitchEvent =>
      earlier.sequence < later.sequence := ⟨fun _ _ h h' => absurd h (Nat.lt_asymm h')⟩
  have : Std.Irrefl fun earlier later : SwitchEvent =>
      earlier.sequence < later.sequence := ⟨fun _ => Nat.lt_irrefl _⟩
  apply (hfirst.filter _).eq_of_mem_iff (hsecond.filter _)
  intro event
  simp only [List.mem_filter, decide_eq_true_eq, and_comm]

/-- A registered client has been sent all that was addressed to it. -/
theorem enqueued_of_registered (steps : List Step) {clientId : ClientId}
    (hmem : clientId ∈ ((broker mappings started).run steps).clients) :
    enqueued ((broker mappings started).run steps) clientId =
      addressedAlong clientId (Runtime.new mappings started) steps := by
  rw [enqueued, (attempts_along mappings started steps clientId).1 hmem, sent_of_allSent]

theorem enqueued_sublist (steps : List Step) (clientId : ClientId) :
    (enqueued ((broker mappings started).run steps) clientId).Sublist
      (addressedAlong clientId (Runtime.new mappings started) steps) :=
  (enqueued_sublist_attempted _ clientId).trans
    (attempted_sublist mappings started steps clientId)

/-- Whatever becomes of a client, its queue took a part of what was addressed
to it, in order and nothing twice, and any two clients agree on the order of
the events that both of them have. -/
theorem received_in_order (steps : List Step) (clientId other : ClientId) :
    let runtime := (broker mappings started).run steps
    let received := eventsOf (enqueued runtime clientId)
    (enqueued runtime clientId).Sublist
      (addressedAlong clientId (Runtime.new mappings started) steps) ∧
    received.Sublist (runtime.history.created.map (·.event)) ∧
    received.Pairwise (·.sequence < ·.sequence) ∧
    received.filter (· ∈ eventsOf (enqueued runtime other)) =
      (eventsOf (enqueued runtime other)).filter (· ∈ received) := by
  intro runtime received
  refine ⟨enqueued_sublist mappings started steps clientId,
    received_sublist mappings started steps clientId,
    received_ascending mappings started steps clientId, ?_⟩
  exact common_eq (received_ascending mappings started steps clientId)
    (received_ascending mappings started steps other)

/-- A client that is not registered any more is never registered again and is
sent nothing. -/
theorem dropped_for_good (steps more : List Step) {clientId : ClientId}
    (hgiven : clientId < ((broker mappings started).run steps).nextClient)
    (hgone : clientId ∉ ((broker mappings started).run steps).clients) :
    clientId ∉ ((broker mappings started).run (steps ++ more)).clients ∧
    ((broker mappings started).run (steps ++ more)).history.attempts clientId =
      ((broker mappings started).run steps).history.attempts clientId := by
  suffices h : clientId < ((broker mappings started).run (steps ++ more)).nextClient ∧
      clientId ∉ ((broker mappings started).run (steps ++ more)).clients ∧
      ((broker mappings started).run (steps ++ more)).history.attempts clientId =
        ((broker mappings started).run steps).history.attempts clientId from h.2
  induction more using List.reverseRecOn with
  | nil =>
      rw [List.append_nil]
      exact ⟨hgiven, hgone, rfl⟩
  | append_singleton more last ih =>
      obtain ⟨hstill, habsent, hsame⟩ := ih
      rw [← List.append_assoc, Machine.run_concat]
      have hsound := sound_run mappings started (steps ++ more)
      generalize (broker mappings started).run (steps ++ more) = runtime at *
      have hpassed := hsound.passed last
      have hnext := runtime.turn_nextClient last.surroundings (runtime.step_turn last)
      have hother : ∀ channel, last.wakeup = .command (.register channel) →
          clientId ≠ runtime.nextClient := fun _ _ => Nat.ne_of_lt hstill
      refine ⟨?_, ?_, ?_⟩
      · change clientId < (runtime.step last).core.nextClient
        rw [hnext]
        exact Nat.lt_add_right _ hstill
      · intro hmem
        rcases hpassed.members clientId hmem with hold | ⟨hself, channel, hregister⟩
        · exact habsent hold
        · exact hother channel hregister hself
      · obtain ⟨extra, hattempts, hextra⟩ := hsound.offered last clientId
        rw [addressedBy_of_absent habsent hother, List.sublist_nil, List.map_eq_nil_iff]
          at hextra
        rw [hextra, List.append_nil] at hattempts
        exact hattempts.trans hsame

end Usahp.Broker
