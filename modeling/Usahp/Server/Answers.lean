import Usahp.Server.Socket

/-!
The answers on a socket. A client may send handshakes at any time, and other
clients' commands come in between; still the answers that a connection writes
are to the handshakes it has read, one for each and in order. Where the
handshake itself is at fault its answer says so, whatever the broker is at.
-/

namespace Usahp.Server

open Std Usahp.Library Usahp.Broker

/-- What is wrong with a handshake in itself. -/
def fault (handshake : Handshake) : Option HandshakeRejectionReason :=
  if handshake.protocolVersion ≠ protocolVersion then some .protocolMismatch
  else if !validAppId handshake.appId then some .invalidAppId
  else if handshake.requestedMode ≠ .exclusiveForeground then some .unsupportedMode
  else none

/-- The answers that a handshake can get. -/
inductive Fits (handshake : Handshake) : HandshakeResponse → Prop
  | faulty (reason : HandshakeRejectionReason) (found : fault handshake = some reason) :
      Fits handshake (.rejected protocolVersion reason)
  | busy (sound : fault handshake = none) :
      Fits handshake (.rejected protocolVersion .sessionBusy)
  | unavailable (sound : fault handshake = none) :
      Fits handshake (.rejected protocolVersion .captureUnavailable)
  | accepted (sound : fault handshake = none) (sessionId : String) :
      Fits handshake (acceptance sessionId)

theorem fits_reply (runtime : Runtime) (surroundings : Surroundings) (handshake : Handshake) :
    Fits handshake (runtime.reply surroundings handshake) := by
  have hrejection : runtime.rejection handshake =
      (fault handshake).or (if runtime.session.isSome then some .sessionBusy else none) := by
    unfold Runtime.rejection fault
    split_ifs <;> rfl
  unfold Runtime.reply
  rw [hrejection]
  cases hfault : fault handshake with
  | some reason => exact .faulty reason hfault
  | none =>
      cases runtime.session.isSome with
      | true => exact .busy hfault
      | false =>
          cases runtime.paused with
          | false => exact .accepted hfault _
          | true =>
              cases surroundings.resumeReply with
              | error _ => exact .unavailable hfault
              | ok _ => exact .accepted hfault _

/-- The answers among the messages. -/
def answers (messages : List ServerMessage) : List HandshakeResponse :=
  messages.filterMap fun
    | .handshakeResponse response => some response
    | _ => none

@[simp] theorem answers_append (first second : List ServerMessage) :
    answers (first ++ second) = answers first ++ answers second :=
  List.filterMap_append

/-- The handshakes that the broker takes from a client. -/
def asks (clientId : ClientId) : BrokerCommand → Option Handshake
  | .handshake sender handshake => if sender = clientId then some handshake else none
  | _ => none

section Broker

variable {runtime : Runtime} (step : Step) {clientId : ClientId}

/-- What a step has for a client has one answer, where the client asks in it. -/
theorem answers_addressedBy (hmem : clientId ∈ runtime.clients) :
    answers (addressedBy clientId runtime step) =
      ((commandsOf [step]).filterMap (asks clientId)).map
        (runtime.reply step.surroundings) := by
  have hevents (events : List SwitchEvent) :
      answers (eventsFor clientId runtime.session events) = [] := by
    refine List.filterMap_eq_nil_iff.mpr fun message h => ?_
    obtain ⟨_, rfl⟩ := kind_of_mem_eventsFor h
    rfl
  have hrevocations (ended : List (Session × SessionRevocationReason)) :
      answers (revocationsFor clientId ended) = [] := by
    refine List.filterMap_eq_nil_iff.mpr fun message h => ?_
    obtain ⟨_, _, rfl⟩ := List.mem_map.mp h
    rfl
  rw [addressedBy, addressed, if_pos hmem, answers_append, answers_append, hevents,
    hrevocations, List.nil_append, List.append_nil]
  obtain ⟨surroundings, wakeup⟩ := step
  cases wakeup with
  | tick => rfl
  | command command =>
      cases command with
      | handshake sender handshake =>
          by_cases hself : sender = clientId
          · simp [answers, responsesFor, commandsOf, asks, hself]
          · simp [answers, responsesFor, commandsOf, asks, hself]
      | _ => rfl

/-- A step takes one command at most. -/
theorem asks_step (step : Step) (clientId : ClientId) :
    (commandsOf [step]).filterMap (asks clientId) = [] ∨
      ∃ handshake, (commandsOf [step]).filterMap (asks clientId) = [handshake] := by
  obtain ⟨surroundings, wakeup⟩ := step
  cases wakeup with
  | tick => exact .inl rfl
  | command command =>
      cases hasks : asks clientId command with
      | none => exact .inl (by simp [commandsOf, hasks])
      | some handshake => exact .inr ⟨handshake, by simp [commandsOf, hasks]⟩

/-- The answers to a client are to the first of its handshakes, and to all of
them as long as it is registered. -/
structure Replied (clientId : ClientId) (asked : List Handshake) (runtime : Runtime) :
    Prop where
  answered : ∃ front, front <+: asked ∧
    List.Forall₂ Fits front (answers (enqueued runtime clientId)) ∧
    (clientId ∈ runtime.clients → front = asked)
  early : runtime.nextClient ≤ clientId → asked = []

theorem Replied.next {asked : List Handshake} (h : Replied clientId asked runtime)
    (hsound : Sound runtime)
    (hgiven : (commandsOf [step]).filterMap (asks clientId) ≠ [] →
      clientId < runtime.nextClient) :
    Replied clientId (asked ++ (commandsOf [step]).filterMap (asks clientId))
      (runtime.step step) := by
  obtain ⟨front, hfront, hfits, hall⟩ := h.answered
  obtain ⟨more, hqueue, hmore⟩ := hsound.enqueued_more step clientId
  have hlater : runtime.nextClient ≤ (runtime.step step).nextClient :=
    Serving.nextClient_le runtime step
  refine ⟨?_, fun hearly => ?_⟩
  · by_cases hmem : clientId ∈ runtime.clients
    · have hanswers : (answers more).Sublist
          (((commandsOf [step]).filterMap (asks clientId)).map
            (runtime.reply step.surroundings)) := by
        rw [← answers_addressedBy step hmem]
        exact hmore.filterMap _
      have hstays : clientId ∈ (runtime.step step).clients → answers more =
          ((commandsOf [step]).filterMap (asks clientId)).map
            (runtime.reply step.surroundings) := by
        intro hafter
        rw [← answers_addressedBy step hmem]
        exact congrArg answers
          (List.append_cancel_left (hqueue.symm.trans (hsound.enqueued_step step hafter)))
      rw [hqueue, answers_append]
      cases hall hmem
      rcases asks_step step clientId with hnew | ⟨handshake, hnew⟩
      · rw [hnew] at hanswers ⊢
        rw [List.sublist_nil.mp hanswers, List.append_nil, List.append_nil]
        exact ⟨asked, List.prefix_rfl, hfits, fun _ => rfl⟩
      · rw [hnew] at hanswers hstays ⊢
        rcases List.sublist_singleton.mp hanswers with hnothing | hanswered
        · rw [hnothing, List.append_nil]
          refine ⟨asked, List.prefix_append _ _, hfits, fun hafter => ?_⟩
          cases hnothing.symm.trans (hstays hafter)
        · rw [hanswered]
          refine ⟨asked ++ [handshake], List.prefix_rfl, ?_, fun _ => rfl⟩
          exact List.rel_append hfits (.cons (fits_reply runtime _ handshake) .nil)
    · have hnothing : answers more = [] := by
        have hanswers : (answers more).Sublist (answers (addressedBy clientId runtime step)) :=
          hmore.filterMap _
        rcases addressedBy_of_not_mem hmem step with haddressed | ⟨haddressed, _⟩
        · rw [haddressed] at hanswers
          exact List.sublist_nil.mp hanswers
        · rw [haddressed] at hanswers
          exact List.sublist_nil.mp hanswers
      rw [hqueue, answers_append, hnothing, List.append_nil]
      refine ⟨front, hfront.trans (List.prefix_append _ _), hfits, fun hafter => ?_⟩
      rcases (hsound.passed step).members clientId hafter with hold | ⟨rfl, channel, hasked⟩
      · exact absurd hold hmem
      · have hnew : (commandsOf [step]).filterMap (asks runtime.nextClient) = [] := by
          obtain ⟨surroundings, wakeup⟩ := step
          cases hasked
          rfl
        rw [h.early le_rfl] at hfront
        rw [List.prefix_nil.mp hfront, h.early le_rfl, hnew]
        rfl
  · have hbefore := hlater.trans hearly
    rw [h.early hbefore, List.nil_append]
    by_contra hsome
    exact Nat.lt_irrefl _ (Nat.lt_of_lt_of_le (hgiven hsome) hbefore)

end Broker

variable (setup : Setup)

/-- The handshakes that the broker has taken from a client. -/
def askedBy (setup : Setup) (moves : List Move) (clientId : ClientId) : List Handshake :=
  (commandsOf (brokerSteps setup moves)).filterMap (asks clientId)

/-- The broker takes handshakes under ids that it has given. -/
theorem given_of_asks (moves : List Move) (move : Move) {step : Step}
    (hstep : ((daemon setup).run moves).brokerStep move = some step) {clientId : ClientId}
    (hasks : (commandsOf [step]).filterMap (asks clientId) ≠ []) :
    clientId < ((daemon setup).run moves).runtime.nextClient := by
  have hconsistent := consistent_run setup moves
  generalize (daemon setup).run moves = serving at *
  cases move with
  | receive surroundings =>
      obtain ⟨⟨⟨origin, command⟩, mailbox⟩, htaken, rfl⟩ := Option.map_eq_some_iff.mp hstep
      cases command with
      | handshake sender handshake =>
          by_cases hself : sender = clientId
          · obtain ⟨connectionId, _, hreply⟩ :=
              hconsistent.speaks (Mailbox.mem_log_of_take? htaken) (congrArg some hself)
            exact (hconsistent.linked connectionId).assigned clientId hreply
          · simp [commandsOf, asks, hself] at hasks
      | _ => exact absurd rfl hasks
  | tick surroundings =>
      cases hstep
      exact absurd rfl hasks
  | _ => cases hstep

theorem replied_run (moves : List Move) (clientId : ClientId) :
    Replied clientId (askedBy setup moves clientId) ((daemon setup).run moves).runtime := by
  refine (daemon setup).history_invariant (fun moves serving =>
    Replied clientId (askedBy setup moves clientId) serving.runtime) ?_ ?_ moves
  · exact ⟨⟨[], List.nil_prefix, .nil, fun _ => rfl⟩, fun _ => rfl⟩
  · intro moves move ih
    have hruntime := (Serving.step_acted ((daemon setup).run moves) setup.queueCapacity
      move).runtime_eq
    change Replied clientId _
      (((daemon setup).run moves).step setup.queueCapacity move).runtime
    rw [hruntime, askedBy, brokerSteps_concat]
    cases hstep : ((daemon setup).run moves).brokerStep move with
    | none =>
        rw [Option.toList_none, List.append_nil]
        exact ih
    | some step =>
        rw [Option.toList_some, commandsOf_append, List.filterMap_append]
        exact ih.next step (consistent_run setup moves).sound
          (given_of_asks setup moves move hstep)

/-- The handshakes that a connection has read. -/
def handshakesOf (heard : List ClientMessage) : List Handshake :=
  heard.filterMap fun
    | .handshake handshake => some handshake
    | .heartbeat _ => none

theorem asks_script (clientId : ClientId) (heard : List ClientMessage) :
    (Conversed.script clientId heard).filterMap (asks clientId) = handshakesOf heard := by
  have hasks : (asks clientId ∘ command clientId) = fun
      | .handshake handshake => some handshake
      | .heartbeat _ => none := by
    funext message
    cases message with
    | handshake handshake => exact if_pos rfl
    | heartbeat _ => rfl
  rw [Conversed.script, List.filterMap_append, List.filterMap_map, hasks]
  exact List.append_nil _

/-- What the broker has taken is the beginning of what the connection read. -/
theorem askedBy_isPrefix (moves : List Move) {connectionId : ConnectionId}
    {clientId : ClientId}
    (hreply : (((daemon setup).run moves).connections connectionId).reply =
      .registered clientId) :
    askedBy setup moves clientId <+:
      handshakesOf (((daemon setup).run moves).connections connectionId).heard := by
  have hspoken := ((consistent_run setup moves).spoken hreply).1.filterMap (asks clientId)
  rw [asks_script, ← commandsOf_brokerSteps] at hspoken
  have hspeaks : (spokenFor clientId (commandsOf (brokerSteps setup moves))).filterMap
      (asks clientId) = askedBy setup moves clientId := by
    rw [spokenFor, List.filterMap_filter, askedBy]
    refine List.filterMap_congr fun command _ => ?_
    by_cases hspeaker : speaker command = some clientId
    · simp [hspeaker]
    · have hsilent : asks clientId command = none := by
        cases command with
        | handshake sender handshake =>
            exact if_neg fun hself => hspeaker (congrArg some hself)
        | _ => rfl
      simp [hspeaker, hsilent]
  rwa [hspeaks] at hspoken

/-- The answers on a socket are to the handshakes that came on it, one for each
and in order, as far as they go, and each fits its handshake. While its client
is registered the broker has answered all that it has taken. -/
theorem answered_in_turn (moves : List Move) (connectionId : ConnectionId) :
    let serving := (daemon setup).run moves
    (∃ front, front <+: handshakesOf (serving.connections connectionId).heard ∧
      List.Forall₂ Fits front (answers (serving.written connectionId))) ∧
    ∀ clientId, (serving.connections connectionId).reply = .registered clientId →
      clientId ∈ serving.runtime.clients →
      List.Forall₂ Fits (askedBy setup moves clientId)
        (answers (enqueued serving.runtime clientId)) := by
  intro serving
  constructor
  · by_cases hreply : ∃ clientId,
        (serving.connections connectionId).reply = .registered clientId
    · obtain ⟨clientId, hreply⟩ := hreply
      obtain ⟨front, hfront, hfits, _⟩ := (replied_run setup moves clientId).answered
      have hwritten : answers (serving.written connectionId) <+:
          answers (enqueued serving.runtime clientId) := by
        rw [Serving.written_of_reply hreply]
        exact (List.take_prefix _ _).filterMap _
      have htaken := List.forall₂_take (answers (serving.written connectionId)).length hfits
      rw [← List.prefix_iff_eq_take.mp hwritten] at htaken
      refine ⟨_, (List.take_prefix _ front).trans (hfront.trans ?_), htaken⟩
      exact askedBy_isPrefix setup moves hreply
    · rw [Serving.written_of_silent (not_exists.mp hreply)]
      exact ⟨[], List.nil_prefix, .nil⟩
  · intro clientId _ hmem
    obtain ⟨front, _, hfits, hall⟩ := (replied_run setup moves clientId).answered
    rwa [hall hmem] at hfits

end Usahp.Server
