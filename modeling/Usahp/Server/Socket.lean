import Usahp.Broker.Messages
import Usahp.Broker.Notices
import Usahp.Listener
import Usahp.Server.Departure

/-!
What reaches the other end of a socket. A connection writes the messages of its
client's queue one after another, so what it has written is the text of a
beginning of them. A listener at the other end prints these messages, and two
listeners print the events that both of them get in the same order.
-/

namespace Usahp.Server

open Std Usahp.Library Usahp.Broker

/-- What a connection has written is the beginning of its client's queue. -/
structure Written (runtime : Runtime) (connection : Connection) : Prop where
  silent : (∀ clientId, connection.reply ≠ .registered clientId) → connection.frames = []
  text : ∀ clientId, connection.reply = .registered clientId →
    connection.frames <+: (enqueued runtime clientId).map ServerMessage.encode

theorem enqueued_isPrefix {runtime : Runtime} (hsound : Sound runtime) (step : Step)
    (clientId : ClientId) :
    enqueued runtime clientId <+: enqueued (runtime.step step) clientId := by
  obtain ⟨more, hmore, _⟩ := hsound.enqueued_more step clientId
  exact ⟨more, hmore.symm⟩

theorem Written.step {runtime : Runtime} {connection : Connection}
    (h : Written runtime connection) (hsound : Sound runtime) (step : Step) :
    Written (runtime.step step) connection := by
  refine ⟨h.silent, fun clientId hreply => ?_⟩
  exact (h.text clientId hreply).trans ((enqueued_isPrefix hsound step clientId).map _)

theorem Written.become {runtime : Runtime} {connection : Connection}
    (h : Written runtime connection) (phase : Phase) (heard : List ClientMessage) :
    Written runtime { connection with phase, heard } :=
  ⟨h.silent, h.text⟩

/-- The next message of the queue is written. -/
theorem Written.forward {runtime : Runtime} {connection : Connection}
    (h : Written runtime connection) {clientId : ClientId}
    (hreply : connection.reply = .registered clientId) {message : ServerMessage}
    (hnext : (enqueued runtime clientId)[connection.frames.length]? = some message) :
    Written runtime { connection with frames := connection.frames ++ [message.encode] } := by
  refine ⟨fun hsilent => absurd hreply (hsilent clientId), fun other hother => ?_⟩
  cases hreply.symm.trans hother
  obtain ⟨messages, hmessages, hframes⟩ := List.prefix_map_iff.mp (h.text clientId hreply)
  obtain ⟨later, hlater⟩ := hmessages
  have hlength : connection.frames.length = messages.length := by
    rw [hframes, List.length_map]
  rw [hlength, ← hlater, List.getElem?_append_right le_rfl, Nat.sub_self,
    ← List.head?_eq_getElem?] at hnext
  obtain ⟨rest, rfl⟩ := List.head?_eq_some_iff.mp hnext
  refine ⟨rest.map ServerMessage.encode, ?_⟩
  rw [hframes, ← hlater]
  simp

section Step

variable {serving after : Serving} {queueCapacity : ℕ+} {move : Move}

def WrittenAll (serving : Serving) : Prop :=
  ∀ connectionId, Written serving.runtime (serving.connections connectionId)

theorem WrittenAll.update (h : WrittenAll serving) {connectionId : ConnectionId}
    {connection : Connection} (hself : Written serving.runtime connection) :
    WrittenAll (serving.update connectionId connection) :=
  Serving.forall_update (fun _ connection => Written serving.runtime connection) hself
    fun other _ => h other

theorem WrittenAll.enter (h : WrittenAll serving) (connectionId : ConnectionId)
    (phase : Phase) : WrittenAll (serving.enter connectionId phase) :=
  h.update ((h connectionId).become phase _)

theorem WrittenAll.step (h : WrittenAll serving) (hconsistent : Consistent serving)
    (hacted : serving.Acted queueCapacity move after) : WrittenAll after := by
  cases hacted with
  | idle _ _ => exact h
  | connected connectionId gaps _ => exact h.enter connectionId _
  | posted connectionId command next _ _ =>
      have hposted : WrittenAll { serving with
          mailbox := serving.mailbox.post (.connection connectionId) command } := h
      exact hposted.enter connectionId next
  | answered connectionId clientId _ _ => exact h.enter connectionId _
  | turnedAway connectionId _ _ => exact h.enter connectionId _
  | heard connectionId clientId frame message _ _ =>
      exact h.update ((h connectionId).become _ _)
  | forwarded connectionId clientId message hselecting hupcoming =>
      have hconversed := (hconsistent.linked connectionId).conversed
      rw [hselecting] at hconversed
      exact h.update ((h connectionId).forward hconversed.reply_of_selecting hupcoming)
  | hungUp connectionId clientId _ _ _ => exact h.enter connectionId _
  | polled _ => exact h
  | reported _ _ _ => exact h
  | inputSent _ _ => exact h
  | registered surroundings connectionId channel mailbox htaken =>
      have hpending := (Serving.prompt_of_register htaken (hconsistent.linked connectionId)).1
      have hframes : (serving.connections connectionId).frames = [] :=
        (h connectionId).silent fun clientId => by simp [hpending]
      have hnext : WrittenAll
          { serving with runtime := serving.runtime.register channel, mailbox } := fun other =>
        (h other).step hconsistent.sound ⟨surroundings, .command (.register channel)⟩
      refine hnext.update ⟨fun _ => hframes, fun clientId _ => ?_⟩
      exact hframes ▸ List.nil_prefix
  | received surroundings origin command mailbox _ _ =>
      exact fun other => (h other).step hconsistent.sound ⟨surroundings, .command command⟩
  | ticked surroundings =>
      exact fun other => (h other).step hconsistent.sound ⟨surroundings, .tick⟩

end Step

variable (setup : Setup)

theorem writtenAll_run (moves : List Move) : WrittenAll ((daemon setup).run moves) := by
  refine (daemon setup).history_invariant (fun _ => WrittenAll) ?_ ?_ moves
  · exact fun _ => ⟨fun _ => rfl, fun _ h => Reply.noConfusion h⟩
  · intro moves move h
    exact h.step (consistent_run setup moves) (Serving.step_acted _ setup.queueCapacity move)

/-- The messages that a connection has written. -/
def Serving.written (serving : Serving) (connectionId : ConnectionId) : List ServerMessage :=
  match (serving.connections connectionId).reply with
  | .registered clientId =>
      (enqueued serving.runtime clientId).take (serving.connections connectionId).frames.length
  | _ => []

theorem Serving.written_of_reply {serving : Serving} {connectionId : ConnectionId}
    {clientId : ClientId}
    (hreply : (serving.connections connectionId).reply = .registered clientId) :
    serving.written connectionId =
      (enqueued serving.runtime clientId).take
        (serving.connections connectionId).frames.length := by
  unfold written
  rw [hreply]

theorem Serving.written_of_silent {serving : Serving} {connectionId : ConnectionId}
    (hsilent : ∀ clientId,
      (serving.connections connectionId).reply ≠ .registered clientId) :
    serving.written connectionId = [] := by
  unfold written
  split
  · exact absurd ‹_› (hsilent _)
  · rfl

/-- A connection is silent or has a client, whose queue it writes. -/
theorem WrittenAll.frames {serving : Serving} (h : WrittenAll serving)
    (connectionId : ConnectionId) :
    (serving.connections connectionId).frames =
      (serving.written connectionId).map ServerMessage.encode := by
  by_cases hreply : ∃ clientId,
      (serving.connections connectionId).reply = .registered clientId
  · obtain ⟨clientId, hreply⟩ := hreply
    have htext := (h connectionId).text clientId hreply
    rw [Serving.written_of_reply hreply, List.map_take]
    exact List.prefix_iff_eq_take.mp htext
  · have hsilent := not_exists.mp hreply
    rw [Serving.written_of_silent hsilent, (h connectionId).silent hsilent]
    rfl

/-- A fact about the beginnings of all queues is one about what is written. -/
theorem Serving.written_induction {serving : Serving}
    (property : List ServerMessage → Prop) (hnil : property [])
    (hqueue : ∀ clientId messages, messages <+: enqueued serving.runtime clientId →
      property messages)
    (connectionId : ConnectionId) : property (serving.written connectionId) := by
  unfold written
  split
  · exact hqueue _ _ (List.take_prefix _ _)
  · exact hnil

theorem written_introduced (moves : List Move) (connectionId : ConnectionId) :
    Introduced (((daemon setup).run moves).written connectionId) := by
  refine Serving.written_induction Introduced .nil ?_ connectionId
  intro clientId messages hmessages
  rw [runtime_run] at hmessages
  have hintroduced := introduced_run setup.mappings setup.started (brokerSteps setup moves)
  exact (hintroduced clientId).1.of_isPrefix hmessages

theorem written_ascending (moves : List Move) (connectionId : ConnectionId) :
    (eventsOf (((daemon setup).run moves).written connectionId)).Pairwise
      (·.sequence < ·.sequence) := by
  refine Serving.written_induction
    (fun messages => (eventsOf messages).Pairwise (·.sequence < ·.sequence))
    List.Pairwise.nil ?_ connectionId
  intro clientId messages hmessages
  rw [runtime_run] at hmessages
  have hall := received_ascending setup.mappings setup.started (brokerSteps setup moves) clientId
  have hevents : (eventsOf messages).Sublist (eventsOf _) :=
    hmessages.sublist.filterMap _
  exact hall.sublist hevents

theorem written_bracketed (moves : List Move) (connectionId : ConnectionId) :
    ∃ current, Bracketed (notices (((daemon setup).run moves).written connectionId)) current := by
  refine Serving.written_induction (fun messages => ∃ current, Bracketed (notices messages) current)
    ⟨none, .nil⟩ ?_ connectionId
  intro clientId messages hmessages
  rw [runtime_run] at hmessages
  obtain ⟨current, haware⟩ :=
    aware_run setup.mappings setup.started (brokerSteps setup moves) clientId
  have hnotices : notices messages <+: notices _ := hmessages.filterMap notice?
  exact haware.bracketed.of_isPrefix hnotices

/-- What is on a socket is the text of the first messages that the broker has
enqueued for its client: a hello, which comes once, and then a part of what is
addressed to the client, in order, and without a gap while the client is
registered. The events ascend, an accepted session is revoked before the next
one is accepted, and any two sockets agree on the order of the events that both
have. -/
theorem socket_stream (moves : List Move) (connectionId other : ConnectionId) :
    let serving := (daemon setup).run moves
    let messages := serving.written connectionId
    (serving.connections connectionId).frames = messages.map ServerMessage.encode ∧
    Introduced messages ∧
    (eventsOf messages).Pairwise (·.sequence < ·.sequence) ∧
    (∃ current, Bracketed (notices messages) current) ∧
    (∀ clientId, (serving.connections connectionId).reply = .registered clientId →
      let addressed := addressedAlong clientId (Runtime.new setup.mappings setup.started)
        (brokerSteps setup moves)
      messages <+: enqueued serving.runtime clientId ∧ messages.Sublist addressed ∧
        (clientId ∈ serving.runtime.clients → messages <+: addressed)) ∧
    (eventsOf messages).filter (· ∈ eventsOf (serving.written other)) =
      (eventsOf (serving.written other)).filter (· ∈ eventsOf messages) := by
  intro serving messages
  refine ⟨(writtenAll_run setup moves).frames connectionId,
    written_introduced setup moves connectionId, written_ascending setup moves connectionId,
    written_bracketed setup moves connectionId, ?_, ?_⟩
  · intro clientId hreply addressed
    have hqueue : messages <+: enqueued serving.runtime clientId := by
      change serving.written connectionId <+: _
      rw [Serving.written_of_reply hreply]
      exact List.take_prefix _ _
    have hruntime : serving.runtime = _ := runtime_run setup moves
    refine ⟨hqueue, ?_, fun hmem => ?_⟩
    · rw [hruntime] at hqueue
      exact hqueue.sublist.trans (enqueued_sublist setup.mappings setup.started
        (brokerSteps setup moves) clientId)
    · rw [hruntime] at hqueue hmem
      rwa [enqueued_of_registered setup.mappings setup.started _ hmem] at hqueue
  · exact common_eq (written_ascending setup moves connectionId)
      (written_ascending setup moves other)

/-- While the numbers of the events are 64 bits wide, all of it can be read. -/
theorem written_transportable (moves : List Move) (connectionId : ConnectionId)
    (hfew : ((daemon setup).run moves).runtime.sequence < 2 ^ 64) :
    ∀ message ∈ ((daemon setup).run moves).written connectionId, message.Transportable := by
  refine Serving.written_induction (fun messages => ∀ message ∈ messages, message.Transportable)
    (fun _ h => absurd h List.not_mem_nil) ?_ connectionId
  intro clientId messages hmessages message hmem
  rw [runtime_run] at hmessages hfew
  apply attempted_transportable setup.mappings setup.started (brokerSteps setup moves) hfew clientId
  exact (enqueued_sublist_attempted _ clientId).subset (hmessages.subset hmem)

/-- A listener that has connected and got some of what is on its socket, whatever
other frames came with it, has met no error. It has printed that it is connected
and then the readable lines of as many messages of the broker; with `--json` it
has printed the texts themselves instead, one line for each. -/
theorem listened (escaped : Char → Bool) (url : String) (moves : List Move)
    (connectionId : ConnectionId) (incoming : List Incoming)
    (hfew : ((daemon setup).run moves).runtime.sequence < 2 ^ 64)
    (hreceived : .failed ∉ incoming)
    (htexts : incoming.filterMap Incoming.text? <+:
      (((daemon setup).run moves).connections connectionId).frames.map some) :
    let serving := (daemon setup).run moves
    let count := (incoming.filterMap Incoming.text?).length
    let messages := (serving.written connectionId).take count
    usahpListen escaped url false (some incoming) =
      (.line ("connected to " ++ url) ::
        (messages.flatMap (·.readable escaped)).map .line, none) ∧
    usahpListen escaped url true (some incoming) =
      (.line ("connected to " ++ url) ::
        ((serving.connections connectionId).frames.take count).map .json, none) := by
  intro serving count messages
  have hframes : (serving.connections connectionId).frames = _ :=
    (writtenAll_run setup moves).frames connectionId
  have htaken : incoming.filterMap Incoming.text? =
      messages.map fun message => some message.encode := by
    have htake := List.prefix_iff_eq_take.mp htexts
    change _ = List.take _ ((serving.connections connectionId).frames.map some) at htake
    rw [hframes, ← List.map_take, ← List.map_take, List.map_map] at htake
    exact htake
  have htransportable : ∀ message ∈ messages, message.Transportable := fun message hmem =>
    written_transportable setup moves connectionId hfew message (List.mem_of_mem_take hmem)
  have hlistened := fun json =>
    listen_encode escaped json incoming hreceived htaken htransportable
  constructor
  · have hlines : messages.flatMap (printed escaped false) =
        (messages.flatMap (·.readable escaped)).map .line := by
      rw [List.map_flatMap]
      rfl
    simp only [usahpListen, hlistened, hlines]
  · have htexts : messages.flatMap (printed escaped true) =
        ((serving.connections connectionId).frames.take count).map .json := by
      rw [hframes, ← List.map_take, List.map_map, ← List.flatMap_singleton' (List.map _ messages),
        List.flatMap_map]
      rfl
    simp only [usahpListen, hlistened, htexts]

/-- A client connects and gets its hello. -/
def greeted : List Move :=
  [.connect 7 [], .post 7, .receive calm, .answer 7, .forward 7]

theorem greeted_listened :
    let incoming :=
      [.other, .text (((daemon plainSetup).run greeted).connections 7).frames[0]?]
    usahpListen (fun _ => false) "ws://127.0.0.1:7312" false (some incoming) =
      (["connected to ws://127.0.0.1:7312", "protocol 0.3.0",
        "  primary: Released"].map .line, none) ∧
    usahpListen (fun _ => false) "ws://127.0.0.1:7312" true (some incoming) =
      (.line "connected to ws://127.0.0.1:7312" ::
        (((daemon plainSetup).run greeted).connections 7).frames.map .json, none) := by
  have hlength : (((daemon plainSetup).run greeted).connections 7).frames.length = 1 := by rfl
  have hwritten : ((daemon plainSetup).run greeted).written 7 =
      [.hello ⟨"0.3.0", [⟨"primary", .released, none⟩]⟩] := by decide
  obtain ⟨frame, hframe⟩ := List.length_eq_one_iff.mp hlength
  have htext : [Incoming.other, .text (some frame)].filterMap Incoming.text? = [some frame] := rfl
  obtain ⟨hreadable, hjson⟩ := listened plainSetup (fun _ => false) "ws://127.0.0.1:7312" greeted
    7 [.other, .text (some frame)] (by decide) (by simp)
    (by rw [htext, hframe]; exact List.prefix_rfl)
  rw [htext, hwritten] at hreadable
  rw [htext, hframe] at hjson
  rw [hframe]
  exact ⟨hreadable, hjson⟩

end Usahp.Server
