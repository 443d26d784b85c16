import Usahp.Broker.Steady
import Usahp.Server.Serving

/-!
What the broker is told by the tasks around it. A connection speaks for one
client id, its own: it registers, passes on what it reads in order, and
unregisters at most once and last. No one else uses its id.

`Conversed` is what a connection has sent at each phase, and `Consistent` the
invariant of the daemon that it is a part of.
-/

namespace Usahp.Server

open Std Usahp.Library Usahp.Broker

/-- The receiver of a channel does nothing before the first send. -/
def Prompt (channel : Channel) : Prop :=
  ∃ gaps, channel.gaps = ⟨0, false⟩ :: gaps

/-- What a connection has sent to the broker, at a phase and with what it has
read. -/
inductive Conversed : Phase → List ClientMessage → Reply → List BrokerCommand → Prop
  | absent : Conversed .absent [] .pending []
  | registering (channel : Channel) (prompt : Prompt channel) :
      Conversed (.registering channel) [] .pending []
  | awaiting (channel : Channel) (prompt : Prompt channel) (reply : Reply) :
      Conversed .awaiting [] reply [.register channel]
  | selecting (clientId : ClientId) (channel : Channel) (heard : List ClientMessage) :
      Conversed (.selecting clientId) heard (.registered clientId)
        (.register channel :: heard.map (command clientId))
  | relaying (clientId : ClientId) (channel : Channel) (heard : List ClientMessage)
      (message : ClientMessage) :
      Conversed (.relaying clientId message) (heard ++ [message]) (.registered clientId)
        (.register channel :: heard.map (command clientId))
  | leaving (clientId : ClientId) (channel : Channel) (heard : List ClientMessage) :
      Conversed (.leaving clientId) heard (.registered clientId)
        (.register channel :: heard.map (command clientId))
  | ended (clientId : ClientId) (channel : Channel) (heard : List ClientMessage) :
      Conversed .ended heard (.registered clientId)
        (.register channel :: (heard.map (command clientId) ++ [.unregister clientId]))

/-- The client id that a command is sent under. -/
def speaker : BrokerCommand → Option ClientId
  | .unregister clientId => some clientId
  | .handshake clientId _ => some clientId
  | .heartbeat clientId _ => some clientId
  | _ => none

@[simp] theorem speaker_command (clientId : ClientId) (message : ClientMessage) :
    speaker (command clientId message) = some clientId := by
  cases message <;> rfl

theorem command_ne_register (clientId : ClientId) (message : ClientMessage)
    (channel : Channel) : command clientId message ≠ .register channel := by
  cases message <;> rintro ⟨⟩

theorem command_ne_unregister (clientId other : ClientId) (message : ClientMessage) :
    command clientId message ≠ .unregister other := by
  cases message <;> rintro ⟨⟩

namespace Conversed

variable {phase : Phase} {heard : List ClientMessage} {reply : Reply}
  {sent : List BrokerCommand} {clientId : ClientId}

theorem connect (h : Conversed .absent heard reply sent) (channel : Channel)
    (hprompt : Prompt channel) : Conversed (.registering channel) heard reply sent := by
  cases h
  exact .registering channel hprompt

theorem post (h : Conversed phase heard reply sent) {command : BrokerCommand} {next : Phase}
    (hwaiting : phase.waiting = some (command, next)) :
    Conversed next heard reply (sent ++ [command]) := by
  cases h with
  | registering channel prompt =>
      cases hwaiting
      exact .awaiting channel prompt _
  | relaying clientId channel heard message =>
      cases hwaiting
      rw [List.cons_append, ← List.map_singleton, ← List.map_append]
      exact .selecting clientId channel _
  | leaving clientId channel heard =>
      cases hwaiting
      exact .ended clientId channel heard
  | _ => cases hwaiting

theorem answer (h : Conversed .awaiting heard (.registered clientId) sent) :
    Conversed (.selecting clientId) heard (.registered clientId) sent := by
  cases h with
  | awaiting channel _ _ => exact .selecting clientId channel []

theorem read (h : Conversed (.selecting clientId) heard reply sent)
    (message : ClientMessage) :
    Conversed (.relaying clientId message) (heard ++ [message]) reply sent := by
  cases h with
  | selecting _ channel _ => exact .relaying clientId channel heard message

theorem hangUp (h : Conversed (.selecting clientId) heard reply sent) :
    Conversed (.leaving clientId) heard reply sent := by
  cases h with
  | selecting _ channel _ => exact .leaving clientId channel heard

theorem reply_of_selecting (h : Conversed (.selecting clientId) heard reply sent) :
    reply = .registered clientId := by
  cases h
  rfl

/-- There is no second registration. -/
theorem plain_of_mem_tail (h : Conversed phase heard reply sent) {command : BrokerCommand}
    (hmem : command ∈ sent.tail) (channel : Channel) : command ≠ .register channel := by
  have hheard {id : ClientId} {heard : List ClientMessage}
      (hmem : command ∈ heard.map (Server.command id)) : command ≠ .register channel := by
    obtain ⟨message, _, rfl⟩ := List.mem_map.mp hmem
    exact command_ne_register id message channel
  cases h with
  | absent => cases hmem
  | registering => cases hmem
  | awaiting => cases hmem
  | selecting => exact hheard hmem
  | relaying => exact hheard hmem
  | leaving => exact hheard hmem
  | ended =>
      rcases List.mem_append.mp hmem with hmem | hmem
      · exact hheard hmem
      · cases List.mem_singleton.mp hmem
        rintro ⟨⟩

theorem first_of_register (h : Conversed phase heard reply sent) {taken : List BrokerCommand}
    {channel : Channel} (hnext : taken ++ [.register channel] <+: sent) : taken = [] := by
  cases taken with
  | nil => rfl
  | cons first rest =>
      obtain ⟨later, hsent⟩ := hnext
      have hmem : .register channel ∈ sent.tail := by
        rw [← hsent]
        simp
      exact absurd rfl (h.plain_of_mem_tail hmem channel)

/-- A registration is taken while its reply is waited for. -/
theorem register (h : Conversed phase heard .pending sent) {channel : Channel}
    (hnext : [.register channel] <+: sent) (reply : Reply) :
    Conversed phase heard reply sent ∧ Prompt channel := by
  cases h with
  | absent => simp at hnext
  | registering => simp at hnext
  | awaiting other prompt _ =>
      cases (List.cons_prefix_cons.mp hnext).1
      exact ⟨.awaiting channel prompt reply, prompt⟩

/-- What is not a registration is sent under the id that was given. -/
theorem of_mem (h : Conversed phase heard reply sent) {command : BrokerCommand}
    (hmem : command ∈ sent) :
    (∃ channel, command = .register channel) ∨
      ∃ clientId, reply = .registered clientId ∧ speaker command = some clientId := by
  have hheard {id : ClientId} {channel : Channel} {heard : List ClientMessage}
      (hmem : command ∈ BrokerCommand.register channel :: heard.map (Server.command id)) :
      (∃ channel, command = .register channel) ∨
        ∃ clientId, Reply.registered id = .registered clientId ∧
          speaker command = some clientId := by
    rcases List.mem_cons.mp hmem with rfl | hmem
    · exact .inl ⟨channel, rfl⟩
    · obtain ⟨message, _, rfl⟩ := List.mem_map.mp hmem
      exact .inr ⟨id, rfl, speaker_command id message⟩
  cases h with
  | absent => cases hmem
  | registering => cases hmem
  | awaiting channel => exact .inl ⟨channel, List.mem_singleton.mp hmem⟩
  | selecting => exact hheard hmem
  | relaying => exact hheard hmem
  | leaving => exact hheard hmem
  | ended clientId channel heard =>
      rw [← List.cons_append] at hmem
      rcases List.mem_append.mp hmem with hmem | hmem
      · exact hheard hmem
      · cases List.mem_singleton.mp hmem
        exact .inr ⟨clientId, rfl, rfl⟩

/-- A connection speaks under the id that it was given. -/
theorem speaks (h : Conversed phase heard reply sent) {command : BrokerCommand}
    (hmem : command ∈ sent) {clientId : ClientId} (hspeaker : speaker command = some clientId) :
    reply = .registered clientId := by
  rcases h.of_mem hmem with ⟨channel, rfl⟩ | ⟨given, hreply, hgiven⟩
  · cases hspeaker
  · rw [hgiven] at hspeaker
    cases hspeaker
    exact hreply

theorem no_revocation (h : Conversed phase heard reply sent)
    (reason : SessionRevocationReason) : .revokeSession reason ∉ sent := by
  intro hmem
  rcases h.of_mem hmem with ⟨channel, heq⟩ | ⟨clientId, _, hspeaker⟩
  · cases heq
  · cases hspeaker

/-- Whatever comes first is a registration. -/
theorem head_register (h : Conversed phase heard reply sent) {command : BrokerCommand}
    (hhead : [command] <+: sent) : ∃ channel, command = .register channel := by
  cases h with
  | absent => simp at hhead
  | registering => simp at hhead
  | awaiting channel => exact ⟨channel, (List.cons_prefix_cons.mp hhead).1⟩
  | selecting _ channel => exact ⟨channel, (List.cons_prefix_cons.mp hhead).1⟩
  | relaying _ channel => exact ⟨channel, (List.cons_prefix_cons.mp hhead).1⟩
  | leaving _ channel => exact ⟨channel, (List.cons_prefix_cons.mp hhead).1⟩
  | ended _ channel => exact ⟨channel, (List.cons_prefix_cons.mp hhead).1⟩

/-- What a connection says after its registration: what it has read, and that
it leaves. -/
def script (clientId : ClientId) (heard : List ClientMessage) : List BrokerCommand :=
  heard.map (command clientId) ++ [.unregister clientId]

theorem speaker_of_mem_script {clientId : ClientId} {heard : List ClientMessage}
    {command : BrokerCommand} (hmem : command ∈ script clientId heard) :
    speaker command = some clientId := by
  rcases List.mem_append.mp hmem with hmem | hmem
  · obtain ⟨message, _, rfl⟩ := List.mem_map.mp hmem
    exact speaker_command clientId message
  · cases List.mem_singleton.mp hmem
    rfl

theorem followed (h : Conversed phase heard (.registered clientId) sent) :
    ∃ channel rest, sent = .register channel :: rest ∧ rest <+: script clientId heard ∧
      (.unregister clientId ∈ rest → phase = .ended) := by
  have hnever {heard : List ClientMessage}
      (hmem : .unregister clientId ∈ heard.map (command clientId)) : phase = .ended := by
    obtain ⟨message, _, heq⟩ := List.mem_map.mp hmem
    exact absurd heq (command_ne_unregister clientId clientId message)
  cases h with
  | awaiting channel => exact ⟨channel, [], rfl, List.nil_prefix, fun h => absurd h (by simp)⟩
  | selecting _ channel => exact ⟨channel, _, rfl, List.prefix_append _ _, hnever⟩
  | relaying _ channel heard message =>
      refine ⟨channel, _, rfl, ?_, hnever⟩
      rw [script, List.map_append, List.append_assoc]
      exact List.prefix_append _ _
  | leaving _ channel => exact ⟨channel, _, rfl, List.prefix_append _ _, hnever⟩
  | ended _ channel => exact ⟨channel, _, rfl, List.prefix_rfl, fun _ => rfl⟩

end Conversed

/-- A connection and its part of the mailbox: what it has sent and what of it
has been taken. -/
structure Linked (nextClient : ClientId) (connection : Connection)
    (sent taken : List BrokerCommand) : Prop where
  conversed : Conversed connection.phase connection.heard connection.reply sent
  replied : connection.reply = .pending ↔ taken = []
  welcome : connection.reply ≠ .dropped
  assigned : ∀ clientId, connection.reply = .registered clientId → clientId < nextClient

theorem Linked.mono {first second : ClientId} {connection : Connection}
    {sent taken : List BrokerCommand} (h : Linked first connection sent taken)
    (hle : first ≤ second) : Linked second connection sent taken :=
  ⟨h.conversed, h.replied, h.welcome, fun clientId hreply =>
    Nat.lt_of_lt_of_le (h.assigned clientId hreply) hle⟩

theorem Linked.become {nextClient : ClientId} {connection : Connection}
    {sent taken : List BrokerCommand} (h : Linked nextClient connection sent taken)
    {phase : Phase} {heard : List ClientMessage}
    (hconversed : Conversed phase heard connection.reply sent) (frames : List Json) :
    Linked nextClient ⟨phase, connection.reply, frames, heard⟩ sent taken :=
  ⟨hconversed, h.replied, h.welcome, h.assigned⟩

namespace Serving

variable {serving after : Serving} {queueCapacity : ℕ+} {move : Move}

def LinkedAt (serving : Serving) (connectionId : ConnectionId) : Prop :=
  Linked serving.runtime.nextClient (serving.connections connectionId)
    (serving.mailbox.sent (.connection connectionId))
    (serving.mailbox.takenFrom (.connection connectionId))

/-- A fact about every connection, one of which has changed. -/
theorem forall_update (property : ConnectionId → Connection → Prop)
    {connectionId : ConnectionId} {connection : Connection}
    (hself : property connectionId connection)
    (hothers : ∀ other, other ≠ connectionId → property other (serving.connections other))
    (other : ConnectionId) :
    property other ((serving.update connectionId connection).connections other) := by
  by_cases h : other = connectionId
  · subst h
    simpa [update] using hself
  · simpa [update, h] using hothers other h

theorem linked_update {connectionId : ConnectionId} {connection : Connection}
    (hself : Linked serving.runtime.nextClient connection
      (serving.mailbox.sent (.connection connectionId))
      (serving.mailbox.takenFrom (.connection connectionId)))
    (hothers : ∀ other, other ≠ connectionId → serving.LinkedAt other)
    (other : ConnectionId) : (serving.update connectionId connection).LinkedAt other :=
  forall_update (fun other connection => Linked serving.runtime.nextClient connection
    (serving.mailbox.sent (.connection other)) (serving.mailbox.takenFrom (.connection other)))
    hself hothers other

/-- What one sender posts does not concern the others. -/
theorem linked_post {origin : Origin} {connectionId : ConnectionId}
    (hne : origin ≠ .connection connectionId) (command : BrokerCommand)
    (h : serving.LinkedAt connectionId) :
    ({ serving with mailbox := serving.mailbox.post origin command } : Serving).LinkedAt
      connectionId := by
  have hsent := serving.mailbox.sent_post (.connection connectionId) origin command
  rw [if_neg hne, List.append_nil] at hsent
  unfold LinkedAt
  dsimp only
  rw [hsent]
  exact h

theorem nextClient_le (runtime : Runtime) (step : Step) :
    runtime.nextClient ≤ (runtime.step step).nextClient := by
  have hnext : (runtime.step step).nextClient =
      runtime.nextClient + step.wakeup.registrations :=
    runtime.turn_nextClient step.surroundings (runtime.step_turn step)
  rw [hnext]
  exact Nat.le_add_right _ _

/-- The broker takes the first message of a channel whose receiver is there. -/
theorem replyTo_register (runtime : Runtime) {channel : Channel} (hprompt : Prompt channel) :
    replyTo runtime (runtime.register channel) = .registered runtime.nextClient := by
  obtain ⟨gaps, hgaps⟩ := hprompt
  have haccepts : (Sender.ofChannel channel : Sender ServerMessage).Accepts := by
    refine ⟨?_, ?_⟩
    · simp [Sender.ofChannel, Sender.settle, hgaps]
    · simp [Sender.ofChannel, Sender.settle, hgaps, channel.capacity_pos]
  rw [replyTo, if_pos]
  apply (runtime.mem_register_clients channel _).mpr
  exact .inr ⟨rfl, by rw [Sender.trySend_isOk, decide_eq_true haccepts]⟩

/-- A message that is not a registration leaves the reply alone. -/
theorem linked_received {origin : Origin} {command : BrokerCommand}
    {mailbox : Mailbox Origin BrokerCommand}
    (htaken : serving.mailbox.take? = some ((origin, command), mailbox))
    {connectionId : ConnectionId} (hplain : ∀ channel,
      origin = .connection connectionId → command ≠ .register channel)
    (h : serving.LinkedAt connectionId) :
    Linked serving.runtime.nextClient (serving.connections connectionId)
      (mailbox.sent (.connection connectionId))
      (mailbox.takenFrom (.connection connectionId)) := by
  have hnext := Mailbox.next_of_take? htaken
  unfold LinkedAt at h
  rw [Mailbox.sent_of_take? htaken, Mailbox.takenFrom_of_take? htaken]
  refine ⟨h.conversed, ?_, h.welcome, h.assigned⟩
  rw [h.replied]
  split_ifs with horigin
  · dsimp only at horigin hnext
    subst horigin
    constructor
    · intro hnone
      rw [hnone, List.nil_append] at hnext
      obtain ⟨channel, hregister⟩ := h.conversed.head_register hnext
      exact absurd hregister (hplain channel rfl)
    · intro hboth
      exact (List.append_eq_nil_iff.mp hboth).1
  · rw [List.append_nil]

/-- A registration is taken from a connection that waits for the reply. -/
theorem prompt_of_register {connectionId : ConnectionId} {channel : Channel}
    {mailbox : Mailbox Origin BrokerCommand}
    (htaken : serving.mailbox.take? =
      some ((.connection connectionId, .register channel), mailbox))
    (h : serving.LinkedAt connectionId) :
    (serving.connections connectionId).reply = .pending ∧ Prompt channel ∧
      ∀ reply, Conversed (serving.connections connectionId).phase
        (serving.connections connectionId).heard reply
        (serving.mailbox.sent (.connection connectionId)) := by
  have hnext := Mailbox.next_of_take? htaken
  have hfirst := h.conversed.first_of_register hnext
  have hpending := h.replied.mpr hfirst
  have hconversed := h.conversed
  rw [hpending] at hconversed
  dsimp only at hfirst hnext
  rw [hfirst, List.nil_append] at hnext
  exact ⟨hpending, (hconversed.register hnext .pending).2, fun reply =>
    (hconversed.register hnext reply).1⟩

theorem linked_registered {connectionId : ConnectionId} {channel : Channel}
    {mailbox : Mailbox Origin BrokerCommand}
    (htaken : serving.mailbox.take? =
      some ((.connection connectionId, .register channel), mailbox))
    (h : serving.LinkedAt connectionId) :
    Linked (serving.runtime.register channel).nextClient
      { serving.connections connectionId with
        reply := replyTo serving.runtime (serving.runtime.register channel) }
      (mailbox.sent (.connection connectionId))
      (mailbox.takenFrom (.connection connectionId)) := by
  obtain ⟨_, hprompt, hconversed⟩ := prompt_of_register htaken h
  rw [Mailbox.sent_of_take? htaken, Mailbox.takenFrom_of_take? htaken, if_pos rfl,
    replyTo_register serving.runtime hprompt]
  refine ⟨hconversed _, ?_, ?_, ?_⟩
  · simp
  · rintro ⟨⟩
  · rintro clientId hclient
    cases hclient
    have hnext : (serving.runtime.register channel).nextClient = _ :=
      congrArg Core.nextClient (serving.runtime.register_core channel)
    rw [hnext]
    exact Nat.lt_succ_self _

theorem linked_step (hacted : serving.Acted queueCapacity move after)
    (hlinked : ∀ connectionId, serving.LinkedAt connectionId) (other : ConnectionId) :
    after.LinkedAt other := by
  have hothers {connectionId : ConnectionId} (other : ConnectionId)
      (_ : other ≠ connectionId) : serving.LinkedAt other := hlinked other
  cases hacted with
  | idle _ _ => exact hlinked other
  | connected connectionId gaps habsent =>
      refine linked_update ?_ hothers other
      have hconversed := (hlinked connectionId).conversed
      rw [habsent] at hconversed
      exact (hlinked connectionId).become (hconversed.connect _ ⟨gaps, rfl⟩) _
  | posted connectionId command next hwaiting hroom =>
      refine linked_update ?_ ?_ other
      · have hsent := serving.mailbox.sent_post (.connection connectionId)
          (.connection connectionId) command
        rw [if_pos rfl] at hsent
        dsimp only
        rw [hsent]
        have hself := hlinked connectionId
        exact ⟨hself.conversed.post hwaiting, hself.replied, hself.welcome, hself.assigned⟩
      · intro other hother
        apply linked_post _ command (hlinked other)
        rintro ⟨⟩
        exact hother rfl
  | answered connectionId clientId hawaiting hreply =>
      refine linked_update ?_ hothers other
      have hconversed := (hlinked connectionId).conversed
      rw [hawaiting, hreply] at hconversed
      refine (hlinked connectionId).become ?_ _
      rw [hreply]
      exact hconversed.answer
  | turnedAway connectionId _ hreply =>
      exact absurd hreply (hlinked connectionId).welcome
  | heard connectionId clientId frame message hselecting _ =>
      refine linked_update ?_ hothers other
      have hconversed := (hlinked connectionId).conversed
      rw [hselecting] at hconversed
      exact (hlinked connectionId).become (hconversed.read message) _
  | forwarded connectionId clientId message hselecting _ =>
      refine linked_update ?_ hothers other
      exact (hlinked connectionId).become (hlinked connectionId).conversed _
  | hungUp connectionId clientId cause hselecting _ =>
      refine linked_update ?_ hothers other
      have hconversed := (hlinked connectionId).conversed
      rw [hselecting] at hconversed
      exact (hlinked connectionId).become hconversed.hangUp _
  | polled _ => exact hlinked other
  | reported pid _ _ => exact linked_post (by rintro ⟨⟩) (.focusChanged pid) (hlinked other)
  | inputSent event _ => exact linked_post (by rintro ⟨⟩) (.input event) (hlinked other)
  | registered surroundings connectionId channel mailbox htaken =>
      refine linked_update (linked_registered htaken (hlinked connectionId)) ?_ other
      intro other hother
      refine (linked_received htaken ?_ (hlinked other)).mono
        (nextClient_le serving.runtime ⟨surroundings, .command (.register channel)⟩)
      rintro _ ⟨⟩
      exact absurd rfl hother
  | received surroundings origin command mailbox htaken hplain =>
      exact (linked_received htaken (hplain other) (hlinked other)).mono (nextClient_le _ _)
  | ticked surroundings => exact (hlinked other).mono (nextClient_le _ _)

theorem reply_update {connectionId : ConnectionId} {connection : Connection}
    (h : connection.reply = (serving.connections connectionId).reply) (other : ConnectionId) :
    ((serving.update connectionId connection).connections other).reply =
      (serving.connections other).reply :=
  forall_update (fun other connection =>
    connection.reply = (serving.connections other).reply) h (fun _ _ => rfl) other

/-- A client id is given out by the broker when it takes the registration. -/
theorem reply_of_acted (hacted : serving.Acted queueCapacity move after)
    (hlinked : ∀ connectionId, serving.LinkedAt connectionId) (other : ConnectionId) :
    (after.connections other).reply = (serving.connections other).reply ∨
      (serving.connections other).reply = .pending ∧
        (after.connections other).reply = .registered serving.runtime.nextClient ∧
        ∃ channel mailbox, serving.mailbox.take? =
          some ((.connection other, .register channel), mailbox) := by
  cases hacted with
  | connected _ _ _ => exact .inl (reply_update (by rfl) other)
  | posted connectionId command next _ _ => exact .inl (reply_update (by rfl) other)
  | answered _ _ _ _ => exact .inl (reply_update (by rfl) other)
  | turnedAway _ _ _ => exact .inl (reply_update (by rfl) other)
  | heard _ _ _ _ _ _ => exact .inl (reply_update (by rfl) other)
  | forwarded _ _ _ _ _ => exact .inl (reply_update (by rfl) other)
  | hungUp _ _ _ _ _ => exact .inl (reply_update (by rfl) other)
  | registered surroundings connectionId channel mailbox htaken =>
      refine forall_update (fun other connection =>
        connection.reply = (serving.connections other).reply ∨
          (serving.connections other).reply = .pending ∧
            connection.reply = .registered serving.runtime.nextClient ∧
            ∃ channel mailbox, serving.mailbox.take? =
              some ((.connection other, .register channel), mailbox)) ?_ ?_ other
      · obtain ⟨hpending, hprompt, _⟩ := prompt_of_register htaken (hlinked connectionId)
        exact .inr ⟨hpending, replyTo_register serving.runtime hprompt, channel, mailbox, htaken⟩
      · exact fun other _ => .inl rfl
  | _ => exact .inl rfl

/-- The client ids of two connections differ. -/
def Apart (serving : Serving) : Prop :=
  ∀ first second clientId, (serving.connections first).reply = .registered clientId →
    (serving.connections second).reply = .registered clientId → first = second

theorem apart_step (hacted : serving.Acted queueCapacity move after)
    (hlinked : ∀ connectionId, serving.LinkedAt connectionId) (hapart : serving.Apart) :
    after.Apart := by
  intro first second clientId hfirst hsecond
  rcases reply_of_acted hacted hlinked first with hsame | ⟨_, hnew, channel, mailbox, htaken⟩
  · rcases reply_of_acted hacted hlinked second with hother | ⟨_, hother, _⟩
    · exact hapart first second clientId (hsame ▸ hfirst) (hother ▸ hsecond)
    · rw [hother] at hsecond
      cases hsecond
      have hassigned := (hlinked first).assigned _ (hsame ▸ hfirst)
      exact absurd hassigned (Nat.lt_irrefl _)
  · rw [hnew] at hfirst
    cases hfirst
    rcases reply_of_acted hacted hlinked second with
      hother | ⟨_, _, channel', mailbox', htaken'⟩
    · have hassigned := (hlinked second).assigned _ (hother ▸ hsecond)
      exact absurd hassigned (Nat.lt_irrefl _)
    · rw [htaken] at htaken'
      cases htaken'
      rfl

/-- What the mailbox has from a sender that is not a connection. -/
theorem sent_of_acted (hacted : serving.Acted queueCapacity move after) :
    (after.mailbox.sent .focusWatcher = serving.mailbox.sent .focusWatcher ∧
        (after.watcher = serving.watcher ∨
          ∃ pid, after.watcher = serving.watcher.poll pid) ∨
      ∃ pid, serving.watcher.report = some pid ∧
        after.watcher = { serving.watcher with report := none } ∧
        after.mailbox.sent .focusWatcher =
          serving.mailbox.sent .focusWatcher ++ [.focusChanged pid]) ∧
    (after.mailbox.sent .input = serving.mailbox.sent .input ∨
      ∃ event, after.mailbox.sent .input = serving.mailbox.sent .input ++ [.input event]) := by
  cases hacted with
  | posted connectionId command next _ _ =>
      have hposted := fun origin =>
        serving.mailbox.sent_post origin (.connection connectionId) command
      exact ⟨.inl ⟨by simpa using hposted .focusWatcher, .inl rfl⟩,
        .inl (by simpa using hposted .input)⟩
  | polled pid => exact ⟨.inl ⟨rfl, .inr ⟨pid, rfl⟩⟩, .inl rfl⟩
  | reported pid hsending _ =>
      have hposted := fun origin =>
        serving.mailbox.sent_post origin .focusWatcher (.focusChanged pid)
      exact ⟨.inr ⟨pid, hsending, rfl, by simpa using hposted .focusWatcher⟩,
        .inl (by simpa using hposted .input)⟩
  | inputSent event _ =>
      have hposted := fun origin => serving.mailbox.sent_post origin .input (.input event)
      exact ⟨.inl ⟨by simpa using hposted .focusWatcher, .inl rfl⟩,
        .inr ⟨event, by simpa using hposted .input⟩⟩
  | registered _ _ _ _ htaken =>
      exact ⟨.inl ⟨Mailbox.sent_of_take? htaken _, .inl rfl⟩,
        .inl (Mailbox.sent_of_take? htaken _)⟩
  | received _ _ _ _ htaken _ =>
      exact ⟨.inl ⟨Mailbox.sent_of_take? htaken _, .inl rfl⟩,
        .inl (Mailbox.sent_of_take? htaken _)⟩
  | _ => exact ⟨.inl ⟨rfl, .inl rfl⟩, .inl rfl⟩

theorem bounded_of_acted (hacted : serving.Acted queueCapacity move after)
    (hbounded : serving.mailbox.Bounded) : after.mailbox.Bounded := by
  cases hacted with
  | posted _ command _ _ hroom => exact .post hroom _ command
  | reported pid _ hroom => exact .post hroom _ (.focusChanged pid)
  | inputSent event hroom => exact .post hroom _ (.input event)
  | registered _ _ _ _ htaken => exact hbounded.take htaken
  | received _ _ _ _ htaken _ => exact hbounded.take htaken
  | _ => exact hbounded

end Serving

/-- The invariant of the daemon. -/
structure Consistent (serving : Serving) : Prop where
  sound : Sound serving.runtime
  bounded : serving.mailbox.Bounded
  linked : ∀ connectionId, serving.LinkedAt connectionId
  apart : serving.Apart
  reports : ∃ reports, serving.mailbox.sent .focusWatcher = reports.map .focusChanged ∧
    serving.watcher.Reported reports
  inputs : ∀ command ∈ serving.mailbox.sent .input, ∃ event, command = .input event

theorem Consistent.step {serving after : Serving} {queueCapacity : ℕ+} {move : Move}
    (h : Consistent serving) (hacted : serving.Acted queueCapacity move after) :
    Consistent after := by
  obtain ⟨hwatcher, hinput⟩ := Serving.sent_of_acted hacted
  constructor
  · rw [hacted.runtime_eq]
    split
    · exact h.sound
    · exact h.sound.step _
  · exact Serving.bounded_of_acted hacted h.bounded
  · exact Serving.linked_step hacted h.linked
  · exact Serving.apart_step hacted h.linked h.apart
  · obtain ⟨reports, hsent, hreported⟩ := h.reports
    rcases hwatcher with ⟨hsame, heq | ⟨pid, heq⟩⟩ | ⟨pid, hreport, heq, hposted⟩
    · exact ⟨reports, hsame.trans hsent, heq ▸ hreported⟩
    · exact ⟨reports, hsame.trans hsent, heq ▸ hreported.poll pid⟩
    · refine ⟨reports ++ [pid], ?_, heq ▸ hreported.send hreport⟩
      rw [hposted, hsent, List.map_append]
      rfl
  · intro command hmem
    rcases hinput with hsame | ⟨event, hposted⟩
    · exact h.inputs command (hsame ▸ hmem)
    · rw [hposted, List.mem_append, List.mem_singleton] at hmem
      rcases hmem with hold | rfl
      · exact h.inputs command hold
      · exact ⟨event, rfl⟩

variable (setup : Setup)

theorem consistent_run (moves : List Move) : Consistent ((daemon setup).run moves) := by
  refine (daemon setup).invariant Consistent ?_ ?_ moves
  · refine ⟨sound_new setup.mappings setup.started, Nat.zero_le _, ?_, ?_,
      ⟨[], rfl, FocusWatcher.reported_spawn setup.frontmost⟩, ?_⟩
    · intro connectionId
      exact ⟨.absent, iff_of_true rfl rfl, fun h => Reply.noConfusion h,
        fun _ h => Reply.noConfusion h⟩
    · rintro _ _ _ ⟨⟩
    · intro command hmem
      cases hmem
  · intro serving move hconsistent
    exact hconsistent.step (serving.step_acted setup.queueCapacity move)

/-- The commands under a client id. -/
def spokenFor (clientId : ClientId) (commands : List BrokerCommand) : List BrokerCommand :=
  commands.filter (speaker · = some clientId)

theorem commandsOf_brokerSteps (moves : List Move) :
    commandsOf (brokerSteps setup moves) =
      ((daemon setup).run moves).mailbox.taken.map (·.2) := by
  refine (daemon setup).history_invariant
    (fun moves serving => commandsOf (brokerSteps setup moves) =
      serving.mailbox.taken.map (·.2)) rfl ?_ moves
  intro moves move ih
  have hacted := ((daemon setup).run moves).step_acted setup.queueCapacity move
  rw [brokerSteps_concat, commandsOf, List.filterMap_append, ← commandsOf, ih]
  change _ = (((daemon setup).run moves).step setup.queueCapacity move).mailbox.taken.map (·.2)
  generalize (daemon setup).run moves = serving at *
  generalize serving.step setup.queueCapacity move = after at hacted ⊢
  cases hacted with
  | idle _ hstill =>
      rw [hstill]
      exact List.append_nil _
  | registered surroundings connectionId channel mailbox htaken =>
      simp [Serving.brokerStep, htaken, Serving.update, Mailbox.taken_of_take? htaken]
  | received surroundings origin command mailbox htaken _ =>
      simp [Serving.brokerStep, htaken, Mailbox.taken_of_take? htaken]
  | ticked surroundings => exact List.append_nil _
  | _ => exact List.append_nil _

namespace Consistent

variable {serving : Serving} (h : Consistent serving)

include h

/-- A command from no connection is a report of the focus or an input. -/
theorem outside {origin : Origin} {command : BrokerCommand}
    (hmem : (origin, command) ∈ serving.mailbox.log) :
    (∃ connectionId, origin = .connection connectionId) ∨
      (∃ pid, command = .focusChanged pid) ∨ ∃ event, command = .input event := by
  have hsent := Mailbox.mem_sent.mpr hmem
  cases origin with
  | connection connectionId => exact .inl ⟨connectionId, rfl⟩
  | focusWatcher =>
      obtain ⟨reports, hreports, _⟩ := h.reports
      rw [hreports] at hsent
      obtain ⟨pid, _, rfl⟩ := List.mem_map.mp hsent
      exact .inr (.inl ⟨pid, rfl⟩)
  | input => exact .inr (.inr (h.inputs command hsent))

/-- Only the connection that an id was given to speaks under it. -/
theorem speaks {origin : Origin} {command : BrokerCommand}
    (hmem : (origin, command) ∈ serving.mailbox.log) {clientId : ClientId}
    (hspeaker : speaker command = some clientId) :
    ∃ connectionId, origin = .connection connectionId ∧
      (serving.connections connectionId).reply = .registered clientId := by
  rcases h.outside hmem with ⟨connectionId, rfl⟩ | ⟨pid, rfl⟩ | ⟨event, rfl⟩
  · exact ⟨connectionId, rfl,
      (h.linked connectionId).conversed.speaks (Mailbox.mem_sent.mpr hmem) hspeaker⟩
  · cases hspeaker
  · cases hspeaker

theorem spokenFor_eq {connectionId : ConnectionId} {clientId : ClientId}
    (hreply : (serving.connections connectionId).reply = .registered clientId) :
    spokenFor clientId (serving.mailbox.taken.map (·.2)) =
      spokenFor clientId (serving.mailbox.takenFrom (.connection connectionId)) := by
  unfold spokenFor Mailbox.takenFrom Mailbox.ofOrigin
  rw [List.filter_map, List.filter_map, List.filter_filter]
  refine congrArg (List.map _) (List.filter_congr ?_)
  rintro ⟨origin, command⟩ hmem
  by_cases hspeaker : speaker command = some clientId
  · obtain ⟨other, rfl, hother⟩ := h.speaks (List.mem_append_left _ hmem) hspeaker
    cases h.apart other connectionId clientId hother hreply
    simp [hspeaker]
  · simp [hspeaker]

/-- What has been taken under an id is the beginning of what its connection has
to say. -/
theorem spoken {connectionId : ConnectionId} {clientId : ClientId}
    (hreply : (serving.connections connectionId).reply = .registered clientId) :
    spokenFor clientId (serving.mailbox.taken.map (·.2)) <+:
        Conversed.script clientId (serving.connections connectionId).heard ∧
      (.unregister clientId ∈ serving.mailbox.taken.map (·.2) →
        (serving.connections connectionId).phase = .ended) := by
  have hconversed := (h.linked connectionId).conversed
  rw [hreply] at hconversed
  obtain ⟨channel, rest, hsent, hscript, hended⟩ := hconversed.followed
  have htaken := serving.mailbox.takenFrom_prefix (.connection connectionId)
  rw [hsent] at htaken
  have hall : spokenFor clientId rest = rest := by
    apply List.filter_eq_self.mpr
    intro command hmem
    simp [Conversed.speaker_of_mem_script (hscript.subset hmem)]
  have hspoken : spokenFor clientId (serving.mailbox.takenFrom (.connection connectionId)) <+:
      rest := by
    have hfiltered : spokenFor clientId _ <+: spokenFor clientId _ := htaken.filter _
    rw [← hall]
    exact hfiltered
  rw [← h.spokenFor_eq hreply] at hspoken
  refine ⟨hspoken.trans hscript, fun hleft => hended (hspoken.subset ?_)⟩
  exact List.mem_filter.mpr ⟨hleft, by simp [speaker]⟩

end Consistent

/-- The broker hears under a client id what the client's own socket said: its
messages in order, and then at most once that it has left. Nobody else speaks
under the id, no two connections share it, and nothing in the daemon revokes a
session by command. -/
theorem conversations (moves : List Move) :
    let serving := (daemon setup).run moves
    let commands := commandsOf (brokerSteps setup moves)
    (∀ connectionId clientId,
      (serving.connections connectionId).reply = .registered clientId →
        spokenFor clientId commands <+:
            (serving.connections connectionId).heard.map (command clientId) ++
              [.unregister clientId] ∧
          (.unregister clientId ∈ commands →
            (serving.connections connectionId).phase = .ended)) ∧
    (∀ clientId, spokenFor clientId commands ≠ [] →
      ∃! connectionId, (serving.connections connectionId).reply = .registered clientId) ∧
    ∀ reason, .revokeSession reason ∉ commands := by
  intro serving commands
  have hconsistent : Consistent serving := consistent_run setup moves
  have hcommands : commands = serving.mailbox.taken.map (·.2) :=
    commandsOf_brokerSteps setup moves
  rw [hcommands]
  refine ⟨fun connectionId clientId hreply => hconsistent.spoken hreply, ?_, ?_⟩
  · intro clientId hspoken
    obtain ⟨command, hmem⟩ := List.exists_mem_of_ne_nil _ hspoken
    obtain ⟨htaken, hspeaker⟩ := List.mem_filter.mp hmem
    obtain ⟨⟨origin, _⟩, hentry, rfl⟩ := List.mem_map.mp htaken
    obtain ⟨connectionId, _, hreply⟩ :=
      hconsistent.speaks (List.mem_append_left _ hentry) (by simpa using hspeaker)
    refine ⟨connectionId, hreply, fun other hother => ?_⟩
    exact hconsistent.apart other connectionId clientId hother hreply
  · intro reason hmem
    obtain ⟨⟨origin, command⟩, hentry, rfl⟩ := List.mem_map.mp hmem
    have hlogged := List.mem_append_left serving.mailbox.queue hentry
    rcases hconsistent.outside hlogged with ⟨connectionId, rfl⟩ | ⟨pid, heq⟩ | ⟨event, heq⟩
    · exact (hconsistent.linked connectionId).conversed.no_revocation reason
        (Mailbox.mem_sent.mpr hlogged)
    · cases heq
    · cases heq

end Usahp.Server
