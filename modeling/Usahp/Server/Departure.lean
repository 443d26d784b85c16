import Usahp.Server.Conversation

/-!
What is left of a connection that has ended. The broker has something of a
client while it is registered or holds the session; such a client always
belongs to a connection whose `Unregister` is still to come. Once a connection
has ended its `Unregister` waits behind a bounded number of commands, so the
broker is rid of the client after as many.
-/

namespace Usahp.Server

open Std Usahp.Library Usahp.Broker

/-- The broker has something of a client. -/
def Attached (runtime : Runtime) (clientId : ClientId) : Prop :=
  clientId ∈ runtime.clients ∨ ∃ session, runtime.session = some session ∧
    session.clientId = clientId

/-- A client becomes attached by its registration and by nothing else. -/
theorem attached_step {runtime : Runtime} (hsound : Sound runtime) (step : Step)
    {clientId : ClientId} (h : Attached (runtime.step step) clientId) :
    Attached runtime clientId ∨
      clientId = runtime.nextClient ∧ ∃ channel, step.wakeup = .command (.register channel) := by
  have hmembers := (hsound.passed step).members
  rcases h with hmem | ⟨session, hactive, rfl⟩
  · rcases hmembers clientId hmem with hold | hnew
    · exact .inl (.inl hold)
    · exact .inr hnew
  · cases hsound.change step with
    | idle _ hstill =>
        rw [hstill] at hactive
        cases hactive
    | opened holder handshake hasked _ hopened hregistered _ _ =>
        rw [hopened] at hactive
        cases hactive
        rcases hmembers holder hregistered with hold | ⟨_, channel, hregister⟩
        · exact .inl (.inl hold)
        · rw [hasked] at hregister
          cases hregister
    | kept before hbefore hkept _ _ _ _ _ =>
        rw [hkept] at hactive
        cases hactive
        exact .inl (.inr ⟨before, hbefore, (beat_clientId before _ _).symm⟩)
    | ended _ _ hstill _ _ _ _ _ =>
        rw [hstill] at hactive
        cases hactive

theorem not_attached_unregister (runtime : Runtime) (surroundings : Surroundings)
    (clientId : ClientId) :
    ¬ Attached (runtime.step ⟨surroundings, .command (.unregister clientId)⟩) clientId := by
  have hturn := runtime.unregister_turn surroundings clientId
  change ¬ Attached (runtime.unregister surroundings clientId) clientId
  generalize runtime.unregister surroundings clientId = after at hturn ⊢
  generalize hwakeup : Wakeup.command (.unregister clientId) = wakeup at hturn
  cases hturn with
  | left other hother =>
      cases hwakeup
      rintro (hmem | ⟨session, hactive, hholder⟩)
      · exact runtime.not_mem_removeClient clientId hmem
      · exact hother session hactive hholder
  | disconnected session hactive =>
      cases hwakeup
      rintro (hmem | ⟨other, hother, _⟩)
      · exact runtime.not_mem_removeClient _
          ((runtime.removeClient session.clientId).revoke_delivered surroundings _ hactive
            _ hmem).1
      · have hnone : Runtime.session _ = none :=
          (runtime.removeClient session.clientId).revoke_session surroundings
            .explicitRevocation hactive
        rw [hnone] at hother
        cases hother
  | revoked _ _ _ _ hdemand =>
      cases hwakeup
      cases hdemand
  | ignored _ hkind _ =>
      cases hwakeup
      simp at hkind
  | _ => cases hwakeup

/-- Every client that the broker has something of belongs to a connection, and
has not left. -/
structure Attended (serving : Serving) : Prop where
  owned : ∀ clientId, Attached serving.runtime clientId →
    ∃ connectionId, (serving.connections connectionId).reply = .registered clientId
  present : ∀ clientId, .unregister clientId ∈ serving.mailbox.taken.map (·.2) →
    ¬ Attached serving.runtime clientId

section Step

variable {serving after : Serving} {queueCapacity : ℕ+} {move : Move}

/-- An id stays with the connection that it was given to. -/
theorem reply_lasts (hacted : serving.Acted queueCapacity move after)
    (hlinked : ∀ connectionId, serving.LinkedAt connectionId) {connectionId : ConnectionId}
    {clientId : ClientId}
    (hreply : (serving.connections connectionId).reply = .registered clientId) :
    (after.connections connectionId).reply = .registered clientId := by
  rcases Serving.reply_of_acted hacted hlinked connectionId with hsame | ⟨hpending, _⟩
  · exact hsame.trans hreply
  · rw [hpending] at hreply
    cases hreply

/-- What a move is to the broker: a command taken from the mailbox, a tick, or
nothing. -/
inductive Served (serving after : Serving) : Prop
  | command (surroundings : Surroundings) (entry : Origin × BrokerCommand)
      (mailbox : Mailbox Origin BrokerCommand)
      (next : serving.mailbox.take? = some (entry, mailbox))
      (taken : after.mailbox.taken = serving.mailbox.taken ++ [entry])
      (runtime : after.runtime = serving.runtime.step ⟨surroundings, .command entry.2⟩)
      (reply : ∀ connectionId channel, entry = (.connection connectionId, .register channel) →
        (after.connections connectionId).reply =
          Serving.replyTo serving.runtime (serving.runtime.register channel))
  | tick (surroundings : Surroundings) (taken : after.mailbox.taken = serving.mailbox.taken)
      (runtime : after.runtime = serving.runtime.step ⟨surroundings, .tick⟩)
  | nothing (taken : after.mailbox.taken = serving.mailbox.taken)
      (runtime : after.runtime = serving.runtime)

theorem served_of_acted (hacted : serving.Acted queueCapacity move after) :
    Served serving after := by
  cases hacted with
  | registered surroundings connectionId channel mailbox htaken =>
      refine .command surroundings _ mailbox htaken (Mailbox.taken_of_take? htaken) rfl ?_
      rintro _ _ ⟨⟩
      simp [Serving.update]
  | received surroundings origin command mailbox htaken hplain =>
      refine .command surroundings _ mailbox htaken (Mailbox.taken_of_take? htaken) rfl ?_
      rintro connectionId channel ⟨⟩
      exact absurd rfl (hplain connectionId channel rfl)
  | ticked surroundings => exact .tick surroundings rfl rfl
  | _ => exact .nothing rfl rfl

/-- The id that a registration is given is its connection's. -/
theorem reply_of_register (hconsistent : Consistent serving) {origin : Origin}
    {channel : Channel} {mailbox : Mailbox Origin BrokerCommand}
    (htaken : serving.mailbox.take? = some ((origin, .register channel), mailbox))
    (hreply : ∀ connectionId, origin = .connection connectionId →
      (after.connections connectionId).reply =
        Serving.replyTo serving.runtime (serving.runtime.register channel)) :
    ∃ connectionId, (after.connections connectionId).reply =
      .registered serving.runtime.nextClient := by
  rcases hconsistent.outside (Mailbox.mem_log_of_take? htaken) with
    ⟨connectionId, rfl⟩ | ⟨_, heq⟩ | ⟨_, heq⟩
  · obtain ⟨_, hprompt, _⟩ :=
      Serving.prompt_of_register htaken (hconsistent.linked connectionId)
    exact ⟨connectionId, (hreply connectionId rfl).trans
      (Serving.replyTo_register serving.runtime hprompt)⟩
  · cases heq
  · cases heq

theorem Attended.step (h : Attended serving) (hconsistent : Consistent serving)
    (hacted : serving.Acted queueCapacity move after) : Attended after := by
  have hlasts (clientId : ClientId) (hold : Attached serving.runtime clientId) :
      ∃ connectionId, (after.connections connectionId).reply = .registered clientId := by
    obtain ⟨connectionId, hreply⟩ := h.owned clientId hold
    exact ⟨connectionId, reply_lasts hacted hconsistent.linked hreply⟩
  have hgiven (clientId : ClientId)
      (hleft : .unregister clientId ∈ serving.mailbox.taken.map (·.2)) :
      clientId ≠ serving.runtime.nextClient := by
    obtain ⟨⟨origin, command⟩, hentry, heq⟩ := List.mem_map.mp hleft
    have hspeaker : speaker command = some clientId := congrArg speaker heq
    obtain ⟨connectionId, _, hreply⟩ :=
      hconsistent.speaks (List.mem_append_left _ hentry) hspeaker
    exact Nat.ne_of_lt ((hconsistent.linked connectionId).assigned clientId hreply)
  cases served_of_acted hacted with
  | nothing htaken hruntime =>
      refine ⟨?_, ?_⟩
      · rw [hruntime]
        exact hlasts
      · rw [hruntime, htaken]
        exact h.present
  | tick surroundings htaken hruntime =>
      refine ⟨?_, ?_⟩
      · rw [hruntime]
        intro clientId hattached
        rcases attached_step hconsistent.sound _ hattached with hold | ⟨_, _, hwakeup⟩
        · exact hlasts clientId hold
        · cases hwakeup
      · rw [hruntime, htaken]
        intro clientId hleft hattached
        rcases attached_step hconsistent.sound _ hattached with hold | ⟨_, _, hwakeup⟩
        · exact h.present clientId hleft hold
        · cases hwakeup
  | command surroundings entry mailbox hnext htaken hruntime hreply =>
      obtain ⟨origin, command⟩ := entry
      refine ⟨?_, ?_⟩
      · rw [hruntime]
        intro clientId hattached
        rcases attached_step hconsistent.sound _ hattached with hold | ⟨rfl, channel, hwakeup⟩
        · exact hlasts clientId hold
        · cases hwakeup
          exact reply_of_register hconsistent hnext fun connectionId horigin =>
            hreply connectionId channel (by rw [horigin])
      · rw [hruntime, htaken, List.map_append]
        intro clientId hleft hattached
        rcases List.mem_append.mp hleft with hbefore | hnow
        · rcases attached_step hconsistent.sound _ hattached with hold | ⟨hnew, _⟩
          · exact h.present clientId hbefore hold
          · exact hgiven clientId hbefore hnew
        · cases List.mem_singleton.mp hnow
          exact not_attached_unregister serving.runtime surroundings clientId hattached

end Step

variable (setup : Setup)

theorem attended_run (moves : List Move) : Attended ((daemon setup).run moves) := by
  refine (daemon setup).history_invariant (fun _ => Attended) ?_ ?_ moves
  · refine ⟨?_, fun clientId hleft => absurd hleft List.not_mem_nil⟩
    rintro clientId (hmem | ⟨session, hactive, _⟩)
    · exact absurd hmem ExtTreeMap.not_mem_empty
    · cases hactive
  · intro moves move hattended
    exact hattended.step (consistent_run setup moves)
      (Serving.step_acted _ setup.queueCapacity move)

/-- At every moment a registered client and the holder of the session belong to
exactly one connection each, and the broker has not heard that it left. -/
theorem attended (moves : List Move) (clientId : ClientId) :
    let serving := (daemon setup).run moves
    (clientId ∈ serving.runtime.clients ∨
      ∃ session, serving.runtime.session = some session ∧ session.clientId = clientId) →
    (∃! connectionId, (serving.connections connectionId).reply = .registered clientId) ∧
      .unregister clientId ∉ commandsOf (brokerSteps setup moves) := by
  intro serving hattached
  have hattended : Attended serving := attended_run setup moves
  obtain ⟨connectionId, hreply⟩ := hattended.owned clientId hattached
  refine ⟨⟨connectionId, hreply, fun other hother => ?_⟩, fun hleft => ?_⟩
  · exact (consistent_run setup moves).apart other connectionId clientId hother hreply
  · rw [commandsOf_brokerSteps] at hleft
    exact hattended.present clientId hleft hattached

def calm : Surroundings := ⟨0, "session", .ok (), .ok ()⟩

def plainSetup : Setup := ⟨8, [spaceMapping], 0, none⟩

/-- A client connects, is registered and goes away. -/
def visit : List Move :=
  [.connect 7 [], .post 7, .receive calm, .answer 7, .hangUp 7 .closed, .post 7]

theorem visit_attended :
    (∃! connectionId, (((daemon plainSetup).run (visit.take 3)).connections
      connectionId).reply = .registered 1) ∧
      .unregister 1 ∉ commandsOf (brokerSteps plainSetup (visit.take 3)) :=
  attended plainSetup (visit.take 3) 1 (.inl (by decide))

/-- How often the broker asks for a command. -/
def receives (moves : List Move) : Nat :=
  moves.countP fun
    | .receive _ => true
    | _ => false

section Drain

variable {serving after : Serving} {queueCapacity : ℕ+} {move : Move}

theorem log_of_acted (hacted : serving.Acted queueCapacity move after) :
    serving.mailbox.log <+: after.mailbox.log := by
  cases hacted with
  | posted connectionId command _ _ _ =>
      rw [Serving.enter_mailbox, Mailbox.log_post]
      exact List.prefix_append _ _
  | reported pid _ _ =>
      rw [Mailbox.log_post]
      exact List.prefix_append _ _
  | inputSent event _ =>
      rw [Mailbox.log_post]
      exact List.prefix_append _ _
  | registered _ _ _ _ htaken => exact (Mailbox.log_of_take? htaken) ▸ List.prefix_rfl
  | received _ _ _ _ htaken _ => exact (Mailbox.log_of_take? htaken) ▸ List.prefix_rfl
  | _ => exact List.prefix_rfl

theorem capacity_of_acted (hacted : serving.Acted queueCapacity move after) :
    after.mailbox.capacity = serving.mailbox.capacity := by
  cases hacted with
  | registered _ _ _ _ htaken =>
      obtain ⟨_, _, rfl⟩ := Mailbox.take?_eq_some htaken
      rfl
  | received _ _ _ _ htaken _ =>
      obtain ⟨_, _, rfl⟩ := Mailbox.take?_eq_some htaken
      rfl
  | _ => rfl

/-- What is asked for comes, unless there is nothing. -/
theorem taken_of_acted (hacted : serving.Acted queueCapacity move after) :
    serving.mailbox.taken.length + receives [move] ≤ after.mailbox.taken.length ∨
      serving.mailbox.log = serving.mailbox.taken ∧
        after.mailbox.taken = serving.mailbox.taken := by
  cases hacted with
  | idle move hstill =>
      cases move with
      | receive surroundings =>
          refine .inr ⟨?_, rfl⟩
          have hnone : serving.mailbox.take? = none := Option.map_eq_none_iff.mp hstill
          rw [Mailbox.log, Mailbox.take?_eq_none hnone, List.append_nil]
      | _ => exact .inl le_rfl
  | registered _ _ _ _ htaken =>
      rw [Serving.update, Mailbox.taken_of_take? htaken, List.length_append]
      exact .inl le_rfl
  | received _ _ _ _ htaken _ =>
      rw [Mailbox.taken_of_take? htaken, List.length_append]
      exact .inl le_rfl
  | _ => exact .inl le_rfl

end Drain

theorem log_run (moves more : List Move) :
    ((daemon setup).run moves).mailbox.log <+:
      ((daemon setup).run (moves ++ more)).mailbox.log := by
  induction more using List.reverseRecOn with
  | nil => rw [List.append_nil]
  | append_singleton more last ih =>
      rw [← List.append_assoc, Machine.run_concat]
      exact ih.trans (log_of_acted (Serving.step_acted _ setup.queueCapacity last))

theorem reply_run (moves more : List Move) {connectionId : ConnectionId} {clientId : ClientId}
    (hreply : (((daemon setup).run moves).connections connectionId).reply =
      .registered clientId) :
    (((daemon setup).run (moves ++ more)).connections connectionId).reply =
      .registered clientId := by
  induction more using List.reverseRecOn with
  | nil => rwa [List.append_nil]
  | append_singleton more last ih =>
      rw [← List.append_assoc, Machine.run_concat]
      exact reply_lasts (Serving.step_acted _ setup.queueCapacity last)
        (consistent_run setup (moves ++ more)).linked ih

theorem capacity_run (moves : List Move) :
    ((daemon setup).run moves).mailbox.capacity = commandCapacity := by
  refine (daemon setup).history_invariant
    (fun _ serving => serving.mailbox.capacity = commandCapacity) rfl ?_ moves
  intro moves move ih
  exact (capacity_of_acted (Serving.step_acted _ setup.queueCapacity move)).trans ih

/-- As long as something of the log of an earlier moment is waiting, every
request of the broker is served. -/
theorem taken_run (moves more : List Move) :
    ((daemon setup).run moves).mailbox.log.length ≤
        ((daemon setup).run (moves ++ more)).mailbox.taken.length ∨
      ((daemon setup).run moves).mailbox.taken.length + receives more ≤
        ((daemon setup).run (moves ++ more)).mailbox.taken.length := by
  induction more using List.reverseRecOn with
  | nil =>
      rw [List.append_nil]
      exact .inr le_rfl
  | append_singleton more last ih =>
      have hacted := Serving.step_acted ((daemon setup).run (moves ++ more))
        setup.queueCapacity last
      have hlogged := (log_run setup moves more).length_le
      have hcount : receives (more ++ [last]) = receives more + receives [last] :=
        List.countP_append
      rw [← List.append_assoc, Machine.run_concat, hcount]
      rcases taken_of_acted hacted with htaken | ⟨hempty, hsame⟩
      · change _ ≤ (((daemon setup).run (moves ++ more)).step
            setup.queueCapacity last).mailbox.taken.length ∨ _ ≤
          (((daemon setup).run (moves ++ more)).step
            setup.queueCapacity last).mailbox.taken.length
        omega
      · left
        rw [hempty] at hlogged
        exact hlogged.trans (Nat.le_of_eq (congrArg List.length hsame.symm))

/-- All that was sent up to some moment is taken once the broker has asked for
as many commands as its channel can hold. -/
theorem log_taken (moves more : List Move) (hreceives : commandCapacity ≤ receives more) :
    ((daemon setup).run moves).mailbox.log <+:
      ((daemon setup).run (moves ++ more)).mailbox.taken := by
  apply Mailbox.prefix_taken (log_run setup moves more)
  have hbounded := (consistent_run setup moves).bounded
  have hcapacity := capacity_run setup moves
  rcases taken_run setup moves more with htaken | htaken
  · exact htaken
  · unfold Mailbox.Bounded at hbounded
    rw [Mailbox.log, List.length_append]
    omega

/-- A connection that has ended has told the broker. -/
theorem ended_sent {serving : Serving} (hconsistent : Consistent serving)
    {connectionId : ConnectionId}
    (hended : (serving.connections connectionId).phase = .ended) :
    ∃ clientId, (serving.connections connectionId).reply = .registered clientId ∧
      (.connection connectionId, .unregister clientId) ∈ serving.mailbox.log := by
  have hconversed := (hconsistent.linked connectionId).conversed
  rw [hended] at hconversed
  generalize (serving.connections connectionId).heard = heard at hconversed
  generalize hreply : (serving.connections connectionId).reply = reply at hconversed ⊢
  generalize hsent : serving.mailbox.sent (.connection connectionId) = sent at hconversed
  cases hconversed with
  | ended clientId channel heard =>
      refine ⟨clientId, rfl, Mailbox.mem_sent.mp ?_⟩
      rw [hsent]
      simp

/-- Whatever else happens, the broker has nothing left of a client whose
connection has ended once it has asked for as many commands as its channel can
hold, and sends it nothing any more. -/
theorem departed (moves more later : List Move) (connectionId : ConnectionId)
    (hended : (((daemon setup).run moves).connections connectionId).phase = .ended)
    (hreceives : commandCapacity ≤ receives more) :
    ∃ clientId,
      (((daemon setup).run moves).connections connectionId).reply = .registered clientId ∧
      let serving := (daemon setup).run (moves ++ more ++ later)
      clientId ∉ serving.runtime.clients ∧
      (∀ session, serving.runtime.session = some session → session.clientId ≠ clientId) ∧
      serving.runtime.history.attempts clientId =
        ((daemon setup).run (moves ++ more)).runtime.history.attempts clientId := by
  obtain ⟨clientId, hreply, hlogged⟩ := ended_sent (consistent_run setup moves) hended
  have hgone (later : List Move) :
      ¬ Attached ((daemon setup).run (moves ++ more ++ later)).runtime clientId := by
    have hcount : receives (more ++ later) = receives more + receives later :=
      List.countP_append
    have htaken := log_taken setup moves (more ++ later) (by omega)
    rw [← List.append_assoc] at htaken
    apply (attended_run setup (moves ++ more ++ later)).present clientId
    exact List.mem_map_of_mem (htaken.subset hlogged)
  refine ⟨clientId, hreply, fun hmem => hgone later (.inl hmem), ?_, ?_⟩
  · intro session hactive hholder
    exact hgone later (.inr ⟨session, hactive, hholder⟩)
  · obtain ⟨rest, hrest⟩ := brokerSteps_append setup (moves ++ more) later
    have hleft := hgone []
    rw [List.append_nil] at hleft
    have hassigned := ((consistent_run setup (moves ++ more)).linked connectionId).assigned
      clientId (reply_run setup moves more hreply)
    rw [runtime_run] at hleft hassigned
    rw [runtime_run, runtime_run, hrest]
    exact (dropped_for_good setup.mappings setup.started (brokerSteps setup (moves ++ more))
      rest hassigned fun hmem => hleft (.inl hmem)).2

theorem visit_departed :
    ∃ clientId,
      (((daemon plainSetup).run visit).connections 7).reply = .registered clientId ∧
      clientId ∉ ((daemon plainSetup).run
        (visit ++ List.replicate commandCapacity (.receive calm) ++ [])).runtime.clients := by
  obtain ⟨clientId, hreply, hgone, _⟩ := departed plainSetup visit
    (List.replicate commandCapacity (.receive calm)) [] 7 rfl
    (by simp [receives, List.countP_replicate])
  exact ⟨clientId, hreply, hgone⟩

end Usahp.Server
