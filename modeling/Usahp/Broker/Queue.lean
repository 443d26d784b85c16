import Usahp.Broker.Steady
import Usahp.Broker.Stream

/-!
The queues of the clients. The sender that the broker keeps for a client is that
of the client's own channel after the sends that were tried for it, and these
were answered as the channel answers them. So the client's receiver gets what
the broker has enqueued for it, first in, first out.
-/

namespace Usahp.Broker

open Std Usahp.Library

/-- The channels that clients were registered with. The ids of the clients count
them, from 1 on. -/
def channelsOf (steps : List Step) : List Channel :=
  (commandsOf steps).filterMap fun
    | .register channel => some channel
    | _ => none

/-- The sends for a client were sends into the channel, and its sender, while it
is registered, is where they have left it. -/
structure Carries (runtime : Runtime) (clientId : ClientId) (channel : Channel) : Prop where
  answered : (runtime.history.attempts clientId).map (·.sent) =
    (Sender.ofChannel channel).outcomes (attempted runtime clientId)
  current : ∀ sender, runtime.clients[clientId]? = some sender →
    sender = (Sender.ofChannel channel).sendAll (attempted runtime clientId)

/-- What is enqueued are the messages that the channel has accepted. -/
theorem Carries.enqueued_eq {runtime : Runtime} {clientId : ClientId} {channel : Channel}
    (h : Carries runtime clientId channel) :
    enqueued runtime clientId =
      (Sender.ofChannel channel).accepted (attempted runtime clientId) := by
  rw [Sender.accepted, ← h.answered, attempted, List.zip_map', List.filter_map, List.map_map]
  rfl

section Step

variable {before after : Runtime} {clientId : ClientId} {channel : Channel}

theorem Carries.of_eq (h : Carries before clientId channel)
    (hclients : after.clients[clientId]? = before.clients[clientId]?)
    (hattempts : after.history.attempts clientId = before.history.attempts clientId) :
    Carries after clientId channel := by
  obtain ⟨hanswered, hcurrent⟩ := h
  unfold attempted at hanswered hcurrent
  constructor
  · rwa [attempted, hattempts]
  · rwa [attempted, hattempts, hclients]

/-- One send; a client whose queue refuses may be dropped. -/
theorem Carries.sent (h : Carries before clientId channel) {sender : Sender ServerMessage}
    (hsender : before.clients[clientId]? = some sender) {message : ServerMessage}
    (hattempts : after.history.attempts clientId =
      before.history.attempts clientId ++ [⟨message, decide sender.Accepts⟩])
    (hclients : ∀ next, after.clients[clientId]? = some next →
      next = (sender.trySend message).2) : Carries after clientId channel := by
  have hsame := h.current sender hsender
  have htried : attempted after clientId = attempted before clientId ++ [message] := by
    rw [attempted, hattempts, List.map_append]
    rfl
  constructor
  · rw [hattempts, List.map_append, h.answered, htried, Sender.outcomes_concat, ← hsame,
      Sender.trySend_isOk]
    rfl
  · intro next hnext
    rw [htried, Sender.sendAll_concat, ← hsame]
    exact hclients next hnext

theorem Carries.trySend (h : Carries before clientId channel) (other : ClientId)
    (message : ServerMessage) : Carries (before.trySend other message).2 clientId channel := by
  by_cases hself : clientId = other
  · subst hself
    cases hsender : before.clients[clientId]? with
    | none =>
        rw [before.trySend_of_none hsender]
        exact h
    | some sender =>
        apply h.sent hsender (before.attempts_trySend_self hsender message)
        intro next hnext
        rw [before.getElem?_trySend_self hsender] at hnext
        exact (Option.some.inj hnext).symm
  · exact h.of_eq (before.getElem?_trySend_of_ne hself message)
      (before.attempts_trySend_of_ne hself message)

theorem Carries.removeClient (h : Carries before clientId channel) (other : ClientId) :
    Carries (before.removeClient other) clientId channel := by
  refine ⟨h.answered, fun sender hsender => ?_⟩
  rw [Runtime.getElem?_removeClient] at hsender
  split_ifs at hsender
  exact h.current sender hsender

theorem Carries.broadcast (h : Carries before clientId channel) (message : ServerMessage) :
    Carries (before.broadcast message) clientId channel := by
  have hclients := before.getElem?_broadcast message clientId
  have hattempts := before.attempts_broadcast message clientId
  cases hsender : before.clients[clientId]? with
  | none =>
      rw [hsender] at hclients hattempts
      exact h.of_eq (hclients.trans hsender.symm) hattempts
  | some sender =>
      rw [hsender] at hclients hattempts
      apply h.sent hsender hattempts
      intro next hnext
      rw [hclients, Option.bind_some] at hnext
      split_ifs at hnext
      exact (Option.some.inj hnext).symm

theorem Carries.foldl_broadcast (h : Carries before clientId channel)
    (messages : List ServerMessage) :
    Carries (messages.foldl Runtime.broadcast before) clientId channel := by
  induction messages generalizing before with
  | nil => exact h
  | cons message rest ih => exact ih (h.broadcast message)

theorem Carries.sendResponse (h : Carries before clientId channel) (other : ClientId)
    (response : HandshakeResponse) :
    Carries (before.sendResponse other response).2 clientId channel := by
  have hsent := h.trySend other (.handshakeResponse response)
  rw [Runtime.sendResponse_eq]
  split_ifs
  · exact hsent
  · exact hsent.removeClient other

theorem Carries.deliver (h : Carries before clientId channel) (other : ClientId)
    (messages : List ServerMessage) :
    Carries (before.deliver other messages).2 clientId channel := by
  induction messages generalizing before with
  | nil => exact h
  | cons message rest ih => exact ih (h.trySend other message)

theorem Carries.revoke (h : Carries before clientId channel) (surroundings : Surroundings)
    (reason : SessionRevocationReason) :
    Carries (before.revoke surroundings reason) clientId channel := by
  cases hactive : before.session with
  | none => rwa [before.revoke_of_none surroundings reason hactive]
  | some session =>
      have hstopped : Carries (before.stopped surroundings) clientId channel := h.of_eq rfl rfl
      have hdelivered := hstopped.deliver session.clientId
        (before.farewell surroundings session reason)
      rw [before.revoke_of_some surroundings reason hactive, Runtime.dismiss_eq]
      split_ifs
      · exact (hdelivered.removeClient session.clientId).of_eq rfl rfl
      · exact hdelivered.of_eq rfl rfl
      · exact hstopped.of_eq rfl rfl

theorem Carries.ready (h : Carries before clientId channel) {surroundings : Surroundings}
    {base : Runtime} (hready : Ready before surroundings base) :
    Carries (base.releaseLegacy surroundings) clientId channel := by
  cases hready with
  | running hrunning =>
      have hletGo : Carries (before.letGo surroundings.now) clientId channel := h.of_eq rfl rfl
      rw [before.releaseLegacy_of_running surroundings hrunning]
      exact hletGo.foldl_broadcast _
  | resumed hpaused _ =>
      rw [(before.resumeCapture surroundings).2.releaseLegacy_of_paused surroundings hpaused]
      exact h.of_eq rfl rfl

/-- Every pass of the loop sends to a client through its channel. -/
theorem Carries.turn (h : Carries before clientId channel) (hold : clientId ≠ before.nextClient)
    {surroundings : Surroundings} {wakeup : Wakeup}
    (hturn : Turn before surroundings wakeup after) : Carries after clientId channel := by
  have hpublished (state : SwitchStateMachine) (transition : LogicalTransition) :
      Carries (before.published surroundings.now state transition) clientId channel :=
    h.of_eq rfl rfl
  cases hturn with
  | registered other =>
      refine h.of_eq ?_ (before.register_attempts_of_ne other hold)
      rw [Runtime.getElem?_register, if_neg fun hnew => hold hnew.1]
  | left other _ => exact h.removeClient other
  | disconnected session _ => exact (h.removeClient session.clientId).revoke surroundings _
  | muted _ _ => exact h
  | unchanged _ _ _ _ => exact h
  | inner _ _ _ _ _ => exact h.of_eq rfl rfl
  | announced _ _ _ transition state _ => exact (hpublished state transition).broadcast _
  | routed _ _ session _ transition state _ _ =>
      exact (hpublished state transition).trySend session.clientId _
  | overflowed _ _ session _ transition state _ _ =>
      have hsent := (hpublished state transition).trySend session.clientId
        (before.news surroundings.now transition)
      exact (hsent.removeClient session.clientId).revoke surroundings _
  | rejected other _ _ _ => exact h.sendResponse other _
  | unavailable other _ _ _ _ _ =>
      have hresumed : Carries (before.resumeCapture surroundings).2 clientId channel :=
        h.of_eq rfl rfl
      exact hresumed.sendResponse other _
  | abandoned _ _ _ _ hready _ => exact (h.ready hready).of_eq rfl rfl
  | accepted other handshake _ base hready _ =>
      have hopened : Carries ((base.releaseLegacy surroundings).opened surroundings other
          handshake.pid) clientId channel := (h.ready hready).of_eq rfl rfl
      exact hopened.sendResponse other _
  | refused other handshake _ base hready _ _ =>
      have hopened : Carries ((base.releaseLegacy surroundings).opened surroundings other
          handshake.pid) clientId channel := (h.ready hready).of_eq rfl rfl
      exact (hopened.sendResponse other _).revoke surroundings _
  | renewed _ _ => exact h.of_eq rfl rfl
  | stale _ _ _ => exact h
  | revoked _ _ _ reason _ => exact h.revoke surroundings reason
  | ignored _ _ _ => exact h

/-- The first send into a channel is the hello. -/
theorem Runtime.Unused.carries (hunused : before.Unused) (channel : Channel) :
    Carries (before.register channel) before.nextClient channel := by
  obtain ⟨habsent, hnothing⟩ := hunused before.nextClient le_rfl
  have hattempts := before.register_attempts_self channel
  rw [hnothing, List.nil_append] at hattempts
  have htried : attempted (before.register channel) before.nextClient = [before.greeting] := by
    rw [attempted, hattempts]
    rfl
  constructor
  · rw [htried, hattempts]
    rfl
  · intro sender hsender
    rw [Runtime.getElem?_register, ExtTreeMap.getElem?_eq_none habsent] at hsender
    split_ifs at hsender
    rw [htried]
    exact (Option.some.inj hsender).symm

end Step

variable (mappings : List Mapping) (started : Instant)

theorem channelsOf_concat (steps : List Step) (step : Step) :
    channelsOf (steps ++ [step]) = channelsOf steps ++ channelsOf [step] := by
  rw [channelsOf, commandsOf_append, List.filterMap_append]
  rfl

/-- A step gives out an id for each channel that it gets. -/
theorem channelsOf_step (step : Step) :
    (∃ channel, step.wakeup = .command (.register channel) ∧ channelsOf [step] = [channel]) ∨
      channelsOf [step] = [] ∧ step.wakeup.registrations = 0 := by
  obtain ⟨surroundings, wakeup⟩ := step
  cases wakeup with
  | tick => exact .inr ⟨rfl, rfl⟩
  | command command =>
      cases command with
      | register channel => exact .inl ⟨channel, rfl, rfl⟩
      | _ => exact .inr ⟨rfl, rfl⟩

/-- A client's id is the number of its channel, and its sends go into it. -/
theorem carries_run (steps : List Step) :
    ((broker mappings started).run steps).nextClient = (channelsOf steps).length + 1 ∧
    ∀ (place : Nat) channel, (channelsOf steps)[place]? = some channel →
      Carries ((broker mappings started).run steps) (place + 1) channel := by
  refine (broker mappings started).history_invariant
    (fun steps runtime => runtime.nextClient = (channelsOf steps).length + 1 ∧
      ∀ (place : Nat) channel, (channelsOf steps)[place]? = some channel →
        Carries runtime (place + 1) channel) ⟨rfl, fun _ _ h => nomatch h⟩ ?_ steps
  rintro steps step ⟨hnext, hcarries⟩
  have hsound := sound_run mappings started steps
  generalize (broker mappings started).run steps = runtime at *
  have hturn := runtime.step_turn step
  have hcounted : (runtime.step step).nextClient =
      runtime.nextClient + step.wakeup.registrations :=
    runtime.turn_nextClient step.surroundings hturn
  have hold (place : Nat) (channel : Channel)
      (hplace : (channelsOf steps)[place]? = some channel) :
      Carries (runtime.step step) (place + 1) channel := by
    obtain ⟨hlt, _⟩ := List.getElem?_eq_some_iff.mp hplace
    apply (hcarries place channel hplace).turn _ hturn
    rw [hnext]
    exact Nat.ne_of_lt (Nat.succ_lt_succ hlt)
  change (runtime.step step).nextClient = _ ∧ ∀ (place : Nat) channel, _ →
    Carries (runtime.step step) (place + 1) channel
  rw [channelsOf_concat, hcounted, hnext]
  rcases channelsOf_step step with ⟨registered, hwakeup, hchannels⟩ | ⟨hchannels, hnone⟩
  · rw [hchannels, hwakeup, List.length_append]
    refine ⟨rfl, fun place channel hplace => ?_⟩
    rcases Nat.lt_or_ge place (channelsOf steps).length with hlt | hge
    · rw [List.getElem?_append_left hlt] at hplace
      exact hold place channel hplace
    · rw [List.getElem?_append_right hge, List.getElem?_singleton] at hplace
      split_ifs at hplace with hlast
      cases hplace
      have hstep : runtime.step step = runtime.register registered := by
        unfold Runtime.step
        rw [hwakeup]
        rfl
      have hplaced : place + 1 = runtime.nextClient := by
        rw [hnext, Nat.le_antisymm (Nat.le_of_sub_eq_zero hlast) hge]
      rw [hstep, hplaced]
      exact hsound.unused.carries registered
  · rw [hchannels, hnone, List.append_nil]
    exact ⟨rfl, hold⟩

/-- What the receiver of a client has taken is the beginning of what the broker
has enqueued for it, and the rest is in its queue. -/
theorem enqueued_in_order (steps : List Step) {place : Nat} {channel : Channel}
    (hplace : (channelsOf steps)[place]? = some channel) :
    let runtime := (broker mappings started).run steps
    let tried := attempted runtime (place + 1)
    let sender := (Sender.ofChannel channel).sendAll tried
    (Sender.ofChannel channel).received tried ++ sender.queue =
        enqueued runtime (place + 1) ∧
      ∀ current, runtime.clients[place + 1]? = some current → current = sender := by
  intro runtime tried sender
  have hcarries := (carries_run mappings started steps).2 place channel hplace
  refine ⟨?_, hcarries.current⟩
  have hfifo := (Sender.ofChannel channel).received_append_queue tried
  rw [hcarries.enqueued_eq]
  exact hfifo

end Usahp.Broker
