import Usahp.Broker.Stream

/-!
What a client has of the messages that were tried for it. Every sending loop
stops with the first message that a queue refuses, and drops the client,
except the one at the end of a session, which goes on to the last message. So
the messages of a client are a prefix of what was tried for it as long as no
receiver makes room in the middle of that loop.
-/

namespace Usahp.Broker

open Std Usahp.Library

/-- After one failed send nothing later is enqueued. -/
def Gapless (attempts : List Attempt) : Prop :=
  Sender.Monotone (attempts.map (·.sent))

structure Unbroken (runtime : Runtime) (clientId : ClientId) : Prop where
  gapless : Gapless (runtime.history.attempts clientId)
  beginning : enqueued runtime clientId <+: attempted runtime clientId

/-- In a step that ends the session of a registered holder, the holder's queue
is left alone from where it is full to the last message of the farewell. -/
def PartsUndisturbed (runtime : Runtime) (step : Step) : Prop :=
  ∀ session reason sender, runtime.session = some session →
    Demands runtime session step.surroundings.now step.wakeup reason →
    runtime.clients[session.clientId]? = some sender →
    sender.Undisturbed (runtime.farewell step.surroundings session reason)

/-- What a span of a handler does for one client: what it tries, and that a
client whose queue refused something is not registered any more. -/
structure Ran (clientId : ClientId) (more : List Attempt) (before after : Runtime) : Prop where
  attempts : after.history.attempts clientId = before.history.attempts clientId ++ more
  kept : ∀ sender, after.clients[clientId]? = some sender →
    (∃ earlier, before.clients[clientId]? = some earlier ∧
      (earlier.Bounded → sender.Bounded)) ∧
    ∀ attempt ∈ more, attempt.sent = true
  absent : before.clients[clientId]? = none → more = []

def Pruned (clientId : ClientId) (before after : Runtime) : Prop :=
  ∃ more, Ran clientId more before after ∧ Gapless more

theorem gapless_nil : Gapless [] := List.Pairwise.nil

theorem gapless_singleton (attempt : Attempt) : Gapless [attempt] :=
  List.pairwise_singleton _ _

/-- Behind successes only, what follows decides. -/
theorem gapless_append_of_sent {first : List Attempt}
    (hsent : ∀ attempt ∈ first, attempt.sent = true) (second : List Attempt) :
    Gapless (first ++ second) ↔ Gapless second := by
  induction first with
  | nil => simp
  | cons attempt rest ih =>
      have hrest := ih fun other hother => hsent other (by simp [hother])
      have hfirst := hsent attempt (by simp)
      rw [← hrest]
      simp [Gapless, Sender.Monotone, hfirst]

/-- The messages sent are then the first ones of those tried. -/
theorem Gapless.beginning {attempts : List Attempt} (h : Gapless attempts) :
    (attempts.filter (·.sent)).map (·.message) <+: attempts.map (·.message) := by
  induction attempts with
  | nil => simp
  | cons attempt rest ih =>
      obtain ⟨message, sent⟩ := attempt
      have hpair := List.pairwise_cons.mp h
      cases sent with
      | true =>
          have hrest := ih hpair.2
          simpa using hrest
      | false =>
          have hnone : rest.filter (·.sent) = [] := by
            rw [List.filter_eq_nil_iff]
            intro other hother hsent
            have hfirst := hpair.1 _ (List.mem_map_of_mem hother) hsent
            cases hfirst
          simp [hnone]

theorem sent_zipWith {messages : List ServerMessage} {outcomes : List Bool}
    (hlength : outcomes.length = messages.length) :
    (List.zipWith Attempt.mk messages outcomes).map (·.sent) = outcomes := by
  induction messages generalizing outcomes with
  | nil =>
      cases outcomes with
      | nil => rfl
      | cons _ _ => simp at hlength
  | cons message rest ih =>
      cases outcomes with
      | nil => simp at hlength
      | cons outcome later =>
          have hrest := @ih later (by simpa using hlength)
          simp [hrest]

theorem Ran.of_eq {clientId : ClientId} {before after : Runtime}
    (hclients : after.clients[clientId]? = before.clients[clientId]?)
    (hattempts : after.history.attempts clientId = before.history.attempts clientId) :
    Ran clientId [] before after where
  attempts := hattempts.trans (List.append_nil _).symm
  kept sender hsender := by
    rw [hclients] at hsender
    exact ⟨⟨sender, hsender, id⟩, by simp⟩
  absent _ := rfl

theorem Ran.trans {clientId : ClientId} {first second : List Attempt}
    {before middle after : Runtime} (hfirst : Ran clientId first before middle)
    (hsecond : Ran clientId second middle after) :
    Ran clientId (first ++ second) before after where
  attempts := by
    rw [hsecond.attempts, hfirst.attempts, List.append_assoc]
  kept sender hsender := by
    obtain ⟨⟨inner, hinner, hlater⟩, hsecondSent⟩ := hsecond.kept sender hsender
    obtain ⟨⟨earlier, hearlier, hbounded⟩, hfirstSent⟩ := hfirst.kept inner hinner
    refine ⟨⟨earlier, hearlier, fun h => hlater (hbounded h)⟩, ?_⟩
    intro attempt hmem
    rcases List.mem_append.mp hmem with h | h
    · exact hfirstSent attempt h
    · exact hsecondSent attempt h
  absent habsent := by
    have hnothing := hfirst.absent habsent
    cases hmiddle : middle.clients[clientId]? with
    | none => rw [hnothing, hsecond.absent hmiddle, List.append_nil]
    | some inner =>
        obtain ⟨⟨earlier, hearlier, _⟩, _⟩ := hfirst.kept inner hmiddle
        rw [habsent] at hearlier
        cases hearlier

theorem Pruned.of_eq {clientId : ClientId} {before after : Runtime}
    (hclients : after.clients[clientId]? = before.clients[clientId]?)
    (hattempts : after.history.attempts clientId = before.history.attempts clientId) :
    Pruned clientId before after :=
  ⟨[], .of_eq hclients hattempts, gapless_nil⟩

/-- A client who is left after the first span had everything sent, and one who
is not is tried with nothing in the second. -/
theorem Pruned.trans {clientId : ClientId} {before middle after : Runtime}
    (hfirst : Pruned clientId before middle) (hsecond : Pruned clientId middle after) :
    Pruned clientId before after := by
  obtain ⟨first, hfirst, hfirstGapless⟩ := hfirst
  obtain ⟨second, hsecond, hsecondGapless⟩ := hsecond
  refine ⟨first ++ second, hfirst.trans hsecond, ?_⟩
  cases hmiddle : middle.clients[clientId]? with
  | none =>
      rw [hsecond.absent hmiddle, List.append_nil]
      exact hfirstGapless
  | some inner =>
      have hsent := (hfirst.kept inner hmiddle).2
      exact (gapless_append_of_sent hsent second).mpr hsecondGapless

namespace Runtime

variable (runtime : Runtime) (surroundings : Surroundings)

theorem pruned_removeClient (clientId other : ClientId) :
    Pruned other runtime (runtime.removeClient clientId) := by
  refine ⟨[], ⟨(List.append_nil _).symm, ?_, fun _ => rfl⟩, gapless_nil⟩
  intro sender hsender
  rw [getElem?_removeClient] at hsender
  split_ifs at hsender
  exact ⟨⟨sender, hsender, id⟩, by simp⟩

/-- One send, after which a client whose queue refuses is dropped. -/
theorem pruned_trySend (clientId other : ClientId) (message : ServerMessage) :
    (runtime.Accepts clientId →
      Pruned other runtime (runtime.trySend clientId message).2) ∧
    (¬ runtime.Accepts clientId →
      Pruned other runtime ((runtime.trySend clientId message).2.removeClient clientId)) := by
  by_cases hother : other = clientId
  · subst hother
    cases hclient : runtime.clients[other]? with
    | none =>
        rw [runtime.trySend_of_none hclient]
        exact ⟨fun _ => .of_eq rfl rfl, fun _ => runtime.pruned_removeClient other other⟩
    | some sender =>
        have hattempts := runtime.attempts_trySend_self hclient message
        have hnext := runtime.getElem?_trySend_self hclient message
        have haccepts : runtime.Accepts other ↔ sender.Accepts := by
          simp [Accepts, hclient]
        rw [haccepts]
        constructor
        · intro hroom
          refine ⟨_, ⟨hattempts, ?_, ?_⟩, gapless_singleton _⟩
          · intro next hsome
            rw [hnext] at hsome
            cases hsome
            refine ⟨⟨sender, hclient, fun h => h.trySend message⟩, ?_⟩
            simpa using hroom
          · intro habsent
            rw [hclient] at habsent
            cases habsent
        · intro _
          refine ⟨_, ⟨hattempts, ?_, ?_⟩, gapless_singleton _⟩
          · intro next hsome
            rw [getElem?_removeClient, if_pos rfl] at hsome
            cases hsome
          · intro habsent
            rw [hclient] at habsent
            cases habsent
  · have hclients := runtime.getElem?_trySend_of_ne hother message
    have hattempts := runtime.attempts_trySend_of_ne hother message
    constructor
    · intro _
      exact .of_eq hclients hattempts
    · intro _
      have hsent : Pruned other runtime (runtime.trySend clientId message).2 :=
        .of_eq hclients hattempts
      exact hsent.trans (pruned_removeClient _ clientId other)

theorem pruned_sendResponse (clientId other : ClientId) (response : HandshakeResponse) :
    Pruned other runtime (runtime.sendResponse clientId response).2 := by
  have hsend := runtime.pruned_trySend clientId other (.handshakeResponse response)
  have hiff := runtime.trySend_fst_iff clientId (.handshakeResponse response)
  rw [sendResponse_eq]
  split_ifs with hsent
  · exact hsend.1 (hiff.mp hsent)
  · exact hsend.2 fun haccepts => hsent (hiff.mpr haccepts)

theorem pruned_broadcast (message : ServerMessage) (clientId : ClientId) :
    Pruned clientId runtime (runtime.broadcast message) := by
  have hclients := runtime.getElem?_broadcast message clientId
  have hattempts := runtime.attempts_broadcast message clientId
  cases hclient : runtime.clients[clientId]? with
  | none =>
      rw [hclient] at hclients hattempts
      exact .of_eq (hclients.trans hclient.symm) hattempts
  | some sender =>
      rw [hclient] at hclients hattempts
      refine ⟨_, ⟨hattempts, ?_, ?_⟩, gapless_singleton _⟩
      · intro next hnext
        rw [hclients, Option.bind_some] at hnext
        split_ifs at hnext with hroom
        cases hnext
        refine ⟨⟨sender, hclient, fun h => h.trySend message⟩, ?_⟩
        simpa using hroom
      · intro habsent
        rw [hclient] at habsent
        cases habsent

theorem pruned_foldl_broadcast (messages : List ServerMessage) (clientId : ClientId) :
    Pruned clientId runtime (messages.foldl broadcast runtime) := by
  induction messages generalizing runtime with
  | nil => exact .of_eq rfl rfl
  | cons message rest ih =>
      exact (runtime.pruned_broadcast message clientId).trans (ih _)

theorem pruned_ready {base : Runtime} (hready : Ready runtime surroundings base)
    (clientId : ClientId) :
    Pruned clientId runtime (base.releaseLegacy surroundings) := by
  cases hready with
  | running hrunning =>
      rw [runtime.releaseLegacy_of_running surroundings hrunning]
      have hletGo : Pruned clientId runtime (runtime.letGo surroundings.now) :=
        .of_eq rfl rfl
      exact hletGo.trans (pruned_foldl_broadcast _ _ clientId)
  | resumed hpaused hok =>
      rw [(runtime.resumeCapture surroundings).2.releaseLegacy_of_paused surroundings hpaused]
      exact .of_eq rfl rfl

/-- Ending the session of a holder who is gone tries nothing. -/
theorem pruned_revoke_of_absent (reason : SessionRevocationReason) {session : Session}
    (hactive : runtime.session = some session)
    (habsent : session.clientId ∉ runtime.clients) (clientId : ClientId) :
    Pruned clientId runtime (runtime.revoke surroundings reason) := by
  have hgone : session.clientId ∉ (runtime.stopped surroundings).clients := habsent
  rw [runtime.revoke_of_some surroundings reason hactive, dismiss_eq, if_neg hgone]
  exact .of_eq rfl rfl

theorem getElem?_deliver_of_ne {clientId other : ClientId} (hne : other ≠ clientId)
    (messages : List ServerMessage) :
    (runtime.deliver clientId messages).2.clients[other]? = runtime.clients[other]? := by
  induction messages generalizing runtime with
  | nil => rfl
  | cons message rest ih =>
      exact (ih _).trans (runtime.getElem?_trySend_of_ne hne message)

/-- Ending a session touches no one but its holder. -/
theorem pruned_revoke_of_ne (reason : SessionRevocationReason) {session : Session}
    (hactive : runtime.session = some session) {clientId : ClientId}
    (hne : clientId ≠ session.clientId) :
    Pruned clientId runtime (runtime.revoke surroundings reason) := by
  have hattempts := (runtime.stopped surroundings).attempts_dismiss_of_ne hne
    (runtime.farewell surroundings session reason)
  have hclients := (runtime.stopped surroundings).getElem?_deliver_of_ne hne
    (runtime.farewell surroundings session reason)
  rw [runtime.revoke_of_some surroundings reason hactive]
  refine .of_eq ?_ hattempts
  change (dismiss _ session.clientId _).clients[clientId]? = _
  rw [dismiss_eq]
  split_ifs
  · rw [getElem?_removeClient, if_neg hne]
    exact hclients
  · exact hclients
  · rfl

/-- The loop of `revoke` tries every message, whatever the answers are. -/
theorem deliver_ran {clientId : ClientId} {sender : Sender ServerMessage}
    (hclient : runtime.clients[clientId]? = some sender) (messages : List ServerMessage) :
    (runtime.deliver clientId messages).2.history.attempts clientId =
        runtime.history.attempts clientId ++
          List.zipWith Attempt.mk messages (sender.outcomes messages) ∧
      (∀ next, (runtime.deliver clientId messages).2.clients[clientId]? = some next →
        sender.Bounded → next.Bounded) ∧
      ((runtime.deliver clientId messages).1 = false →
        ∀ outcome ∈ sender.outcomes messages, outcome = true) := by
  induction messages generalizing runtime sender with
  | nil =>
      refine ⟨by simp [deliver], ?_, by simp [Sender.outcomes]⟩
      intro next hnext
      change runtime.clients[clientId]? = some next at hnext
      rw [hclient] at hnext
      cases hnext
      exact id
  | cons message rest ih =>
      have hattempts := runtime.attempts_trySend_self hclient message
      have hnext := runtime.getElem?_trySend_self hclient message
      have hsent : (runtime.trySend clientId message).1 = decide sender.Accepts := by
        rw [runtime.trySend_of_some hclient]
      obtain ⟨hlater, hbounded, hall⟩ := ih _ hnext
      refine ⟨?_, ?_, ?_⟩
      · apply hlater.trans
        rw [hattempts, Sender.outcomes, Sender.trySend_isOk]
        simp
      · intro next hsome h
        exact hbounded next hsome (h.trySend message)
      · intro hnone outcome hmem
        change (!(runtime.trySend clientId message).1 || _) = false at hnone
        rw [hsent] at hnone
        simp only [Bool.or_eq_false_iff, Bool.not_eq_false'] at hnone
        rw [Sender.outcomes, Sender.trySend_isOk] at hmem
        rcases List.mem_cons.mp hmem with rfl | hrest
        · exact hnone.1
        · exact hall hnone.2 outcome hrest

/-- What the end of a session tries for its holder. -/
theorem revoke_ran (reason : SessionRevocationReason) {session : Session}
    (hactive : runtime.session = some session) {sender : Sender ServerMessage}
    (hclient : runtime.clients[session.clientId]? = some sender) :
    Ran session.clientId
      (List.zipWith Attempt.mk (runtime.farewell surroundings session reason)
        (sender.outcomes (runtime.farewell surroundings session reason)))
      runtime (runtime.revoke surroundings reason) := by
  have hstopped : (runtime.stopped surroundings).clients[session.clientId]? = some sender :=
    hclient
  have hmem := (mem_clients_iff (runtime.stopped surroundings)).mpr ⟨sender, hstopped⟩
  obtain ⟨hattempts, hbounded, hall⟩ := (runtime.stopped surroundings).deliver_ran hstopped
    (runtime.farewell surroundings session reason)
  rw [runtime.revoke_of_some surroundings reason hactive, dismiss_eq, if_pos hmem]
  constructor
  · split_ifs
    · exact hattempts
    · exact hattempts
  · intro next hnext
    split_ifs at hnext with hfailed
    · change (removeClient _ session.clientId).clients[session.clientId]? = some next at hnext
      rw [getElem?_removeClient, if_pos rfl] at hnext
      cases hnext
    · refine ⟨⟨sender, hclient, hbounded next hnext⟩, ?_⟩
      intro attempt hattempt
      have hsent : attempt.sent ∈ sender.outcomes
          (runtime.farewell surroundings session reason) := by
        rw [← sent_zipWith (sender.outcomes_length _)]
        exact List.mem_map_of_mem hattempt
      exact hall (by simpa using hfailed) _ hsent
  · intro habsent
    rw [hclient] at habsent
    cases habsent

/-- A wakeup that demands the end of the session is nothing but that end. -/
theorem step_of_demands {session : Session} (hactive : runtime.session = some session)
    {step : Step} {reason : SessionRevocationReason}
    (hdemand : Demands runtime session step.surroundings.now step.wakeup reason) :
    runtime.step step = runtime.revoke step.surroundings reason := by
  obtain ⟨surroundings, wakeup⟩ := step
  cases hdemand with
  | requested _ => rfl
  | focusLost pid frontmostPid hbound hother =>
      change runtime.focusChanged surroundings frontmostPid = _
      simp [focusChanged, hactive, hbound, Ne.symm hother]
  | timedOut hlate =>
      change runtime.tick surroundings = _
      simp only at hlate
      simp [tick, hactive, hlate]
  | escape hfresh switchId pressedAt htracked hheld =>
      have hlong := (runtime.tracked_long_iff surroundings.now).mpr
        ⟨switchId, pressedAt, htracked, hheld⟩
      change runtime.tick surroundings = _
      simp only at hfresh
      simp only [tick, hactive, Option.any_some, decide_eq_true_eq, hfresh, if_false,
        Option.isSome_some, if_true, hlong]

/-- Every turn prunes, except one that ends the session by itself. -/
theorem turn_pruned {wakeup : Wakeup} {after : Runtime}
    (hturn : Turn runtime surroundings wakeup after)
    (hundemanded : ∀ session reason, runtime.session = some session →
      ¬ Demands runtime session surroundings.now wakeup reason)
    {clientId : ClientId} (hold : ∀ channel, wakeup = .command (.register channel) →
      clientId ≠ runtime.nextClient) :
    Pruned clientId runtime after := by
  cases hturn with
  | registered channel =>
      have hother := hold channel rfl
      refine .of_eq ?_ (runtime.register_attempts_of_ne channel hother)
      rw [getElem?_register, if_neg fun h => hother h.1]
  | left other _ => exact runtime.pruned_removeClient other clientId
  | disconnected session hactive =>
      have hgone := runtime.not_mem_removeClient session.clientId
      have hended := pruned_revoke_of_absent (runtime.removeClient session.clientId)
        surroundings .explicitRevocation hactive hgone clientId
      exact (runtime.pruned_removeClient session.clientId clientId).trans hended
  | muted _ _ => exact .of_eq rfl rfl
  | unchanged _ _ _ _ => exact .of_eq rfl rfl
  | inner _ _ _ _ _ => exact .of_eq rfl rfl
  | announced _ _ _ transition state _ =>
      have hpublished : Pruned clientId runtime
          (runtime.published surroundings.now state transition) := .of_eq rfl rfl
      exact hpublished.trans (pruned_broadcast _ _ clientId)
  | routed _ _ session _ transition state _ haccepts =>
      have hpublished : Pruned clientId runtime
          (runtime.published surroundings.now state transition) := .of_eq rfl rfl
      exact hpublished.trans ((pruned_trySend _ _ clientId _).1 haccepts)
  | overflowed _ _ session hactive transition state _ hrefuses =>
      have hpublished : Pruned clientId runtime
          (runtime.published surroundings.now state transition) := .of_eq rfl rfl
      have hremoved := (pruned_trySend (runtime.published surroundings.now state transition)
        session.clientId clientId (runtime.news surroundings.now transition)).2 hrefuses
      have hended := pruned_revoke_of_absent _ surroundings .queueOverflow
        (runtime.dropped_session surroundings.now state transition session.clientId hactive)
        (not_mem_removeClient _ session.clientId) clientId
      exact (hpublished.trans hremoved).trans hended
  | rejected other _ reason _ => exact runtime.pruned_sendResponse other clientId _
  | unavailable other _ _ _ _ _ =>
      have hresumed : Pruned clientId runtime (runtime.resumeCapture surroundings).2 :=
        .of_eq rfl rfl
      exact hresumed.trans (pruned_sendResponse _ other clientId _)
  | abandoned other _ _ base hready _ =>
      exact (runtime.pruned_ready surroundings hready clientId).trans (.of_eq rfl rfl)
  | accepted other handshake _ base hready _ =>
      have hopened : Pruned clientId (base.releaseLegacy surroundings)
        ((base.releaseLegacy surroundings).opened surroundings other handshake.pid) :=
        .of_eq rfl rfl
      have hborder := (runtime.pruned_ready surroundings hready clientId).trans hopened
      exact hborder.trans (pruned_sendResponse _ other clientId _)
  | refused other handshake _ base hready _ hrefuses =>
      have hopened : Pruned clientId (base.releaseLegacy surroundings)
        ((base.releaseLegacy surroundings).opened surroundings other handshake.pid) :=
        .of_eq rfl rfl
      have hborder := (runtime.pruned_ready surroundings hready clientId).trans hopened
      have hanswered := hborder.trans
        (pruned_sendResponse _ other clientId (acceptance surroundings.uuid))
      have hrejected : ¬ ((base.releaseLegacy surroundings).opened surroundings other
        handshake.pid).Accepts other := hrefuses
      have hactive := congrArg Core.session (sendResponse_core
        ((base.releaseLegacy surroundings).opened surroundings other handshake.pid)
        other (acceptance surroundings.uuid))
      exact hanswered.trans (pruned_revoke_of_absent _ surroundings .queueOverflow hactive
        (not_mem_sendResponse _ hrejected _) clientId)
  | renewed _ _ => exact .of_eq rfl rfl
  | stale _ _ _ => exact .of_eq rfl rfl
  | revoked session hactive _ reason hdemand =>
      exact absurd hdemand (hundemanded session reason hactive)
  | ignored _ _ _ => exact .of_eq rfl rfl

end Runtime

/-- A registered client has a bounded queue that has taken everything so far,
and an id that is not given out yet has no history. -/
structure Tidy (runtime : Runtime) (clientId : ClientId) : Prop where
  sent : ∀ sender, runtime.clients[clientId]? = some sender →
    sender.Bounded ∧ ∀ attempt ∈ runtime.history.attempts clientId, attempt.sent = true
  unused : runtime.nextClient ≤ clientId →
    runtime.clients[clientId]? = none ∧ runtime.history.attempts clientId = []

theorem Ran.tidy {clientId : ClientId} {more : List Attempt} {before after : Runtime}
    (hran : Ran clientId more before after) (htidy : Tidy before clientId)
    (hnext : after.nextClient ≤ clientId → before.nextClient ≤ clientId) :
    Tidy after clientId where
  sent sender hsender := by
    obtain ⟨⟨earlier, hearlier, hbounded⟩, hmore⟩ := hran.kept sender hsender
    obtain ⟨hearlierBounded, hsent⟩ := htidy.sent earlier hearlier
    refine ⟨hbounded hearlierBounded, ?_⟩
    intro attempt hmem
    rw [hran.attempts] at hmem
    rcases List.mem_append.mp hmem with h | h
    · exact hsent attempt h
    · exact hmore attempt h
  unused hle := by
    obtain ⟨habsent, hnothing⟩ := htidy.unused (hnext hle)
    constructor
    · cases hafter : after.clients[clientId]? with
      | none => rfl
      | some sender =>
          obtain ⟨⟨earlier, hearlier, _⟩, _⟩ := hran.kept sender hafter
          rw [habsent] at hearlier
          cases hearlier
    · rw [hran.attempts, hnothing, hran.absent habsent]
      rfl

/-- A span leaves no gap exactly when there was none and it makes none. -/
theorem Ran.gapless_iff {clientId : ClientId} {more : List Attempt} {before after : Runtime}
    (hran : Ran clientId more before after) (htidy : Tidy before clientId) :
    Gapless (after.history.attempts clientId) ↔
      Gapless (before.history.attempts clientId) ∧ Gapless more := by
  rw [hran.attempts]
  cases hbefore : before.clients[clientId]? with
  | none =>
      rw [hran.absent hbefore, List.append_nil]
      exact (and_iff_left gapless_nil).symm
  | some sender =>
      have hsent := (htidy.sent sender hbefore).2
      have hclean : Gapless (before.history.attempts clientId) := by
        have h := (gapless_append_of_sent hsent []).mpr gapless_nil
        rwa [List.append_nil] at h
      rw [gapless_append_of_sent hsent more]
      exact (and_iff_right hclean).symm

/-- What a step does for a client who does not register in it, and when it
leaves no gap. -/
theorem step_ran (runtime : Runtime) (step : Step) {clientId : ClientId}
    (htidy : Tidy runtime clientId)
    (hold : ∀ channel, step.wakeup = .command (.register channel) →
      clientId ≠ runtime.nextClient) :
    ∃ more, Ran clientId more runtime (runtime.step step) ∧
      (Gapless more ↔ ∀ session reason sender, runtime.session = some session →
        session.clientId = clientId →
        Demands runtime session step.surroundings.now step.wakeup reason →
        runtime.clients[clientId]? = some sender →
        sender.Undisturbed (runtime.farewell step.surroundings session reason)) := by
  by_cases hdemanded : ∃ session reason, runtime.session = some session ∧
    Demands runtime session step.surroundings.now step.wakeup reason
  · obtain ⟨session, reason, hactive, hdemand⟩ := hdemanded
    rw [runtime.step_of_demands hactive hdemand]
    by_cases hholder : session.clientId = clientId
    · subst hholder
      cases hclient : runtime.clients[session.clientId]? with
      | none =>
          have habsent : session.clientId ∉ runtime.clients := by
            intro hmem
            obtain ⟨sender, hsender⟩ := runtime.mem_clients_iff.mp hmem
            rw [hclient] at hsender
            cases hsender
          obtain ⟨more, hran, hgapless⟩ := runtime.pruned_revoke_of_absent step.surroundings
            reason hactive habsent session.clientId
          exact ⟨more, hran, iff_of_true hgapless (by simp)⟩
      | some sender =>
          refine ⟨_, runtime.revoke_ran step.surroundings reason hactive hclient, ?_⟩
          rw [Gapless, sent_zipWith (sender.outcomes_length _),
            Sender.outcomes_monotone_iff (htidy.sent sender hclient).1]
          constructor
          · intro hundisturbed other otherReason _ hother _ hotherDemand hsame
            rw [hactive] at hother
            cases hother
            cases hsame
            rw [hotherDemand.unique hdemand]
            exact hundisturbed
          · intro h
            exact h session reason sender hactive rfl hdemand rfl
    · obtain ⟨more, hran, hgapless⟩ := runtime.pruned_revoke_of_ne step.surroundings reason
        hactive (Ne.symm hholder)
      refine ⟨more, hran, iff_of_true hgapless ?_⟩
      intro other _ _ hother hself
      rw [hactive] at hother
      cases hother
      exact absurd hself hholder
  · have hundemanded : ∀ session reason, runtime.session = some session →
        ¬ Demands runtime session step.surroundings.now step.wakeup reason := by
      intro session reason hactive hdemand
      exact hdemanded ⟨session, reason, hactive, hdemand⟩
    obtain ⟨more, hran, hgapless⟩ := runtime.turn_pruned step.surroundings
      (runtime.step_turn step) hundemanded hold
    refine ⟨more, hran, iff_of_true hgapless ?_⟩
    intro session reason _ hactive _ hdemand
    exact absurd hdemand (hundemanded session reason hactive)

/-- The registration of a client tries one message. -/
theorem Runtime.register_gapless (runtime : Runtime) (channel : Channel)
    (htidy : Tidy runtime runtime.nextClient) :
    Tidy (runtime.register channel) runtime.nextClient ∧
      Gapless ((runtime.register channel).history.attempts runtime.nextClient) := by
  obtain ⟨habsent, hnothing⟩ := htidy.unused le_rfl
  have hattempts := runtime.register_attempts_self channel
  rw [hnothing, List.nil_append] at hattempts
  have hnext := congrArg Core.nextClient (runtime.register_core channel)
  change (runtime.register channel).nextClient = runtime.nextClient + 1 at hnext
  refine ⟨⟨?_, ?_⟩, ?_⟩
  · intro sender hsender
    rw [getElem?_register] at hsender
    split_ifs at hsender with hok
    · cases hsender
      refine ⟨(Sender.bounded_ofChannel channel).trySend runtime.greeting, ?_⟩
      rw [hattempts]
      simpa using hok.2
    · rw [habsent] at hsender
      cases hsender
  · intro hle
    rw [hnext] at hle
    exact absurd hle (Nat.not_succ_le_self _)
  · rw [hattempts]
    exact gapless_singleton _

theorem tidy_step (runtime : Runtime) (htidy : ∀ clientId, Tidy runtime clientId)
    (step : Step) (clientId : ClientId) : Tidy (runtime.step step) clientId := by
  have hnext : (runtime.step step).nextClient =
      runtime.nextClient + step.wakeup.registrations :=
    runtime.turn_nextClient step.surroundings (runtime.step_turn step)
  by_cases hnew : (∃ channel, step.wakeup = .command (.register channel)) ∧
    clientId = runtime.nextClient
  · obtain ⟨⟨channel, hregister⟩, rfl⟩ := hnew
    have hstep : runtime.step step = runtime.register channel := by
      unfold Runtime.step
      rw [hregister]
      rfl
    rw [hstep]
    exact (runtime.register_gapless channel (htidy _)).1
  · obtain ⟨more, hran, _⟩ := step_ran runtime step (htidy clientId)
      fun channel hregister hself => hnew ⟨⟨channel, hregister⟩, hself⟩
    apply hran.tidy (htidy clientId)
    rw [hnext]
    exact fun hle => (Nat.le_add_right _ _).trans hle

/-- One step leaves no gap exactly when there was none and the farewell of a
session it ends is not disturbed. -/
theorem gapless_step_iff (runtime : Runtime) (htidy : ∀ clientId, Tidy runtime clientId)
    (step : Step) :
    (∀ clientId, Gapless ((runtime.step step).history.attempts clientId)) ↔
      (∀ clientId, Gapless (runtime.history.attempts clientId)) ∧
        PartsUndisturbed runtime step := by
  by_cases hnew : ∃ channel, step.wakeup = .command (.register channel)
  · obtain ⟨channel, hregister⟩ := hnew
    have hstep : runtime.step step = runtime.register channel := by
      unfold Runtime.step
      rw [hregister]
      rfl
    have hparts : PartsUndisturbed runtime step := by
      intro session reason sender _ hdemand
      rw [hregister] at hdemand
      cases hdemand
    rw [hstep, and_iff_left hparts]
    constructor
    · intro h clientId
      by_cases hself : clientId = runtime.nextClient
      · subst hself
        rw [((htidy _).unused le_rfl).2]
        exact gapless_nil
      · have hclient := h clientId
        rwa [runtime.register_attempts_of_ne channel hself] at hclient
    · intro h clientId
      by_cases hself : clientId = runtime.nextClient
      · subst hself
        exact (runtime.register_gapless channel (htidy _)).2
      · rw [runtime.register_attempts_of_ne channel hself]
        exact h clientId
  · have hran (clientId : ClientId) := step_ran runtime step (htidy clientId)
      fun channel hregister _ => hnew ⟨channel, hregister⟩
    constructor
    · intro h
      constructor
      · intro clientId
        obtain ⟨more, hmore, _⟩ := hran clientId
        exact ((hmore.gapless_iff (htidy clientId)).mp (h clientId)).1
      · intro session reason sender hactive hdemand hsender
        obtain ⟨more, hmore, hiff⟩ := hran session.clientId
        have hgapless := ((hmore.gapless_iff (htidy _)).mp (h session.clientId)).2
        exact hiff.mp hgapless session reason sender hactive rfl hdemand hsender
    · rintro ⟨h, hparts⟩ clientId
      obtain ⟨more, hmore, hiff⟩ := hran clientId
      refine (hmore.gapless_iff (htidy clientId)).mpr ⟨h clientId, hiff.mpr ?_⟩
      rintro session reason sender hactive rfl hdemand hsender
      exact hparts session reason sender hactive hdemand hsender

variable (mappings : List Mapping) (started : Instant)

theorem unbroken_iff (runtime : Runtime) :
    (∀ clientId, Unbroken runtime clientId) ↔
      ∀ clientId, Gapless (runtime.history.attempts clientId) := by
  constructor
  · intro h clientId
    exact (h clientId).gapless
  · intro h clientId
    exact ⟨h clientId, (h clientId).beginning⟩

theorem unbroken_throughout_iff {runtime : Runtime}
    (htidy : ∀ clientId, Tidy runtime clientId)
    (hunbroken : ∀ clientId, Unbroken runtime clientId) (steps : List Step) :
    (broker mappings started).Throughout
        (fun runtime => ∀ clientId, Unbroken runtime clientId) runtime steps ↔
      (broker mappings started).Along PartsUndisturbed runtime steps := by
  induction steps generalizing runtime with
  | nil => exact iff_of_true hunbroken trivial
  | cons step rest ih =>
      have hstep := gapless_step_iff runtime htidy step
      rw [← unbroken_iff, ← unbroken_iff] at hstep
      have hafter := tidy_step runtime htidy step
      constructor
      · rintro ⟨_, hrest⟩
        have hnext := (broker mappings started).throughout_head hrest
        exact ⟨(hstep.mp hnext).2, (ih hafter hnext).mp hrest⟩
      · rintro ⟨hparts, hrest⟩
        have hnext := hstep.mpr ⟨hunbroken, hparts⟩
        exact ⟨hunbroken, (ih hafter hnext).mpr hrest⟩

/-- In every state of a run every client has a prefix of what was tried for it
exactly when no farewell of the run is disturbed. -/
theorem clean_prefix_iff (steps : List Step) :
    (broker mappings started).Throughout
        (fun runtime => ∀ clientId, Unbroken runtime clientId)
        (Runtime.new mappings started) steps ↔
      (broker mappings started).Along PartsUndisturbed (Runtime.new mappings started)
        steps := by
  have hempty (clientId : ClientId) :
      (Runtime.new mappings started).clients[clientId]? = none :=
    ExtTreeMap.getElem?_empty
  refine unbroken_throughout_iff mappings started ?_ ?_ steps
  · intro clientId
    refine ⟨?_, fun _ => ⟨hempty clientId, rfl⟩⟩
    intro sender hsender
    rw [hempty] at hsender
    cases hsender
  · rw [unbroken_iff]
    exact fun _ => gapless_nil

/-- A queue of three that is full when the session ends, and a receiver who
takes one message between the two sends of the farewell. -/
def drainedFarewell : List Step :=
  [passAt 0 (.command (.register ⟨3, by decide,
      [⟨0, false⟩, ⟨0, false⟩, ⟨0, false⟩, ⟨0, false⟩, ⟨1, false⟩]⟩)),
    passAt 1 (.command (.handshake 1 exclusiveHandshake)),
    passAt 2 (.command (.input spacePress)),
    passAt 3 (.command (.revokeSession .explicitRevocation))]

/-- The announcement reaches the holder without the release before it. -/
theorem drainedFarewell_broken :
    ¬ enqueued ((broker [spaceMapping] 0).run drainedFarewell) 1 <+:
      attempted ((broker [spaceMapping] 0).run drainedFarewell) 1 := by
  decide +kernel

end Usahp.Broker
