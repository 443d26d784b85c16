import Usahp.Broker.Delivery

/-!
What one pass does to the session. `Ends` lists the wakeups that end it, with
the reason; `SessionChange` says that without such a wakeup the session stays,
that only its holder's heartbeat renews it, and what happens to the holder's
registration and to the escape tracker meanwhile.
-/

namespace Usahp.Broker

open Std Usahp.Library

/-- The escape tracker after one event. -/
def trackEvent (now : Instant) (tracker : ExtTreeMap String Instant)
    (event : SwitchEvent) : ExtTreeMap String Instant :=
  match event.action with
  | .pressed => tracker.insert event.switchId now
  | .released => tracker.erase event.switchId

/-- A wakeup that has to end the session. -/
inductive Ends (runtime : Runtime) (session : Session) (now : Instant) :
    Wakeup → SessionRevocationReason → Prop
  | disconnected :
      Ends runtime session now (.command (.unregister session.clientId))
        .explicitRevocation
  | overflowed (event : PhysicalEvent) (transition : LogicalTransition)
      (state : SwitchStateMachine) (outer : Outer runtime event transition state)
      (refuses : ¬ runtime.Accepts session.clientId) :
      Ends runtime session now (.command (.input event)) .queueOverflow
  | demanded (wakeup : Wakeup) (reason : SessionRevocationReason)
      (demand : Demands runtime session now wakeup reason) :
      Ends runtime session now wakeup reason

/-- The session after a wakeup that does not end it. -/
def Session.beat (session : Session) (now : Instant) : Wakeup → Session
  | .command (.heartbeat clientId sessionId) =>
      if session.clientId = clientId ∧ session.sessionId = sessionId then
        { session with lastHeartbeat := now }
      else session
  | _ => session

/-- A handshake of the holder itself is answered, and the answer needs room. -/
def Answers (runtime : Runtime) (session : Session) (wakeup : Wakeup) : Prop :=
  ∀ handshake, wakeup = .command (.handshake session.clientId handshake) →
    runtime.Accepts session.clientId

/-- What the state machine makes of a wakeup while input is listened to. -/
def heard (state : SwitchStateMachine) : Wakeup → SwitchStateMachine
  | .command (.input event) =>
      (state.apply event.mappingId event.action
        (event.confidence.bind validateConfidence)).2
  | _ => state

inductive SessionChange (runtime : Runtime) (surroundings : Surroundings)
    (wakeup : Wakeup) (after : Runtime) : Prop
  | idle (before : runtime.session = none) (still : after.session = none)
  | opened (clientId : ClientId) (handshake : Handshake)
      (asked : wakeup = .command (.handshake clientId handshake))
      (before : runtime.session = none)
      (opened : after.session =
        some ⟨clientId, surroundings.uuid, handshake.pid, surroundings.now⟩)
      (registered : clientId ∈ after.clients)
      (cleared : after.escapeTracker = ∅)
      (answered : ∃ earlier, enqueued after clientId =
        earlier ++ [.handshakeResponse (acceptance surroundings.uuid)])
  | kept (session : Session) (before : runtime.session = some session)
      (kept : after.session = some (session.beat surroundings.now wakeup))
      (unforced : ∀ reason, ¬ Ends runtime session surroundings.now wakeup reason)
      (holder : session.clientId ∈ runtime.clients →
        (session.clientId ∈ after.clients ↔ Answers runtime session wakeup))
      (heard : after.state = heard runtime.state wakeup)
      (tracked : ∃ events, Creates runtime.core surroundings.now events after.core ∧
        after.escapeTracker =
          events.foldl (trackEvent surroundings.now) runtime.escapeTracker ∧
        events.length ≤ 1 ∧ (events ≠ [] → session.clientId ∈ after.clients))
      (unlogged : after.history.revoked = runtime.history.revoked)
  | ended (session : Session) (before : runtime.session = some session)
      (still : after.session = none) (reason : SessionRevocationReason)
      (forced : Ends runtime session surroundings.now wakeup reason)
      (logged : after.history.revoked =
        runtime.history.revoked ++ [(session, reason)])
      (released : session.clientId ∈ after.clients →
        Creates runtime.core surroundings.now (runtime.releases surroundings.now) after.core)
      (parted : ∃ part events, part.Sublist (events.map .switchEvent ++
          [revocation (session, reason)]) ∧
        Creates runtime.core surroundings.now events after.core ∧
        enqueued after session.clientId = enqueued runtime session.clientId ++ part)

/-- What a step leaves of a session that it does not end. -/
theorem SessionChange.kept_of_lasts {runtime after : Runtime} {surroundings : Surroundings}
    {wakeup : Wakeup} (h : SessionChange runtime surroundings wakeup after) {session : Session}
    (hactive : runtime.session = some session) (hlasts : after.session ≠ none) :
    after.session = some (session.beat surroundings.now wakeup) ∧
    after.state = heard runtime.state wakeup ∧
    ∃ events, Creates runtime.core surroundings.now events after.core ∧
      after.escapeTracker = events.foldl (trackEvent surroundings.now) runtime.escapeTracker ∧
      events.length ≤ 1 ∧ (events ≠ [] → session.clientId ∈ after.clients) := by
  cases h with
  | idle hidle _ => cases hidle.symm.trans hactive
  | opened _ _ _ hidle _ _ _ _ => cases hidle.symm.trans hactive
  | ended _ _ hstill _ _ _ _ _ => exact absurd hstill hlasts
  | kept other hbefore hkept _ _ hheard htracked _ =>
      cases hactive.symm.trans hbefore
      exact ⟨hkept, hheard, htracked⟩

theorem Demands.unique {runtime : Runtime} {session : Session} {now : Instant}
    {wakeup : Wakeup} {first second : SessionRevocationReason}
    (hfirst : Demands runtime session now wakeup first)
    (hsecond : Demands runtime session now wakeup second) : first = second := by
  cases hfirst with
  | requested _ =>
      cases hsecond
      rfl
  | focusLost _ _ _ _ =>
      cases hsecond
      rfl
  | timedOut hlate =>
      cases hsecond with
      | timedOut _ => rfl
      | escape hfresh _ _ _ _ => exact absurd hlate hfresh
  | escape hfresh _ _ _ _ =>
      cases hsecond with
      | timedOut hlate => exact absurd hlate hfresh
      | escape _ _ _ _ _ => rfl

/-- A wakeup ends a session with one reason at most. -/
theorem Ends.unique {runtime : Runtime} {session : Session} {now : Instant}
    {wakeup : Wakeup} {first second : SessionRevocationReason}
    (hfirst : Ends runtime session now wakeup first)
    (hsecond : Ends runtime session now wakeup second) : first = second := by
  cases hfirst with
  | disconnected =>
      cases hsecond with
      | disconnected => rfl
      | demanded _ _ hdemand => cases hdemand
  | overflowed _ _ _ _ _ =>
      cases hsecond with
      | overflowed _ _ _ _ _ => rfl
      | demanded _ _ hdemand => cases hdemand
  | demanded _ _ hdemand =>
      cases hsecond with
      | disconnected => cases hdemand
      | overflowed _ _ _ _ _ => cases hdemand
      | demanded _ _ hother => exact hdemand.unique hother

namespace Runtime

variable (runtime : Runtime) (surroundings : Surroundings)

/-- A pass that leaves the session, the tracker and the levels alone. -/
theorem change_quiet {wakeup : Wakeup} {after : Runtime}
    (hcreates : Creates runtime.core surroundings.now [] after.core)
    (hsession : after.core.session = runtime.core.session)
    (htracker : after.core.escapeTracker = runtime.core.escapeTracker)
    (hlog : after.core.revoked = runtime.core.revoked)
    (hheard : after.core.state = heard runtime.core.state wakeup)
    (hbeat : ∀ session : Session, runtime.session = some session →
      session.beat surroundings.now wakeup = session)
    (hunforced : ∀ session, runtime.session = some session →
      ∀ reason, ¬ Ends runtime session surroundings.now wakeup reason)
    (hholder : ∀ session, runtime.session = some session →
      session.clientId ∈ runtime.clients →
        (session.clientId ∈ after.clients ↔ Answers runtime session wakeup)) :
    SessionChange runtime surroundings wakeup after := by
  cases hactive : runtime.session with
  | none => exact .idle hactive (hsession.trans hactive)
  | some session =>
      refine .kept session hactive ?_ (hunforced session hactive) (hholder session hactive)
        hheard ⟨[], hcreates, htracker, Nat.zero_le 1, fun h => absurd rfl h⟩ hlog
      rw [hbeat session hactive]
      exact hsession.trans hactive

/-- The end of the session in `before`, which differs from the present state
in what is sent and created only, and where the holder may be gone. -/
theorem change_ended {wakeup : Wakeup} {session : Session}
    (hactive : runtime.session = some session) (before : Runtime)
    (hbefore : before.session = some session)
    (hlog : before.history.revoked = runtime.history.revoked)
    (reason : SessionRevocationReason)
    (hends : Ends runtime session surroundings.now wakeup reason)
    (hqueue : enqueued before session.clientId = enqueued runtime session.clientId)
    (hgone : session.clientId ∈ before.clients → before = runtime)
    {events : List SwitchEvent}
    (hcreates : Creates runtime.core surroundings.now events
      (before.revoke surroundings reason).core)
    (hreleases : (before.releases surroundings.now).Sublist events) :
    SessionChange runtime surroundings wakeup (before.revoke surroundings reason) := by
  have hcore := before.revoke_core surroundings reason hbefore
  refine .ended session hactive (congrArg Core.session hcore) reason hends ?_ ?_ ?_
  · rw [← hlog]
    exact congrArg Core.revoked hcore
  · intro hmem
    have hregistered := (before.revoke_delivered surroundings reason hbefore
      session.clientId hmem).1
    rw [hgone hregistered]
    exact runtime.revoke_creates surroundings reason hactive
  · obtain ⟨part, hpart, henqueued⟩ := before.enqueued_revoke surroundings reason hbefore
    rw [hqueue] at henqueued
    exact ⟨part, events, hpart.trans ((hreleases.map _).append_right _), hcreates, henqueued⟩

/-- A rejection costs the holder its registration only where the rejected
handshake is its own and the answer finds no room. -/
theorem mem_reject_clients (clientId : ClientId) (reason : HandshakeRejectionReason)
    (handshake : Handshake) (session : Session) (hmem : session.clientId ∈ runtime.clients) :
    session.clientId ∈ (runtime.reject clientId reason).clients ↔
      Answers runtime session (.command (.handshake clientId handshake)) := by
  by_cases hself : clientId = session.clientId
  · subst hself
    have hanswers : Answers runtime session
        (.command (.handshake session.clientId handshake)) ↔
          runtime.Accepts session.clientId := by
      constructor
      · intro h
        exact h handshake rfl
      · intro h _ _
        exact h
    rw [hanswers]
    constructor
    · intro h
      by_contra hrefuses
      exact runtime.not_mem_sendResponse hrefuses _ h
    · intro h
      exact runtime.mem_sendResponse_of_accepts h _
  · apply iff_of_true
    · exact runtime.mem_sendResponse_of_ne (Ne.symm hself) hmem _
    · rintro other heq
      cases heq
      exact absurd rfl hself

theorem settled_listening {mode : Mode} {runtime : Runtime}
    (hsettled : runtime.core.Settled mode) {session : Session}
    (hactive : runtime.session = some session) : runtime.Listening := by
  have hmode := hsettled.1
  cases mode with
  | managed key => exact hmode.2
  | broadcast => exact absurd hmode.1 (by simp [core, hactive])
  | paused => exact absurd hmode.1 (by simp [core, hactive])

/-- An input that is heard without a transition leaves the session as it is. -/
theorem change_inner (event : PhysicalEvent) {after : Runtime}
    {result : Except StateError (Option LogicalTransition)} {state : SwitchStateMachine}
    (happlied : runtime.state.apply event.mappingId event.action
      (event.confidence.bind validateConfidence) = (result, state))
    (hinner : ∀ transition, result ≠ .ok (some transition))
    (hafter : after = { runtime with state }) (hlevel : state.level = runtime.state.level) :
    SessionChange runtime surroundings (.command (.input event)) after := by
  subst hafter
  refine runtime.change_quiet surroundings (.of_eq _ rfl rfl hlevel) rfl rfl rfl
    (congrArg Prod.snd happlied).symm (fun _ _ => rfl) ?_ ?_
  · intro session _ reason hends
    cases hends with
    | overflowed _ transition _ houter _ =>
        rw [houter.applied] at happlied
        exact hinner transition (congrArg Prod.fst happlied).symm
    | demanded _ _ hdemand => cases hdemand
  · intro session _ hmem
    apply iff_of_true hmem
    rintro _ ⟨⟩

/-- A transition whose event the holder takes. -/
theorem change_routed {event : PhysicalEvent} {session : Session}
    (hactive : runtime.session = some session) {transition : LogicalTransition}
    {state : SwitchStateMachine} (houter : Outer runtime event transition state)
    (haccepts : runtime.Accepts session.clientId) :
    SessionChange runtime surroundings (.command (.input event))
      ((runtime.published surroundings.now state transition).trySend session.clientId
        (runtime.news surroundings.now transition)).2 := by
  have hsent := (runtime.published surroundings.now state transition).trySend_core
    session.clientId (runtime.news surroundings.now transition)
  have hheard : heard runtime.state (.command (.input event)) = state :=
    congrArg Prod.snd houter.applied
  refine .kept session hactive ((congrArg Core.session hsent).trans hactive) ?_ ?_
    ((congrArg Core.state hsent).trans hheard.symm) ?_ (congrArg Core.revoked hsent)
  · intro reason hends
    cases hends with
    | overflowed _ _ _ _ hrefuses => exact hrefuses haccepts
    | demanded _ _ hdemand => cases hdemand
  · intro hmem
    refine iff_of_true ((mem_trySend_clients
      (runtime.published surroundings.now state transition) _ _ _).mpr hmem) ?_
    rintro _ ⟨⟩
  · refine ⟨[stampOne runtime.started surroundings.now (runtime.sequence + 1) transition], ?_,
      congrArg Core.escapeTracker hsent, le_rfl, fun _ => ?_⟩
    · rw [hsent]
      exact runtime.published_creates surroundings.now houter
    · obtain ⟨sender, hsender, _⟩ := haccepts
      exact (mem_trySend_clients (runtime.published surroundings.now state transition)
        _ _ _).mpr (runtime.mem_clients_iff.mpr ⟨sender, hsender⟩)

/-- A transition whose event the holder does not take. -/
theorem change_overflowed {event : PhysicalEvent} {session : Session}
    (hactive : runtime.session = some session) {transition : LogicalTransition}
    {state : SwitchStateMachine} (houter : Outer runtime event transition state)
    (hrefuses : ¬ runtime.Accepts session.clientId) :
    SessionChange runtime surroundings (.command (.input event))
      ((((runtime.published surroundings.now state transition).trySend session.clientId
        (runtime.news surroundings.now transition)).2.removeClient session.clientId).revoke
          surroundings .queueOverflow) := by
  have hsent := (runtime.published surroundings.now state transition).trySend_core
    session.clientId (runtime.news surroundings.now transition)
  have hreleases : Runtime.releases _ surroundings.now =
      (runtime.published surroundings.now state transition).releases surroundings.now :=
    congrArg (fun core : Core =>
      stamp core.started surroundings.now core.sequence core.state.releaseAll.1) hsent
  refine runtime.change_ended surroundings hactive (removeClient _ session.clientId)
    ((congrArg Core.session hsent).trans hactive) (congrArg Core.revoked hsent) _
    (.overflowed event transition state houter hrefuses) ?_ ?_
    (runtime.passed_overflowed surroundings hactive houter).creates
    (List.Sublist.cons _ (hreleases ▸ List.Sublist.refl _))
  · obtain ⟨part, _, hqueue, hnothing⟩ := (runtime.published surroundings.now state
      transition).enqueued_trySend session.clientId (runtime.news surroundings.now transition)
    rw [hnothing hrefuses, List.append_nil] at hqueue
    exact hqueue
  · intro hmem
    exact absurd hmem (not_mem_removeClient _ session.clientId)

/-- The acceptance of a handshake whose client takes the answer. -/
theorem change_accepted (clientId : ClientId) (handshake : Handshake)
    (hidle : runtime.session = none) (base : Runtime)
    (haccepts : ((base.releaseLegacy surroundings).opened surroundings clientId
      handshake.pid).Accepts clientId) :
    SessionChange runtime surroundings (.command (.handshake clientId handshake))
      (((base.releaseLegacy surroundings).opened surroundings clientId
        handshake.pid).sendResponse clientId (acceptance surroundings.uuid)).2 := by
  have hcore := ((base.releaseLegacy surroundings).opened surroundings clientId
    handshake.pid).sendResponse_core clientId (acceptance surroundings.uuid)
  have hregistered := mem_sendResponse_of_accepts
    (opened _ surroundings clientId handshake.pid) haccepts (acceptance surroundings.uuid)
  refine .opened clientId handshake rfl hidle (congrArg Core.session hcore) hregistered
    (congrArg Core.escapeTracker hcore) ?_
  have hsent := (sendResponse_delivered (opened _ surroundings clientId handshake.pid)
    clientId clientId (acceptance surroundings.uuid) hregistered).2
  rw [if_pos rfl] at hsent
  refine ⟨enqueued (opened (base.releaseLegacy surroundings) surroundings clientId
    handshake.pid) clientId, ?_⟩
  rw [enqueued, hsent, List.filter_append, List.map_append]
  rfl

theorem turn_change {mode : Mode} (hsettled : runtime.core.Settled mode)
    {wakeup : Wakeup} {after : Runtime} (hturn : Turn runtime surroundings wakeup after) :
    SessionChange runtime surroundings wakeup after := by
  cases hturn with
  | registered channel =>
      refine runtime.change_quiet surroundings ?_ ?_ ?_ ?_ ?_ (fun _ _ => rfl) ?_ ?_
      · rw [register_core]
        exact .of_eq _ rfl rfl rfl
      · rw [register_core]
      · rw [register_core]
      · rw [register_core]
      · rw [register_core]
        rfl
      · rintro session _ reason (_ | _ | ⟨_, _, hdemand⟩)
        cases hdemand
      · intro session _ hmem
        apply iff_of_true ((runtime.mem_register_clients channel _).mpr (Or.inl hmem))
        rintro _ ⟨⟩
  | left clientId hother =>
      refine runtime.change_quiet surroundings (.of_eq _ rfl rfl rfl) rfl rfl rfl rfl
        (fun _ _ => rfl) ?_ ?_
      · intro session hactive reason hends
        cases hends with
        | disconnected => exact hother session hactive rfl
        | demanded _ _ hdemand => cases hdemand
      · intro session hactive hmem
        refine iff_of_true ((runtime.mem_removeClient_clients clientId _).mpr
          ⟨hother session hactive, hmem⟩) ?_
        rintro _ ⟨⟩
  | disconnected session hactive =>
      refine runtime.change_ended surroundings hactive (runtime.removeClient session.clientId)
        hactive rfl _ .disconnected rfl ?_
        ((runtime.removeClient session.clientId).revoke_creates surroundings _ hactive)
        (List.Sublist.refl _)
      intro hmem
      exact absurd hmem (runtime.not_mem_removeClient session.clientId)
  | muted event hdeaf =>
      cases hactive : runtime.session with
      | none => exact .idle hactive hactive
      | some session => exact absurd (settled_listening hsettled hactive) hdeaf
  | unchanged event _ error happlied =>
      have hsame := SwitchStateMachine.apply_snd_of_error _ happlied
      refine runtime.change_inner surroundings event (Prod.ext happlied hsame) ?_ rfl rfl
      rintro _ ⟨⟩
  | inner event _ state happlied hlevel =>
      refine runtime.change_inner surroundings event happlied ?_ rfl hlevel
      rintro _ ⟨⟩
  | announced _ _ hidle _ _ _ => exact .idle hidle hidle
  | routed event _ session hactive transition state houter haccepts =>
      exact runtime.change_routed surroundings hactive houter haccepts
  | overflowed event _ session hactive transition state houter hrefuses =>
      exact runtime.change_overflowed surroundings hactive houter hrefuses
  | rejected clientId handshake reason hrejection =>
      refine runtime.change_quiet surroundings ?_ ?_ ?_ ?_ ?_ (fun _ _ => rfl) ?_ ?_
      · rw [reject_core]
        exact .of_eq _ rfl rfl rfl
      · rw [reject_core]
      · rw [reject_core]
      · rw [reject_core]
      · rw [reject_core]
        rfl
      · rintro session _ reason (_ | _ | ⟨_, _, hdemand⟩)
        cases hdemand
      · intro session _ hmem
        exact runtime.mem_reject_clients clientId reason handshake session hmem
  | unavailable clientId handshake hrejection _ error hfailed =>
      have hidle := runtime.rejection_eq_none hrejection
      refine .idle hidle ?_
      have hcore := (runtime.resumeCapture surroundings).2.reject_core clientId
        .captureUnavailable
      exact (congrArg Core.session hcore).trans hidle
  | abandoned clientId handshake hrejection base hready hgone =>
      have hidle := runtime.rejection_eq_none hrejection
      exact .idle hidle (runtime.releaseLegacy_flags surroundings hsettled hidle hready).1
  | accepted clientId handshake hrejection base hready haccepts =>
      exact runtime.change_accepted surroundings clientId handshake
        (runtime.rejection_eq_none hrejection) base haccepts
  | refused clientId handshake hrejection base hready _ _ =>
      have hidle := runtime.rejection_eq_none hrejection
      have hcore := ((base.releaseLegacy surroundings).opened surroundings clientId
        handshake.pid).sendResponse_core clientId (acceptance surroundings.uuid)
      refine .idle hidle ?_
      exact congrArg Core.session (revoke_core _ surroundings .queueOverflow
        (congrArg Core.session hcore))
  | renewed session hactive =>
      refine .kept session hactive ?_ ?_ ?_
        rfl ⟨[], .of_eq _ rfl rfl rfl, rfl, Nat.zero_le 1, fun h => absurd rfl h⟩ rfl
      · simp [Session.beat]
      · rintro reason (_ | _ | ⟨_, _, hdemand⟩)
        cases hdemand
      · intro hmem
        apply iff_of_true hmem
        rintro _ ⟨⟩
  | stale clientId sessionId hother =>
      apply runtime.change_quiet surroundings (.of_eq _ rfl rfl rfl) rfl rfl rfl rfl
      · intro session hactive
        exact if_neg (hother session hactive)
      · rintro session _ reason (_ | _ | ⟨_, _, hdemand⟩)
        cases hdemand
      · intro session _ hmem
        apply iff_of_true hmem
        rintro _ ⟨⟩
  | revoked session hactive _ reason hdemand =>
      exact runtime.change_ended surroundings hactive runtime hactive rfl reason
        (.demanded _ reason hdemand) rfl (fun _ => rfl)
        (runtime.revoke_creates surroundings reason hactive) (List.Sublist.refl _)
  | ignored _ hkind hundemanded =>
      apply runtime.change_quiet surroundings (.of_eq _ rfl rfl rfl) rfl rfl rfl
      · rcases hkind with rfl | ⟨_, rfl⟩ | ⟨_, rfl⟩
        · rfl
        · rfl
        · rfl
      · intro session _
        rcases hkind with rfl | ⟨_, rfl⟩ | ⟨_, rfl⟩
        · rfl
        · rfl
        · rfl
      · intro session hactive reason hends
        cases hends with
        | disconnected => simp at hkind
        | overflowed _ _ _ _ _ => simp at hkind
        | demanded _ _ hdemand => exact hundemanded session hactive reason hdemand
      · intro session _ hmem
        apply iff_of_true hmem
        rintro handshake rfl
        simp at hkind

end Runtime

end Usahp.Broker
