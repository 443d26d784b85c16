import Usahp.Broker.Stream

/-!
The outcome of a handshake: a rejection that touches nothing, a session, or a
client who is gone and a broker that is paused. The paths of the handler are
sorted by the first check that fails. A handshake of a client that is no
longer registered can be accepted by nobody, and what it does then depends on
the mode.
-/

namespace Usahp.Broker

open Std Usahp.Library

namespace Runtime

/-- The checks of a handshake in the order in which they are made, each with
the reason it is rejected with. -/
def checks (runtime : Runtime) (surroundings : Surroundings) (handshake : Handshake) :
    List (Bool × HandshakeRejectionReason) :=
  [(decide (handshake.protocolVersion = protocolVersion), .protocolMismatch),
    (validAppId handshake.appId, .invalidAppId),
    (decide (handshake.requestedMode = .exclusiveForeground), .unsupportedMode),
    (runtime.session.isNone, .sessionBusy),
    (!runtime.paused || surroundings.resumeReply.isOk, .captureUnavailable)]

def firstFailure (runtime : Runtime) (surroundings : Surroundings)
    (handshake : Handshake) : Option HandshakeRejectionReason :=
  ((runtime.checks surroundings handshake).find? fun check => !check.1).map (·.2)

end Runtime

/-- Nothing but the answer: the client has it, or is dropped because its queue
is full or closed. -/
structure Declined (runtime : Runtime) (clientId : ClientId)
    (reason : HandshakeRejectionReason) (after : Runtime) : Prop where
  answered : runtime.Accepts clientId → clientId ∈ after.clients ∧
    enqueued after clientId = enqueued runtime clientId ++
      [.handshakeResponse (.rejected protocolVersion reason)]
  dropped : ¬ runtime.Accepts clientId → clientId ∉ after.clients ∧
    enqueued after clientId = enqueued runtime clientId
  others : ∀ other, other ≠ clientId →
    after.history.attempts other = runtime.history.attempts other ∧
      (other ∈ after.clients ↔ other ∈ runtime.clients)
  session : after.session = runtime.session
  paused : after.paused = runtime.paused
  capture : after.capture = runtime.capture
  state : after.state = runtime.state
  sequence : after.sequence = runtime.sequence
  escapeTracker : after.escapeTracker = runtime.escapeTracker

/-- The client holds a new session and its last message is the acceptance.
Whoever is registered has had the releases of what was held before. -/
structure Granted (runtime : Runtime) (surroundings : Surroundings)
    (clientId : ClientId) (handshake : Handshake) (after : Runtime) : Prop where
  registered : clientId ∈ after.clients
  session : after.session =
    some ⟨clientId, surroundings.uuid, handshake.pid, surroundings.now⟩
  messages : ∃ releases, LetsGo runtime.state releases ∧
    (runtime.paused = true → releases = []) ∧
    enqueued after clientId = enqueued runtime clientId ++
      (releases.map .switchEvent ++ [.handshakeResponse (acceptance surroundings.uuid)]) ∧
    ∀ other ∈ after.clients, other ≠ clientId →
      enqueued after other = enqueued runtime other ++ releases.map .switchEvent

/-- The client did not survive its own handshake. -/
structure Lost (clientId : ClientId) (after : Runtime) : Prop where
  gone : clientId ∉ after.clients
  session : after.session = none
  paused : after.paused = true
  capture : after.capture.enabled = false
  released : after.state.AllReleased

/-- What a step must leave alone to change nothing: the state of the broker,
the set of its clients, and what anyone was sent. -/
structure Untouched (runtime after : Runtime) : Prop where
  session : after.session = runtime.session
  paused : after.paused = runtime.paused
  capture : after.capture = runtime.capture
  state : after.state = runtime.state
  sequence : after.sequence = runtime.sequence
  clients : ∀ clientId, clientId ∈ after.clients ↔ clientId ∈ runtime.clients
  attempts : ∀ clientId,
    after.history.attempts clientId = runtime.history.attempts clientId

namespace Runtime

variable (runtime : Runtime) (surroundings : Surroundings)

theorem firstFailure_of_rejection {handshake : Handshake}
    {reason : HandshakeRejectionReason}
    (h : runtime.rejection handshake = some reason) :
    runtime.firstFailure surroundings handshake = some reason := by
  unfold rejection at h
  unfold firstFailure checks
  split_ifs at h with hversion happId hmode hbusy
  · simpa [hversion] using h
  · simp only [Bool.not_eq_true'] at happId
    simpa [not_not.mp hversion, happId] using h
  · simp only [Bool.not_eq_true', Bool.not_eq_false] at happId
    simpa [not_not.mp hversion, happId, hmode] using h
  · simp only [Bool.not_eq_true', Bool.not_eq_false] at happId
    simpa [not_not.mp hversion, happId, not_not.mp hmode, hbusy] using h

theorem firstFailure_of_passed {handshake : Handshake}
    (h : runtime.rejection handshake = none) :
    runtime.firstFailure surroundings handshake =
      if runtime.paused && !surroundings.resumeReply.isOk then some .captureUnavailable
      else none := by
  have hidle := runtime.rejection_eq_none h
  unfold rejection at h
  unfold firstFailure checks
  split_ifs at h with hversion happId hmode hbusy
  simp only [Bool.not_eq_true', Bool.not_eq_false] at happId
  cases hpaused : runtime.paused with
  | false => simp [not_not.mp hversion, happId, not_not.mp hmode, hidle]
  | true =>
      cases hok : surroundings.resumeReply.isOk with
      | false => simp [not_not.mp hversion, happId, not_not.mp hmode, hidle]
      | true => simp [not_not.mp hversion, happId, not_not.mp hmode, hidle]

theorem firstFailure_of_ready {handshake : Handshake} {base : Runtime}
    (h : runtime.rejection handshake = none)
    (hready : Ready runtime surroundings base) :
    runtime.firstFailure surroundings handshake = none := by
  rw [runtime.firstFailure_of_passed surroundings h]
  cases hready with
  | running hrunning => simp [hrunning]
  | resumed hpaused hok => simp [hok, Except.isOk, Except.toBool]

theorem reject_declined (clientId : ClientId) (reason : HandshakeRejectionReason) :
    Declined runtime clientId reason (runtime.reject clientId reason) := by
  have hcore := runtime.reject_core clientId reason
  have hdelivered := fun other => runtime.sendResponse_delivered clientId other
    (.rejected protocolVersion reason)
  constructor
  · intro haccepts
    have hmem := runtime.mem_sendResponse_of_accepts haccepts
      (.rejected protocolVersion reason)
    have hattempts := (hdelivered clientId hmem).2
    rw [if_pos rfl] at hattempts
    refine ⟨hmem, ?_⟩
    rw [reject, enqueued, hattempts, List.filter_append, List.map_append, sent_of_allSent]
    rfl
  · intro hrefuses
    refine ⟨runtime.not_mem_sendResponse hrefuses _, ?_⟩
    obtain ⟨part, _, hqueue, hnothing⟩ := runtime.enqueued_trySend clientId
      (.handshakeResponse (.rejected protocolVersion reason))
    have hfailed := (not_congr (runtime.trySend_fst_iff clientId
      (.handshakeResponse (.rejected protocolVersion reason)))).mpr hrefuses
    rw [hnothing hrefuses, List.append_nil] at hqueue
    rw [reject, sendResponse_eq, if_neg hfailed]
    exact hqueue
  · intro other hne
    rw [reject]
    refine ⟨?_, ?_, ?_⟩
    · rw [sendResponse_eq]
      split_ifs
      · exact runtime.attempts_trySend_of_ne hne _
      · exact runtime.attempts_trySend_of_ne hne _
    · intro hmem
      exact (hdelivered other hmem).1
    · intro hmem
      exact runtime.mem_sendResponse_of_ne hne hmem _
  · exact congrArg Core.session hcore
  · exact congrArg Core.paused hcore
  · exact congrArg Core.capture hcore
  · exact congrArg Core.state hcore
  · exact congrArg Core.sequence hcore
  · exact congrArg Core.escapeTracker hcore

/-- A failed resume leaves only its own call behind. -/
theorem unavailable_declined (clientId : ClientId) {error : String}
    (hfailed : surroundings.resumeReply = .error error) :
    Declined runtime clientId .captureUnavailable
      ((runtime.resumeCapture surroundings).2.reject clientId .captureUnavailable) := by
  have h := (runtime.resumeCapture surroundings).2.reject_declined clientId
    .captureUnavailable
  rw [runtime.resumeCapture_of_error surroundings hfailed] at h ⊢
  exact ⟨h.answered, h.dropped, h.others, h.session, h.paused, h.capture, h.state,
    h.sequence, h.escapeTracker⟩

/-- Everything held before a session is released to everyone, and while the
broker is paused nothing is held. -/
theorem legacy_letsGo {mode : Mode} (hsettled : runtime.core.Settled mode)
    (now : Instant) : LetsGo runtime.state (runtime.legacy now) := by
  have hreleases := runtime.releases_letsGo now
  unfold legacy
  split_ifs with hpaused
  · have hreleased := (hsettled.session_eq_none hpaused).2
    rwa [runtime.releases_of_allReleased now hreleased] at hreleases
  · exact hreleases

end Runtime

theorem Sound.granted {runtime : Runtime} (hsound : Sound runtime)
    (surroundings : Surroundings) (clientId : ClientId) (handshake : Handshake)
    (hrejection : runtime.rejection handshake = none) {base : Runtime}
    (hready : Ready runtime surroundings base)
    (haccepts : (base.releaseLegacy surroundings).Accepts clientId)
    {after : Runtime}
    (hafter : after = (((base.releaseLegacy surroundings).opened surroundings clientId
      handshake.pid).sendResponse clientId (acceptance surroundings.uuid)).2) :
    Granted runtime surroundings clientId handshake after := by
  obtain ⟨mode, hsettled⟩ := hsound.settled
  have hpassed := runtime.passed_accepted surroundings clientId handshake hrejection hready
  rw [← hafter] at hpassed
  have hopened : ((base.releaseLegacy surroundings).opened surroundings clientId
      handshake.pid).Accepts clientId := haccepts
  have hregistered : clientId ∈ after.clients := by
    rw [hafter]
    exact Runtime.mem_sendResponse_of_accepts _ hopened _
  have hqueue (other : ClientId) (hmem : other ∈ after.clients) :
      enqueued after other = enqueued runtime other ++
        ((runtime.legacy surroundings.now).map .switchEvent ++
          if other = clientId then [.handshakeResponse (acceptance surroundings.uuid)]
          else []) := by
    have hbefore : other ∈ runtime.clients := by
      rcases hpassed.members other hmem with hold | ⟨_, channel, hregister⟩
      · exact hold
      · cases hregister
    rw [enqueued, hpassed.delivered other hmem, List.filter_append, List.map_append,
      sent_of_allSent, addressed, if_pos hbefore, runtime.rejection_eq_none hrejection,
      Runtime.responsesFor_handshake, runtime.reply_of_ready surroundings hrejection hready,
      revocationsFor_nil, List.append_nil, eventsFor_none]
    rfl
  constructor
  · exact hregistered
  · rw [hafter]
    exact Runtime.opened_session _ surroundings clientId _ _
  · refine ⟨runtime.legacy surroundings.now, runtime.legacy_letsGo hsettled _, ?_, ?_, ?_⟩
    · intro hpaused
      rw [Runtime.legacy, if_pos hpaused]
    · rw [hqueue clientId hregistered, if_pos rfl]
    · intro other hmem hne
      rw [hqueue other hmem, if_neg hne, List.append_nil]

/-- The two ways of losing the client: in the broadcast of the releases, and
with its own acceptance. -/
theorem Sound.lost {runtime : Runtime} (hsound : Sound runtime)
    (surroundings : Surroundings) (clientId : ClientId) (handshake : Handshake)
    (hrejection : runtime.rejection handshake = none) {base : Runtime}
    (hready : Ready runtime surroundings base)
    (hgone : clientId ∉ (base.releaseLegacy surroundings).clients) :
    Lost clientId
      { ((base.releaseLegacy surroundings).pauseCapture surroundings).2 with
        paused := true } := by
  obtain ⟨mode, hsettled⟩ := hsound.settled
  have hflags := runtime.releaseLegacy_flags surroundings hsettled
    (runtime.rejection_eq_none hrejection) hready
  have hreleased := runtime.releaseLegacy_allReleased surroundings hsettled hready
  exact ⟨hgone, hflags.1, rfl, rfl, hreleased⟩

theorem Runtime.refused_lost (base : Runtime) (surroundings : Surroundings)
    (clientId : ClientId) (pid : Option UInt32)
    (hrefuses : ¬ base.Accepts clientId) :
    Lost clientId
      (((base.opened surroundings clientId pid).sendResponse clientId
        (acceptance surroundings.uuid)).2.revoke surroundings .queueOverflow) := by
  have hopened : ¬ (base.opened surroundings clientId pid).Accepts clientId := hrefuses
  have hgone := Runtime.not_mem_sendResponse _ hopened (acceptance surroundings.uuid)
  have hactive := base.opened_session surroundings clientId pid
    (acceptance surroundings.uuid)
  obtain ⟨⟨hsession, hpaused, hcapture⟩, hreleased⟩ :=
    Runtime.revoke_settled _ surroundings .queueOverflow hactive
  refine ⟨?_, hsession, hpaused, hcapture, hreleased rfl⟩
  intro hmem
  exact hgone (Runtime.revoke_delivered _ surroundings .queueOverflow hactive clientId hmem).1

variable (mappings : List Mapping) (started : Instant)

/-- The outcome of a handshake, of a registered client in particular. -/
theorem handshake_outcome (steps : List Step) (surroundings : Surroundings)
    (clientId : ClientId) (handshake : Handshake) :
    let runtime := (broker mappings started).run steps
    let after := runtime.step ⟨surroundings, .command (.handshake clientId handshake)⟩
    (∀ reason, runtime.firstFailure surroundings handshake = some reason →
      Declined runtime clientId reason after) ∧
    (runtime.firstFailure surroundings handshake = none →
      Granted runtime surroundings clientId handshake after ∨ Lost clientId after) := by
  intro runtime after
  have hsound := sound_run mappings started steps
  have hturn : Turn runtime surroundings (.command (.handshake clientId handshake)) after :=
    runtime.handshake_turn surroundings clientId handshake
  generalize hafter : after = result at hturn ⊢
  cases hturn with
  | rejected _ _ reason hrejection =>
      have hfirst := runtime.firstFailure_of_rejection surroundings hrejection
      rw [hfirst]
      refine ⟨?_, by rintro ⟨⟩⟩
      rintro _ ⟨⟩
      exact runtime.reject_declined clientId reason
  | unavailable _ _ hrejection hpaused error hfailed =>
      have hfirst := runtime.firstFailure_of_passed surroundings hrejection
      simp only [hpaused, hfailed, Except.isOk, Except.toBool, Bool.not_false, Bool.and_self,
        if_true] at hfirst
      rw [hfirst]
      refine ⟨?_, by rintro ⟨⟩⟩
      rintro _ ⟨⟩
      exact runtime.unavailable_declined surroundings clientId hfailed
  | abandoned _ _ hrejection base hready hgone =>
      rw [runtime.firstFailure_of_ready surroundings hrejection hready]
      refine ⟨by rintro _ ⟨⟩, fun _ => Or.inr ?_⟩
      exact hsound.lost surroundings clientId handshake hrejection hready hgone
  | accepted _ _ hrejection base hready haccepts =>
      rw [runtime.firstFailure_of_ready surroundings hrejection hready]
      refine ⟨by rintro _ ⟨⟩, fun _ => Or.inl ?_⟩
      exact hsound.granted surroundings clientId handshake hrejection hready haccepts rfl
  | refused _ _ hrejection base hready _ hrefuses =>
      rw [runtime.firstFailure_of_ready surroundings hrejection hready]
      refine ⟨by rintro _ ⟨⟩, fun _ => Or.inr ?_⟩
      exact (base.releaseLegacy surroundings).refused_lost surroundings clientId
        handshake.pid hrefuses
  | revoked session hactive _ reason hdemand => cases hdemand
  | ignored _ hkind _ =>
      rcases hkind with h | ⟨_, h⟩ | ⟨_, h⟩
      · cases h
      · cases h
      · cases h

/-- The answer to a client who is gone reaches nobody. -/
theorem Runtime.reject_untouched (runtime : Runtime) {clientId : ClientId}
    (habsent : clientId ∉ runtime.clients) (reason : HandshakeRejectionReason) :
    Untouched runtime (runtime.reject clientId reason) := by
  have hmissing : runtime.clients[clientId]? = none := ExtTreeMap.getElem?_eq_none habsent
  have hreject : runtime.reject clientId reason = runtime.removeClient clientId := by
    rw [reject, sendResponse_eq, runtime.trySend_of_none hmissing]
    rfl
  rw [hreject]
  refine ⟨rfl, rfl, rfl, rfl, rfl, ?_, fun _ => rfl⟩
  intro other
  rw [mem_removeClient_clients]
  constructor
  · exact And.right
  · intro hmem
    refine ⟨?_, hmem⟩
    rintro rfl
    exact habsent hmem

/-- A handshake that passes its checks for a client who is gone: capture is
stopped and the broker paused, which changes nothing only if it was paused. -/
theorem Sound.untouched_iff_of_gone {runtime : Runtime} (hsound : Sound runtime)
    (surroundings : Surroundings) {base : Runtime}
    (hready : Ready runtime surroundings base) :
    Untouched runtime
        { ((base.releaseLegacy surroundings).pauseCapture surroundings).2 with
          paused := true } ↔ runtime.paused = true := by
  obtain ⟨mode, hsettled⟩ := hsound.settled
  cases hready with
  | running hrunning =>
      constructor
      · intro huntouched
        exact huntouched.paused.symm
      · intro hpaused
        rw [hrunning] at hpaused
        cases hpaused
  | resumed hpaused hok =>
      refine iff_of_true ?_ hpaused
      have hstill := (runtime.resumeCapture surroundings).2.releaseLegacy_of_paused
        surroundings hpaused
      have hflag : runtime.capture = ⟨false⟩ := by
        cases mode with
        | paused => exact congrArg CaptureControl.mk hsettled.1.2.2
        | broadcast => exact absurd hsettled.1.2.1 (by simp [Runtime.core, hpaused])
        | managed key => exact absurd hsettled.1.2.1 (by simp [Runtime.core, hpaused])
      rw [hstill]
      exact ⟨rfl, hpaused.symm, hflag.symm, rfl, rfl, fun _ => Iff.rfl, fun _ => rfl⟩

/-- A stale handshake changes nothing exactly when it fails one of its checks
or finds the broker paused. -/
theorem stale_handshake_untouched_iff (steps : List Step) (surroundings : Surroundings)
    (clientId : ClientId) (handshake : Handshake)
    (habsent : clientId ∉ ((broker mappings started).run steps).clients) :
    let runtime := (broker mappings started).run steps
    Untouched runtime
        (runtime.step ⟨surroundings, .command (.handshake clientId handshake)⟩) ↔
      runtime.firstFailure surroundings handshake ≠ none ∨ runtime.paused = true := by
  intro runtime
  have hsound := sound_run mappings started steps
  have hturn : Turn runtime surroundings (.command (.handshake clientId handshake))
      (runtime.step ⟨surroundings, .command (.handshake clientId handshake)⟩) :=
    runtime.handshake_turn surroundings clientId handshake
  change clientId ∉ runtime.clients at habsent
  have hnever {base : Runtime} (hready : Ready runtime surroundings base) :
      clientId ∉ (base.releaseLegacy surroundings).clients := by
    intro hmem
    exact habsent (runtime.ready_delivered surroundings hready clientId hmem).1
  generalize runtime.step ⟨surroundings, .command (.handshake clientId handshake)⟩ = after
    at hturn ⊢
  cases hturn with
  | rejected _ _ reason hrejection =>
      rw [runtime.firstFailure_of_rejection surroundings hrejection]
      refine iff_of_true (runtime.reject_untouched habsent reason) (Or.inl ?_)
      rintro ⟨⟩
  | unavailable _ _ hrejection hpaused error hfailed =>
      refine iff_of_true ?_ (Or.inr hpaused)
      have h := (runtime.resumeCapture surroundings).2.reject_untouched habsent
        .captureUnavailable
      rw [runtime.resumeCapture_of_error surroundings hfailed] at h ⊢
      exact ⟨h.session, h.paused, h.capture, h.state, h.sequence, h.clients, h.attempts⟩
  | abandoned _ _ hrejection base hready _ =>
      rw [runtime.firstFailure_of_ready surroundings hrejection hready,
        hsound.untouched_iff_of_gone surroundings hready]
      constructor
      · exact Or.inr
      · intro h
        exact h.resolve_left fun hfailed => hfailed rfl
  | accepted _ _ _ base hready haccepts =>
      obtain ⟨sender, hsender, _⟩ := haccepts
      exact absurd ((Runtime.mem_clients_iff _).mpr ⟨sender, hsender⟩) (hnever hready)
  | refused _ _ _ base hready hregistered _ => exact absurd hregistered (hnever hready)
  | revoked session hactive _ reason hdemand => cases hdemand
  | ignored _ hkind _ =>
      rcases hkind with h | ⟨_, h⟩ | ⟨_, h⟩
      · cases h
      · cases h
      · cases h

/-- Client 2 has room for the hello only, so the broadcast of the press drops
it; client 1 listens in broadcast mode. -/
def droppedInBroadcast : List Step :=
  [passAt 0 (.command (.register (stuckChannel 7))),
    passAt 1 (.command (.register (stuckChannel 0))),
    passAt 2 (.command (.input spacePress))]

/-- An old handshake of client 2 fails its first check. -/
theorem dropped_client_untouched :
    let runtime := (broker [spaceMapping] 0).run droppedInBroadcast
    let old := { exclusiveHandshake with protocolVersion := "0.2.0" }
    1 ∈ runtime.clients ∧ 2 ∉ runtime.clients ∧
      Untouched runtime (runtime.step (passAt 3 (.command (.handshake 2 old)))) := by
  intro runtime old
  have hgone : 2 ∉ runtime.clients := by decide +kernel
  have huntouched := stale_handshake_untouched_iff [spaceMapping] 0 droppedInBroadcast
    ⟨3, "session", .ok (), .ok ()⟩ 2 old hgone
  exact ⟨by decide +kernel, hgone, huntouched.mpr (.inl (by decide))⟩

/-- The handshake that client 2 had sent before silences client 1. -/
theorem stale_handshake_pauses :
    let runtime := (broker [spaceMapping] 0).run droppedInBroadcast
    1 ∈ runtime.clients ∧ 2 ∉ runtime.clients ∧
      ¬ Untouched runtime
        (runtime.step (passAt 3 (.command (.handshake 2 exclusiveHandshake)))) := by
  refine ⟨by decide +kernel, by decide +kernel, ?_⟩
  intro huntouched
  have hpaused := huntouched.paused
  revert hpaused
  decide +kernel

end Usahp.Broker
