import Usahp.Broker.Holder

/-!
Announcements of the end of a session. They go to the holder of the session
that ends, so with session ids that never repeat no session is announced
twice, and none to a client who was not accepted in it.
-/

namespace Usahp.Broker

open Std Usahp.Library

theorem Tried.queue {clientId : ClientId} {allowed : ServerMessage → Prop}
    {before after : Runtime} (h : Tried clientId allowed before after) :
    ∃ more, enqueued after clientId = enqueued before clientId ++ more ∧
      ∀ message ∈ more, allowed message := by
  obtain ⟨more, hattempts, hallowed⟩ := h
  refine ⟨(more.filter (·.sent)).map (·.message), ?_, ?_⟩
  · rw [enqueued, hattempts, List.filter_append, List.map_append]
    rfl
  · intro message hmem
    obtain ⟨attempt, hattempt, rfl⟩ := List.mem_map.mp hmem
    exact hallowed attempt (List.mem_filter.mp hattempt).1

/-- What is sent while there is no session: no announcement, and no event
where the broker is paused. -/
def Plain (paused : Bool) : ServerMessage → Prop
  | .sessionRevoked _ => False
  | .switchEvent _ => paused = false
  | .hello _ => True
  | .handshakeResponse _ => True

namespace Runtime

variable (runtime : Runtime) (surroundings : Surroundings)

theorem legacy_plain (now : Instant) {event : SwitchEvent} (hmem : event ∈ runtime.legacy now) :
    Plain runtime.paused (.switchEvent event) := by
  unfold legacy at hmem
  split_ifs at hmem with hpaused
  · cases hmem
  · simpa [Plain] using hpaused

theorem turn_plain (hidle : runtime.session = none) {wakeup : Wakeup} {after : Runtime}
    (hturn : Turn runtime surroundings wakeup after) (clientId : ClientId) :
    Tried clientId (Plain runtime.paused) runtime after := by
  have hnever {session : Session} {goal : Prop} (hactive : runtime.session = some session) :
      goal := by
    rw [hidle] at hactive
    cases hactive
  cases hturn with
  | registered channel =>
      by_cases hself : clientId = runtime.nextClient
      · subst hself
        exact ⟨_, runtime.register_attempts_self channel, by simp [greeting, Plain]⟩
      · exact .of_eq (runtime.register_attempts_of_ne channel hself)
  | left other _ => exact runtime.removeClient_tried other clientId
  | disconnected _ hactive => exact hnever hactive
  | muted _ _ => exact .refl _ _ _
  | unchanged _ _ _ _ => exact .refl _ _ _
  | inner _ _ _ _ _ => exact .of_eq rfl
  | announced _ hlistening _ transition state _ =>
      exact (runtime.published_tried surroundings.now state transition clientId).trans
        (broadcast_tried _ _ clientId fun _ => hlistening.1)
  | routed _ _ _ hactive _ _ _ _ => exact hnever hactive
  | overflowed _ _ _ hactive _ _ _ _ => exact hnever hactive
  | rejected other _ _ _ =>
      exact runtime.sendResponse_tried other clientId _ fun _ _ => trivial
  | unavailable other _ _ _ _ _ =>
      have hresumed : Tried clientId (Plain runtime.paused) runtime
          (runtime.resumeCapture surroundings).2 := .of_eq rfl
      exact hresumed.trans (sendResponse_tried _ other clientId _ fun _ _ => trivial)
  | abandoned _ _ _ base hready _ =>
      exact (runtime.ready_tried surroundings hready clientId fun _ event hmem =>
        runtime.legacy_plain surroundings.now hmem).trans (.of_eq rfl)
  | accepted other handshake _ base hready _ =>
      exact (runtime.ready_tried surroundings hready clientId fun _ event hmem =>
        runtime.legacy_plain surroundings.now hmem).trans
          ((opened_tried _ surroundings other clientId handshake.pid).trans
            (sendResponse_tried _ other clientId _ fun _ _ => trivial))
  | refused other handshake _ base hready _ hrefuses =>
      have hanswered := (runtime.ready_tried surroundings hready clientId fun _ event hmem =>
        runtime.legacy_plain surroundings.now hmem).trans
          ((opened_tried _ surroundings other clientId handshake.pid).trans
            (sendResponse_tried _ other clientId (acceptance surroundings.uuid)
              fun _ _ => trivial))
      have hgone := not_mem_sendResponse
        ((base.releaseLegacy surroundings).opened surroundings other handshake.pid) hrefuses
        (acceptance surroundings.uuid)
      have hsession := (base.releaseLegacy surroundings).opened_session surroundings other
        handshake.pid (acceptance surroundings.uuid)
      refine hanswered.trans (revoke_tried _ surroundings .queueOverflow hsession clientId ?_)
      intro hself hmem
      rw [hself] at hmem
      exact absurd hmem hgone
  | renewed _ hactive => exact hnever hactive
  | stale _ _ _ => exact .refl _ _ _
  | revoked _ hactive _ _ _ => exact hnever hactive
  | ignored _ _ _ => exact .refl _ _ _

end Runtime

variable (mappings : List Mapping) (started : Instant)

/-- The sessions whose end the messages announce. -/
def announced (messages : List ServerMessage) : List String :=
  messages.filterMap fun
    | .sessionRevoked revoked => some revoked.sessionId
    | _ => none

/-- Every announcement comes after the acceptance of the same session. -/
def Answered (messages : List ServerMessage) : Prop :=
  ∀ earlier revoked later, messages = earlier ++ .sessionRevoked revoked :: later →
    .handshakeResponse (acceptance revoked.sessionId) ∈ earlier

/-- The invariant of the announcements, given the session ids drawn so far. -/
structure Announced (drawn : List String) (runtime : Runtime) : Prop where
  known : ∀ clientId, ∀ sessionId ∈ announced (enqueued runtime clientId), sessionId ∈ drawn
  once : ∀ clientId, (announced (enqueued runtime clientId)).Nodup
  apart : ∀ clientId other, clientId ≠ other →
    (announced (enqueued runtime clientId)).Disjoint (announced (enqueued runtime other))
  answered : ∀ clientId, Answered (enqueued runtime clientId)
  active : ∀ session, runtime.session = some session → session.sessionId ∈ drawn ∧
    .handshakeResponse (acceptance session.sessionId) ∈ enqueued runtime session.clientId ∧
    ∀ clientId, session.sessionId ∉ announced (enqueued runtime clientId)

@[simp] theorem announced_append (first second : List ServerMessage) :
    announced (first ++ second) = announced first ++ announced second :=
  List.filterMap_append

theorem mem_announced {messages : List ServerMessage} {sessionId : String} :
    sessionId ∈ announced messages ↔
      ∃ revoked, .sessionRevoked revoked ∈ messages ∧ revoked.sessionId = sessionId := by
  rw [announced, List.mem_filterMap]
  constructor
  · rintro ⟨message, hmem, hsession⟩
    cases message with
    | sessionRevoked revoked => exact ⟨revoked, hmem, Option.some.inj hsession⟩
    | hello _ => cases hsession
    | switchEvent _ => cases hsession
    | handshakeResponse _ => cases hsession
  · rintro ⟨revoked, hmem, rfl⟩
    exact ⟨_, hmem, rfl⟩

theorem announced_farewell (events : List SwitchEvent)
    (ended : Session × SessionRevocationReason) :
    announced (events.map .switchEvent ++ [revocation ended]) = [ended.1.sessionId] := by
  have hevents : announced (events.map .switchEvent) = [] := by
    rw [announced, List.filterMap_map]
    exact List.filterMap_eq_nil_iff.mpr fun _ _ => rfl
  rw [announced_append, hevents]
  rfl

theorem Answered.append {messages more : List ServerMessage} (h : Answered messages)
    (hmore : ∀ sessionId ∈ announced more,
      .handshakeResponse (acceptance sessionId) ∈ messages) : Answered (messages ++ more) := by
  intro earlier revoked later heq
  rcases List.append_eq_append_iff.mp heq with ⟨between, rfl, hlater⟩ | ⟨between, hfirst, hlater⟩
  · refine List.mem_append_left _ (hmore _ (mem_announced.mpr ⟨revoked, ?_, rfl⟩))
    rw [hlater]
    simp
  · cases between with
    | nil =>
        rw [List.nil_append] at hlater
        rw [List.append_nil] at hfirst
        rw [← hfirst]
        refine hmore _ (mem_announced.mpr ⟨revoked, ?_, rfl⟩)
        rw [← hlater]
        exact List.mem_cons_self
    | cons message between =>
        rw [List.cons_append] at hlater
        obtain ⟨rfl, _⟩ := List.cons.inj hlater
        exact h earlier revoked between hfirst

/-- The session whose end may be announced to a client. -/
def Runtime.ending (runtime : Runtime) (clientId : ClientId) : List String :=
  (runtime.session.toList.filter (·.clientId = clientId)).map (·.sessionId)

theorem Runtime.mem_ending {runtime : Runtime} {clientId : ClientId} {sessionId : String}
    (h : sessionId ∈ runtime.ending clientId) : ∃ session, runtime.session = some session ∧
      session.clientId = clientId ∧ session.sessionId = sessionId := by
  obtain ⟨session, hmem, rfl⟩ := List.mem_map.mp h
  obtain ⟨hactive, hholder⟩ := List.mem_filter.mp hmem
  exact ⟨session, Option.mem_toList.mp hactive, by simpa using hholder, rfl⟩

theorem Runtime.ending_nodup (runtime : Runtime) (clientId : ClientId) :
    (runtime.ending clientId).Nodup := by
  unfold ending
  cases runtime.session with
  | none => exact List.nodup_nil
  | some session => by_cases h : session.clientId = clientId <;> simp [h]

/-- A step that announces the end of the active session to its holder at most. -/
theorem Announced.grow {drawn : List String} {before after : Runtime}
    (h : Announced drawn before) (sessionId : String)
    (hgrows : ∀ clientId, ∃ more, enqueued after clientId = enqueued before clientId ++ more ∧
      (announced more).Sublist (before.ending clientId))
    (hactive : ∀ session, after.session = some session →
      session.sessionId ∈ drawn ++ [sessionId] ∧
      .handshakeResponse (acceptance session.sessionId) ∈ enqueued after session.clientId ∧
      ∀ clientId, session.sessionId ∉ announced (enqueued after clientId)) :
    Announced (drawn ++ [sessionId]) after where
  known clientId other hmem := by
    obtain ⟨more, hqueue, hmore⟩ := hgrows clientId
    rw [hqueue, announced_append, List.mem_append] at hmem
    apply List.mem_append_left _
    rcases hmem with hold | hnew
    · exact h.known clientId other hold
    · obtain ⟨session, hsession, _, rfl⟩ := Runtime.mem_ending (hmore.subset hnew)
      exact (h.active session hsession).1
  once clientId := by
    obtain ⟨more, hqueue, hmore⟩ := hgrows clientId
    rw [hqueue, announced_append]
    apply (h.once clientId).append (hmore.nodup (before.ending_nodup clientId))
    intro other hold hnew
    obtain ⟨session, hsession, _, rfl⟩ := Runtime.mem_ending (hmore.subset hnew)
    exact (h.active session hsession).2.2 clientId hold
  apart clientId other hne := by
    obtain ⟨more, hqueue, hmore⟩ := hgrows clientId
    obtain ⟨rest, hother, hrest⟩ := hgrows other
    rw [hqueue, hother, announced_append, announced_append]
    intro ended hmem hmemOther
    rcases List.mem_append.mp hmem with hold | hnew
    · rcases List.mem_append.mp hmemOther with holdOther | hnewOther
      · exact h.apart clientId other hne hold holdOther
      · obtain ⟨session, hsession, _, rfl⟩ := Runtime.mem_ending (hrest.subset hnewOther)
        exact (h.active session hsession).2.2 clientId hold
    · obtain ⟨session, hsession, hholder, rfl⟩ := Runtime.mem_ending (hmore.subset hnew)
      rcases List.mem_append.mp hmemOther with holdOther | hnewOther
      · exact (h.active session hsession).2.2 other holdOther
      · obtain ⟨same, hsame, hholderOther, _⟩ := Runtime.mem_ending (hrest.subset hnewOther)
        rw [hsession] at hsame
        cases hsame
        exact hne (hholder.symm.trans hholderOther)
  answered clientId := by
    obtain ⟨more, hqueue, hmore⟩ := hgrows clientId
    rw [hqueue]
    refine (h.answered clientId).append fun ended hmem => ?_
    obtain ⟨session, hsession, rfl, rfl⟩ := Runtime.mem_ending (hmore.subset hmem)
    exact (h.active session hsession).2.1
  active := hactive

/-- Other messages announce nothing. -/
theorem Tried.unannounced {clientId : ClientId} {allowed : ServerMessage → Prop}
    {before after : Runtime} (h : Tried clientId allowed before after)
    (hother : ∀ revoked, ¬ allowed (.sessionRevoked revoked)) :
    ∃ more, enqueued after clientId = enqueued before clientId ++ more ∧
      announced more = [] := by
  obtain ⟨more, hqueue, hallowed⟩ := h.queue
  refine ⟨more, hqueue, List.eq_nil_iff_forall_not_mem.mpr fun sessionId hmem => ?_⟩
  obtain ⟨revoked, hrevoked, _⟩ := mem_announced.mp hmem
  exact hother revoked (hallowed _ hrevoked)

theorem unannounced_of_idle {runtime : Runtime} (step : Step)
    (hidle : runtime.session = none) (clientId : ClientId) :
    ∃ more, enqueued (runtime.step step) clientId = enqueued runtime clientId ++ more ∧
      announced more = [] :=
  (runtime.turn_plain step.surroundings hidle (runtime.step_turn step)
    clientId).unannounced fun _ => id

/-- Only a session that ends is announced, and only to its holder. -/
theorem Sound.unannounced {runtime : Runtime} (hsound : Sound runtime) (step : Step)
    (clientId : ClientId)
    (hnever : ∀ ended ∈ revokedBy runtime step, ended.1.clientId ≠ clientId) :
    ∃ more, enqueued (runtime.step step) clientId = enqueued runtime clientId ++ more ∧
      announced more = [] := by
  refine ((hsound.passed step).tried clientId).unannounced fun revoked hmem => ?_
  unfold addressed at hmem
  split_ifs at hmem
  · rcases List.mem_append.mp hmem with hevent | hmem
    · obtain ⟨_, ⟨⟩⟩ := kind_of_mem_eventsFor hevent
    · rcases List.mem_append.mp hmem with hresponse | hrevocation
      · obtain ⟨_, ⟨⟩⟩ := kind_of_mem_responsesFor hresponse
      · obtain ⟨ended, hended, _⟩ := List.mem_map.mp hrevocation
        obtain ⟨hended, hself⟩ := List.mem_filter.mp hended
        exact hnever ended hended (by simpa using hself)
  · cases kind_of_mem_greetingsFor hmem

theorem Announced.step {drawn : List String} {runtime : Runtime}
    (h : Announced drawn runtime) (hsound : Sound runtime) (step : Step)
    (hfresh : step.surroundings.uuid ∉ drawn) :
    Announced (drawn ++ [step.surroundings.uuid]) (runtime.step step) := by
  have hsublist {clientId : ClientId}
      (hquiet : ∃ more, enqueued (runtime.step step) clientId =
        enqueued runtime clientId ++ more ∧ announced more = []) :
      ∃ more, enqueued (runtime.step step) clientId = enqueued runtime clientId ++ more ∧
        (announced more).Sublist (runtime.ending clientId) := by
    obtain ⟨more, hqueue, hmore⟩ := hquiet
    exact ⟨more, hqueue, hmore ▸ List.nil_sublist _⟩
  cases hsound.change step with
  | idle hidle hstill =>
      refine h.grow _ (fun clientId =>
        hsublist (unannounced_of_idle step hidle clientId)) ?_
      intro session hactive
      rw [hstill] at hactive
      cases hactive
  | opened holder handshake _ hidle hopened _ _ hanswered =>
      have hquiet := unannounced_of_idle step hidle
      apply h.grow _ (fun clientId => hsublist (hquiet clientId))
      intro session hactive
      rw [hopened] at hactive
      cases hactive
      obtain ⟨earlier, hqueue⟩ := hanswered
      refine ⟨List.mem_append_right _ (List.mem_singleton_self _), ?_, ?_⟩
      · rw [hqueue]
        exact List.mem_append_right _ (List.mem_singleton_self _)
      · intro clientId hmem
        obtain ⟨more, hgrown, hmore⟩ := hquiet clientId
        rw [hgrown, announced_append, hmore, List.append_nil] at hmem
        exact hfresh (h.known clientId _ hmem)
  | kept session hbefore hkept _ _ _ _ hlog =>
      have hquiet (clientId : ClientId) := hsound.unannounced step clientId (by
        rw [revokedBy, hlog, List.drop_length]
        simp)
      apply h.grow _ (fun clientId => hsublist (hquiet clientId))
      intro other hactive
      rw [hkept] at hactive
      cases hactive
      have hid : (session.beat step.surroundings.now step.wakeup).sessionId =
          session.sessionId := congrArg SessionKey.sessionId (beat_key session _ _)
      obtain ⟨hdrawn, haccepted, hunannounced⟩ := h.active session hbefore
      rw [beat_clientId, hid]
      refine ⟨List.mem_append_left _ hdrawn, ?_, ?_⟩
      · obtain ⟨more, hgrown, _⟩ := hquiet session.clientId
        rw [hgrown]
        exact List.mem_append_left _ haccepted
      · intro clientId hmem
        obtain ⟨more, hgrown, hmore⟩ := hquiet clientId
        rw [hgrown, announced_append, hmore, List.append_nil] at hmem
        exact hunannounced clientId hmem
  | ended session hbefore hstill reason _ hlogged _ hparted =>
      refine h.grow _ (fun clientId => ?_) ?_
      · by_cases hholder : session.clientId = clientId
        · subst hholder
          obtain ⟨part, events, hpart, _, hqueue⟩ := hparted
          refine ⟨part, hqueue, ?_⟩
          have hannounced : (announced part).Sublist (announced
              (events.map .switchEvent ++ [revocation (session, reason)])) :=
            hpart.filterMap _
          rw [announced_farewell] at hannounced
          simpa [Runtime.ending, hbefore] using hannounced
        · refine hsublist (hsound.unannounced step clientId ?_)
          intro ended hmem
          rw [revokedBy, hlogged, List.drop_left, List.mem_singleton] at hmem
          rw [hmem]
          exact hholder
      · intro other hactive
        rw [hstill] at hactive
        cases hactive

theorem announced_run (steps : List Step)
    (hfresh : (steps.map (·.surroundings.uuid)).Nodup) :
    Announced (steps.map (·.surroundings.uuid)) ((broker mappings started).run steps) := by
  revert hfresh
  refine (broker mappings started).history_invariant
    (fun steps runtime => (steps.map (·.surroundings.uuid)).Nodup →
      Announced (steps.map (·.surroundings.uuid)) runtime) ?_ ?_ steps
  · intro _
    have hempty (clientId : ClientId) :
        enqueued (broker mappings started).start clientId = [] := rfl
    constructor
    · intro clientId sessionId hmem
      rw [hempty] at hmem
      cases hmem
    · intro clientId
      rw [hempty]
      exact List.nodup_nil
    · intro clientId other _ sessionId hmem
      rw [hempty] at hmem
      cases hmem
    · intro clientId earlier revoked later heq
      rw [hempty] at heq
      simp at heq
    · intro session hactive
      cases hactive
  · intro steps step ih hfresh
    rw [List.map_append, List.map_singleton] at hfresh ⊢
    obtain ⟨hearlier, _, hdisjoint⟩ := List.nodup_append.mp hfresh
    apply (ih hearlier).step (sound_run mappings started steps) step
    intro hmem
    exact hdisjoint _ hmem _ (List.mem_singleton_self _) rfl

end Usahp.Broker
