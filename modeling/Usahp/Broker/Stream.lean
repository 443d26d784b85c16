import Usahp.Broker.Announcement
import Usahp.Broker.Lease

/-!
The stream of a session. From its acceptance to its end all events are for
the holder and the holder gets all of them; the step that ends the session
adds the releases and one announcement. `Exclusive` is the relation that
composes along the steps of a session.
-/

namespace Usahp.Broker

open Std Usahp.Library

/-- All messages for a client, those its queue did not take included. -/
def attempted (runtime : Runtime) (clientId : ClientId) : List ServerMessage :=
  (runtime.history.attempts clientId).map (·.message)

/-- The events that a span of the run creates, none of them for anyone but the
holder. -/
structure Exclusive (holder : ClientId) (before : Runtime) (events : List SwitchEvent)
    (after : Runtime) : Prop where
  created : after.history.created.map (·.event) =
    before.history.created.map (·.event) ++ events
  sequence : after.sequence = before.sequence + events.length
  numbered : events.map (·.sequence) = List.range' (before.sequence + 1) events.length
  changes : Changes before.state.level (events.map eventEdge) after.state.level
  others : ∀ other, other ≠ holder →
    eventsOf (attempted after other) = eventsOf (attempted before other)

/-- On each switch the actions alternate, and the first one is a press. -/
def Alternates (events : List SwitchEvent) : Prop :=
  ∀ switchId, List.IsChain (· ≠ ·)
    (Action.released :: (events.filter (·.switchId = switchId)).map (·.action))

/-- One release for each pressed switch, in ascending order. -/
structure LetsGo (state : SwitchStateMachine) (events : List SwitchEvent) : Prop where
  ascending : (events.map (·.switchId)).Pairwise (· < ·)
  pressed : ∀ switchId, switchId ∈ events.map (·.switchId) ↔ state.level switchId = .pressed
  released : ∀ event ∈ events, event.action = .released ∧ event.confidence = some (.finite 0)

theorem Exclusive.refl (holder : ClientId) (runtime : Runtime) :
    Exclusive holder runtime [] runtime where
  created := (List.append_nil _).symm
  sequence := rfl
  numbered := rfl
  changes := rfl
  others _ _ := rfl

theorem Exclusive.trans {holder : ClientId} {before middle after : Runtime}
    {first second : List SwitchEvent} (hfirst : Exclusive holder before first middle)
    (hsecond : Exclusive holder middle second after) :
    Exclusive holder before (first ++ second) after where
  created := by rw [hsecond.created, hfirst.created, List.append_assoc]
  sequence := by
    rw [hsecond.sequence, hfirst.sequence, List.length_append]
    omega
  numbered := numbered_append hfirst.numbered hfirst.sequence hsecond.numbered
  changes := by
    rw [List.map_append]
    exact hfirst.changes.append hsecond.changes
  others other hother := (hsecond.others other hother).trans (hfirst.others other hother)

theorem levelsOf_edges (switchId : String) (events : List SwitchEvent) :
    levelsOf switchId (events.map eventEdge) =
      ((events.filter (·.switchId = switchId)).map (·.action)).map Action.state := by
  rw [levelsOf, List.filter_map, List.map_map, List.map_map]
  rfl

/-- Events that start with everything released alternate. -/
theorem alternates_of_changes {before after : String → SwitchState}
    {events : List SwitchEvent} (hreleased : ∀ switchId, before switchId = .released)
    (hchanges : Changes before (events.map eventEdge) after) : Alternates events := by
  intro switchId
  have hlevels := hchanges.alternates switchId
  rw [hreleased switchId, levelsOf_edges, ← Action.state, ← List.map_cons,
    List.isChain_map] at hlevels
  exact hlevels.imp fun _ _ hne heq => hne (congrArg Action.state heq)

/-- Where everything is released afterwards, the last event of each switch is a
release. -/
theorem last_released_of_changes {before after : String → SwitchState}
    {events : List SwitchEvent} (hreleased : ∀ switchId, after switchId = .released)
    (hchanges : Changes before (events.map eventEdge) after) (switchId : String)
    {event : SwitchEvent}
    (hlast : (events.filter (·.switchId = switchId)).getLast? = some event) :
    event.action = .released := by
  have hlevel := hchanges.last switchId
  rw [hreleased switchId, levelsOf_edges, List.getLast?_map, List.getLast?_map, hlast] at hlevel
  exact Action.state_injective hlevel.symm

theorem stamp_transitions (started now : Instant) (sequence : Nat)
    (transitions : List LogicalTransition) :
    (stamp started now sequence transitions).map
        (fun event => (⟨event.switchId, event.action, event.confidence⟩ : LogicalTransition)) =
      transitions := by
  induction transitions generalizing sequence with
  | nil => rfl
  | cons transition rest ih =>
      rw [stamp, List.map_cons, ih]
      rfl

theorem Runtime.releases_letsGo (runtime : Runtime) (now : Instant) :
    LetsGo runtime.state (runtime.releases now) := by
  have htransitions := stamp_transitions runtime.started now runtime.sequence
    runtime.state.releaseAll.1
  rw [runtime.state.releaseAll_transitions] at htransitions
  have hswitches : (runtime.releases now).map (·.switchId) =
      runtime.state.switches.filter (runtime.state.level · = .pressed) := by
    have h := congrArg (List.map LogicalTransition.switchId) htransitions
    rw [List.map_map, List.map_map] at h
    rw [Runtime.releases, runtime.state.releaseAll_transitions]
    exact h.trans (List.map_id _)
  constructor
  · rw [hswitches]
    exact runtime.state.switches_sorted.filter _
  · intro switchId
    rw [hswitches, List.mem_filter, decide_eq_true_eq]
    constructor
    · rintro ⟨_, hlevel⟩
      exact hlevel
    · intro hlevel
      exact ⟨runtime.state.mem_switches_of_pressed hlevel, hlevel⟩
  · intro event hmem
    rw [Runtime.releases, runtime.state.releaseAll_transitions] at hmem
    have htransition := List.mem_map_of_mem
      (f := fun event : SwitchEvent =>
        (⟨event.switchId, event.action, event.confidence⟩ : LogicalTransition)) hmem
    rw [htransitions] at htransition
    obtain ⟨switchId, _, heq⟩ := List.mem_map.mp htransition
    exact ⟨(congrArg LogicalTransition.action heq).symm,
      (congrArg LogicalTransition.confidence heq).symm⟩

theorem mem_eventsOf {messages : List ServerMessage} {event : SwitchEvent} :
    event ∈ eventsOf messages ↔ .switchEvent event ∈ messages := by
  rw [eventsOf, List.mem_filterMap]
  constructor
  · rintro ⟨message, hmem, hevent⟩
    cases message with
    | switchEvent other =>
        cases hevent
        exact hmem
    | hello _ => cases hevent
    | handshakeResponse _ => cases hevent
    | sessionRevoked _ => cases hevent
  · intro hmem
    exact ⟨_, hmem, rfl⟩

/-- Nothing but other messages leaves the events as they were. -/
theorem Tried.eventsOf_attempted {clientId : ClientId} {allowed : ServerMessage → Prop}
    {before after : Runtime} (h : Tried clientId allowed before after)
    (hother : ∀ event, ¬ allowed (.switchEvent event)) :
    eventsOf (attempted after clientId) = eventsOf (attempted before clientId) := by
  obtain ⟨more, hattempts, hallowed⟩ := h
  have hnothing : eventsOf (more.map (·.message)) = [] := by
    refine List.eq_nil_iff_forall_not_mem.mpr fun event hmem => ?_
    obtain ⟨attempt, hattempt, hmessage⟩ := List.mem_map.mp (mem_eventsOf.mp hmem)
    exact hother event (hmessage ▸ hallowed attempt hattempt)
  rw [attempted, hattempts, List.map_append, eventsOf_append, hnothing, List.append_nil]
  rfl

theorem Tried.eventsOf_enqueued {clientId : ClientId} {allowed : ServerMessage → Prop}
    {before after : Runtime} (h : Tried clientId allowed before after)
    (hother : ∀ event, ¬ allowed (.switchEvent event)) :
    eventsOf (enqueued after clientId) = eventsOf (enqueued before clientId) := by
  obtain ⟨more, hqueue, hallowed⟩ := h.queue
  have hnothing : eventsOf more = [] := by
    refine List.eq_nil_iff_forall_not_mem.mpr fun event hmem => ?_
    exact hother event (hallowed _ (mem_eventsOf.mp hmem))
  rw [hqueue, eventsOf_append, hnothing, List.append_nil]

/-- While a session is active, a step creates events for its holder only. -/
theorem Sound.exclusive {runtime : Runtime} (hsound : Sound runtime) (step : Step)
    {session : Session} (hactive : runtime.session = some session) :
    Exclusive session.clientId runtime (createdBy runtime step) (runtime.step step) := by
  have hpassed := hsound.passed step
  refine ⟨?_, hpassed.creates.sequence, hpassed.creates.numbered, hpassed.creates.changes, ?_⟩
  · have hcreated : (runtime.step step).history.created = _ := hpassed.creates.created
    rw [hcreated, List.map_append, List.map_map]
    exact congrArg (_ ++ ·) (List.map_id _)
  · intro other hother
    refine (hpassed.tried other).eventsOf_attempted fun event hmem => ?_
    have hevent := mem_eventsOf.mpr hmem
    change event ∈ eventsOf (addressedBy other runtime step) at hevent
    rw [eventsOf_addressedBy, hactive, if_neg] at hevent
    · cases hevent
    · rintro ⟨_, hself⟩
      rw [Option.all_some, decide_eq_true_eq] at hself
      exact hother hself.symm

/-- As long as the session lasts its holder has every event enqueued. -/
theorem Sound.received {runtime : Runtime} (hsound : Sound runtime)
    (hassigned : HolderAssigned runtime) (step : Step) {session : Session}
    (hactive : runtime.session = some session)
    (hlasts : (runtime.step step).session ≠ none) :
    eventsOf (enqueued (runtime.step step) session.clientId) =
      eventsOf (enqueued runtime session.clientId) ++ createdBy runtime step := by
  have hpassed := hsound.passed step
  by_cases hmem : session.clientId ∈ (runtime.step step).clients
  · have hregistered : session.clientId ∈ runtime.clients := by
      rcases hpassed.members _ hmem with hold | ⟨hnew, _⟩
      · exact hold
      · exact absurd hnew (Nat.ne_of_lt (hassigned session hactive))
    rw [hsound.enqueued_step step hmem, eventsOf_append, eventsOf_addressedBy, hactive, if_pos]
    exact ⟨hregistered, by simp⟩
  · have hnothing : createdBy runtime step = [] := by
      obtain ⟨_, _, events, hcreates, _, _, hheld⟩ :=
        (hsound.change step).kept_of_lasts hactive hlasts
      rw [hcreates.createdBy_eq]
      by_contra hsome
      exact hmem (hheld hsome)
    rw [hnothing, List.append_nil]
    refine (hpassed.tried _).eventsOf_enqueued fun event hevent => ?_
    have hcreated := mem_eventsOf.mpr hevent
    change event ∈ eventsOf (addressedBy _ runtime step) at hcreated
    rw [eventsOf_addressedBy, hnothing, ite_self] at hcreated
    cases hcreated

/-- The step that ends a session. -/
theorem Sound.concluded {runtime : Runtime} (hsound : Sound runtime)
    (hassigned : HolderAssigned runtime) (step : Step) {session : Session}
    (hactive : runtime.session = some session) (hends : (runtime.step step).session = none) :
    ∃ reason, (runtime.step step).history.revoked =
        runtime.history.revoked ++ [(session, reason)] ∧
      (∃ part, part.Sublist ((createdBy runtime step).map .switchEvent ++
          [revocation (session, reason)]) ∧
        enqueued (runtime.step step) session.clientId =
          enqueued runtime session.clientId ++ part) ∧
      (session.clientId ∈ (runtime.step step).clients →
        enqueued (runtime.step step) session.clientId =
          enqueued runtime session.clientId ++
            ((createdBy runtime step).map .switchEvent ++
              [revocation (session, reason)]) ∧
        LetsGo runtime.state (createdBy runtime step)) := by
  have hpassed := hsound.passed step
  cases hsound.change step with
  | idle hidle _ =>
      rw [hidle] at hactive
      cases hactive
  | opened _ _ _ hidle _ _ _ _ =>
      rw [hidle] at hactive
      cases hactive
  | kept _ _ hkept _ _ _ _ _ =>
      rw [hends] at hkept
      cases hkept
  | ended other hbefore _ reason hforced hlogged hreleased hparted =>
      rw [hactive] at hbefore
      cases hbefore
      refine ⟨reason, hlogged, ?_, ?_⟩
      · obtain ⟨part, events, hpart, hcreates, hqueue⟩ := hparted
        rw [hcreates.createdBy_eq]
        exact ⟨part, hpart, hqueue⟩
      · intro hmem
        have hregistered : session.clientId ∈ runtime.clients := by
          rcases hpassed.members _ hmem with hold | ⟨hnew, _⟩
          · exact hold
          · exact absurd hnew (Nat.ne_of_lt (hassigned session hactive))
        have hended : revokedBy runtime step = [(session, reason)] := by
          rw [revokedBy, hlogged]
          exact List.drop_left
        have hresponses : responsesFor session.clientId runtime step.surroundings
            step.wakeup = [] := by
          unfold responsesFor
          split
          · rename_i sender handshake hwakeup
            rw [hwakeup] at hforced
            exact hforced.not_handshake.elim
          · rfl
        constructor
        · rw [hsound.enqueued_step step hmem, addressedBy, addressed, if_pos hregistered,
            hactive, eventsFor_some, if_pos rfl, hresponses, hended, revocationsFor_singleton,
            if_pos rfl]
          rfl
        · rw [(hreleased hmem).createdBy_eq]
          exact runtime.releases_letsGo step.surroundings.now

namespace Runtime

variable (runtime : Runtime)

theorem step_silent (hidle : runtime.session = none) (hpaused : runtime.paused = true)
    (step : Step) (clientId : ClientId) :
    eventsOf (attempted (runtime.step step) clientId) =
      eventsOf (attempted runtime clientId) := by
  have hplain := runtime.turn_plain step.surroundings hidle (runtime.step_turn step) clientId
  refine hplain.eventsOf_attempted fun event hevent => ?_
  rw [hpaused] at hevent
  cases hevent

end Runtime

variable (mappings : List Mapping) (started : Instant)

/-- The paused mode lasts while no session is accepted, and no client gets an
event in it. -/
theorem silent_run {runtime : Runtime} (hsettled : runtime.core.Settled .paused)
    (more : List Step)
    (hidle : (broker mappings started).Throughout (fun runtime => runtime.session = none)
      runtime more) :
    ((broker mappings started).runFrom runtime more).core.Settled .paused ∧
      ∀ clientId, eventsOf (attempted ((broker mappings started).runFrom runtime more)
        clientId) = eventsOf (attempted runtime clientId) := by
  induction more generalizing runtime with
  | nil => exact ⟨hsettled, fun _ => rfl⟩
  | cons step rest ih =>
      obtain ⟨next, hentered⟩ := runtime.turn_settled step.surroundings hsettled
        (runtime.step_turn step)
      have hstill := (broker mappings started).throughout_head hidle.2
      have hpaused : (runtime.step step).core.Settled .paused := by
        cases hentered.move with
        | stay => exact hentered.settled
        | reacquire key =>
            have hkey := hentered.settled.1.1
            change (runtime.step step).session.map _ = _ at hkey
            change (runtime.step step).session = none at hstill
            rw [hstill] at hkey
            cases hkey
      obtain ⟨hlater, hsilent⟩ := ih hpaused hidle.2
      exact ⟨hlater, fun clientId => (hsilent clientId).trans
        (runtime.step_silent hidle.1 hsettled.1.2.1 step clientId)⟩

/-- From the end of a session no client gets an event, up to and including the
step that accepts the next session. -/
theorem silent_until_accepted {runtime : Runtime} (hsettled : runtime.core.Settled .paused)
    (more : List Step) (next : Step)
    (hidle : (broker mappings started).Throughout (fun runtime => runtime.session = none)
      runtime more) (clientId : ClientId) :
    eventsOf (attempted ((broker mappings started).runFrom runtime (more ++ [next]))
      clientId) = eventsOf (attempted runtime clientId) := by
  obtain ⟨hpaused, hsilent⟩ := silent_run mappings started hsettled more hidle
  rw [Machine.runFrom_append, ← hsilent clientId]
  exact Runtime.step_silent _ hpaused.1.1 hpaused.1.2.1 next clientId

/-- The stream of a session that lasts, since the state `accepted` that its
acceptance led to. -/
structure Stream (key : SessionKey) (accepted : Runtime) (events : List SwitchEvent)
    (runtime : Runtime) : Prop where
  acceptance : ∃ earlier, enqueued accepted key.clientId =
    earlier ++ [.handshakeResponse (acceptance key.sessionId)]
  exclusive : Exclusive key.clientId accepted events runtime
  received : eventsOf (enqueued runtime key.clientId) =
    eventsOf (enqueued accepted key.clientId) ++ events
  alternates : Alternates events

/-- The stream of a session that has ended, with the events of its last step. A
holder who is dropped in that step has a part of them; a holder who is not has
all of them and the announcement. -/
structure Concluded (key : SessionKey) (accepted : Runtime) (events : List SwitchEvent)
    (runtime : Runtime) (releases : List SwitchEvent) (after : Runtime) : Prop where
  exclusive : Exclusive key.clientId accepted (events ++ releases) after
  alternates : Alternates (events ++ releases)
  released : ∀ switchId event,
    ((events ++ releases).filter (·.switchId = switchId)).getLast? = some event →
      event.action = .released
  dropped : ∃ part, part.Sublist releases ∧ eventsOf (enqueued after key.clientId) =
    eventsOf (enqueued runtime key.clientId) ++ part
  farewell : key.clientId ∈ after.clients → LetsGo runtime.state releases ∧
    ∃ session reason, session.key = key ∧
      after.history.revoked = runtime.history.revoked ++ [(session, reason)] ∧
      enqueued after key.clientId = enqueued runtime key.clientId ++
        (releases.map .switchEvent ++
          [.sessionRevoked { protocolVersion, sessionId := key.sessionId, reason }])
  silent : ∀ more next, (broker mappings started).Throughout
    (fun runtime => runtime.session = none) after more → ∀ clientId,
      eventsOf (attempted ((broker mappings started).runFrom after (more ++ [next]))
        clientId) = eventsOf (attempted after clientId)

/-- The steps of a session that lasts add up. -/
theorem exclusive_run (steps : List Step) (key : SessionKey) (more : List Step)
    (hlasts : (broker mappings started).Throughout
      (fun runtime => runtime.session.map Session.key = some key)
      ((broker mappings started).run steps) more) :
    ∃ events, Exclusive key.clientId ((broker mappings started).run steps) events
        ((broker mappings started).run (steps ++ more)) ∧
      eventsOf (enqueued ((broker mappings started).run (steps ++ more)) key.clientId) =
        eventsOf (enqueued ((broker mappings started).run steps) key.clientId) ++ events := by
  induction more using List.reverseRecOn with
  | nil =>
      rw [List.append_nil]
      exact ⟨[], .refl _ _, (List.append_nil _).symm⟩
  | append_singleton more last ih =>
      obtain ⟨hearlier, hlater⟩ := (broker mappings started).throughout_concat.mp hlasts
      obtain ⟨events, hexclusive, hreceived⟩ := ih hearlier
      have hactive := (broker mappings started).throughout_last hearlier
      rw [← Machine.run_append] at hactive hlater
      rw [← List.append_assoc, Machine.run_concat]
      have hsound := sound_run mappings started (steps ++ more)
      have hassigned := holderAssigned_run mappings started (steps ++ more)
      generalize (broker mappings started).run (steps ++ more) = runtime at *
      obtain ⟨session, hsession, rfl⟩ := Option.map_eq_some_iff.mp hactive
      have hlasting : (runtime.step last).session ≠ none := by
        intro hnone
        change (runtime.step last).session.map _ = _ at hlater
        rw [hnone] at hlater
        cases hlater
      refine ⟨events ++ createdBy runtime last,
        hexclusive.trans (hsound.exclusive last hsession), ?_⟩
      rw [← List.append_assoc, ← hreceived]
      exact hsound.received hassigned last hsession hlasting

/-- Where a session ends the broker is paused. -/
theorem Sound.paused_of_ended {runtime : Runtime} (hsound : Sound runtime) (step : Step)
    {session : Session} (hactive : runtime.session = some session)
    (hends : (runtime.step step).session = none) :
    (runtime.step step).core.Settled .paused := by
  obtain ⟨mode, hsettled⟩ := hsound.settled
  obtain ⟨next, hentered⟩ := runtime.turn_settled step.surroundings hsettled
    (runtime.step_turn step)
  have hlistening := Runtime.settled_listening hsettled hactive
  have hmode : runtime.core.InMode (.managed session.key) :=
    ⟨congrArg (Option.map Session.key) hactive, hlistening.1, hlistening.2⟩
  cases Core.inMode_unique hmode hsettled.1
  rcases hentered.move.of_managed with rfl | rfl
  · have hkey := hentered.settled.1.1
    change (runtime.step step).session.map _ = _ at hkey
    rw [hends] at hkey
    cases hkey
  · exact hentered.settled

/-- The stream of a session since its acceptance, and what the step that ends
it adds. -/
theorem Tenure.stream {before : List Step} {opening : Step} {meanwhile : List Step}
    {since : List Created} {key : SessionKey}
    (h : Tenure mappings started before opening meanwhile since key) :
    Stream key ((broker mappings started).run (before ++ [opening])) (since.map (·.event))
      ((broker mappings started).run (before ++ opening :: meanwhile)) := by
  have hsplit : before ++ opening :: meanwhile = before ++ [opening] ++ meanwhile := by
    rw [List.append_assoc, List.singleton_append]
  have hcreated := h.created
  obtain ⟨events, hexclusive, hreceived⟩ :=
    exclusive_run mappings started (before ++ [opening]) key meanwhile h.lasting
  rw [← hsplit] at hexclusive hreceived
  have hevents : events = since.map (·.event) := by
    have hmap := congrArg (List.map Created.event) hcreated
    rw [hexclusive.created, List.map_append] at hmap
    exact List.append_cancel_left hmap
  subst hevents
  have hsound := sound_run mappings started before
  have hopened := h.opened
  rw [Machine.run_concat] at hopened hexclusive hreceived ⊢
  have hidle := h.idle
  generalize (broker mappings started).run before = runtime at *
  change (runtime.step opening).session = _ at hopened
  have hreleased : (runtime.step opening).state.AllReleased := by
    rcases hsound.session_step opening with hsame | hreleased
    · rw [hopened, hidle] at hsame
      cases hsame
    · exact hreleased
  refine ⟨?_, hexclusive, hreceived, alternates_of_changes hreleased hexclusive.changes⟩
  cases hsound.change opening with
  | idle _ hstill =>
      rw [hstill] at hopened
      cases hopened
  | kept _ hactive _ _ _ _ _ _ =>
      rw [hidle] at hactive
      cases hactive
  | ended _ hactive _ _ _ _ _ _ =>
      rw [hidle] at hactive
      cases hactive
  | opened holder handshake _ _ hsession _ _ hanswered =>
      rw [hopened] at hsession
      obtain ⟨hclient, hid, _⟩ := Session.mk.inj (Option.some.inj hsession)
      rw [hclient, hid]
      exact hanswered

theorem Tenure.concluded {before : List Step} {opening : Step} {meanwhile : List Step}
    {since : List Created} {key : SessionKey}
    (h : Tenure mappings started before opening meanwhile since key) (last : Step)
    (hends : ((broker mappings started).run
      (before ++ opening :: meanwhile ++ [last])).session = none) :
    Concluded mappings started key ((broker mappings started).run (before ++ [opening]))
      (since.map (·.event)) ((broker mappings started).run (before ++ opening :: meanwhile))
      (createdBy ((broker mappings started).run (before ++ opening :: meanwhile)) last)
      ((broker mappings started).run (before ++ opening :: meanwhile ++ [last])) := by
  have hstream := h.stream
  have hsplit : before ++ opening :: meanwhile = before ++ [opening] ++ meanwhile := by
    rw [List.append_assoc, List.singleton_append]
  have hactive := (broker mappings started).throughout_last h.lasting
  rw [← Machine.run_append, ← hsplit] at hactive
  have hreleased : ((broker mappings started).run (before ++ [opening])).state.AllReleased := by
    have hopened := h.opened
    rw [Machine.run_concat] at hopened ⊢
    rcases (sound_run mappings started before).session_step opening with hsame | hreleased
    · change _ = Option.map _ ((broker mappings started).run before).session at hsame
      rw [h.idle] at hsame
      change ((((broker mappings started).run before).step opening).session) = _ at hopened
      rw [hopened] at hsame
      cases hsame
    · exact hreleased
  rw [Machine.run_concat _ (before ++ opening :: meanwhile)] at hends ⊢
  have hsound := sound_run mappings started (before ++ opening :: meanwhile)
  have hassigned := holderAssigned_run mappings started (before ++ opening :: meanwhile)
  generalize (broker mappings started).run (before ++ opening :: meanwhile) = runtime at *
  obtain ⟨session, hsession, rfl⟩ := Option.map_eq_some_iff.mp hactive
  have hexclusive := hstream.exclusive.trans (hsound.exclusive last hsession)
  have hpaused := hsound.paused_of_ended last hsession hends
  obtain ⟨reason, hlogged, ⟨part, hpart, hqueue⟩, hfarewell⟩ :=
    hsound.concluded hassigned last hsession hends
  constructor
  · exact hexclusive
  · exact alternates_of_changes hreleased hexclusive.changes
  · intro switchId event
    exact last_released_of_changes (hpaused.2 rfl) hexclusive.changes switchId
  · refine ⟨eventsOf part, ?_, ?_⟩
    · have hevents : (eventsOf part).Sublist (eventsOf (_ ++ [revocation (session, reason)])) :=
        hpart.filterMap _
      have hrevocation : eventsOf [revocation (session, reason)] = [] := rfl
      rwa [eventsOf_append, eventsOf_map, hrevocation, List.append_nil] at hevents
    · exact (congrArg eventsOf hqueue).trans (eventsOf_append _ _)
  · intro hmem
    obtain ⟨hqueue, hreleases⟩ := hfarewell hmem
    exact ⟨hreleases, session, reason, rfl, hlogged, hqueue⟩
  · intro more next hidle clientId
    exact silent_until_accepted mappings started hpaused more next hidle clientId

/-- The contract of a session's stream: from the acceptance to the end all
events are for the holder, who has them without a gap and alternating, and the
end adds the releases and one announcement. No session is announced twice, or
to a client who was not accepted in it. -/
theorem session_stream (steps : List Step) :
    (∀ before opening meanwhile since key, steps = before ++ opening :: meanwhile →
      Tenure mappings started before opening meanwhile since key →
      let accepted := (broker mappings started).run (before ++ [opening])
      let runtime := (broker mappings started).run steps
      let events := since.map (·.event)
      Stream key accepted events runtime ∧
      ∀ last, let after := (broker mappings started).run (steps ++ [last])
        after.session = none →
          Concluded mappings started key accepted events runtime (createdBy runtime last)
            after) ∧
    ((steps.map (·.surroundings.uuid)).Nodup →
      let runtime := (broker mappings started).run steps
      (∀ clientId, (announced (enqueued runtime clientId)).Nodup ∧
        Answered (enqueued runtime clientId)) ∧
      ∀ clientId other, clientId ≠ other →
        (announced (enqueued runtime clientId)).Disjoint
          (announced (enqueued runtime other))) := by
  constructor
  · rintro before opening meanwhile since key rfl htenure
    exact ⟨htenure.stream, fun last hends => htenure.concluded mappings started last hends⟩
  · intro hfresh
    have hannounced := announced_run mappings started steps hfresh
    exact ⟨fun clientId => ⟨hannounced.once clientId, hannounced.answered clientId⟩,
      hannounced.apart⟩

def passAs (now : Instant) (uuid : String) (command : BrokerCommand) : Step :=
  ⟨⟨now, uuid, .ok (), .ok ()⟩, .command command⟩

/-- The first of two clients opens a session, in which the key goes down. -/
def pressedSession : List Step :=
  [passAs 0 "a" (.register (stuckChannel 7)), passAs 1 "b" (.register (stuckChannel 7)),
    passAs 2 "first" (.handshake 1 exclusiveHandshake), passAs 3 "c" (.input spacePress)]

def sessionEnd : Step := passAs 4 "d" (.revokeSession .explicitRevocation)

/-- The other client gets a session of its own. -/
def laterSession : List Step :=
  [passAs 5 "second" (.handshake 2 exclusiveHandshake),
    passAs 6 "e" (.revokeSession .explicitRevocation)]

theorem pressedSession_stream :
    let accepted := (broker [spaceMapping] 0).run (pressedSession.take 3)
    let runtime := (broker [spaceMapping] 0).run pressedSession
    let after := (broker [spaceMapping] 0).run (pressedSession ++ [sessionEnd])
    let events := [⟨"0.3.0", 1, 0, "primary", .pressed, some (.finite 100)⟩]
    Stream ⟨1, "first", none⟩ accepted events runtime ∧
      Concluded [spaceMapping] 0 ⟨1, "first", none⟩ accepted events runtime
        (createdBy runtime sessionEnd) after ∧
      let last := (broker [spaceMapping] 0).run (pressedSession ++ sessionEnd :: laterSession)
      announced (enqueued last 1) = ["first"] ∧ announced (enqueued last 2) = ["second"] ∧
        (announced (enqueued last 1)).Disjoint (announced (enqueued last 2)) := by
  intro accepted runtime after events
  obtain ⟨hstream, hconcluded⟩ := (session_stream [spaceMapping] 0 pressedSession).1
    (pressedSession.take 2) _ (pressedSession.drop 3)
    [⟨3, ⟨"0.3.0", 1, 0, "primary", .pressed, some (.finite 100)⟩⟩] ⟨1, "first", none⟩ rfl
    ⟨by decide +kernel, by decide +kernel, by decide +kernel, by decide +kernel⟩
  obtain ⟨_, hapart⟩ := (session_stream [spaceMapping] 0
    (pressedSession ++ sessionEnd :: laterSession)).2 (by decide)
  exact ⟨hstream, hconcluded sessionEnd (by decide +kernel), by decide +kernel, by decide +kernel,
    hapart 1 2 (by decide)⟩

end Usahp.Broker
