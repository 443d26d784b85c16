import Usahp.Broker.Calls
import Usahp.Broker.Stream

/-!
The log of all events the broker creates, whoever gets to see them. Its
numbers and edges were accounted for step by step with the events; this module
adds what an entry says about the clock and about the confidence, and puts the
whole log together.
-/

namespace Usahp.Broker

open Std Usahp.Library SwitchStateMachine

/-- `Runtime::event` turns the time since the start into a `u64`. -/
def microseconds (started now : Instant) : Nat :=
  min (elapsed now started / 1000) (2 ^ 64 - 1)

/-- A confidence is absent or a percentage. -/
def Percentage (confidence : Option F32) : Prop :=
  ∀ value, confidence = some value →
    ∃ percent : Rat, value = .finite percent ∧ 0 ≤ percent ∧ percent ≤ 100

/-- The level that a log gives to a switch. -/
def latestState (log : List SwitchEvent) (switchId : String) : SwitchState :=
  (((log.filter (·.switchId = switchId)).getLast?).map (·.action.state)).getD .released

structure Stamped (started now : Instant) (entry : Created) : Prop where
  at_ : entry.at_ = now
  monotonicUs : entry.event.monotonicUs = microseconds started now
  confidence : Percentage entry.event.confidence

/-- What a pass adds to the log, all of it at the time of the pass. -/
structure Logs (before : Core) (now : Instant) (after : Core) : Prop where
  started : after.started = before.started
  appended : ∃ entries, after.created = before.created ++ entries ∧
    ∀ entry ∈ entries, Stamped before.started now entry

theorem microseconds_mono (started : Instant) {earlier later : Instant}
    (hle : earlier ≤ later) : microseconds started earlier ≤ microseconds started later := by
  have helapsed : elapsed earlier started ≤ elapsed later started :=
    Nat.sub_le_sub_right hle started
  have hdiv := Nat.div_le_div_right (c := 1000) helapsed
  unfold microseconds
  omega

/-- The release of `release_all` carries a percentage. -/
theorem percentage_zero : Percentage (some (.finite 0)) := by
  rintro value hvalue
  cases hvalue
  exact ⟨0, rfl, by decide, by decide⟩

/-- Whatever an input carries, the check lets percentages through only. -/
theorem percentage_validated (confidence : Option F32) :
    Percentage (confidence.bind validateConfidence) := by
  rintro value hvalue
  obtain ⟨given, _, hchecked⟩ := Option.bind_eq_some_iff.mp hvalue
  unfold validateConfidence at hchecked
  split_ifs at hchecked with hvalid
  have hsame : given = value := Option.some.inj hchecked
  subst hsame
  cases given with
  | nan => cases hvalid
  | infinity negative => cases hvalid
  | finite percent =>
      have hrange : 0 ≤ percent ∧ percent ≤ 100 := by
        simpa [F32.isFinite, F32.inConfidenceRange] using hvalid
      exact ⟨percent, rfl, hrange⟩

theorem Logs.refl (core : Core) (now : Instant) : Logs core now core where
  started := rfl
  appended := ⟨[], (List.append_nil _).symm, by simp⟩

theorem Logs.of_eq {before after : Core} (now : Instant)
    (hstarted : after.started = before.started)
    (hcreated : after.created = before.created) : Logs before now after where
  started := hstarted
  appended := ⟨[], hcreated.trans (List.append_nil _).symm, by simp⟩

theorem Logs.trans {before middle after : Core} {now : Instant}
    (hfirst : Logs before now middle) (hsecond : Logs middle now after) :
    Logs before now after where
  started := hsecond.started.trans hfirst.started
  appended := by
    obtain ⟨first, hmiddle, hfirstStamped⟩ := hfirst.appended
    obtain ⟨second, hafter, hsecondStamped⟩ := hsecond.appended
    refine ⟨first ++ second, ?_, ?_⟩
    · rw [hafter, hmiddle, List.append_assoc]
    · intro entry hmem
      rcases List.mem_append.mp hmem with hold | hnew
      · exact hfirstStamped entry hold
      · have hstamped := hsecondStamped entry hnew
        rwa [hfirst.started] at hstamped

theorem stamp_stamped (started now : Instant) (sequence : Nat)
    {transitions : List LogicalTransition}
    (hconfidence : ∀ transition ∈ transitions, Percentage transition.confidence) :
    ∀ event ∈ stamp started now sequence transitions, Stamped started now ⟨now, event⟩ := by
  induction transitions generalizing sequence with
  | nil =>
      intro event hmem
      cases hmem
  | cons transition rest ih =>
      intro event hmem
      rcases List.mem_cons.mp hmem with rfl | hrest
      · exact ⟨rfl, rfl, hconfidence transition (by simp)⟩
      · refine ih (sequence + 1) ?_ event hrest
        intro other hother
        exact hconfidence other (by simp [hother])

theorem Outer.confidence {runtime : Runtime} {event : PhysicalEvent}
    {transition : LogicalTransition} {state : SwitchStateMachine}
    (houter : Outer runtime event transition state) :
    transition.confidence = event.confidence.bind validateConfidence := by
  have happlied := runtime.state.apply_applied event.mappingId event.action
    (event.confidence.bind validateConfidence)
  rw [houter.applied] at happlied
  cases happlied with
  | outer switchId _ _ _ _ => rfl

namespace Runtime

variable (runtime : Runtime) (surroundings : Surroundings)

theorem record_logs (now : Instant) {events : List SwitchEvent}
    (hstamped : ∀ event ∈ events, Stamped runtime.started now ⟨now, event⟩) :
    Logs runtime.core now (runtime.record now events).core where
  started := rfl
  appended := by
    refine ⟨events.map fun event => ⟨now, event⟩, rfl, ?_⟩
    intro entry hmem
    obtain ⟨event, hevent, rfl⟩ := List.mem_map.mp hmem
    exact hstamped event hevent

theorem letGo_logs (now : Instant) : Logs runtime.core now (runtime.letGo now).core := by
  have hpercentage : ∀ transition ∈ runtime.state.releaseAll.1,
      Percentage transition.confidence := by
    intro transition hmem
    rw [releaseAll_transitions] at hmem
    obtain ⟨switchId, _, rfl⟩ := List.mem_map.mp hmem
    exact percentage_zero
  have hrecord := record_logs { runtime with state := runtime.state.releaseAll.2 } now
    (stamp_stamped runtime.started now runtime.sequence hpercentage)
  exact ⟨hrecord.started, hrecord.appended⟩

theorem revoke_logs (reason : SessionRevocationReason) {session : Session}
    (h : runtime.session = some session) :
    Logs runtime.core surroundings.now (runtime.revoke surroundings reason).core := by
  have hgone := (runtime.suspend surroundings).letGo_logs surroundings.now
  rw [runtime.revoke_core surroundings reason h]
  exact ⟨hgone.started, hgone.appended⟩

theorem published_logs (now : Instant) {event : PhysicalEvent}
    {transition : LogicalTransition} {state : SwitchStateMachine}
    (houter : Outer runtime event transition state) :
    Logs runtime.core now (runtime.published now state transition).core := by
  have hpercentage : ∀ one ∈ [transition], Percentage one.confidence := by
    intro one hmem
    rw [List.mem_singleton.mp hmem, houter.confidence]
    exact percentage_validated event.confidence
  have hrecord := record_logs { runtime with state } now
    (stamp_stamped runtime.started now runtime.sequence hpercentage)
  exact ⟨hrecord.started, hrecord.appended⟩

theorem ready_logs {base : Runtime} (hready : Ready runtime surroundings base) :
    Logs runtime.core surroundings.now (base.releaseLegacy surroundings).core := by
  rw [releaseLegacy_core]
  cases hready with
  | running _ =>
      split_ifs
      · exact .refl _ _
      · exact runtime.letGo_logs surroundings.now
  | resumed hpaused hok =>
      rw [runtime.resumeCapture_of_ok surroundings hok]
      simp only [hpaused, if_true]
      exact .of_eq _ rfl rfl

/-- Every pass adds entries stamped with its own time. -/
theorem turn_logs {wakeup : Wakeup} {after : Runtime}
    (hturn : Turn runtime surroundings wakeup after) :
    Logs runtime.core surroundings.now after.core := by
  cases hturn with
  | registered channel =>
      rw [register_core]
      exact .of_eq _ rfl rfl
  | left _ _ => exact .refl _ _
  | disconnected session hactive =>
      exact (runtime.removeClient session.clientId).revoke_logs surroundings _ hactive
  | muted _ _ => exact .refl _ _
  | unchanged _ _ _ _ => exact .refl _ _
  | inner _ _ _ _ _ => exact .of_eq _ rfl rfl
  | announced _ _ _ _ _ houter =>
      rw [broadcast_core]
      exact runtime.published_logs surroundings.now houter
  | routed _ _ _ _ _ _ houter _ =>
      rw [trySend_core]
      exact runtime.published_logs surroundings.now houter
  | overflowed _ _ session hactive transition state houter _ =>
      have hended := revoke_logs _ surroundings .queueOverflow
        (runtime.dropped_session surroundings.now state transition session.clientId hactive)
      rw [dropped_core] at hended
      exact (runtime.published_logs surroundings.now houter).trans hended
  | rejected _ _ _ _ =>
      rw [reject_core]
      exact .refl _ _
  | unavailable _ _ _ _ error hfailed =>
      rw [reject_core, runtime.resumeCapture_of_error surroundings hfailed]
      exact .of_eq _ rfl rfl
  | abandoned _ _ _ base hready _ =>
      have hlogs := runtime.ready_logs surroundings hready
      exact ⟨hlogs.started, hlogs.appended⟩
  | accepted clientId handshake _ base hready _ =>
      have hlogs := runtime.ready_logs surroundings hready
      rw [sendResponse_core]
      exact ⟨hlogs.started, hlogs.appended⟩
  | refused clientId handshake _ base hready _ _ =>
      have hlogs := runtime.ready_logs surroundings hready
      have hsent := ((base.releaseLegacy surroundings).opened surroundings clientId
        handshake.pid).sendResponse_core clientId (acceptance surroundings.uuid)
      have hended := revoke_logs _ surroundings .queueOverflow
        (congrArg Core.session hsent)
      rw [hsent] at hended
      have hopened : Logs runtime.core surroundings.now
          ((base.releaseLegacy surroundings).opened surroundings clientId
            handshake.pid).core := ⟨hlogs.started, hlogs.appended⟩
      exact hopened.trans hended
  | renewed _ _ => exact .of_eq _ rfl rfl
  | stale _ _ _ => exact .refl _ _
  | revoked _ hactive _ reason _ => exact runtime.revoke_logs surroundings reason hactive
  | ignored _ _ _ => exact .refl _ _

end Runtime

variable (mappings : List Mapping) (started : Instant)

/-- The log of a run whose clock does not run backwards: the entries are in
the order of their times, and each is stamped in one of the steps. -/
structure Chronicle (steps : List Step) (runtime : Runtime) : Prop where
  begun : runtime.started = started
  ordered : (steps.map (·.surroundings.now)).Pairwise (· ≤ ·) →
    (runtime.history.created.map (·.at_)).Pairwise (· ≤ ·)
  stamped : ∀ entry ∈ runtime.history.created, ∃ step ∈ steps,
    Stamped started step.surroundings.now entry

theorem chronicle_run (steps : List Step) :
    Chronicle started steps ((broker mappings started).run steps) := by
  refine (broker mappings started).history_invariant (Chronicle started) ?_ ?_ steps
  · exact ⟨rfl, fun _ => List.Pairwise.nil, by intro entry hmem; cases hmem⟩
  · intro steps step ih
    have hlogs := ((broker mappings started).run steps).turn_logs step.surroundings
      (Runtime.step_turn _ step)
    generalize (broker mappings started).run steps = runtime at *
    obtain ⟨entries, hcreated, hentries⟩ := hlogs.appended
    change (runtime.step step).history.created = runtime.history.created ++ entries at hcreated
    change ∀ entry ∈ entries, Stamped runtime.started _ _ at hentries
    rw [ih.begun] at hentries
    constructor
    · exact hlogs.started.trans ih.begun
    · intro hclock
      rw [List.map_append] at hclock
      obtain ⟨hbefore, _, hlater⟩ := List.pairwise_append.mp hclock
      change ((runtime.step step).history.created.map (·.at_)).Pairwise (· ≤ ·)
      rw [hcreated, List.map_append]
      refine List.pairwise_append.mpr ⟨ih.ordered hbefore, ?_, ?_⟩
      · rw [List.pairwise_map]
        apply List.pairwise_of_forall_mem_list
        intro first hfirst second hsecond
        rw [(hentries first hfirst).at_, (hentries second hsecond).at_]
      · intro earlier hearlier later hnew
        obtain ⟨old, hold, rfl⟩ := List.mem_map.mp hearlier
        obtain ⟨fresh, hfresh, rfl⟩ := List.mem_map.mp hnew
        obtain ⟨past, hpast, hstamped⟩ := ih.stamped old hold
        rw [hstamped.at_, (hentries fresh hfresh).at_]
        exact hlater _ (List.mem_map_of_mem hpast) _ (by simp)
    · intro entry hmem
      change entry ∈ (runtime.step step).history.created at hmem
      rw [hcreated] at hmem
      rcases List.mem_append.mp hmem with hold | hnew
      · obtain ⟨past, hpast, hstamped⟩ := ih.stamped entry hold
        exact ⟨past, List.mem_append_left _ hpast, hstamped⟩
      · exact ⟨step, by simp, hentries entry hnew⟩

/-- The whole log is exact: it starts with everything released and leads to
the present levels. -/
theorem created_changes (steps : List Step) :
    let runtime := (broker mappings started).run steps
    Changes (fun _ => SwitchState.released)
      (runtime.history.created.map fun entry => eventEdge entry.event) runtime.state.level := by
  refine (broker mappings started).history_invariant
    (fun _ runtime => Changes (fun _ => SwitchState.released)
      (runtime.history.created.map fun entry => eventEdge entry.event) runtime.state.level)
    ?_ ?_ steps
  · funext switchId
    exact (level_eq_released_iff _).mpr (active_new mappings switchId)
  · intro steps step ih
    have hcreates := ((sound_run mappings started steps).passed step).creates
    generalize (broker mappings started).run steps = runtime at *
    have hcreated : (runtime.step step).history.created = _ := hcreates.created
    change Changes _ ((runtime.step step).history.created.map _) (runtime.step step).state.level
    rw [hcreated, List.map_append, List.map_map]
    exact ih.append hcreates.changes

theorem latestState_eq (log : List SwitchEvent) (switchId : String) :
    latestState log switchId =
      ((levelsOf switchId (log.map eventEdge)).getLast?).getD .released := by
  rw [levelsOf_edges, List.getLast?_map, List.getLast?_map, Option.map_map]
  rfl

/-- The contract of the log, with every number in it small enough for the
counter of the source. -/
theorem event_log (steps : List Step)
    (hclock : (steps.map (·.surroundings.now)).Pairwise (· ≤ ·))
    (hfew : ((broker mappings started).run steps).history.created.length < 2 ^ 64) :
    let runtime := (broker mappings started).run steps
    let log := runtime.history.created.map (·.event)
    (log.map (·.sequence) = List.range' 1 log.length ∧
      ∀ event ∈ log, event.sequence < 2 ^ 64) ∧
    (log.map (·.monotonicUs)).Pairwise (· ≤ ·) ∧
    Alternates log ∧
    ((∀ mapping ∈ mappings, ∃ snapshot ∈ runtime.state.snapshots,
        snapshot.switchId = mapping.switchId) ∧
      ∀ snapshot ∈ runtime.state.snapshots,
        snapshot.state = latestState log snapshot.switchId) ∧
    ∀ event ∈ log, Percentage event.confidence := by
  intro runtime log
  have hnumbered : log.map (·.sequence) = List.range' 1 log.length := by
    have hcount := created_numbered mappings started steps
    have hlength : runtime.history.created.length = runtime.sequence := by
      simpa using congrArg List.length hcount
    rw [List.map_map, List.length_map, hlength]
    exact hcount
  have hchanges : Changes (fun _ => SwitchState.released) (log.map eventEdge)
      runtime.state.level := by
    rw [List.map_map]
    exact created_changes mappings started steps
  have hchronicle := chronicle_run mappings started steps
  obtain ⟨calls, hcalls⟩ := state_of_calls mappings started steps
  have hlisted := (reflects_run mappings calls).listed
  rw [← hcalls] at hlisted
  refine ⟨⟨hnumbered, ?_⟩, ?_, alternates_of_changes (fun _ => rfl) hchanges, ⟨?_, ?_⟩, ?_⟩
  · intro event hmem
    have hnumber : event.sequence ∈ log.map (·.sequence) := List.mem_map_of_mem hmem
    rw [hnumbered, List.mem_range'_1, List.length_map] at hnumber
    have hbound : runtime.history.created.length < 2 ^ 64 := hfew
    omega
  · have htimes := hchronicle.ordered hclock
    rw [List.pairwise_map] at htimes
    rw [List.map_map, List.pairwise_map]
    apply htimes.imp_of_mem
    intro earlier later hearlier hlater hle
    obtain ⟨first, _, hfirst⟩ := hchronicle.stamped earlier hearlier
    obtain ⟨second, _, hsecond⟩ := hchronicle.stamped later hlater
    rw [hfirst.at_, hsecond.at_] at hle
    change earlier.event.monotonicUs ≤ later.event.monotonicUs
    rw [hfirst.monotonicUs, hsecond.monotonicUs]
    exact microseconds_mono started hle
  · intro mapping hmapping
    have hswitch := (hlisted mapping.switchId).mpr ⟨mapping, hmapping, rfl⟩
    rw [snapshots_eq]
    exact ⟨_, List.mem_map_of_mem hswitch, rfl⟩
  · intro snapshot hsnapshot
    rw [snapshots_eq] at hsnapshot
    obtain ⟨switchId, _, rfl⟩ := List.mem_map.mp hsnapshot
    rw [latestState_eq]
    exact hchanges.last switchId
  · intro event hmem
    obtain ⟨entry, hentry, rfl⟩ := List.mem_map.mp hmem
    obtain ⟨_, _, hstamped⟩ := hchronicle.stamped entry hentry
    exact hstamped.confidence

/-- A press in broadcast mode, the handshake that releases it, and a press of
the session with a confidence that is not a number. -/
def twoPresses : List Step :=
  [passAt 0 (.command (.register (stuckChannel 7))),
    passAt 1000 (.command (.input spacePress)),
    passAt 2000 (.command (.handshake 1 exclusiveHandshake)),
    passAt 3000 (.command (.input ⟨"space", .pressed, some .nan⟩))]

theorem twoPresses_log :
    let log := ((broker [spaceMapping] 0).run twoPresses).history.created.map (·.event)
    log.length = 3 ∧ log.map (·.sequence) = List.range' 1 log.length ∧ Alternates log := by
  have hlog := event_log [spaceMapping] 0 twoPresses (by decide) (by decide +kernel)
  exact ⟨by decide +kernel, hlog.1.1, hlog.2.2.1⟩

end Usahp.Broker
