import Usahp.Broker.Calls
import Usahp.Broker.Lease

/-!
The escape hatch. During a session the tracker holds exactly the pressed
switches, each with a time that is not later than the present. So an input
that is pressed and held during the session is noticed in time. What is held
when the session is accepted is forgotten by the release at its border, and
the hatch does not see it.
-/

namespace Usahp.Broker

open Std Usahp.Library

/-- The tracker holds the pressed switches and no other, with times up to the
limit. -/
structure Watched (limit : Instant) (runtime : Runtime) : Prop where
  pressed : ∀ switchId, runtime.state.level switchId = .pressed →
    ∃ time, time ≤ limit ∧ runtime.escapeTracker[switchId]? = some time
  tracked : ∀ (switchId : String) (time : Instant),
    runtime.escapeTracker[switchId]? = some time →
      runtime.state.level switchId = .pressed

theorem Watched.of_cleared {limit : Instant} {runtime : Runtime}
    (hreleased : runtime.state.AllReleased) (hcleared : runtime.escapeTracker = ∅) :
    Watched limit runtime where
  pressed switchId hlevel := by
    rw [hreleased switchId] at hlevel
    cases hlevel
  tracked switchId time htracked := by
    rw [hcleared, ExtTreeMap.getElem?_empty] at htracked
    cases htracked

/-- One event at most, tracked as it is created. -/
theorem Watched.events {limit now : Instant} {before after : Runtime}
    {events : List SwitchEvent} (h : Watched limit before) (hnow : now ≤ limit)
    (hcreates : Creates before.core now events after.core)
    (htracker : after.escapeTracker = events.foldl (trackEvent now) before.escapeTracker)
    (hlength : events.length ≤ 1) : Watched limit after := by
  have hchanges := hcreates.changes
  rcases Nat.le_one_iff_eq_zero_or_eq_one.mp hlength with hnone | hone
  · obtain rfl := List.eq_nil_of_length_eq_zero hnone
    have hlevel : after.state.level = before.state.level := hchanges
    have hsame : after.escapeTracker = before.escapeTracker := htracker
    constructor
    · rw [hlevel, hsame]
      exact h.pressed
    · rw [hlevel, hsame]
      exact h.tracked
  · obtain ⟨event, rfl⟩ := List.length_eq_one_iff.mp hone
    obtain ⟨_, hlevel⟩ := changes_singleton.mp hchanges
    change after.state.level = Function.update before.state.level event.switchId
      event.action.state at hlevel
    have hevent : after.escapeTracker = trackEvent now before.escapeTracker event :=
      htracker
    have hswitch (switchId : String) :
        (after.state.level switchId = .pressed →
          ∃ time, time ≤ limit ∧ after.escapeTracker[switchId]? = some time) ∧
        ∀ time, after.escapeTracker[switchId]? = some time →
          after.state.level switchId = .pressed := by
      rw [hlevel, hevent, trackEvent_getElem?]
      by_cases hown : event.switchId = switchId
      · subst hown
        rw [Function.update_self, if_pos rfl]
        cases event.action with
        | pressed => exact ⟨fun _ => ⟨now, hnow, rfl⟩, fun _ _ => rfl⟩
        | released =>
            constructor
            · intro hpressed
              cases hpressed
            · intro _ htracked
              cases htracked
      · rw [Function.update_of_ne (Ne.symm hown), if_neg hown]
        exact ⟨h.pressed switchId, h.tracked switchId⟩
    exact ⟨fun switchId => (hswitch switchId).1, fun switchId => (hswitch switchId).2⟩

/-- A session opens with nothing pressed. -/
theorem Sound.released_of_opened {runtime : Runtime} (hsound : Sound runtime) (step : Step)
    (hidle : runtime.session = none) {session : Session}
    (hopened : (runtime.step step).session = some session) :
    (runtime.step step).state.AllReleased := by
  rcases hsound.session_step step with hsame | hreleased
  · rw [hidle, hopened] at hsame
    cases hsame
  · exact hreleased

variable (mappings : List Mapping) (started : Instant)

theorem watched_run {limit : Instant} (steps : List Step)
    (hlimit : ∀ step ∈ steps, step.surroundings.now ≤ limit)
    (hactive : ((broker mappings started).run steps).session ≠ none) :
    Watched limit ((broker mappings started).run steps) := by
  revert hlimit hactive
  refine (broker mappings started).history_invariant
    (fun steps runtime => (∀ step ∈ steps, step.surroundings.now ≤ limit) →
      runtime.session ≠ none → Watched limit runtime) ?_ ?_ steps
  · intro _ hactive
    exact absurd rfl hactive
  · intro steps step ih hlimit hactive
    have hsound := sound_run mappings started steps
    have hearlier : ∀ earlier ∈ steps, earlier.surroundings.now ≤ limit := by
      intro earlier hmem
      exact hlimit earlier (List.mem_append_left _ hmem)
    have hnow : step.surroundings.now ≤ limit :=
      hlimit step (List.mem_append_right _ (List.mem_singleton_self _))
    cases hsound.change step with
    | idle _ hstill => exact absurd hstill hactive
    | ended _ _ hstill _ _ _ => exact absurd hstill hactive
    | opened _ _ _ hidle hopened _ hcleared =>
        exact .of_cleared (hsound.released_of_opened step hidle hopened) hcleared
    | kept session hbefore _ _ _ _ htracked _ =>
        obtain ⟨events, hcreates, htracker, hlength, _⟩ := htracked
        have hwatched := ih hearlier (by rw [hbefore]; exact Option.some_ne_none _)
        exact hwatched.events hnow hcreates htracker hlength

/-- An edge of a mapping. -/
def Touches (mappingId : String) (step : Step) : Prop :=
  match step.wakeup with
  | .command (.input event) => event.mappingId = mappingId
  | _ => False

instance (mappingId : String) (step : Step) : Decidable (Touches mappingId step) := by
  unfold Touches
  split <;> infer_instance

/-- A held input whose switch has been tracked since the limit or longer. -/
structure Gripped (limit : Instant) (mappingId switchId : String) (runtime : Runtime) :
    Prop where
  known : runtime.state.mappingToSwitch[mappingId]? = some switchId
  held : mappingId ∈ runtime.state.active switchId
  since : ∃ time, time ≤ limit ∧ runtime.escapeTracker[switchId]? = some time

theorem Gripped.pressed {limit : Instant} {mappingId switchId : String} {runtime : Runtime}
    (h : Gripped limit mappingId switchId runtime) :
    runtime.state.level switchId = .pressed :=
  runtime.state.level_eq_pressed_iff.mpr (Finset.ne_empty_of_mem h.held)

/-- The edges of other mappings leave a held mapping held. -/
theorem mem_active_heard {state : SwitchStateMachine} {mappingId switchId : String}
    (hheld : mappingId ∈ state.active switchId) {step : Step}
    (hother : ¬ Touches mappingId step) :
    mappingId ∈ (heard state step.wakeup).active switchId := by
  unfold Touches at hother
  unfold heard
  split
  · rename_i event hwakeup
    rw [hwakeup] at hother
    cases hknown : state.mappingToSwitch[event.mappingId]? with
    | none =>
        rw [state.apply_unknown hknown]
        exact hheld
    | some own =>
        rw [state.mem_active_apply hknown, if_neg fun hself => hother hself.1.symm]
        exact hheld
  · exact hheld

@[simp] theorem heard_mappingToSwitch (state : SwitchStateMachine) (wakeup : Wakeup) :
    (heard state wakeup).mappingToSwitch = state.mappingToSwitch := by
  unfold heard
  split
  · exact state.apply_mappingToSwitch _ _ _
  · rfl

theorem Gripped.step {limit : Instant} {mappingId switchId : String} {runtime : Runtime}
    (h : Gripped limit mappingId switchId runtime) (hsound : Sound runtime) (step : Step)
    (hother : ¬ Touches mappingId step) {key : SessionKey}
    (hbefore : runtime.session.map Session.key = some key)
    (hafter : (runtime.step step).session.map Session.key = some key) :
    Gripped limit mappingId switchId (runtime.step step) := by
  obtain ⟨session, hactive, _⟩ := Option.map_eq_some_iff.mp hbefore
  have hlasts : (runtime.step step).session ≠ none := by
    intro hstill
    rw [hstill] at hafter
    cases hafter
  obtain ⟨_, hheard, events, hcreates, htracker, hlength, _⟩ :=
    (hsound.change step).kept_of_lasts hactive hlasts
  have hheld : mappingId ∈ (runtime.step step).state.active switchId := by
    rw [hheard]
    exact mem_active_heard h.held hother
  have hlater : (runtime.step step).state.level switchId = .pressed :=
    (SwitchStateMachine.level_eq_pressed_iff _).mpr (Finset.ne_empty_of_mem hheld)
  refine ⟨?_, hheld, ?_⟩
  · rw [hheard, heard_mappingToSwitch]
    exact h.known
  · obtain ⟨time, htime, hold⟩ := h.since
    refine ⟨time, htime, ?_⟩
    rw [htracker]
    have hchanges := hcreates.changes
    rcases Nat.le_one_iff_eq_zero_or_eq_one.mp hlength with hnone | hone
    · obtain rfl := List.eq_nil_of_length_eq_zero hnone
      exact hold
    · obtain ⟨event, rfl⟩ := List.length_eq_one_iff.mp hone
      obtain ⟨hchanged, hlevel⟩ := changes_singleton.mp hchanges
      -- an event on the switch would have to change its level
      have hne : event.switchId ≠ switchId := by
        rintro rfl
        change (runtime.step step).state.level = Function.update runtime.state.level
          event.switchId event.action.state at hlevel
        rw [hlevel, Function.update_self] at hlater
        exact hchanged (h.pressed.trans hlater.symm)
      change (trackEvent _ _ event)[switchId]? = _
      rw [trackEvent_getElem?, if_neg hne]
      exact hold

theorem Gripped.run {limit : Instant} {mappingId switchId : String} {runtime : Runtime}
    (h : Gripped limit mappingId switchId runtime) (hsound : Sound runtime)
    {key : SessionKey} (steps : List Step)
    (hother : ∀ step ∈ steps, ¬ Touches mappingId step)
    (hactive : (broker mappings started).Throughout
      (fun runtime => runtime.session.map Session.key = some key) runtime steps) :
    Gripped limit mappingId switchId ((broker mappings started).runFrom runtime steps) := by
  induction steps generalizing runtime with
  | nil => exact h
  | cons step rest ih =>
      have hnext := (broker mappings started).throughout_head hactive.2
      have hstep := h.step hsound step (hother step List.mem_cons_self) hactive.1 hnext
      exact ih hstep (hsound.step step)
        (fun later hmem => hother later (List.mem_cons_of_mem _ hmem)) hactive.2

/-- A press that reaches the broker during a session takes hold. -/
theorem gripped_of_press {before : List Step} {press : Step} {event : PhysicalEvent}
    {switchId : String} {limit : Instant} {key : SessionKey}
    (hclock : ∀ step ∈ before ++ [press], step.surroundings.now ≤ limit)
    (hconfigured : SwitchStateMachine.configuredSwitch mappings event.mappingId =
      some switchId)
    (hdelivered : press.wakeup = .command (.input event))
    (hpressed : event.action = .pressed)
    (hbefore : ((broker mappings started).run before).session.map Session.key = some key)
    (hafter : ((broker mappings started).run (before ++ [press])).session.map Session.key =
      some key) :
    Gripped limit event.mappingId switchId
      ((broker mappings started).run (before ++ [press])) := by
  have hknown := known_run mappings started before event.mappingId
  rw [hconfigured] at hknown
  have hactive : ((broker mappings started).run (before ++ [press])).session ≠ none := by
    intro hnone
    rw [hnone] at hafter
    cases hafter
  have hwatched := watched_run mappings started (before ++ [press]) hclock hactive
  rw [Machine.run_concat] at hactive hafter hwatched ⊢
  generalize hruntime : (broker mappings started).run before = runtime at *
  have hsound : Sound runtime := hruntime ▸ sound_run mappings started before
  change Watched limit (runtime.step press) at hwatched
  change Gripped limit event.mappingId switchId (runtime.step press)
  change (runtime.step press).session.map Session.key = some key at hafter
  change (runtime.step press).session ≠ none at hactive
  obtain ⟨session, hsession, _⟩ := Option.map_eq_some_iff.mp hbefore
  obtain ⟨_, hheard, _⟩ := (hsound.change press).kept_of_lasts hsession hactive
  have hheld : event.mappingId ∈ (runtime.step press).state.active switchId := by
    rw [hheard, hdelivered]
    apply (runtime.state.mem_active_apply hknown _ _ _ _).mpr
    rw [if_pos ⟨rfl, rfl⟩]
    exact hpressed
  refine ⟨?_, hheld, hwatched.pressed switchId ?_⟩
  · rw [hheard, heard_mappingToSwitch]
    exact hknown
  · exact (SwitchStateMachine.level_eq_pressed_iff _).mpr (Finset.ne_empty_of_mem hheld)

/-- No heartbeat of the active session is overdue at the step. -/
def Fresh (runtime : Runtime) (step : Step) : Prop :=
  ∀ session ∈ runtime.session,
    elapsed step.surroundings.now session.lastHeartbeat < millis 1500

instance (runtime : Runtime) (step : Step) : Decidable (Fresh runtime step) :=
  inferInstanceAs (Decidable (∀ session ∈ runtime.session, _))

/-- The tick at which a switch has been gripped for too long. -/
theorem Gripped.tick {limit : Instant} {mappingId switchId : String} {runtime : Runtime}
    (h : Gripped limit mappingId switchId runtime) (hsound : Sound runtime) {step : Step}
    (htick : step.wakeup = .tick) (hlong : limit + millis 4000 ≤ step.surroundings.now)
    (hfresh : Fresh runtime step) {key : SessionKey}
    (hactive : runtime.session.map Session.key = some key) :
    (runtime.step step).session = none ∧ ∃ session, session.key = key ∧
      (runtime.step step).history.revoked =
        runtime.history.revoked ++ [(session, .escapeHatch)] := by
  obtain ⟨time, htime, htracked⟩ := h.since
  obtain ⟨session, hsession, hkey⟩ := Option.map_eq_some_iff.mp hactive
  have hends : Ends runtime session step.surroundings.now step.wakeup .escapeHatch := by
    rw [htick]
    refine .demanded _ _ (.escape ?_ switchId time htracked ?_)
    · exact Nat.not_le.mpr (hfresh session hsession)
    · exact Nat.le_sub_of_add_le (by
        calc millis escapeHoldMs + time ≤ millis 4000 + limit := Nat.add_le_add_left htime _
          _ = limit + millis 4000 := Nat.add_comm _ _
          _ ≤ step.surroundings.now := hlong)
  cases hsound.change step with
  | idle hidle _ =>
      rw [hidle] at hsession
      cases hsession
  | opened _ _ _ hidle _ _ _ =>
      rw [hidle] at hsession
      cases hsession
  | kept other hother _ hunforced _ _ _ _ =>
      rw [hsession] at hother
      cases hother
      exact absurd hends (hunforced _)
  | ended other hother hstill reason hreason hlog =>
      rw [hsession] at hother
      cases hother
      cases hends.unique hreason
      exact ⟨hstill, session, hkey, hlog⟩

/-- A physical input is held through an interval: it is pressed while capture
listens, none of its edges follow, and from the instant `begun` on one session
is active and fresh. The tick comes at least the hold time later. -/
structure PhysicalHold (before : List Step) (press : Step) (early late : List Step)
    (tick : Step) (event : PhysicalEvent) (key : SessionKey) (begun : Instant) : Prop where
  clock : ∀ step ∈ before ++ press :: early, step.surroundings.now ≤ begun
  configured : ∃ mapping ∈ mappings, mapping.id = event.mappingId
  delivered : press.wakeup = .command (.input event)
  pressed : event.action = .pressed
  listening : ((broker mappings started).run before).Listening
  untouched : ∀ step ∈ early ++ late, ¬ Touches event.mappingId step
  active : (broker mappings started).Throughout
    (fun runtime => runtime.session.map Session.key = some key)
    ((broker mappings started).run (before ++ press :: early)) late
  fresh : (broker mappings started).Along Fresh
    ((broker mappings started).run (before ++ press :: early)) (late ++ [tick])
  ticks : tick.wakeup = .tick
  long : begun + millis 4000 ≤ tick.surroundings.now

/-- A press edge of any mapping. -/
def Presses (step : Step) : Prop :=
  match step.wakeup with
  | .command (.input event) => event.action = .pressed
  | _ => False

/-- Releases alone press nothing. -/
theorem heard_allReleased {state : SwitchStateMachine} (hreleased : state.AllReleased)
    {step : Step} (hquiet : ¬ Presses step) : (heard state step.wakeup).AllReleased := by
  unfold Presses at hquiet
  unfold heard
  split
  · rename_i event hwakeup
    rw [hwakeup] at hquiet
    cases hknown : state.mappingToSwitch[event.mappingId]? with
    | none =>
        rw [state.apply_unknown hknown]
        exact hreleased
    | some own =>
        intro switchId
        rw [SwitchStateMachine.level_eq_released_iff, Finset.eq_empty_iff_forall_notMem]
        intro mappingId hmem
        rw [state.mem_active_apply hknown] at hmem
        split_ifs at hmem
        · exact hquiet hmem
        · have hempty := (state.level_eq_released_iff).mp (hreleased switchId)
          rw [hempty] at hmem
          exact absurd hmem (Finset.notMem_empty _)
  · exact hreleased

theorem allReleased_run {runtime : Runtime} (hsound : Sound runtime)
    (hreleased : runtime.state.AllReleased) {key : SessionKey} (steps : List Step)
    (hquiet : ∀ step ∈ steps, ¬ Presses step)
    (hactive : (broker mappings started).Throughout
      (fun runtime => runtime.session.map Session.key = some key) runtime steps) :
    ((broker mappings started).runFrom runtime steps).state.AllReleased := by
  induction steps generalizing runtime with
  | nil => exact hreleased
  | cons step rest ih =>
      have hnext := (broker mappings started).throughout_head hactive.2
      refine ih (hsound.step step) ?_
        (fun later hmem => hquiet later (List.mem_cons_of_mem _ hmem)) hactive.2
      change (runtime.step step).state.AllReleased
      change (runtime.step step).session.map Session.key = some key at hnext
      cases hsound.change step with
      | idle _ hstill =>
          rw [hstill] at hnext
          cases hnext
      | ended _ _ hstill _ _ _ =>
          rw [hstill] at hnext
          cases hnext
      | opened _ _ _ hidle hopened _ _ =>
          exact hsound.released_of_opened step hidle hopened
      | kept _ _ _ _ _ hheard _ _ =>
          rw [hheard]
          exact heard_allReleased hreleased (hquiet step List.mem_cons_self)

/-- A fresh session in which nothing is pressed outlasts a tick. -/
theorem Sound.tick_of_allReleased {runtime : Runtime} (hsound : Sound runtime)
    {limit : Instant} (hwatched : Watched limit runtime)
    (hreleased : runtime.state.AllReleased) {step : Step} (htick : step.wakeup = .tick)
    (hfresh : Fresh runtime step) {key : SessionKey}
    (hactive : runtime.session.map Session.key = some key) :
    (runtime.step step).session.map Session.key = some key := by
  cases hsound.change step with
  | idle hidle _ =>
      rw [hidle] at hactive
      cases hactive
  | opened _ _ _ hidle _ _ _ =>
      rw [hidle] at hactive
      cases hactive
  | kept session hbefore hkept _ _ _ _ _ =>
      rw [hkept, Option.map_some, beat_key, ← Option.map_some, ← hbefore]
      exact hactive
  | ended session hbefore _ reason hends _ =>
      rw [htick] at hends
      cases hends with
      | demanded _ _ hdemand =>
          cases hdemand with
          | timedOut hlate => exact absurd hlate (Nat.not_le.mpr (hfresh session hbefore))
          | escape _ switchId time htracked _ =>
              have hlevel := hwatched.tracked switchId time htracked
              rw [hreleased switchId] at hlevel
              cases hlevel

/-- Some instant is not before any step. -/
theorem exists_limit (steps : List Step) :
    ∃ limit : Instant, ∀ step ∈ steps, step.surroundings.now ≤ limit := by
  induction steps with
  | nil => exact ⟨0, by simp⟩
  | cons step rest ih =>
      obtain ⟨limit, hlimit⟩ := ih
      refine ⟨max limit step.surroundings.now, ?_⟩
      intro other hmem
      rcases List.mem_cons.mp hmem with rfl | hmem
      · exact Nat.le_max_right _ _
      · exact (hlimit other hmem).trans (Nat.le_max_left _ _)

/-- The hatch covers the holds that begin during the session, and no others: a
hold whose press is heard in the session ends it at the first late tick, and
without a press heard since the acceptance no fresh tick ends it, whatever is
held from before. -/
theorem escape_hatch_scope :
    (∀ before press early late tick event key begun,
      PhysicalHold mappings started before press early late tick event key begun →
      (broker mappings started).Throughout
        (fun runtime => runtime.session.map Session.key = some key)
        ((broker mappings started).run before) (press :: early) →
      let runtime := (broker mappings started).run (before ++ press :: (early ++ late))
      let after := (broker mappings started).run (before ++ press :: (early ++ late) ++ [tick])
      after.session = none ∧ ∃ session, session.key = key ∧
        after.history.revoked = runtime.history.revoked ++ [(session, .escapeHatch)]) ∧
    (∀ before opening meanwhile since key tick,
      Tenure mappings started before opening meanwhile since key →
      (∀ step ∈ meanwhile, ¬ Presses step) → tick.wakeup = .tick →
      Fresh ((broker mappings started).run (before ++ opening :: meanwhile)) tick →
      ((broker mappings started).run
        (before ++ opening :: meanwhile ++ [tick])).session.map Session.key = some key) := by
  constructor
  · intro before press early late tick event key begun hhold hduring runtime after
    obtain ⟨mapping, hmapping, hid⟩ := hhold.configured
    have hconfigured : ∃ switchId, SwitchStateMachine.configuredSwitch mappings
        event.mappingId = some switchId :=
      SwitchStateMachine.configuredSwitch_of_mem hmapping hid
    obtain ⟨switchId, hswitch⟩ := hconfigured
    have hpress : Gripped begun event.mappingId switchId
        ((broker mappings started).run (before ++ [press])) := by
      refine gripped_of_press mappings started ?_ hswitch hhold.delivered hhold.pressed
        hduring.1 ?_
      · intro step hmem
        apply hhold.clock step
        simp only [List.mem_append, List.mem_cons, List.not_mem_nil, or_false] at hmem ⊢
        rcases hmem with h | h
        · exact Or.inl h
        · exact Or.inr (Or.inl h)
      · rw [Machine.run_concat]
        exact (broker mappings started).throughout_head hduring.2
    have hsplit : before ++ press :: (early ++ late) = before ++ [press] ++ (early ++ late) := by
      simp
    have hmiddle : (broker mappings started).run (before ++ press :: early) =
        (broker mappings started).runFrom
          ((broker mappings started).run (before ++ [press])) early := by
      rw [← Machine.run_append]
      simp
    have hthrough : (broker mappings started).Throughout
        (fun runtime => runtime.session.map Session.key = some key)
        ((broker mappings started).run (before ++ [press])) (early ++ late) := by
      refine (broker mappings started).throughout_append.mpr ⟨?_, ?_⟩
      · rw [Machine.run_concat]
        exact hduring.2
      · rw [← hmiddle]
        exact hhold.active
    have hgripped : Gripped begun event.mappingId switchId runtime := by
      change Gripped _ _ _ ((broker mappings started).run _)
      rw [hsplit, Machine.run_append]
      exact hpress.run mappings started (sound_run mappings started _) _ hhold.untouched
        hthrough
    have hactive : runtime.session.map Session.key = some key := by
      change ((broker mappings started).run _).session.map Session.key = _
      rw [hsplit, Machine.run_append]
      exact (broker mappings started).throughout_last hthrough
    have hfresh : Fresh runtime tick := by
      have hlast := (broker mappings started).along_last hhold.fresh
      rw [← Machine.run_append, List.append_assoc, List.cons_append] at hlast
      exact hlast
    have hafter : after = runtime.step tick := (broker mappings started).run_concat _ tick
    rw [hafter]
    exact hgripped.tick (sound_run mappings started _) hhold.ticks hhold.long hfresh hactive
  · intro before opening meanwhile since key tick htenure hquiet htick hfresh
    have hopened : ((broker mappings started).run (before ++ [opening])).state.AllReleased := by
      have hsession := htenure.opened
      rw [Machine.run_concat] at hsession ⊢
      exact (sound_run mappings started before).released_of_opened opening htenure.idle
        hsession
    have hsplit : before ++ opening :: meanwhile = before ++ [opening] ++ meanwhile := by
      simp
    have hactive : ((broker mappings started).run
        (before ++ opening :: meanwhile)).session.map Session.key = some key := by
      rw [hsplit, Machine.run_append]
      exact (broker mappings started).throughout_last htenure.lasting
    have hreleased : ((broker mappings started).run
        (before ++ opening :: meanwhile)).state.AllReleased := by
      rw [hsplit, Machine.run_append]
      exact allReleased_run mappings started (sound_run mappings started _) hopened
        meanwhile hquiet htenure.lasting
    obtain ⟨limit, hlimit⟩ := exists_limit (before ++ opening :: meanwhile)
    have hwatched := watched_run mappings started _ hlimit (by
      intro hnone
      rw [hnone] at hactive
      cases hactive)
    rw [Machine.run_concat]
    exact (sound_run mappings started _).tick_of_allReleased hwatched hreleased htick hfresh
      hactive

/-- The switch is pressed before the handshake and never let go. The holder
sends its heartbeats, and the tick comes after four seconds of session. -/
def earlyPress : Step :=
  passAt 1 (.command (.input spacePress))

def earlyHandshake : List Step :=
  [passAt 2 (.command (.handshake 1 exclusiveHandshake))]

def fourHeartbeats : List Step :=
  [passAt (millis 1000) (.command (.heartbeat 1 "session")),
    passAt (millis 2000) (.command (.heartbeat 1 "session")),
    passAt (millis 3000) (.command (.heartbeat 1 "session")),
    passAt (millis 4000) (.command (.heartbeat 1 "session"))]

theorem early_hold_forgotten :
    PhysicalHold [spaceMapping] 0 [passAt 0 (.command (.register (stuckChannel 7)))]
      earlyPress earlyHandshake fourHeartbeats (passAt (millis 4100) .tick)
      spacePress ⟨1, "session", none⟩ 2 ∧
    ((broker [spaceMapping] 0).run
      ([passAt 0 (.command (.register (stuckChannel 7)))] ++ earlyPress ::
        (earlyHandshake ++ fourHeartbeats) ++ [passAt (millis 4100) .tick])).session =
      some ⟨1, "session", none, millis 4000⟩ := by
  constructor
  · constructor
    · decide
    · exact ⟨spaceMapping, List.mem_singleton_self _, rfl⟩
    · rfl
    · rfl
    · exact ⟨by decide, by decide⟩
    · decide
    · decide +kernel
    · decide +kernel
    · rfl
    · decide
  · decide +kernel

end Usahp.Broker
