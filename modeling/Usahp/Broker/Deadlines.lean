import Usahp.Broker.Lease

/-!
The two timers of a session over a whole run. They are looked at by the ticks
only, so a session is overdue by no more than the time since the latest tick:
on a clock that does not run backwards nothing that is still active was due
then.
-/

namespace Usahp.Broker

open Std Usahp.Library

/-- The time of the latest tick after one more step. -/
def tickAt (latest : Instant) (step : Step) : Instant :=
  match step.wakeup with
  | .tick => step.surroundings.now
  | .command _ => latest

/-- The time of the latest tick, or of the start. -/
def lastTick (started : Instant) (steps : List Step) : Instant :=
  steps.foldl tickAt started

/-- The clock does not run backwards. -/
def Ordered (started : Instant) (steps : List Step) : Prop :=
  (started :: steps.map (·.surroundings.now)).Pairwise (· ≤ ·)

instance (started : Instant) (steps : List Step) : Decidable (Ordered started steps) :=
  inferInstanceAs (Decidable (List.Pairwise _ _))

theorem lastTick_concat (started : Instant) (steps : List Step) (step : Step) :
    lastTick started (steps ++ [step]) = tickAt (lastTick started steps) step :=
  List.foldl_concat _ _ _ _

theorem tickAt_cases (latest : Instant) (step : Step) :
    step.wakeup = .tick ∧ tickAt latest step = step.surroundings.now ∨
      step.wakeup ≠ .tick ∧ tickAt latest step = latest := by
  unfold tickAt
  cases hwakeup : step.wakeup with
  | tick => exact .inl ⟨rfl, rfl⟩
  | command command => exact .inr ⟨Wakeup.noConfusion, rfl⟩

theorem lastTick_mem (started : Instant) (steps : List Step) :
    lastTick started steps ∈ started :: steps.map (·.surroundings.now) := by
  induction steps using List.reverseRecOn with
  | nil => exact List.mem_singleton_self _
  | append_singleton steps step ih =>
      rw [lastTick_concat, List.map_append, ← List.cons_append]
      rcases tickAt_cases (lastTick started steps) step with ⟨_, hnow⟩ | ⟨_, hsame⟩
      · rw [hnow]
        exact List.mem_append_right _ (List.mem_singleton_self _)
      · rw [hsame]
        exact List.mem_append_left _ ih

theorem Ordered.of_concat {started : Instant} {steps : List Step} {step : Step}
    (h : Ordered started (steps ++ [step])) :
    Ordered started steps ∧ lastTick started steps ≤ step.surroundings.now := by
  rw [Ordered, List.map_append, ← List.cons_append] at h
  obtain ⟨hearlier, -, hlast⟩ := List.pairwise_append.mp h
  exact ⟨hearlier, hlast _ (lastTick_mem started steps) _ (List.mem_singleton_self _)⟩

/-- What a step leaves in the tracker is older or was pressed in it. -/
theorem tracked_of_foldl {now pressedAt : Instant} {events : List SwitchEvent}
    {tracker : ExtTreeMap String Instant} {switchId : String}
    (h : (events.foldl (trackEvent now) tracker)[switchId]? = some pressedAt) :
    pressedAt = now ∨ tracker[switchId]? = some pressedAt := by
  induction events generalizing tracker with
  | nil => exact .inr h
  | cons event rest ih =>
      rcases ih h with hnow | htracked
      · exact .inl hnow
      · rw [trackEvent_getElem?] at htracked
        split_ifs at htracked
        · cases haction : event.action with
          | pressed =>
              simp only [haction, Option.some.injEq] at htracked
              exact .inl htracked.symm
          | released =>
              simp only [haction] at htracked
              cases htracked
        · exact .inr htracked

/-- At the time `latest` neither timer of the session was due. -/
structure InTime (runtime : Runtime) (latest : Instant) : Prop where
  beat : ∀ session, runtime.session = some session →
    latest < session.lastHeartbeat + millis leaseMs
  press : ∀ (switchId : String) (pressedAt : Instant), runtime.session ≠ none →
    runtime.escapeTracker[switchId]? = some pressedAt →
    latest < pressedAt + millis escapeHoldMs

theorem InTime.of_none {runtime : Runtime} (h : runtime.session = none) (latest : Instant) :
    InTime runtime latest :=
  ⟨fun _ hactive => absurd (h.symm.trans hactive).symm (Option.some_ne_none _),
    fun _ _ hactive => absurd h hactive⟩

theorem lt_of_not_elapsed {now earlier limit : Nat} (h : ¬ limit ≤ elapsed now earlier) :
    now < earlier + limit := by
  unfold elapsed at h
  omega

/-- A tick at which a session goes on finds neither of its timers due. -/
theorem InTime.of_tick {runtime : Runtime} {session : Session} {now : Instant}
    (hactive : runtime.session = some session)
    (hunforced : ∀ reason, ¬ Ends runtime session now .tick reason) : InTime runtime now := by
  have hfresh : ¬ millis leaseMs ≤ elapsed now session.lastHeartbeat := fun hlate =>
    hunforced _ (.demanded _ _ (.timedOut hlate))
  refine ⟨fun other hother => ?_, fun switchId pressedAt _ htracked => ?_⟩
  · cases hactive.symm.trans hother
    exact lt_of_not_elapsed hfresh
  · have hshort : ¬ millis escapeHoldMs ≤ elapsed now pressedAt := fun hheld =>
      hunforced _ (.demanded _ _ (.escape hfresh switchId pressedAt htracked hheld))
    exact lt_of_not_elapsed hshort

theorem InTime.next {runtime : Runtime} {latest : Instant} (h : InTime runtime latest)
    (hsound : Sound runtime) (step : Step) (hclock : latest ≤ step.surroundings.now) :
    InTime (runtime.step step) (tickAt latest step) := by
  have hrecent {limit : Nat} (hlimit : 0 < limit) {time : Instant}
      (htime : time ≤ step.surroundings.now) : time < step.surroundings.now + limit :=
    Nat.lt_of_le_of_lt htime (Nat.lt_add_of_pos_right hlimit)
  cases hsound.change step with
  | idle _ hstill => exact .of_none hstill _
  | ended _ _ hstill _ _ _ _ _ => exact .of_none hstill _
  | opened clientId handshake hasked _ hopened _ hcleared _ =>
      have hsame : tickAt latest step = latest := by
        unfold tickAt
        rw [hasked]
      rw [hsame]
      refine ⟨fun session hactive => ?_, fun switchId pressedAt _ htracked => ?_⟩
      · cases hopened.symm.trans hactive
        exact hrecent (by decide) hclock
      · rw [hcleared, ExtTreeMap.getElem?_empty] at htracked
        cases htracked
  | kept session hbefore hkept hunforced _ _ htracked _ =>
      -- a tick has looked at both timers; a command only sets them to its time
      have hpresent : InTime runtime (tickAt latest step) := by
        rcases tickAt_cases latest step with ⟨htick, hnow⟩ | ⟨_, hsame⟩
        · rw [htick] at hunforced
          rw [hnow]
          exact .of_tick hbefore hunforced
        · rw [hsame]
          exact h
      have hbound : tickAt latest step ≤ step.surroundings.now := by
        rcases tickAt_cases latest step with ⟨_, hnow⟩ | ⟨_, hsame⟩
        · exact hnow.le
        · exact hsame.le.trans hclock
      obtain ⟨events, _, htracker, _, _⟩ := htracked
      refine ⟨fun later hlater => ?_, fun switchId pressedAt _ hpressed => ?_⟩
      · rw [hkept, beat_eq] at hlater
        cases hlater
        rcases beatAt_cases session.key session.lastHeartbeat step with hnow | ⟨hold, _⟩
        · change _ < beatAt session.key session.lastHeartbeat step + _
          rw [hnow]
          exact hrecent (by decide) hbound
        · change _ < beatAt session.key session.lastHeartbeat step + _
          rw [hold]
          exact hpresent.beat session hbefore
      · rw [htracker] at hpressed
        rcases tracked_of_foldl hpressed with hnow | hold
        · rw [hnow]
          exact hrecent (by decide) hbound
        · apply hpresent.press switchId pressedAt _ hold
          simp [hbefore]

variable (mappings : List Mapping) (started : Instant)

theorem inTime_run (steps : List Step) (hclock : Ordered started steps) :
    InTime ((broker mappings started).run steps) (lastTick started steps) := by
  revert hclock
  refine (broker mappings started).history_invariant
    (fun steps runtime => Ordered started steps → InTime runtime (lastTick started steps))
    (fun _ => .of_none rfl _) ?_ steps
  intro steps step ih hclock
  obtain ⟨hearlier, hnow⟩ := hclock.of_concat
  rw [lastTick_concat]
  exact (ih hearlier).next (sound_run mappings started steps) step hnow

/-- No session outlives its timers by more than the ticks are apart: its holder
has sent a heartbeat within 1500 ms and one such period, and the latest event of
each switch is a release, or a press that is not older than 4000 ms and one
period. -/
theorem within_deadlines (steps : List Step) (key : SessionKey) (now : Instant) (period : Nat)
    (hclock : Ordered started steps) (hticked : now ≤ lastTick started steps + period)
    (hactive : ((broker mappings started).run steps).session.map Session.key = some key) :
    ∃ before opening meanwhile since, steps = before ++ opening :: meanwhile ∧
      Tenure mappings started before opening meanwhile since key ∧
      now < lastBeat key opening.surroundings.now meanwhile + millis 1500 + period ∧
      ∀ switchId press, latestOf switchId since = some press → press.event.action = .pressed →
        now < press.at_ + millis 4000 + period := by
  obtain ⟨before, opening, meanwhile, since, hsteps, hkept⟩ :=
    kept_run mappings started steps key hactive
  have hintime := inTime_run mappings started steps hclock
  refine ⟨before, opening, meanwhile, since, hsteps, hkept.tenure, ?_, ?_⟩
  · have hbeat : lastTick started steps <
        lastBeat key opening.surroundings.now meanwhile + millis 1500 :=
      hintime.beat _ hkept.session
    exact Nat.lt_of_le_of_lt hticked (Nat.add_lt_add_right hbeat period)
  · intro switchId press hlatest hpressed
    have htracked : ((broker mappings started).run steps).escapeTracker[switchId]? =
        some press.at_ := by
      rw [hkept.tracker, trackerOf_getElem?, hlatest]
      simp only [hpressed]
    have hpress : lastTick started steps < press.at_ + millis 4000 := by
      apply hintime.press switchId press.at_ _ htracked
      rw [hkept.session]
      exact Option.some_ne_none _
    exact Nat.lt_of_le_of_lt hticked (Nat.add_lt_add_right hpress period)

/-- A session with a heartbeat, a press and two ticks. -/
def tickedSession : List Step :=
  [passAt 0 (.command (.register (stuckChannel 7))),
    passAt 1 (.command (.handshake 1 exclusiveHandshake)),
    passAt (millis 100) .tick,
    passAt (millis 150) (.command (.input ⟨"space", .pressed, none⟩)),
    passAt (millis 160) (.command (.heartbeat 1 "session")),
    passAt (millis 200) .tick]

theorem tickedSession_within :
    ∃ before opening meanwhile since, tickedSession = before ++ opening :: meanwhile ∧
      Tenure [spaceMapping] 0 before opening meanwhile since ⟨1, "session", none⟩ ∧
      millis 300 < lastBeat ⟨1, "session", none⟩ opening.surroundings.now meanwhile +
        millis 1500 + millis 100 ∧
      ∀ switchId press, latestOf switchId since = some press → press.event.action = .pressed →
        millis 300 < press.at_ + millis 4000 + millis 100 :=
  within_deadlines [spaceMapping] 0 tickedSession ⟨1, "session", none⟩ (millis 300) (millis 100)
    (by decide) (by decide) (by decide)

end Usahp.Broker
