import Usahp.Broker.Holder

/-!
When a session ends, told from its history. The broker keeps one time for the
heartbeats and one for each tracked switch; here both are read off the steps
and the events since the acceptance. `Due` lists the wakeups that end a
session in these terms, and a session ends exactly when one is due.
-/

namespace Usahp.Broker

open Std Usahp.Library

/-- The time of the latest heartbeat after one more step. Only a heartbeat with
both ids of the session counts. -/
def beatAt (key : SessionKey) (latest : Instant) (step : Step) : Instant :=
  match step.wakeup with
  | .command (.heartbeat clientId sessionId) =>
      if key.clientId = clientId ∧ key.sessionId = sessionId then step.surroundings.now
      else latest
  | _ => latest

/-- The time of the latest heartbeat among the steps, or of the acceptance. -/
def lastBeat (key : SessionKey) (accepted : Instant) (steps : List Step) : Instant :=
  steps.foldl (beatAt key) accepted

/-- The latest event of a switch. -/
def latestOf (switchId : String) (since : List Created) : Option Created :=
  since.foldl (fun latest created =>
    if created.event.switchId = switchId then some created else latest) none

/-- The wakeups that end a session, given the time of its latest heartbeat and
the events created since its acceptance. -/
inductive Due (runtime : Runtime) (key : SessionKey) (beat : Instant)
    (since : List Created) (now : Instant) : Wakeup → SessionRevocationReason → Prop
  | disconnected :
      Due runtime key beat since now (.command (.unregister key.clientId))
        .explicitRevocation
  | requested (reason : SessionRevocationReason) :
      Due runtime key beat since now (.command (.revokeSession reason)) reason
  | focusLost (pid : UInt32) (frontmostPid : Option UInt32)
      (bound : key.pid = some pid) (other : frontmostPid ≠ some pid) :
      Due runtime key beat since now (.command (.focusChanged frontmostPid)) .focusLost
  | overflowed (event : PhysicalEvent) (transition : LogicalTransition)
      (applied : (runtime.state.apply event.mappingId event.action
        (event.confidence.bind validateConfidence)).1 = .ok (some transition))
      (refuses : ¬ runtime.Accepts key.clientId) :
      Due runtime key beat since now (.command (.input event)) .queueOverflow
  | timedOut (late : millis 1500 ≤ elapsed now beat) :
      Due runtime key beat since now .tick .heartbeatTimeout
  | escape (fresh : ¬ millis 1500 ≤ elapsed now beat)
      (switchId : String) (press : Created)
      (latest : latestOf switchId since = some press)
      (pressed : press.event.action = .pressed)
      (held : millis 4000 ≤ elapsed now press.at_) :
      Due runtime key beat since now .tick .escapeHatch

/-- The escape tracker that a list of events leads to. -/
def trackerOf (since : List Created) : ExtTreeMap String Instant :=
  since.foldl (fun tracker created => trackEvent created.at_ tracker created.event) ∅

theorem lastBeat_concat (key : SessionKey) (accepted : Instant) (steps : List Step)
    (step : Step) :
    lastBeat key accepted (steps ++ [step]) =
      beatAt key (lastBeat key accepted steps) step :=
  List.foldl_concat _ _ _ _

theorem beatAt_cases (key : SessionKey) (latest : Instant) (step : Step) :
    beatAt key latest step = step.surroundings.now ∨
      beatAt key latest step = latest ∧
        step.wakeup ≠ .command (.heartbeat key.clientId key.sessionId) := by
  unfold beatAt
  split
  · rename_i clientId sessionId hwakeup
    split_ifs with hown
    · exact Or.inl rfl
    · refine Or.inr ⟨rfl, ?_⟩
      rw [hwakeup]
      intro heq
      cases heq
      exact hown ⟨rfl, rfl⟩
  · rename_i hother
    exact Or.inr ⟨rfl, fun heq => hother _ _ heq⟩

/-- With a clock that does not run backwards the latest heartbeat is the one
with the greatest time. -/
theorem lastBeat_greatest (key : SessionKey) (accepted : Instant) (steps : List Step)
    (hclock : (accepted :: steps.map (·.surroundings.now)).Pairwise (· ≤ ·)) :
    accepted ≤ lastBeat key accepted steps ∧
      ∀ step ∈ steps, step.wakeup = .command (.heartbeat key.clientId key.sessionId) →
        step.surroundings.now ≤ lastBeat key accepted steps := by
  induction steps using List.reverseRecOn with
  | nil => exact ⟨le_rfl, by simp⟩
  | append_singleton steps last ih =>
      rw [List.map_append, ← List.cons_append] at hclock
      obtain ⟨hearlier, _, hlast⟩ := List.pairwise_append.mp hclock
      have hbound : ∀ time ∈ accepted :: steps.map (·.surroundings.now),
          time ≤ last.surroundings.now := by
        intro time htime
        exact hlast time htime _ (List.mem_singleton_self _)
      obtain ⟨haccepted, hbeats⟩ := ih hearlier
      rw [lastBeat_concat]
      rcases beatAt_cases key (lastBeat key accepted steps) last with hnow | ⟨hold, hother⟩
      · rw [hnow]
        refine ⟨hbound accepted List.mem_cons_self, ?_⟩
        intro step hstep _
        rcases List.mem_append.mp hstep with hmem | hmem
        · exact hbound _ (List.mem_cons_of_mem _ (List.mem_map_of_mem hmem))
        · rw [List.mem_singleton.mp hmem]
      · rw [hold]
        refine ⟨haccepted, ?_⟩
        intro step hstep hbeat
        rcases List.mem_append.mp hstep with hmem | hmem
        · exact hbeats step hmem hbeat
        · rw [List.mem_singleton.mp hmem] at hbeat
          exact absurd hbeat hother

theorem latestOf_concat (switchId : String) (since : List Created) (created : Created) :
    latestOf switchId (since ++ [created]) =
      if created.event.switchId = switchId then some created
      else latestOf switchId since :=
  List.foldl_concat _ _ _ _

theorem trackerOf_concat (since : List Created) (created : Created) :
    trackerOf (since ++ [created]) =
      trackEvent created.at_ (trackerOf since) created.event :=
  List.foldl_concat _ _ _ _

theorem trackEvent_getElem? (now : Instant) (tracker : ExtTreeMap String Instant)
    (event : SwitchEvent) (switchId : String) :
    (trackEvent now tracker event)[switchId]? =
      if event.switchId = switchId then
        (match event.action with
          | .pressed => some now
          | .released => none)
      else tracker[switchId]? := by
  unfold trackEvent
  cases event.action with
  | pressed =>
      rw [ExtTreeMap.getElem?_insert]
      simp only [Std.compare_eq_iff_eq]
  | released =>
      rw [ExtTreeMap.getElem?_erase]
      simp only [Std.compare_eq_iff_eq]

/-- A switch is tracked exactly when its latest event is a press, with the time
of that press. -/
theorem trackerOf_getElem? (since : List Created) (switchId : String) :
    (trackerOf since)[switchId]? =
      match latestOf switchId since with
      | some created =>
          (match created.event.action with
            | .pressed => some created.at_
            | .released => none)
      | none => none := by
  induction since using List.reverseRecOn with
  | nil => exact ExtTreeMap.getElem?_empty
  | append_singleton since created ih =>
      rw [trackerOf_concat, trackEvent_getElem?, latestOf_concat]
      by_cases hswitch : created.event.switchId = switchId
      · rw [if_pos hswitch, if_pos hswitch]
      · rw [if_neg hswitch, if_neg hswitch]
        exact ih

theorem beat_eq (session : Session) (step : Step) :
    session.beat step.surroundings.now step.wakeup =
      { session with lastHeartbeat := beatAt session.key session.lastHeartbeat step } := by
  obtain ⟨surroundings, wakeup⟩ := step
  cases wakeup with
  | tick => rfl
  | command command =>
      cases command with
      | heartbeat clientId sessionId =>
          dsimp only [Session.beat, beatAt, Session.key]
          split_ifs
          · rfl
          · rfl
      | input _ => rfl
      | register _ => rfl
      | unregister _ => rfl
      | handshake _ _ => rfl
      | revokeSession _ => rfl
      | focusChanged _ => rfl

theorem trackerOf_append (since : List Created) (now : Instant)
    (events : List SwitchEvent) :
    trackerOf (since ++ events.map fun event => ⟨now, event⟩) =
      events.foldl (trackEvent now) (trackerOf since) := by
  rw [trackerOf, List.foldl_append, List.foldl_map]
  rfl

variable (mappings : List Mapping) (started : Instant)

/-- A session that was accepted in the step `acceptance` after `before` and has
lasted through the steps of `meanwhile`, in which the events of `since` were
created. -/
structure Tenure (before : List Step) (opening : Step) (meanwhile : List Step)
    (since : List Created) (key : SessionKey) : Prop where
  idle : ((broker mappings started).run before).session = none
  opened : ((broker mappings started).run (before ++ [opening])).session =
    some ⟨key.clientId, key.sessionId, key.pid, opening.surroundings.now⟩
  lasting : (broker mappings started).Throughout
    (fun runtime => runtime.session.map Session.key = some key)
    ((broker mappings started).run (before ++ [opening])) meanwhile
  created : ((broker mappings started).run (before ++ opening :: meanwhile)).history.created =
    ((broker mappings started).run (before ++ [opening])).history.created ++ since

/-- What the broker keeps is what the history says. -/
structure Kept (before : List Step) (opening : Step) (meanwhile : List Step)
    (since : List Created) (key : SessionKey) (runtime : Runtime) : Prop where
  tenure : Tenure mappings started before opening meanwhile since key
  session : runtime.session = some ⟨key.clientId, key.sessionId, key.pid,
    lastBeat key opening.surroundings.now meanwhile⟩
  tracker : runtime.escapeTracker = trackerOf since

/-- One more step of a session that goes on. -/
theorem Kept.step {before : List Step} {opening : Step} {meanwhile : List Step}
    {since : List Created} {key : SessionKey}
    (h : Kept mappings started before opening meanwhile since key
      ((broker mappings started).run (before ++ opening :: meanwhile)))
    (step : Step) {session : Session}
    (hbefore : ((broker mappings started).run (before ++ opening :: meanwhile)).session =
      some session)
    (hkept : ((broker mappings started).run
      (before ++ opening :: (meanwhile ++ [step]))).session =
        some (session.beat step.surroundings.now step.wakeup))
    {events : List SwitchEvent}
    (hcreates : Creates
      ((broker mappings started).run (before ++ opening :: meanwhile)).core
      step.surroundings.now events
      ((broker mappings started).run (before ++ opening :: (meanwhile ++ [step]))).core)
    (htracker : ((broker mappings started).run
      (before ++ opening :: (meanwhile ++ [step]))).escapeTracker =
        events.foldl (trackEvent step.surroundings.now)
          ((broker mappings started).run (before ++ opening :: meanwhile)).escapeTracker) :
    Kept mappings started before opening (meanwhile ++ [step])
      (since ++ events.map fun event => ⟨step.surroundings.now, event⟩) key
      ((broker mappings started).run (before ++ opening :: (meanwhile ++ [step]))) := by
  have hown : session =
      ⟨key.clientId, key.sessionId, key.pid,
        lastBeat key opening.surroundings.now meanwhile⟩ := by
    rw [h.session] at hbefore
    exact (Option.some.inj hbefore).symm
  have hafter : ((broker mappings started).run
      (before ++ opening :: (meanwhile ++ [step]))).session =
        some ⟨key.clientId, key.sessionId, key.pid,
          lastBeat key opening.surroundings.now (meanwhile ++ [step])⟩ := by
    rw [hkept, beat_eq, hown, lastBeat_concat]
    rfl
  refine ⟨⟨h.tenure.idle, h.tenure.opened, ?_, ?_⟩, hafter, ?_⟩
  · refine (broker mappings started).throughout_concat.mpr ⟨h.tenure.lasting, ?_⟩
    rw [← Machine.run_append, ← Machine.run_concat, List.append_assoc, List.append_assoc,
      List.singleton_append, hafter]
    rfl
  · have hcreated : ((broker mappings started).run
        (before ++ opening :: (meanwhile ++ [step]))).history.created = _ := hcreates.created
    rw [hcreated, ← List.append_assoc, ← h.tenure.created]
    rfl
  · rw [htracker, h.tracker, trackerOf_append]

/-- The history of an active session, up to any reachable state. -/
theorem kept_run (steps : List Step) (key : SessionKey)
    (hactive : ((broker mappings started).run steps).session.map Session.key = some key) :
    ∃ before opening meanwhile since, steps = before ++ opening :: meanwhile ∧
      Kept mappings started before opening meanwhile since key
        ((broker mappings started).run steps) := by
  revert hactive
  refine (broker mappings started).history_invariant
    (fun steps runtime => runtime.session.map Session.key = some key →
      ∃ before opening meanwhile since, steps = before ++ opening :: meanwhile ∧
        Kept mappings started before opening meanwhile since key runtime) ?_ ?_ steps
  · intro hactive
    cases hactive
  · intro steps step ih hactive
    have hsound := sound_run mappings started steps
    have hrun : (broker mappings started).run (steps ++ [step]) =
        ((broker mappings started).run steps).step step :=
      (broker mappings started).run_concat steps step
    change (((broker mappings started).run steps).step step).session.map _ = _ at hactive
    cases hsound.change step with
    | idle _ hstill =>
        rw [hstill] at hactive
        cases hactive
    | ended _ _ hstill _ _ _ =>
        rw [hstill] at hactive
        cases hactive
    | opened clientId handshake _ hbefore hopened _ hcleared =>
        rw [hopened] at hactive
        cases hactive
        refine ⟨steps, step, [], [], rfl, ⟨hbefore, ?_, ?_, ?_⟩, ?_, hcleared⟩
        · rw [hrun]
          exact hopened
        · change Option.map _ _ = _
          rw [hrun, hopened]
          rfl
        · rw [List.append_nil]
        · exact hopened
    | kept session hbefore hkept _ _ _ htracked _ =>
        rw [hkept, Option.map_some, beat_key, ← Option.map_some, ← hbefore] at hactive
        obtain ⟨before, opening, meanwhile, since, rfl, hold⟩ := ih hactive
        obtain ⟨events, hcreates, htracker, _⟩ := htracked
        have hlonger : before ++ opening :: meanwhile ++ [step] =
            before ++ opening :: (meanwhile ++ [step]) := by
          rw [List.append_assoc, List.cons_append]
        rw [← hrun, hlonger] at hkept hcreates htracker
        have hnew := hold.step mappings started step hbefore hkept hcreates htracker
        rw [← hlonger, hrun] at hnew
        exact ⟨before, opening, meanwhile ++ [step], _, hlonger, hnew⟩

theorem outer_of_applied {runtime : Runtime} {event : PhysicalEvent}
    {transition : LogicalTransition}
    (h : (runtime.state.apply event.mappingId event.action
      (event.confidence.bind validateConfidence)).1 = .ok (some transition)) :
    ∃ state, Outer runtime event transition state := by
  have happlied := runtime.state.apply_applied event.mappingId event.action
    (event.confidence.bind validateConfidence)
  cases hresult : runtime.state.apply event.mappingId event.action
    (event.confidence.bind validateConfidence) with
  | mk result state =>
      rw [hresult] at happlied h
      cases happlied with
      | outer switchId _ known changed level =>
          cases h
          exact ⟨state, hresult, known, rfl, changed, level⟩
      | inner _ _ => cases h
      | failed _ => cases h

/-- In terms of what the broker keeps, the due wakeups are the ones it acts
on. -/
theorem due_iff_ends {runtime : Runtime} {key : SessionKey} {beat : Instant}
    {since : List Created} (htracker : runtime.escapeTracker = trackerOf since)
    (now : Instant) (wakeup : Wakeup) (reason : SessionRevocationReason) :
    Due runtime key beat since now wakeup reason ↔
      Ends runtime ⟨key.clientId, key.sessionId, key.pid, beat⟩ now wakeup reason := by
  constructor
  · intro hdue
    cases hdue with
    | disconnected => exact .disconnected
    | requested => exact .demanded _ _ (.requested reason)
    | focusLost pid frontmostPid hbound hother =>
        exact .demanded _ _ (.focusLost pid frontmostPid hbound hother)
    | overflowed event transition happlied hrefuses =>
        obtain ⟨state, houter⟩ := outer_of_applied happlied
        exact .overflowed event transition state houter hrefuses
    | timedOut hlate => exact .demanded _ _ (.timedOut hlate)
    | escape hfresh switchId press hlatest hpressed hheld =>
        refine .demanded _ _ (.escape hfresh switchId press.at_ ?_ hheld)
        rw [htracker, trackerOf_getElem?, hlatest]
        simp only [hpressed]
  · intro hends
    cases hends with
    | disconnected => exact .disconnected
    | overflowed event transition state houter hrefuses =>
        exact .overflowed event transition (by rw [houter.applied]) hrefuses
    | demanded _ _ hdemand =>
        cases hdemand with
        | requested => exact .requested reason
        | focusLost pid frontmostPid hbound hother =>
            exact .focusLost pid frontmostPid hbound hother
        | timedOut hlate => exact .timedOut hlate
        | escape hfresh switchId pressedAt htracked hheld =>
            rw [htracker, trackerOf_getElem?] at htracked
            cases hlatest : latestOf switchId since with
            | none =>
                rw [hlatest] at htracked
                cases htracked
            | some press =>
                rw [hlatest] at htracked
                cases hpressed : press.event.action with
                | released =>
                    simp only [hpressed] at htracked
                    cases htracked
                | pressed =>
                    simp only [hpressed, Option.some.injEq] at htracked
                    subst htracked
                    exact .escape hfresh switchId press hlatest hpressed hheld

/-- A session ends exactly when it must, with the reason that is due, and
nothing else ends or prolongs it. -/
theorem session_ends_when_due (steps : List Step) (key : SessionKey)
    (hactive : ((broker mappings started).run steps).session.map Session.key = some key) :
    ∃ before opening meanwhile since, steps = before ++ opening :: meanwhile ∧
      Tenure mappings started before opening meanwhile since key ∧
      let runtime := (broker mappings started).run steps
      let beat := lastBeat key opening.surroundings.now meanwhile
      ((steps.map (·.surroundings.now)).Pairwise (· ≤ ·) →
        opening.surroundings.now ≤ beat ∧ ∀ step ∈ meanwhile,
          step.wakeup = .command (.heartbeat key.clientId key.sessionId) →
            step.surroundings.now ≤ beat) ∧
      ∀ next : Step,
        let after := (broker mappings started).run (steps ++ [next])
        (∀ reason, Due runtime key beat since next.surroundings.now next.wakeup reason →
          after.session = none ∧ ∃ session, session.key = key ∧
            after.history.revoked = runtime.history.revoked ++ [(session, reason)]) ∧
        ((∀ reason, ¬ Due runtime key beat since next.surroundings.now next.wakeup reason) →
          after.session.map Session.key = some key ∧
            after.history.revoked = runtime.history.revoked) := by
  obtain ⟨before, opening, meanwhile, since, rfl, hkept⟩ :=
    kept_run mappings started steps key hactive
  refine ⟨before, opening, meanwhile, since, rfl, hkept.tenure, ?_⟩
  intro runtime beat
  constructor
  · intro hclock
    apply lastBeat_greatest key opening.surroundings.now meanwhile
    rw [List.map_append] at hclock
    exact (List.pairwise_append.mp hclock).2.1
  · intro next after
    have hafter : after = runtime.step next :=
      (broker mappings started).run_concat _ next
    have hdue := @due_iff_ends runtime key beat since hkept.tracker
      next.surroundings.now next.wakeup
    have hsession : runtime.session =
        some ⟨key.clientId, key.sessionId, key.pid, beat⟩ := hkept.session
    rw [hafter]
    cases (sound_run mappings started (before ++ opening :: meanwhile)).change next with
    | idle hidle _ =>
        rw [hidle] at hactive
        cases hactive
    | opened _ _ _ hidle _ _ _ =>
        rw [hidle] at hactive
        cases hactive
    | kept session hbefore hlater hunforced _ _ _ hlog =>
        cases hsession.symm.trans hbefore
        constructor
        · intro reason hreason
          exact absurd ((hdue reason).mp hreason) (hunforced reason)
        · intro _
          refine ⟨?_, hlog⟩
          change (runtime.step next).session = _ at hlater
          rw [hlater, Option.map_some, beat_key]
          rfl
    | ended session hbefore hstill reason hends hlog =>
        cases hsession.symm.trans hbefore
        constructor
        · intro other hother
          refine ⟨hstill, ⟨key.clientId, key.sessionId, key.pid, beat⟩, rfl, ?_⟩
          cases ((hdue other).mp hother).unique hends
          exact hlog
        · intro hnever
          exact absurd ((hdue reason).mpr hends) (hnever reason)

/-- A session with one heartbeat. -/
def shortSession : List Step :=
  [passAt 0 (.command (.register (stuckChannel 1))),
    passAt 1 (.command (.handshake 1 exclusiveHandshake)),
    passAt 2 (.command (.heartbeat 1 "session"))]

theorem shortSession_tenure :
    ∃ before opening meanwhile since, shortSession = before ++ opening :: meanwhile ∧
      Tenure [] 0 before opening meanwhile since ⟨1, "session", none⟩ := by
  obtain ⟨before, opening, meanwhile, since, hsteps, htenure, _⟩ :=
    session_ends_when_due [] 0 shortSession ⟨1, "session", none⟩ (by decide)
  exact ⟨before, opening, meanwhile, since, hsteps, htenure⟩

end Usahp.Broker
