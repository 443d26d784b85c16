import Usahp.Broker.Deadlines
import Usahp.Broker.Escape
import Usahp.Broker.Newcomer

/-!
A careful holder keeps its session. Whatever the other clients send and however
slow they are, a session goes on as long as its holder is heard of in time and
takes its messages, nobody asks for its end, and no switch stays down for as
long as the escape hatch allows.
-/

namespace Usahp.Broker

open Std Usahp.Library

/-- The messages that a step may have for the holder of the session. -/
def messagesFor (holder : ClientId) (step : Step) : Nat :=
  match step.wakeup with
  | .command (.input _) => 1
  | .command (.handshake clientId _) => if clientId = holder then 1 else 0
  | _ => 0

def messagesIn (holder : ClientId) (steps : List Step) : Nat :=
  steps.foldl (fun count step => count + messagesFor holder step) 0

/-- The step neither takes the holder away nor asks for the end of its session,
and reports no other process than the one the session is bound to. -/
def Spares (key : SessionKey) (step : Step) : Prop :=
  match step.wakeup with
  | .command (.unregister clientId) => clientId ≠ key.clientId
  | .command (.revokeSession _) => False
  | .command (.focusChanged frontmostPid) => ∀ pid, key.pid = some pid → frontmostPid = some pid
  | _ => True

theorem messagesIn_concat (holder : ClientId) (steps : List Step) (step : Step) :
    messagesIn holder (steps ++ [step]) = messagesIn holder steps + messagesFor holder step :=
  List.foldl_concat _ _ _ _

namespace Runtime

variable {runtime : Runtime}

theorem Takes.trySend {clientId : ClientId} {count : Nat}
    (h : runtime.Takes clientId (count + 1)) (message : ServerMessage) :
    (runtime.trySend clientId message).2.Takes clientId count := by
  obtain ⟨sender, hsender, htakes⟩ := h
  exact ⟨_, runtime.getElem?_trySend_self hsender message, htakes.2 message⟩

theorem Takes.sendResponse {clientId : ClientId} {count : Nat}
    (h : runtime.Takes clientId (count + 1)) (response : HandshakeResponse) :
    (runtime.sendResponse clientId response).2.Takes clientId count := by
  rw [sendResponse_eq, if_pos ((runtime.trySend_fst_iff clientId _).mpr h.accepts)]
  exact h.trySend _

theorem Takes.sendResponse_of_ne {clientId other : ClientId} {count : Nat}
    (h : runtime.Takes clientId count) (hne : clientId ≠ other) (response : HandshakeResponse) :
    (runtime.sendResponse other response).2.Takes clientId count := by
  have hsent : (runtime.trySend other (.handshakeResponse response)).2.Takes clientId count := by
    obtain ⟨sender, hsender, htakes⟩ := h
    exact ⟨sender, by rw [getElem?_trySend_of_ne _ hne, hsender], htakes⟩
  rw [sendResponse_eq]
  split_ifs
  · exact hsent
  · exact hsent.removeClient hne

variable (runtime) (surroundings : Surroundings)

/-- In a session that goes on, the holder gets one message for an input and one
for a handshake of its own, and else nothing. -/
theorem turn_takes_holder (hunused : runtime.Unused) {session : Session} {count : Nat}
    {step : Step} (hactive : runtime.session = some session)
    (htakes : runtime.Takes session.clientId (count + messagesFor session.clientId step))
    {after : Runtime} (hturn : Turn runtime surroundings step.wakeup after)
    (hlasts : after.session ≠ none) : after.Takes session.clientId count := by
  have hbusy {handshake : Handshake} {goal : Prop}
      (hpasses : runtime.rejection handshake = none) : goal := by
    cases hactive.symm.trans (runtime.rejection_eq_none hpasses)
  obtain ⟨present, wakeup⟩ := step
  have hless := htakes.mono (Nat.le_add_right _ _)
  cases hturn with
  | registered channel => exact hless.register hunused channel
  | left other hother => exact hless.removeClient (hother session hactive)
  | disconnected other hother =>
      exact absurd (revoke_session (runtime.removeClient other.clientId) surroundings _ hother)
        hlasts
  | muted _ _ => exact hless
  | unchanged _ _ _ _ => exact hless
  | inner _ _ _ _ _ => exact hless
  | announced _ _ hidle _ _ _ => cases hactive.symm.trans hidle
  | routed _ _ other hother transition state _ _ =>
      cases hactive.symm.trans hother
      have hpublished : (runtime.published surroundings.now state transition).Takes
          session.clientId (count + 1) := htakes
      exact hpublished.trySend _
  | overflowed _ _ other hother transition state _ _ =>
      exact absurd (revoke_session _ surroundings _ (runtime.dropped_session surroundings.now
        state transition other.clientId hother)) hlasts
  | rejected clientId handshake reason _ =>
      by_cases hself : session.clientId = clientId
      · have hown : messagesFor session.clientId
            ⟨present, .command (.handshake clientId handshake)⟩ = 1 := if_pos hself.symm
        rw [hown] at htakes
        rw [← hself]
        exact htakes.sendResponse _
      · exact hless.sendResponse_of_ne hself _
  | unavailable _ _ hpasses _ _ _ => exact hbusy hpasses
  | abandoned _ _ hpasses _ _ _ => exact hbusy hpasses
  | accepted _ _ hpasses _ _ _ => exact hbusy hpasses
  | refused _ _ hpasses _ _ _ _ => exact hbusy hpasses
  | renewed _ _ => exact hless
  | stale _ _ _ => exact hless
  | revoked _ hother _ _ _ => exact absurd (runtime.revoke_session surroundings _ hother) hlasts
  | ignored _ _ _ => exact hless

end Runtime

theorem not_elapsed_of_lt {now earlier limit : Nat} (hlimit : 0 < limit)
    (h : now < earlier + limit) : ¬ limit ≤ elapsed now earlier := by
  unfold elapsed
  omega

/-- A step that ends no session of a careful holder. -/
theorem not_ends_of_spares {runtime : Runtime} {session : Session} {count : Nat} {step : Step}
    (hspares : Spares session.key step)
    (htakes : runtime.Takes session.clientId (count + messagesFor session.clientId step))
    (hfresh : step.wakeup = .tick →
      step.surroundings.now < session.lastHeartbeat + millis leaseMs)
    (hunheld : step.wakeup = .tick → ∀ (switchId : String) (time : Instant),
      runtime.escapeTracker[switchId]? = some time →
        step.surroundings.now < time + millis escapeHoldMs)
    (reason : SessionRevocationReason) :
    ¬ Ends runtime session step.surroundings.now step.wakeup reason := by
  obtain ⟨surroundings, wakeup⟩ := step
  intro hends
  cases hends with
  | disconnected => exact hspares rfl
  | overflowed event _ _ _ hrefuses =>
      have hone : runtime.Takes session.clientId (count + 1) := htakes
      exact hrefuses hone.accepts
  | demanded _ _ hdemand =>
      cases hdemand with
      | requested _ => exact hspares
      | focusLost pid frontmostPid hbound hother => exact hother (hspares pid hbound)
      | timedOut hlate => exact not_elapsed_of_lt (by decide) (hfresh rfl) hlate
      | escape _ switchId pressedAt htracked hheld =>
          exact not_elapsed_of_lt (by decide) (hunheld rfl switchId pressedAt htracked) hheld

variable (mappings : List Mapping) (started : Instant)

/-- In a session the time of a tracked press is later than any moment at which its
switch was up, also than one before the session. -/
theorem tracked_since (quiet rest : List Step) {switchId : String} {time : Instant}
    (hreleased : ((broker mappings started).run quiet).state.level switchId = .released)
    (hactive : ((broker mappings started).run (quiet ++ rest)).session ≠ none)
    (htracked : ((broker mappings started).run (quiet ++ rest)).escapeTracker[switchId]? =
      some time) : ∃ step ∈ rest, step.surroundings.now = time := by
  induction rest using List.reverseRecOn with
  | nil =>
      obtain ⟨limit, hlimit⟩ := exists_limit quiet
      rw [List.append_nil] at hactive htracked
      have hpressed := (watched_run mappings started quiet hlimit hactive).tracked switchId
        time htracked
      cases hreleased.symm.trans hpressed
  | append_singleton rest step ih =>
      rw [← List.append_assoc, Machine.run_concat] at hactive htracked
      cases (sound_run mappings started (quiet ++ rest)).change step with
      | idle _ hstill => exact absurd hstill hactive
      | ended _ _ hstill _ _ _ _ _ => exact absurd hstill hactive
      | opened _ _ _ _ _ _ hcleared _ =>
          change (((broker mappings started).run (quiet ++ rest)).step
            step).escapeTracker[switchId]? = _ at htracked
          rw [hcleared, ExtTreeMap.getElem?_empty] at htracked
          cases htracked
      | kept session hbefore _ _ _ _ htracking _ =>
          obtain ⟨events, _, htracker, _⟩ := htracking
          change (((broker mappings started).run (quiet ++ rest)).step
            step).escapeTracker[switchId]? = _ at htracked
          rw [htracker] at htracked
          rcases tracked_of_foldl htracked with hnow | hold
          · exact ⟨step, List.mem_append_right _ (List.mem_singleton_self _), hnow.symm⟩
          · have hsession : ((broker mappings started).run (quiet ++ rest)).session ≠ none := by
              rw [hbefore]
              exact Option.some_ne_none _
            obtain ⟨found, hmem, htime⟩ := ih hsession hold
            exact ⟨found, List.mem_append_left _ hmem, htime⟩

/-- One step of a careful holder. -/
theorem Sound.careful_step {runtime : Runtime} (hsound : Sound runtime) {session : Session}
    {count : Nat} {step : Step} (hactive : runtime.session = some session)
    (htakes : runtime.Takes session.clientId (count + messagesFor session.clientId step))
    (hunforced : ∀ reason, ¬ Ends runtime session step.surroundings.now step.wakeup reason) :
    (runtime.step step).session =
        some { session with lastHeartbeat := beatAt session.key session.lastHeartbeat step } ∧
      (runtime.step step).Takes session.clientId count ∧
      (runtime.step step).history.revoked = runtime.history.revoked := by
  cases hsound.change step with
  | idle hidle _ => cases hidle.symm.trans hactive
  | opened _ _ _ hidle _ _ _ _ => cases hidle.symm.trans hactive
  | ended other hbefore _ reason hends _ _ _ =>
      cases hactive.symm.trans hbefore
      exact absurd hends (hunforced reason)
  | kept other hbefore hkept _ _ _ _ hlog =>
      cases hactive.symm.trans hbefore
      rw [beat_eq] at hkept
      have hlasts : (runtime.step step).session ≠ none := by
        rw [hkept]
        exact Option.some_ne_none _
      exact ⟨hkept, runtime.turn_takes_holder step.surroundings hsound.unused hactive htakes
        (runtime.step_turn step) hlasts, hlog⟩

/-- The session so far: who holds it, what its holder still takes, and that no
session has been ended. -/
structure Tended (steps during : List Step) (session : Session) (count : Nat) : Prop where
  active : ((broker mappings started).run (steps ++ during)).session =
    some { session with lastHeartbeat := lastBeat session.key session.lastHeartbeat during }
  takes : ((broker mappings started).run (steps ++ during)).Takes session.clientId count
  revoked : ((broker mappings started).run (steps ++ during)).history.revoked =
    ((broker mappings started).run steps).history.revoked

theorem Tended.step {steps during : List Step} {session : Session} {count : Nat} {step : Step}
    (h : Tended mappings started steps during session
      (count + messagesFor session.clientId step))
    (hspares : Spares session.key step)
    (hfresh : step.wakeup = .tick → step.surroundings.now <
      lastBeat session.key session.lastHeartbeat during + millis leaseMs)
    (hunheld : step.wakeup = .tick → ∀ switchId, ∃ quiet rest,
      steps ++ during = quiet ++ rest ∧
      ((broker mappings started).run quiet).state.level switchId = .released ∧
      ∀ later ∈ rest, step.surroundings.now < later.surroundings.now + millis escapeHoldMs) :
    Tended mappings started steps (during ++ [step]) session count := by
  have hsound := sound_run mappings started (steps ++ during)
  have hshort : step.wakeup = .tick → ∀ (switchId : String) (time : Instant),
      ((broker mappings started).run (steps ++ during)).escapeTracker[switchId]? = some time →
        step.surroundings.now < time + millis escapeHoldMs := by
    intro htick switchId time htracked
    obtain ⟨quiet, rest, hsteps, hreleased, hrecent⟩ := hunheld htick switchId
    have hactive : ((broker mappings started).run (quiet ++ rest)).session ≠ none := by
      rw [← hsteps, h.active]
      exact Option.some_ne_none _
    rw [hsteps] at htracked
    obtain ⟨found, hmem, rfl⟩ :=
      tracked_since mappings started quiet rest hreleased hactive htracked
    exact hrecent found hmem
  have hunforced : ∀ reason, ¬ Ends ((broker mappings started).run (steps ++ during))
      { session with lastHeartbeat := lastBeat session.key session.lastHeartbeat during }
      step.surroundings.now step.wakeup reason :=
    not_ends_of_spares hspares h.takes hfresh hshort
  obtain ⟨hsession, htakes, hlog⟩ := hsound.careful_step h.active h.takes hunforced
  have hrun : (broker mappings started).run (steps ++ (during ++ [step])) =
      ((broker mappings started).run (steps ++ during)).step step := by
    rw [← List.append_assoc]
    exact (broker mappings started).run_concat _ step
  rw [← hrun] at hsession htakes hlog
  refine ⟨?_, htakes, hlog.trans h.revoked⟩
  rw [hsession, lastBeat_concat]
  rfl

/-- A session goes on for as long as its holder is careful: whatever else the
broker is told, no end is asked for, every tick finds the latest heartbeat not
older than 1500 ms and each switch up at some moment of the last 4000 ms, which
may be before the session, and the holder's queue takes one message for each
input and each handshake of its own. -/
theorem careful_holder_stays (steps during : List Step) (session : Session)
    (hactive : ((broker mappings started).run steps).session = some session)
    (htakes : ((broker mappings started).run steps).Takes session.clientId
      (messagesIn session.clientId during))
    (hspares : ∀ step ∈ during, Spares session.key step)
    (hbeats : ∀ early tick late, during = early ++ tick :: late → tick.wakeup = .tick →
      tick.surroundings.now <
        lastBeat session.key session.lastHeartbeat early + millis 1500)
    (hholds : ∀ early tick late, during = early ++ tick :: late → tick.wakeup = .tick →
      ∀ switchId, ∃ quiet rest, steps ++ early = quiet ++ rest ∧
        ((broker mappings started).run quiet).state.level switchId = .released ∧
        ∀ later ∈ rest, tick.surroundings.now < later.surroundings.now + millis 4000) :
    let after := (broker mappings started).run (steps ++ during)
    after.session =
        some { session with lastHeartbeat := lastBeat session.key session.lastHeartbeat during } ∧
      session.clientId ∈ after.clients ∧
      after.history.revoked = ((broker mappings started).run steps).history.revoked := by
  have htended : ∀ count,
      ((broker mappings started).run steps).Takes session.clientId
        (count + messagesIn session.clientId during) →
      Tended mappings started steps during session count := by
    induction during using List.reverseRecOn with
    | nil =>
        intro count htakes
        refine ⟨?_, ?_, ?_⟩
        · rw [List.append_nil, hactive]
          rfl
        · rwa [List.append_nil]
        · rw [List.append_nil]
    | append_singleton during step ih =>
        intro count hcount
        have hlonger {early late : List Step} {tick : Step}
            (h : during = early ++ tick :: late) :
            during ++ [step] = early ++ tick :: (late ++ [step]) := by
          rw [h, List.append_assoc, List.cons_append]
        rw [messagesIn_concat, Nat.add_comm (messagesIn _ _), ← Nat.add_assoc] at hcount
        have hearlier := ih (hcount.mono (Nat.le_add_left _ _))
          (fun other hmem => hspares other (List.mem_append_left _ hmem))
          (fun early tick late h => hbeats early tick _ (hlonger h))
          (fun early tick late h => hholds early tick _ (hlonger h)) _ hcount
        exact hearlier.step mappings started
          (hspares step (List.mem_append_right _ (List.mem_singleton_self _)))
          (hbeats during step [] rfl) (hholds during step [] rfl)
  obtain ⟨hsession, hmember, hlog⟩ := htended 0 (by rwa [Nat.zero_add])
  exact ⟨hsession, hmember.mem, hlog⟩

/-- Room for one message, which is always taken before the next one. -/
def promptChannel : Channel :=
  ⟨1, Nat.one_pos, List.replicate 4 ⟨1, false⟩⟩

/-- A session, in which the key goes down. -/
def promptHolder : List Step :=
  [passAt 0 (.command (.register promptChannel)),
    passAt 1 (.command (.handshake 1 exclusiveHandshake)),
    passAt (millis 100) (.command (.input spacePress))]

/-- The release, with a tick and a heartbeat before it. -/
def shortPress : List Step :=
  [passAt (millis 200) .tick,
    passAt (millis 300) (.command (.heartbeat 1 "session")),
    passAt (millis 400) (.command (.input ⟨"space", .released, none⟩))]

theorem promptHolder_stays :
    let after := (broker [spaceMapping] 0).run (promptHolder ++ shortPress)
    after.session = some ⟨1, "session", none, millis 300⟩ ∧ 1 ∈ after.clients ∧
      after.history.revoked = ((broker [spaceMapping] 0).run promptHolder).history.revoked := by
  have htick {early late : List Step} {tick : Step}
      (h : shortPress = early ++ tick :: late) (hwakeup : tick.wakeup = .tick) :
      early = [] ∧ tick = passAt (millis 200) .tick := by
    unfold shortPress at h
    rcases early with _ | ⟨first, _ | ⟨second, _ | ⟨third, rest⟩⟩⟩
    · cases h
      exact ⟨rfl, rfl⟩
    · cases h
      cases hwakeup
    · cases h
      cases hwakeup
    · simp at h
  have hreleased : ((broker [spaceMapping] 0).run (promptHolder.take 2)).state.AllReleased :=
    (sound_run [spaceMapping] 0 [passAt 0 (.command (.register promptChannel))]).released_of_opened
      (passAt 1 (.command (.handshake 1 exclusiveHandshake))) rfl rfl
  refine careful_holder_stays [spaceMapping] 0 promptHolder shortPress
    ⟨1, "session", none, 1⟩ (by decide) ?_ (by simp [shortPress, passAt, Spares]) ?_ ?_
  · exact ⟨_, rfl, Sender.Prompt.takes ⟨⟨by decide, by decide⟩, rfl, by decide, by decide⟩⟩
  · intro early tick late h hwakeup
    obtain ⟨rfl, rfl⟩ := htick h hwakeup
    decide
  · intro early tick late h hwakeup switchId
    obtain ⟨rfl, rfl⟩ := htick h hwakeup
    -- the key is down when the tick comes; it was up in the moment before its press
    exact ⟨promptHolder.take 2, promptHolder.drop 2, rfl, hreleased switchId, by decide⟩

end Usahp.Broker
