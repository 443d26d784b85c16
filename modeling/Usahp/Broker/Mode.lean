import Mathlib.Logic.Relation
import Usahp.Broker.Turn

/-!
The life cycle of the broker. The abstract model is a machine with three modes
and five moves. The broker refines it: the mode can be read off three fields
of every state reached between two commands, and each command makes a move of
the abstract machine.
-/

namespace Usahp.Broker

open Std Usahp.Library

/-- What identifies a session while it lasts. -/
structure SessionKey where
  clientId : ClientId
  sessionId : String
  pid : Option UInt32
  deriving DecidableEq

def Session.key (session : Session) : SessionKey :=
  ⟨session.clientId, session.sessionId, session.pid⟩

inductive Mode where
  | broadcast
  | managed (key : SessionKey)
  | paused
  deriving DecidableEq

/-- The moves of the abstract machine. -/
inductive Mode.Next : Mode → Mode → Prop
  | stay (mode : Mode) : Next mode mode
  | first (key : SessionKey) : Next .broadcast (.managed key)
  | abandon : Next .broadcast .paused
  | finish (key : SessionKey) : Next (.managed key) .paused
  | reacquire (key : SessionKey) : Next .paused (.managed key)

theorem Mode.Next.eq_broadcast {mode : Mode} (h : Next mode .broadcast) :
    mode = .broadcast := by
  cases h
  rfl

theorem Mode.eq_broadcast_of_moves {mode : Mode}
    (h : Relation.ReflTransGen Mode.Next mode .broadcast) : mode = .broadcast := by
  induction h using Relation.ReflTransGen.head_induction_on with
  | refl => rfl
  | head hmove _ ih =>
      subst ih
      exact hmove.eq_broadcast

theorem Mode.Next.of_managed {key : SessionKey} {mode : Mode}
    (h : Next (.managed key) mode) : mode = .managed key ∨ mode = .paused := by
  cases h with
  | stay => exact Or.inl rfl
  | finish => exact Or.inr rfl

namespace Core

def InMode (core : Core) : Mode → Prop
  | .broadcast =>
      core.session = none ∧ core.paused = false ∧ core.capture.enabled = true
  | .managed key =>
      core.session.map Session.key = some key ∧ core.paused = false ∧
        core.capture.enabled = true
  | .paused =>
      core.session = none ∧ core.paused = true ∧ core.capture.enabled = false

theorem inMode_unique {core : Core} {first second : Mode}
    (hfirst : core.InMode first) (hsecond : core.InMode second) : first = second := by
  cases first with
  | managed key =>
      cases second with
      | managed other =>
          rw [Option.some.inj (hfirst.1.symm.trans hsecond.1)]
      | _ => simp_all [InMode]
  | _ => cases second <;> simp_all [InMode]

/-- The states of one mode agree on the session. -/
theorem session_eq_of_inMode {core other : Core} {mode : Mode}
    (hcore : core.InMode mode) (hother : other.InMode mode) :
    core.session.map Session.key = other.session.map Session.key := by
  cases mode with
  | broadcast => rw [hcore.1, hother.1]
  | paused => rw [hcore.1, hother.1]
  | managed key => rw [hcore.1, hother.1]

/-- The invariant of the life cycle: some mode, and nothing pressed while
paused. -/
def Settled (core : Core) (mode : Mode) : Prop :=
  core.InMode mode ∧ (mode = .paused → core.state.AllReleased)

/-- A move of the abstract machine that ends in `core`. A change of the mode
leaves nothing pressed. -/
structure Entered (core : Core) (mode next : Mode) : Prop where
  move : Mode.Next mode next
  settled : core.Settled next
  released : mode ≠ next → core.state.AllReleased

theorem Settled.stay {core : Core} {mode : Mode} (h : core.Settled mode) :
    ∃ next, core.Entered mode next :=
  ⟨mode, .stay mode, h, fun hne => absurd rfl hne⟩

theorem Settled.session_eq_none {core : Core} {mode : Mode} (h : core.Settled mode)
    (hpaused : core.paused = true) : core.session = none ∧ core.state.AllReleased := by
  obtain ⟨hmode, hreleased⟩ := h
  cases mode with
  | paused => exact ⟨hmode.1, hreleased rfl⟩
  | broadcast => simp [InMode, hpaused] at hmode
  | managed key => simp [InMode, hpaused] at hmode

end Core

namespace Runtime

variable (runtime : Runtime) (surroundings : Surroundings)

/-- Ending a session leads to the paused mode from wherever it is done. -/
theorem revoke_settled (reason : SessionRevocationReason)
    {session : Session} (h : runtime.session = some session) :
    (runtime.revoke surroundings reason).core.Settled .paused := by
  rw [runtime.revoke_core surroundings reason h]
  refine ⟨⟨rfl, rfl, rfl⟩, fun _ => ?_⟩
  exact runtime.state.allReleased_releaseAll

/-- At the border between two routings nothing is pressed: the legacy state is
let go, or the broker was paused. -/
theorem releaseLegacy_allReleased {mode : Mode} (hsettled : runtime.core.Settled mode)
    {base : Runtime} (hready : Ready runtime surroundings base) :
    (base.releaseLegacy surroundings).core.state.AllReleased := by
  rw [releaseLegacy_core]
  cases hready with
  | running hrunning =>
      rw [hrunning]
      exact runtime.state.allReleased_releaseAll
  | resumed hpaused hok =>
      rw [runtime.resumeCapture_of_ok surroundings hok]
      simp only [hpaused, if_true]
      exact (hsettled.session_eq_none hpaused).2

/-- The flags at that border. -/
theorem releaseLegacy_flags {mode : Mode} (hsettled : runtime.core.Settled mode)
    (hidle : runtime.session = none) {base : Runtime}
    (hready : Ready runtime surroundings base) :
    (base.releaseLegacy surroundings).core.session = none ∧
      (base.releaseLegacy surroundings).core.capture.enabled = true := by
  rw [releaseLegacy_core]
  cases hready with
  | running hrunning =>
      rw [hrunning]
      refine ⟨hidle, ?_⟩
      cases mode with
      | broadcast => exact hsettled.1.2.2
      | managed key => exact hsettled.1.2.2
      | paused =>
          have hpaused := hsettled.1.2.1
          simp [core, hrunning] at hpaused
  | resumed hpaused hok =>
      rw [runtime.resumeCapture_of_ok surroundings hok]
      simp only [hpaused, if_true]
      exact ⟨hidle, rfl⟩

theorem input_of_paused (event : PhysicalEvent) (hpaused : runtime.paused = true) :
    runtime.input surroundings event = runtime := by
  unfold input
  rw [if_pos (by rw [hpaused, Bool.true_or])]

theorem rejection_eq_none {handshake : Handshake}
    (h : runtime.rejection handshake = none) : runtime.session = none := by
  unfold rejection at h
  split_ifs at h with _ _ _ hbusy
  simpa using hbusy

/-- Every pass of the loop is a move of the abstract machine. -/
theorem turn_settled {mode : Mode} (hsettled : runtime.core.Settled mode)
    {wakeup : Wakeup} {after : Runtime} (hturn : Turn runtime surroundings wakeup after) :
    ∃ next, after.core.Entered mode next := by
  have hstill {after : Runtime} (heq : after.core = runtime.core) :
      ∃ next, after.core.Entered mode next := by
    rw [heq]
    exact hsettled.stay
  -- ending the session `before` was left with by the first half of a handler
  have hended {before : Runtime} {session : Session} (reason : SessionRevocationReason)
      (hbefore : before.session = some session) (hactive : runtime.session = some session) :
      ∃ next, (before.revoke surroundings reason).core.Entered mode next := by
    have hrevoked := before.revoke_settled surroundings reason hbefore
    refine ⟨.paused, ?_, hrevoked, fun _ => hrevoked.2 rfl⟩
    cases mode with
    | managed key => exact .finish key
    | broadcast => exact absurd hsettled.1.1 (by simp [core, hactive])
    | paused => exact .stay .paused
  cases hturn with
  | registered channel =>
      apply Core.Settled.stay
      rw [register_core]
      exact hsettled
  | left clientId _ => exact hstill rfl
  | disconnected session hactive => exact hended _ hactive hactive
  | muted _ _ => exact hstill rfl
  | unchanged _ _ _ _ => exact hstill rfl
  | inner _ hlistening state _ hlevel =>
      refine Core.Settled.stay ⟨hsettled.1, fun hpaused => ?_⟩
      subst hpaused
      exact absurd hsettled.1.2.1 (by simp [core, hlistening.1])
  | announced _ hlistening _ transition state _ =>
      apply Core.Settled.stay
      rw [broadcast_core]
      refine ⟨hsettled.1, fun hpaused => ?_⟩
      subst hpaused
      exact absurd hsettled.1.2.1 (by simp [core, hlistening.1])
  | routed _ hlistening session hactive transition state _ _ =>
      apply Core.Settled.stay
      rw [trySend_core]
      refine ⟨hsettled.1, fun hpaused => ?_⟩
      subst hpaused
      exact absurd hsettled.1.2.1 (by simp [core, hlistening.1])
  | overflowed _ _ session hactive transition state _ _ =>
      refine hended _ ?_ hactive
      exact (congrArg Core.session (trySend_core _ session.clientId _)).trans hactive
  | rejected clientId _ reason _ => exact hstill (runtime.reject_core clientId reason)
  | unavailable clientId _ _ _ error hfailed =>
      apply Core.Settled.stay
      rw [reject_core, runtime.resumeCapture_of_error surroundings hfailed]
      exact hsettled
  | abandoned clientId handshake hrejection base hready _ =>
      have hreleased := runtime.releaseLegacy_allReleased surroundings hsettled hready
      have hflags := runtime.releaseLegacy_flags surroundings hsettled
        (runtime.rejection_eq_none hrejection) hready
      refine ⟨.paused, ?_, ⟨⟨hflags.1, rfl, rfl⟩, fun _ => hreleased⟩, fun _ => hreleased⟩
      cases mode with
      | broadcast => exact .abandon
      | managed key => exact .finish key
      | paused => exact .stay .paused
  | accepted clientId handshake hrejection base hready _ =>
      have hflags := runtime.releaseLegacy_flags surroundings hsettled
        (runtime.rejection_eq_none hrejection) hready
      have hreleased := runtime.releaseLegacy_allReleased surroundings hsettled hready
      refine ⟨.managed ⟨clientId, surroundings.uuid, handshake.pid⟩, ?_, ?_, ?_⟩
      · cases mode with
        | broadcast => exact .first _
        | paused => exact .reacquire _
        | managed key =>
            have hidle := runtime.rejection_eq_none hrejection
            exact absurd hsettled.1.1 (by simp [core, hidle])
      · rw [sendResponse_core]
        exact ⟨⟨rfl, rfl, hflags.2⟩, fun h => Mode.noConfusion h⟩
      · intro _
        rw [sendResponse_core]
        exact hreleased
  | refused clientId handshake hrejection base hready _ _ =>
      have hrevoked := revoke_settled _ surroundings .queueOverflow
        (congrArg Core.session (sendResponse_core
          ((base.releaseLegacy surroundings).opened surroundings clientId handshake.pid)
          clientId (acceptance surroundings.uuid)))
      refine ⟨.paused, ?_, hrevoked, fun _ => hrevoked.2 rfl⟩
      cases mode with
      | broadcast => exact .abandon
      | managed key => exact .finish key
      | paused => exact .stay .paused
  | renewed session hactive =>
      refine Core.Settled.stay ⟨?_, hsettled.2⟩
      have hmode := hsettled.1
      cases mode with
      | managed key =>
          refine ⟨?_, hmode.2⟩
          have hkey := hmode.1
          simp only [core, hactive, Option.map_some] at hkey ⊢
          exact hkey
      | broadcast => exact absurd hmode.1 (by simp [core, hactive])
      | paused => exact absurd hmode.1 (by simp [core, hactive])
  | stale _ _ _ => exact hstill rfl
  | revoked session hactive _ reason _ => exact hended reason hactive hactive
  | ignored _ _ _ => exact hstill rfl

end Runtime

variable (mappings : List Mapping) (started : Instant)

/-- Some mode, in every reachable state. -/
theorem reachable_settled (steps : List Step) :
    ∃ mode, ((broker mappings started).run steps).core.Settled mode := by
  refine (broker mappings started).invariant
    (fun runtime => ∃ mode, runtime.core.Settled mode) ?_ ?_ steps
  · exact ⟨.broadcast, ⟨rfl, rfl, rfl⟩, fun h => Mode.noConfusion h⟩
  · rintro runtime step ⟨mode, hsettled⟩
    obtain ⟨next, hentered⟩ := runtime.turn_settled step.surroundings hsettled
      (runtime.step_turn step)
    exact ⟨next, hentered.settled⟩

/-- A run from a settled state follows the moves of the abstract machine. -/
theorem run_settled {runtime : Runtime} {mode : Mode} (hsettled : runtime.core.Settled mode)
    (more : List Step) :
    ∃ next, Relation.ReflTransGen Mode.Next mode next ∧
      ((broker mappings started).runFrom runtime more).core.Settled next := by
  refine (broker mappings started).invariant_from
    (fun runtime => ∃ next, Relation.ReflTransGen Mode.Next mode next ∧
      runtime.core.Settled next) ?_ runtime ⟨mode, .refl, hsettled⟩ more
  rintro runtime step ⟨middle, hmoves, hmiddle⟩
  obtain ⟨next, hentered⟩ := runtime.turn_settled step.surroundings hmiddle
    (runtime.step_turn step)
  exact ⟨next, hmoves.tail hentered.move, hentered.settled⟩

/-- As long as the paused mode is not entered, a session stays the same one. -/
theorem run_managed {runtime : Runtime} {key : SessionKey}
    (hsettled : runtime.core.Settled (.managed key)) (more : List Step)
    (hnever : (broker mappings started).Throughout
      (fun runtime => ¬ runtime.core.InMode .paused) runtime more) :
    ((broker mappings started).runFrom runtime more).core.InMode (.managed key) := by
  induction more generalizing runtime with
  | nil => exact hsettled.1
  | cons step rest ih =>
      obtain ⟨next, hentered⟩ := runtime.turn_settled step.surroundings hsettled
        (runtime.step_turn step)
      rcases hentered.move.of_managed with rfl | rfl
      · exact ih hentered.settled hnever.2
      · exact absurd hentered.settled.1
          ((broker mappings started).throughout_head hnever.2)

/-- The life cycle: one mode at a time, nothing pressed and nothing heard while
paused, nothing pressed where a session opens, no way back to broadcast, and
no way from one session to another but through the paused mode. -/
theorem life_cycle (steps : List Step) :
    let runtime := (broker mappings started).run steps
    (∃! mode, runtime.core.InMode mode) ∧
    (runtime.core.InMode .paused →
      runtime.state.AllReleased ∧
      ∀ step event, step.wakeup = .command (.input event) → runtime.step step = runtime) ∧
    (∀ step, runtime.session = none → (runtime.step step).session ≠ none →
      (runtime.step step).state.AllReleased) ∧
    (¬ runtime.core.InMode .broadcast →
      ∀ more, ¬ ((broker mappings started).run (steps ++ more)).core.InMode .broadcast) ∧
    (∀ key, runtime.core.InMode (.managed key) → ∀ more,
      (broker mappings started).Throughout (fun runtime => ¬ runtime.core.InMode .paused)
        runtime more →
      ((broker mappings started).run (steps ++ more)).core.InMode (.managed key)) := by
  intro runtime
  obtain ⟨mode, hsettled⟩ := reachable_settled mappings started steps
  refine ⟨⟨mode, hsettled.1, fun other hother => Core.inMode_unique hother hsettled.1⟩,
    ?_, ?_, ?_, ?_⟩
  · intro hpaused
    cases Core.inMode_unique hpaused hsettled.1
    refine ⟨hsettled.2 rfl, ?_⟩
    rintro ⟨surroundings, wakeup⟩ event rfl
    exact runtime.input_of_paused surroundings event hpaused.2.1
  · intro step hidle hopen
    obtain ⟨next, hentered⟩ := runtime.turn_settled step.surroundings hsettled
      (runtime.step_turn step)
    apply hentered.released
    rintro rfl
    have hsame := Core.session_eq_of_inMode hentered.settled.1 hsettled.1
    change (runtime.step step).session.map _ = runtime.session.map _ at hsame
    rw [hidle] at hsame
    exact hopen (Option.map_eq_none_iff.mp hsame)
  · intro hleft more hback
    rw [Machine.run_append] at hback
    obtain ⟨next, hmoves, hnext⟩ := run_settled mappings started hsettled more
    cases Core.inMode_unique hback hnext.1
    cases Mode.eq_broadcast_of_moves hmoves
    exact hleft hsettled.1
  · intro key hmanaged more hnever
    cases Core.inMode_unique hmanaged hsettled.1
    rw [Machine.run_append]
    exact run_managed mappings started hsettled more hnever

end Usahp.Broker
