import Usahp.Broker.Change

/-!
The registration of the session holder. Every removal of a client looks at the
session except one: a handshake that the holder sends during its own session
is rejected as busy, and when the rejection finds no room the holder is
dropped while its session goes on.
-/

namespace Usahp.Broker

open Std Usahp.Library

def HolderRegistered (runtime : Runtime) : Prop :=
  ∀ session, runtime.session = some session → session.clientId ∈ runtime.clients

/-- A handshake of the active holder finds room for its answer. -/
def HolderAnswers (runtime : Runtime) (step : Step) : Prop :=
  ∀ session, runtime.session = some session → Answers runtime session step.wakeup

@[simp] theorem beat_clientId (session : Session) (now : Instant) (wakeup : Wakeup) :
    (session.beat now wakeup).clientId = session.clientId := by
  unfold Session.beat
  split
  · split_ifs <;> rfl
  · rfl

@[simp] theorem beat_key (session : Session) (now : Instant) (wakeup : Wakeup) :
    (session.beat now wakeup).key = session.key := by
  unfold Session.beat
  split
  · split_ifs <;> rfl
  · rfl

theorem Ends.not_handshake {runtime : Runtime} {session : Session} {now : Instant}
    {reason : SessionRevocationReason} {clientId : ClientId} {handshake : Handshake}
    (h : Ends runtime session now (.command (.handshake clientId handshake)) reason) :
    False := by
  cases h with
  | demanded _ _ hdemand => cases hdemand

theorem Sound.change {runtime : Runtime} (hsound : Sound runtime) (step : Step) :
    SessionChange runtime step.surroundings step.wakeup (runtime.step step) := by
  obtain ⟨mode, hsettled⟩ := hsound.settled
  exact runtime.turn_change step.surroundings hsettled (runtime.step_turn step)

/-- A step leaves the session with its holder, or ends with nothing pressed. -/
theorem Sound.session_step {runtime : Runtime} (hsound : Sound runtime) (step : Step) :
    (runtime.step step).session.map Session.key = runtime.session.map Session.key ∨
      (runtime.step step).state.AllReleased := by
  obtain ⟨mode, hsettled⟩ := hsound.settled
  obtain ⟨next, hentered⟩ := runtime.turn_settled step.surroundings hsettled
    (runtime.step_turn step)
  by_cases hsame : mode = next
  · subst hsame
    exact Or.inl (Core.session_eq_of_inMode hentered.settled.1 hsettled.1)
  · exact Or.inr (hentered.released hsame)

/-- The holder's id has been given out, also when the holder is gone. -/
def HolderAssigned (runtime : Runtime) : Prop :=
  ∀ session, runtime.session = some session → session.clientId < runtime.nextClient

theorem HolderAssigned.step {runtime : Runtime} (hassigned : HolderAssigned runtime)
    (hsound : Sound runtime) (step : Step) : HolderAssigned (runtime.step step) := by
  have hnext : (runtime.step step).nextClient =
      runtime.nextClient + step.wakeup.registrations :=
    runtime.turn_nextClient step.surroundings (runtime.step_turn step)
  intro other hother
  cases hsound.change step with
  | idle _ hstill =>
      rw [hstill] at hother
      cases hother
  | opened clientId handshake _ _ hopened hregistered _ =>
      rw [hopened] at hother
      cases hother
      by_contra hunassigned
      exact ((hsound.step step).unused clientId (Nat.le_of_not_lt hunassigned)).1 hregistered
  | kept session hbefore hkept _ _ _ _ _ =>
      rw [hkept] at hother
      cases hother
      rw [beat_clientId, hnext]
      exact Nat.lt_add_right _ (hassigned session hbefore)
  | ended _ _ hstill _ _ _ =>
      rw [hstill] at hother
      cases hother

/-- One step keeps the holder registered exactly when the holder is answered. -/
theorem holderRegistered_step_iff {runtime : Runtime} (hsound : Sound runtime)
    (hholder : HolderRegistered runtime) (step : Step) :
    HolderRegistered (runtime.step step) ↔ HolderAnswers runtime step := by
  cases hsound.change step with
  | idle hbefore hstill =>
      apply iff_of_true
      · intro session hactive
        rw [hstill] at hactive
        cases hactive
      · intro session hactive
        rw [hbefore] at hactive
        cases hactive
  | opened clientId handshake _ hbefore hopened hregistered _ =>
      apply iff_of_true
      · intro session hactive
        rw [hopened] at hactive
        cases hactive
        exact hregistered
      · intro session hactive
        rw [hbefore] at hactive
        cases hactive
  | kept session hbefore hkept _ hstays _ _ _ =>
      have hmem := hstays (hholder session hbefore)
      constructor
      · intro h other hother
        rw [hbefore] at hother
        cases hother
        have hafter := h _ hkept
        rw [beat_clientId] at hafter
        exact hmem.mp hafter
      · intro h other hother
        rw [hkept] at hother
        cases hother
        rw [beat_clientId]
        exact hmem.mpr (h session hbefore)
  | ended session hbefore hstill reason hends _ =>
      apply iff_of_true
      · intro other hactive
        rw [hstill] at hactive
        cases hactive
      · intro other _ handshake hwakeup
        rw [hwakeup] at hends
        exact hends.not_handshake.elim

variable (mappings : List Mapping) (started : Instant)

theorem holderAssigned_run (steps : List Step) :
    HolderAssigned ((broker mappings started).run steps) := by
  refine (broker mappings started).history_invariant
    (fun _ runtime => HolderAssigned runtime) ?_ ?_ steps
  · intro session hactive
    cases hactive
  · intro steps step hassigned
    exact hassigned.step (sound_run mappings started steps) step

theorem holderRegistered_throughout_iff {runtime : Runtime} (hsound : Sound runtime)
    (hholder : HolderRegistered runtime) (steps : List Step) :
    (broker mappings started).Throughout HolderRegistered runtime steps ↔
      (broker mappings started).Along HolderAnswers runtime steps := by
  induction steps generalizing runtime with
  | nil => exact iff_of_true hholder trivial
  | cons step rest ih =>
      have hstep := holderRegistered_step_iff hsound hholder step
      constructor
      · rintro ⟨_, hrest⟩
        have hafter := (broker mappings started).throughout_head hrest
        exact ⟨hstep.mp hafter, (ih (hsound.step step) hafter).mp hrest⟩
      · rintro ⟨hanswers, hrest⟩
        have hafter := hstep.mpr hanswers
        exact ⟨hholder, (ih (hsound.step step) hafter).mpr hrest⟩

/-- The holder is registered in every state of a run exactly when every
handshake it sends during its own session finds room for the answer. -/
theorem holder_registered_iff (steps : List Step) :
    (broker mappings started).Throughout HolderRegistered
        (Runtime.new mappings started) steps ↔
      (broker mappings started).Along HolderAnswers (Runtime.new mappings started) steps := by
  refine holderRegistered_throughout_iff mappings started (sound_new mappings started) ?_ steps
  intro session hactive
  cases hactive

/-- A pass with backends that obey. -/
def passAt (now : Instant) (wakeup : Wakeup) : Step :=
  ⟨⟨now, "session", .ok (), .ok ()⟩, wakeup⟩

/-- A client that never takes a message from its queue. -/
def stuckChannel (room : Nat) : Channel :=
  ⟨room + 1, Nat.succ_pos room, []⟩

def spaceMapping : Mapping :=
  ⟨"space", "primary", .keyboard, "Space", none⟩

/-- The input that a capture thread sends when the key goes down. -/
def spacePress : PhysicalEvent :=
  ⟨"space", .pressed, some (.finite 100)⟩

def exclusiveHandshake : Handshake :=
  ⟨protocolVersion, "app", .exclusiveForeground, none⟩

/-- Room for the hello and the acceptance, and a second handshake. -/
def secondHandshake : List Step :=
  [passAt 0 (.command (.register (stuckChannel 1))),
    passAt 1 (.command (.handshake 1 exclusiveHandshake)),
    passAt 2 (.command (.handshake 1 exclusiveHandshake))]

theorem holder_dropped :
    ¬ HolderRegistered ((broker [] 0).run secondHandshake) := by
  intro h
  have hactive : ((broker [] 0).run secondHandshake).session =
      some ⟨1, "session", none, 1⟩ := by decide
  have hgone : 1 ∉ ((broker [] 0).run secondHandshake).clients := by decide
  exact hgone (h _ hactive)

end Usahp.Broker
