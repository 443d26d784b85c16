import Usahp.Broker.Notices
import Usahp.Capture.Handlers

/-!
A thread whose device fails ends for good, and the capture control keeps asking
it. So every later resume fails, and a broker that has paused stays paused: no
session is opened, and nothing is captured any more.
-/

namespace Usahp.Broker

open Std Usahp.Library

/-- What a client may hear from a broker that stays paused. -/
inductive Denial : ServerMessage → Prop
  | hello (hello : Hello) : Denial (.hello hello)
  | rejected (version : String) (reason : HandshakeRejectionReason) :
      Denial (.handshakeResponse (.rejected version reason))

namespace Runtime

variable (runtime : Runtime) (surroundings : Surroundings)

/-- With the flag down the mode is the paused one. -/
theorem settled_of_shut {mode : Mode} (hsettled : runtime.core.Settled mode)
    (hshut : runtime.capture.enabled = false) : runtime.core.Settled .paused := by
  cases mode with
  | paused => exact hsettled
  | broadcast => exact absurd (hshut.symm.trans hsettled.1.2.2) Bool.false_ne_true
  | managed _ => exact absurd (hshut.symm.trans hsettled.1.2.2) Bool.false_ne_true

theorem legacy_of_paused (hpaused : runtime.paused = true) (now : Instant) :
    runtime.legacy now = [] := by
  rw [legacy, if_pos hpaused]

/-- A pass that leaves the broker paused creates no event. -/
theorem turn_silent (hsettled : runtime.core.Settled .paused) {wakeup : Wakeup}
    {after : Runtime} (hturn : Turn runtime surroundings wakeup after)
    (hstill : after.session = none) : after.core.created = runtime.core.created := by
  obtain ⟨⟨hidle, hpaused, -⟩, -⟩ := id hsettled
  change runtime.session = none at hidle
  change runtime.paused = true at hpaused
  have hnever {session : Session} {goal : Prop} (hactive : runtime.session = some session) :
      goal := by
    rw [hidle] at hactive
    cases hactive
  have hdeaf {goal : Prop} (hlistening : runtime.Listening) : goal := by
    have hopen := hlistening.1
    rw [hpaused] at hopen
    cases hopen
  have hborder {events : List SwitchEvent}
      {ended : List (Session × SessionRevocationReason)}
      (hpassed : Passed runtime surroundings wakeup events ended after)
      (hnone : events = []) : after.core.created = runtime.core.created := by
    rw [hpassed.creates.created, hnone, List.map_nil, List.append_nil]
  cases hturn with
  | registered channel => rw [register_core]
  | left _ _ => rfl
  | disconnected _ hactive => exact hnever hactive
  | muted _ _ => rfl
  | unchanged _ hlistening _ _ => exact hdeaf hlistening
  | inner _ hlistening _ _ _ => exact hdeaf hlistening
  | announced _ hlistening _ _ _ _ => exact hdeaf hlistening
  | routed _ hlistening _ _ _ _ _ _ => exact hdeaf hlistening
  | overflowed _ hlistening _ _ _ _ _ _ => exact hdeaf hlistening
  | rejected _ _ _ _ => rw [reject_core]
  | unavailable _ _ _ _ _ _ =>
      rw [reject_core]
      rfl
  | abandoned clientId handshake hrejection base hready hgone =>
      apply hborder (runtime.passed_abandoned surroundings clientId handshake hrejection
        hready hgone)
      exact runtime.legacy_of_paused hpaused surroundings.now
  | accepted clientId handshake _ base _ _ =>
      rw [opened_session] at hstill
      cases hstill
  | refused clientId handshake hrejection base hready _ hrefuses =>
      have hreleased := runtime.releaseLegacy_allReleased surroundings hsettled hready
      apply hborder (runtime.passed_refused surroundings clientId handshake hrejection
        hready hrefuses hreleased)
      exact runtime.legacy_of_paused hpaused surroundings.now
  | renewed _ hactive => exact hnever hactive
  | stale _ _ _ => rfl
  | revoked _ hactive _ _ _ => exact hnever hactive
  | ignored _ _ _ => rfl

end Runtime

/-- A step that leaves the broker paused tells its clients of no event and of
no session. -/
theorem Sound.denied {runtime : Runtime} (hsound : Sound runtime) (step : Step)
    (hbefore : runtime.capture.enabled = false)
    (hafter : (runtime.step step).capture.enabled = false) :
    (runtime.step step).history.created = runtime.history.created ∧
      ∀ clientId, Queued clientId Denial runtime (runtime.step step) := by
  obtain ⟨mode, hmode⟩ := hsound.settled
  obtain ⟨later, hlater⟩ := (hsound.step step).settled
  have hsettled := runtime.settled_of_shut hmode hbefore
  have hidle : runtime.session = none := hsettled.1.1
  have hstill : (runtime.step step).session = none :=
    ((runtime.step step).settled_of_shut hlater hafter).1.1
  have hturn := runtime.step_turn step
  have hcreated := runtime.turn_silent step.surroundings hsettled hturn hstill
  have hnone : createdBy runtime step = [] := by
    have hlog : (runtime.step step).history.created = runtime.history.created := hcreated
    rw [createdBy, hlog, List.drop_length]
    rfl
  refine ⟨hcreated, fun clientId => ?_⟩
  obtain ⟨more, hqueue, hallowed⟩ := hsound.queued_bland step hidle hstill clientId
  refine ⟨more, hqueue, fun message hmem => ?_⟩
  obtain ⟨hnotice, haddressed⟩ := hallowed message hmem
  change notice? message = none at hnotice
  rw [addressedBy, hnone, addressed] at haddressed
  split_ifs at haddressed
  · rw [eventsFor_nil, List.nil_append] at haddressed
    rcases List.mem_append.mp haddressed with hresponse | hrevocation
    · obtain ⟨response, rfl⟩ := kind_of_mem_responsesFor hresponse
      cases response with
      | accepted _ _ _ _ => cases hnotice
      | rejected version reason => exact .rejected version reason
    · obtain ⟨ended, _, rfl⟩ := List.mem_map.mp hrevocation
      cases hnotice
  · rw [kind_of_mem_greetingsFor haddressed]
    exact .hello _

end Usahp.Broker

namespace Usahp.Capture

open Std Usahp.Library Usahp.Broker

section Step

variable {mappings : List Mapping} {started : Instant} {count : Nat} {daemon : Daemon count}
  {i : Fin count}

theorem setBackend_phase (daemon : Daemon count) (j : Fin count) (backend : Backend)
    (hself : backend.phase = (daemon.backends j).phase ∨ i ≠ j) :
    ((daemon.setBackend j backend).backends i).phase = (daemon.backends i).phase := by
  change (Function.update daemon.backends j backend i).phase = _
  by_cases heq : i = j
  · subst heq
    rw [Function.update_self]
    exact hself.resolve_right fun hne => hne rfl
  · rw [Function.update_of_ne heq]

/-- A thread that has stopped takes no further step. -/
theorem stopped_step (hstopped : (daemon.backends i).phase = .stopped) (capacity : Nat)
    (action : Action count) :
    ((daemon.step capacity action).backends i).phase = .stopped := by
  have hother {j : Fin count} (hphase : (daemon.backends j).phase ≠ .stopped) : i ≠ j := by
    rintro rfl
    exact hphase hstopped
  have hkept {j : Fin count} {after : Backend} (hphase : (daemon.backends j).phase ≠ .stopped) :
      ((daemon.setBackend j after).backends i).phase = .stopped :=
    (setBackend_phase daemon j after (.inr (hother hphase))).trans hstopped
  cases action with
  | receive now uuid =>
      dsimp only [Daemon.step]
      split
      · exact hstopped
      · exact hstopped
  | tick now uuid =>
      dsimp only [Daemon.step]
      split
      · exact hstopped
      · exact hstopped
  | proceed =>
      dsimp only [Daemon.step]
      split
      · exact (proceed_phase daemon _ _ i).trans hstopped
      · exact hstopped
  | finish =>
      dsimp only [Daemon.step]
      split
      · exact (finish_phase daemon _ _ _ _ i).trans hstopped
      · exact hstopped
  | submit command =>
      dsimp only [Daemon.step]
      split_ifs
      · exact hstopped
      · exact hstopped
  | poll j =>
      dsimp only [Daemon.step]
      split
      · rename_i hphase _
        exact hkept (by simp [hphase])
      · exact hstopped
  | obey j outcome =>
      dsimp only [Daemon.step]
      split
      · rename_i hphase _
        exact hkept (by simp [hphase])
      · exact hstopped
  | fetch j events =>
      dsimp only [Daemon.step]
      split
      · rename_i hphase
        exact hkept (by simp [hphase])
      · exact hstopped
  | fail j =>
      dsimp only [Daemon.step]
      split
      · rename_i hphase _
        exact hkept (by simp [hphase])
      · rename_i hphase _
        exact hkept (by simp [hphase])
      · exact hstopped
  | next j =>
      dsimp only [Daemon.step]
      split
      · rename_i hphase
        exact hkept (by simp [hphase])
      · rename_i hphase
        exact hkept (by simp [hphase])
      · rename_i hphase
        exact hkept (by simp [hphase])
      · exact hstopped
  | send j =>
      dsimp only [Daemon.step]
      split
      · rename_i hphase
        split_ifs
        · exact hkept (by simp [hphase])
        · exact hstopped
      · exact hstopped

/-- The broker awaits a resume that has an error already, if it awaits one. -/
def Failing : Task count → Prop
  | .commanding _ .resume _ firstError _ => firstError.isSome = true
  | _ => True

theorem Failing.answer {task : Task count} (h : Failing task) (j : Fin count)
    (reply : Except String Unit) : Failing (task.answer j reply) := by
  cases task with
  | idle => exact h
  | proceeding _ _ => exact h
  | commanding handler call awaited firstError later =>
      cases call with
      | pause => trivial
      | resume =>
          change (firstError.or _).isSome = true
          rw [Option.isSome_or, show firstError.isSome = true from h, Bool.true_or]

/-- A command to a thread that has stopped is an error. -/
theorem failing_commandBackends (hstopped : (daemon.backends i).phase = .stopped)
    (handler : Step) (call : CaptureCall) (later : List CaptureCall) :
    Failing (daemon.commandBackends handler call later).task := by
  cases call with
  | pause => trivial
  | resume =>
      change (if _ then _ else _ : Option String).isSome = true
      have hany : ((List.finRange count).any fun j => (daemon.backends j).phase.isStopped) =
          true := by
        apply List.any_eq_true.mpr
        exact ⟨i, List.mem_finRange i, by rw [hstopped]; rfl⟩
      rw [if_pos hany]
      rfl

/-- The broker has paused, and a thread that it would resume has stopped. -/
structure Outage (mappings : List Mapping) (started : Instant) (i : Fin count)
    (daemon : Daemon count) : Prop where
  faithful : Faithful mappings started daemon
  stopped : (daemon.backends i).phase = .stopped
  shut : daemon.enabled = false
  paused : daemon.runtime.capture.enabled = false
  failing : Failing daemon.task

/-- What a step of the daemon tells the clients while it stays paused. -/
def Denying (before after : Runtime) : Prop :=
  after.history.created = before.history.created ∧
    ∀ clientId, Broker.Queued clientId Denial before after

theorem Denying.refl (runtime : Runtime) : Denying runtime runtime :=
  ⟨rfl, fun _ => ⟨[], (List.append_nil _).symm, fun _ h => absurd h List.not_mem_nil⟩⟩

theorem Denying.trans {before middle after : Runtime} (hfirst : Denying before middle)
    (hsecond : Denying middle after) : Denying before after :=
  ⟨hsecond.1.trans hfirst.1, fun clientId => (hfirst.2 clientId).trans (hsecond.2 clientId)⟩

theorem Outage.step (h : Outage mappings started i daemon) (capacity : Nat)
    (action : Action count) :
    Outage mappings started i (daemon.step capacity action) ∧
      Denying daemon.runtime (daemon.step capacity action).runtime := by
  have hfaithful := h.faithful.step capacity action
  have hstopped := stopped_step h.stopped capacity action
  have hconsistent := h.faithful.consistent
  have hmoves := daemon.step_moves capacity action
  generalize daemon.step capacity action = after at hmoves hfaithful hstopped ⊢
  cases hmoves with
  | refused => exact ⟨h, .refl _⟩
  | received now uuid command rest _ _ =>
      exact ⟨⟨hfaithful, hstopped, h.shut, h.paused, trivial⟩, .refl _⟩
  | ticked now uuid _ =>
      exact ⟨⟨hfaithful, hstopped, h.shut, h.paused, trivial⟩, .refl _⟩
  | proceeded handler later htask =>
      cases later with
      | nil =>
          -- the handler has made its calls, and the flag is where it leaves it
          rw [htask] at hconsistent
          have hleads : Leads daemon.runtime handler daemon.enabled [] := hconsistent
          generalize hflag : daemon.enabled = flag at hleads
          cases hleads
          have hdown := hflag.symm.trans h.shut
          obtain ⟨steps, hsteps⟩ := h.faithful.reached
          have hsound : Sound daemon.runtime := by
            rw [hsteps]
            exact sound_run mappings started steps
          have hdenied := hsound.denied handler h.paused hdown
          exact ⟨⟨hfaithful, hstopped, h.shut, hdown, trivial⟩, hdenied⟩
      | cons call later =>
          cases call with
          | pause => exact ⟨⟨hfaithful, hstopped, rfl, h.paused, trivial⟩, .refl _⟩
          | resume =>
              have hfailing := failing_commandBackends h.stopped handler .resume later
              exact ⟨⟨hfaithful, hstopped, h.shut, h.paused, hfailing⟩, .refl _⟩
  | finished handler call firstError later htask =>
      have hfailing := h.failing
      rw [htask] at hfailing
      cases call with
      | pause => exact ⟨⟨hfaithful, hstopped, h.shut, h.paused, trivial⟩, .refl _⟩
      | resume =>
          cases firstError with
          | none => cases hfailing
          | some error => exact ⟨⟨hfaithful, hstopped, h.shut, h.paused, trivial⟩, .refl _⟩
  | submitted command _ =>
      exact ⟨⟨hfaithful, hstopped, h.shut, h.paused, h.failing⟩, .refl _⟩
  | moved _ j backend _ _ =>
      exact ⟨⟨hfaithful, hstopped, h.shut, h.paused, h.failing⟩, .refl _⟩
  | replied _ j backend reply _ _ =>
      exact ⟨⟨hfaithful, hstopped, h.shut, h.paused, h.failing.answer j reply⟩, .refl _⟩
  | sent j event inputs events _ _ =>
      exact ⟨⟨hfaithful, hstopped, h.shut, h.paused, h.failing⟩, .refl _⟩

end Step

variable (capacity : Nat) (mappings : List Mapping) (started : Instant) {count : Nat}

/-- Once a thread has stopped and the broker is paused between two commands,
neither the devices nor anything else is heard any more: whatever happens, no
session is opened, no event is created, and clients get only hellos and
rejections. -/
theorem outage_lasts (actions later : List (Action count)) (i : Fin count)
    (hstopped : (((daemon capacity mappings started count).run actions).backends i).phase =
      .stopped)
    (hidle : ((daemon capacity mappings started count).run actions).task = .idle)
    (hpaused : ((daemon capacity mappings started count).run actions).runtime.paused = true) :
    let before := (daemon capacity mappings started count).run actions
    let after := (daemon capacity mappings started count).run (actions ++ later)
    after.enabled = false ∧ after.runtime.paused = true ∧ after.runtime.session = none ∧
      after.runtime.history.created = before.runtime.history.created ∧
      ∀ clientId, Broker.Queued clientId Denial before.runtime after.runtime := by
  intro before after
  have hfaithful := faithful_run capacity mappings started actions
  have hdown := flag_of_paused hfaithful.reached hpaused
  have hshut : before.enabled = false := by
    have hflag := hfaithful.consistent
    rw [hidle] at hflag
    exact hflag.trans hdown
  have hstart : Outage mappings started i before := by
    refine ⟨hfaithful, hstopped, hshut, hdown, ?_⟩
    rw [hidle]
    trivial
  have hafter : after = (daemon capacity mappings started count).runFrom before later :=
    (daemon capacity mappings started count).run_append actions later
  have hlast : Outage mappings started i after ∧ Denying before.runtime after.runtime := by
    rw [hafter]
    apply (daemon capacity mappings started count).invariant_from
      (fun state => Outage mappings started i state ∧ Denying before.runtime state.runtime)
      _ before ⟨hstart, .refl _⟩
    intro state action hbefore
    obtain ⟨houtage, hdenying⟩ := hbefore.1.step capacity action
    exact ⟨houtage, hbefore.2.trans hdenying⟩
  obtain ⟨houtage, hcreated, hqueues⟩ := hlast
  obtain ⟨steps, hsteps⟩ := houtage.faithful.reached
  obtain ⟨mode, hmode⟩ := reachable_settled mappings started steps
  rw [← hsteps] at hmode
  have hsettled := after.runtime.settled_of_shut hmode houtage.paused
  exact ⟨houtage.shut, hsettled.1.2.1, hsettled.1.1, hcreated, hqueues⟩

/-- A session has ended with the device released, and the device is pulled out. -/
def pulledOut : List (Action 1) :=
  [.submit (.register (stuckChannel 7)), .receive 0 "", .proceed,
    .submit (.handshake 1 exclusiveHandshake), .receive 1 "session", .proceed,
    .submit (.revokeSession .explicitRevocation), .receive 2 "session", .proceed,
    .obey (Fin.last 0) (.ok ()), .finish, .proceed, .poll (Fin.last 0), .fail (Fin.last 0)]

/-- Its holder asks for another one. -/
def askedAgain : List (Action 1) :=
  [.submit (.handshake 1 exclusiveHandshake), .receive 3 "again", .proceed, .finish, .finish,
    .proceed]

theorem pulledOut_outage :
    ((daemon 1024 [padMapping] 0 1).run (pulledOut ++ askedAgain)).runtime.session = none :=
  (outage_lasts 1024 [padMapping] 0 pulledOut askedAgain (Fin.last 0) rfl rfl (by decide)).2.2.1

end Usahp.Capture
