import Usahp.Broker.Steady
import Usahp.Capture.Backends

/-!
The handlers of the threaded daemon take turns. A handler awaits the threads in
the middle, and meanwhile they move and commands arrive; all the same the
handlers get the commands of the channel in order, each one once, and between
two of them the flag that the threads read is the one of the broker model.
-/

namespace Usahp.Capture

open Std Usahp.Library Usahp.Broker

def Task.handler {count : Nat} : Task count → Option Step
  | .idle => none
  | .proceeding handler _ => some handler
  | .commanding handler _ _ _ _ => some handler

namespace Daemon

variable {count : Nat}

/-- The command that an action puts into the channel. -/
def offered (capacity : Nat) (daemon : Daemon count) : Action count → Option BrokerCommand
  | .submit command => if daemon.queue.length < capacity then some command else none
  | .send i =>
      match (daemon.backends i).phase with
      | .sending (event :: _) _ =>
          if daemon.queue.length < capacity then some (.input event) else none
      | _ => none
  | _ => none

/-- The handler that an action brings to its end. -/
def completed (daemon : Daemon count) : Action count → Option Step
  | .proceed =>
      match daemon.task with
      | .proceeding handler [] => some handler
      | _ => none
  | _ => none

/-- The command that the broker has taken and not yet dealt with. -/
def inHand (daemon : Daemon count) : List BrokerCommand :=
  commandsOf daemon.task.handler.toList

end Daemon

section Step

variable {count : Nat} {before after : Daemon count}

/-- What one action does to the commands and to the state of the broker. -/
structure Accounts (before : Daemon count) (handled : Option Step)
    (posted : Option BrokerCommand) (after : Daemon count) : Prop where
  runtime : after.runtime = handled.elim before.runtime before.runtime.step
  commands : commandsOf handled.toList ++ (after.inHand ++ after.queue) =
    before.inHand ++ before.queue ++ posted.toList

/-- An action of a thread, or one that its party cannot take. -/
theorem Accounts.quiet (hruntime : after.runtime = before.runtime)
    (hhandler : after.task.handler = before.task.handler) (hqueue : after.queue = before.queue) :
    Accounts before none none after := by
  have hhand : after.inHand = before.inHand := by
    rw [Daemon.inHand, hhandler]
    rfl
  refine ⟨hruntime, ?_⟩
  rw [hhand, hqueue]
  exact (List.append_nil _).symm

theorem Accounts.posted (hruntime : after.runtime = before.runtime)
    (hhandler : after.task.handler = before.task.handler) {command : BrokerCommand}
    (hqueue : after.queue = before.queue ++ [command]) :
    Accounts before none (some command) after := by
  have hhand : after.inHand = before.inHand := by
    rw [Daemon.inHand, hhandler]
    rfl
  refine ⟨hruntime, ?_⟩
  rw [hhand, hqueue]
  change before.inHand ++ (before.queue ++ [command]) = _
  exact (List.append_assoc _ _ _).symm

/-- A handler that begins has its command in hand, which was the first one. -/
theorem Accounts.taken (hruntime : after.runtime = before.runtime)
    (hidle : before.task.handler = none)
    (hfirst : before.queue = after.inHand ++ after.queue) :
    Accounts before none none after := by
  have hfree : before.inHand = [] := by
    rw [Daemon.inHand, hidle]
    rfl
  refine ⟨hruntime, ?_⟩
  rw [← hfirst, hfree]
  exact (List.append_nil _).symm

theorem answer_handler (task : Task count) (i : Fin count) (reply : Except String Unit) :
    (task.answer i reply).handler = task.handler := by
  cases task with
  | idle => rfl
  | proceeding _ _ => rfl
  | commanding _ _ _ _ _ => rfl

theorem accounts_proceed {handler : Step} {later : List CaptureCall}
    (htask : before.task = .proceeding handler later) :
    Accounts before (before.completed .proceed) none (before.proceed handler later) := by
  dsimp only [Daemon.completed]
  rw [htask]
  cases later with
  | nil =>
      have hhand : before.inHand = commandsOf [handler] := by
        rw [Daemon.inHand, htask]
        rfl
      refine ⟨rfl, ?_⟩
      rw [hhand]
      exact (List.append_nil _).symm
  | cons call later =>
      cases call with
      | pause => exact .quiet rfl (by rw [htask]; rfl) rfl
      | resume => exact .quiet rfl (by rw [htask]; rfl) rfl

/-- A handler that goes on with another reply of the threads has the same
command in hand. -/
theorem accounts_finish {handler : Step} {call : CaptureCall} {awaited : List (Fin count)}
    {firstError : Option String} {later : List CaptureCall}
    (htask : before.task = .commanding handler call awaited firstError later) :
    Accounts before none none (before.finish handler later call firstError) := by
  cases call with
  | pause => exact .quiet rfl (by rw [htask]; rfl) rfl
  | resume =>
      cases firstError with
      | none => exact .quiet rfl (by rw [htask]; rfl) rfl
      | some error =>
          have hhand : before.inHand = commandsOf [handler] := by
            rw [Daemon.inHand, htask]
            rfl
          refine ⟨rfl, ?_⟩
          rw [hhand]
          exact (List.append_nil _).symm

theorem accounts_step (before : Daemon count) (capacity : Nat) (action : Action count) :
    Accounts before (before.completed action) (before.offered capacity action)
      (before.step capacity action) := by
  have hrefused : Accounts before none none before := .quiet rfl rfl rfl
  cases action with
  | receive now uuid =>
      dsimp only [Daemon.step]
      split
      · rename_i command rest hidle hqueue
        exact .taken rfl (by rw [hidle]; rfl) hqueue
      · exact hrefused
  | tick now uuid =>
      dsimp only [Daemon.step]
      split
      · rename_i hidle
        exact .taken rfl (by rw [hidle]; rfl) rfl
      · exact hrefused
  | proceed =>
      dsimp only [Daemon.step]
      split
      · rename_i handler later htask
        exact accounts_proceed htask
      · rename_i hother
        have hnone : before.completed .proceed = none := by
          dsimp only [Daemon.completed]
          split
          · rename_i handler htask
            exact absurd htask (hother handler [])
          · rfl
        rw [hnone]
        exact hrefused
  | finish =>
      dsimp only [Daemon.step]
      split
      · rename_i handler call firstError later htask
        exact accounts_finish htask
      · exact hrefused
  | submit command =>
      dsimp only [Daemon.step, Daemon.offered]
      split_ifs
      · apply Accounts.posted
        · rfl
        · rfl
        · rfl
      · exact hrefused
  | poll i =>
      dsimp only [Daemon.step]
      split
      · exact .quiet rfl rfl rfl
      · exact hrefused
  | obey i outcome =>
      dsimp only [Daemon.step]
      split
      · exact .quiet rfl (answer_handler before.task i _) rfl
      · exact hrefused
  | fetch i events =>
      dsimp only [Daemon.step]
      split
      · exact .quiet rfl rfl rfl
      · exact hrefused
  | fail i =>
      dsimp only [Daemon.step]
      split
      · exact .quiet rfl rfl rfl
      · apply Accounts.quiet
        · rfl
        · exact answer_handler before.task i
            (.error "capture backend did not acknowledge command")
        · rfl
      · exact hrefused
  | next i =>
      dsimp only [Daemon.step]
      split
      · exact .quiet rfl rfl rfl
      · exact .quiet rfl rfl rfl
      · exact .quiet rfl rfl rfl
      · exact hrefused
  | send i =>
      dsimp only [Daemon.step, Daemon.offered]
      cases (before.backends i).phase with
      | control => exact hrefused
      | fetch => exact hrefused
      | batch _ => exact hrefused
      | stopped => exact hrefused
      | sending inputs events =>
          cases inputs with
          | nil => exact hrefused
          | cons event inputs =>
              dsimp only
              split_ifs
              · apply Accounts.posted
                · rfl
                · rfl
                · rfl
              · exact hrefused

end Step

variable (capacity : Nat) (mappings : List Mapping) (started : Instant) {count : Nat}

/-- The handlers that have come to their end in a run. -/
def handled (actions : List (Action count)) : List Step :=
  (daemon capacity mappings started count).visible Daemon.completed
    (daemon capacity mappings started count).start actions

/-- The commands that found room in the channel in a run. -/
def posted (actions : List (Action count)) : List BrokerCommand :=
  (daemon capacity mappings started count).visible (Daemon.offered capacity)
    (daemon capacity mappings started count).start actions

theorem faithful_run (actions : List (Action count)) :
    Faithful mappings started ((daemon capacity mappings started count).run actions) :=
  (daemon capacity mappings started count).invariant (Faithful mappings started)
    ⟨⟨[], rfl⟩, rfl⟩ (fun _ action h => h.step capacity action) actions

theorem accounts_run (actions : List (Action count)) :
    ((daemon capacity mappings started count).run actions).runtime =
      (broker mappings started).run (handled capacity mappings started actions) ∧
    posted capacity mappings started actions =
      commandsOf (handled capacity mappings started actions) ++
        (((daemon capacity mappings started count).run actions).inHand ++
          ((daemon capacity mappings started count).run actions).queue) := by
  refine (daemon capacity mappings started count).history_invariant
    (fun actions state =>
      state.runtime = (broker mappings started).run (handled capacity mappings started actions) ∧
      posted capacity mappings started actions =
        commandsOf (handled capacity mappings started actions) ++
          (state.inHand ++ state.queue)) ⟨rfl, rfl⟩ ?_ actions
  rintro actions action ⟨hruntime, hcommands⟩
  have haccounts := accounts_step ((daemon capacity mappings started count).run actions)
    capacity action
  have hsteps : handled capacity mappings started (actions ++ [action]) =
      handled capacity mappings started actions ++
        (((daemon capacity mappings started count).run actions).completed action).toList :=
    Machine.visible_concat _ _ _ _ _
  have hposted : posted capacity mappings started (actions ++ [action]) =
      posted capacity mappings started actions ++
        (((daemon capacity mappings started count).run actions).offered capacity action).toList :=
    Machine.visible_concat _ _ _ _ _
  constructor
  · refine haccounts.runtime.trans ?_
    rw [hsteps, hruntime]
    cases ((daemon capacity mappings started count).run actions).completed action with
    | none => rw [Option.toList_none, List.append_nil]; rfl
    | some handler => exact ((broker mappings started).run_concat _ handler).symm
  · rw [hposted, hcommands, hsteps, List.append_assoc, ← haccounts.commands, commandsOf_append,
      List.append_assoc]
    rfl

/-- Whatever the threads do in the middle of a handler, the commands that found
room in the channel are those of the handlers that are at their end, in order,
the one in hand and those in the channel: none is lost, doubled or overtaken.
Between two handlers the shared flag is where the broker model leaves it after
the handlers that are at their end. -/
theorem handlers_in_turn (actions : List (Action count)) :
    let state := (daemon capacity mappings started count).run actions
    let steps := handled capacity mappings started actions
    posted capacity mappings started actions =
      commandsOf steps ++ (state.inHand ++ state.queue) ∧
    (state.task = .idle →
      state.enabled = ((broker mappings started).run steps).capture.enabled) := by
  intro state steps
  obtain ⟨hruntime, hcommands⟩ := accounts_run capacity mappings started actions
  refine ⟨hcommands, fun hidle => ?_⟩
  have hflag := (faithful_run capacity mappings started actions).consistent
  change Consistent state.runtime _ state.task at hflag
  have hsame : state.runtime = (broker mappings started).run steps := hruntime
  rw [hidle, hsame] at hflag
  exact hflag

end Usahp.Capture
