import Usahp.Broker.Holder
import Usahp.Capture.Calls

/-!
The daemon on Linux, with its threads. The broker task is the only receiver of
a bounded command channel; each evdev thread sends its input through that
channel and gets commands of its own, which the broker waits for. One action
is one step of one of the parties, so a run is an interleaving.

The handlers of the broker are those of the broker model. Here they are cut
open at their calls of the capture control, where other threads run.
-/

namespace Usahp.Capture

open Std Usahp.Library Usahp.Broker

/-- Where an evdev thread is in its loop. An event of the device stands for the
inputs of the mappings of its key. -/
inductive Phase where
  | control
  | fetch
  | batch (events : List (List PhysicalEvent))
  | sending (inputs : List PhysicalEvent) (events : List (List PhysicalEvent))
  | stopped

/-- A control channel holds one command at most: the next one is sent after all
replies to the last one. -/
structure Backend where
  phase : Phase
  command : Option CaptureCall
  grabbed : Bool

/-- The broker task. A handler goes on with `proceeding`, where `later` are the
calls of the capture control it still makes, and is suspended in
`commanding`. -/
inductive Task (count : Nat) where
  | idle
  | proceeding (handler : Step) (later : List CaptureCall)
  | commanding (handler : Step) (call : CaptureCall) (awaited : List (Fin count))
      (firstError : Option String) (later : List CaptureCall)

structure Daemon (count : Nat) where
  runtime : Runtime
  /-- The flag that the broker shares with the threads. -/
  enabled : Bool
  queue : List BrokerCommand
  backends : Fin count → Backend
  task : Task count

inductive Action (count : Nat) where
  | receive (now : Instant) (uuid : String)
  | tick (now : Instant) (uuid : String)
  | proceed
  | finish
  /-- A command of any other sender finds room in the channel. -/
  | submit (command : BrokerCommand)
  | poll (backend : Fin count)
  | obey (backend : Fin count) (outcome : Except String Unit)
  | fetch (backend : Fin count) (events : List (List PhysicalEvent))
  | fail (backend : Fin count)
  | next (backend : Fin count)
  | send (backend : Fin count)

def Phase.isStopped : Phase → Bool
  | .stopped => true
  | _ => false

/-- Inside the sends of one event, with one more to do: the flag was checked
before, and control commands are read only after. -/
def Phase.InsideSend : Phase → Prop
  | .sending (_ :: _) _ => True
  | _ => False

instance (phase : Phase) : Decidable phase.InsideSend :=
  match phase with
  | .sending (_ :: _) _ => isTrue trivial
  | .sending [] _ => isFalse id
  | .control => isFalse id
  | .fetch => isFalse id
  | .batch _ => isFalse id
  | .stopped => isFalse id

theorem Phase.InsideSend.running {phase : Phase} (h : phase.InsideSend) :
    phase.isStopped = false := by
  cases phase with
  | stopped => exact h.elim
  | control => rfl
  | fetch => rfl
  | batch _ => rfl
  | sending _ _ => rfl

/-- What a thread does with a command; `outcome` is what the device says where
it is asked. -/
def Backend.obey (backend : Backend) (call : CaptureCall) (outcome : Except String Unit) :
    Except String Unit × Backend :=
  match call with
  | .pause =>
      if backend.grabbed then
        (outcome, { backend with command := none, grabbed := !outcome.isOk })
      else (.ok (), { backend with command := none })
  | .resume =>
      (outcome, { backend with command := none, grabbed := backend.grabbed || outcome.isOk })

theorem Backend.obey_phase (backend : Backend) (call : CaptureCall) (outcome : Except String Unit) :
    (backend.obey call outcome).2.phase = backend.phase := by
  cases call with
  | pause =>
      unfold Backend.obey
      split_ifs
      · rfl
      · rfl
  | resume => rfl

def Task.Awaits {count : Nat} (backend : Fin count) : Task count → Prop
  | .commanding _ _ awaited _ _ => backend ∈ awaited
  | _ => False

instance {count : Nat} (backend : Fin count) (task : Task count) :
    Decidable (task.Awaits backend) :=
  match task with
  | .commanding _ _ awaited _ _ => inferInstanceAs (Decidable (backend ∈ awaited))
  | .idle => isFalse id
  | .proceeding _ _ => isFalse id

/-- The reply of a backend. A reply that is dropped counts as an error, and the
first error is kept. -/
def Task.answer {count : Nat} (backend : Fin count) (reply : Except String Unit) :
    Task count → Task count
  | .commanding handler call awaited firstError later =>
      let error :=
        match reply with
        | .ok _ => none
        | .error error => some error
      .commanding handler call (awaited.erase backend) (firstError.or error) later
  | task => task

namespace Daemon

variable {count : Nat}

def setBackend (daemon : Daemon count) (i : Fin count) (backend : Backend) :
    Daemon count :=
  { daemon with backends := Function.update daemon.backends i backend }

/-- `command_backends`: the command goes to every thread that is still there,
and the replies are awaited. -/
def commandBackends (daemon : Daemon count) (handler : Step) (call : CaptureCall)
    (later : List CaptureCall) : Daemon count :=
  let stopped := fun i => (daemon.backends i).phase.isStopped
  { daemon with
    backends := fun i =>
      if stopped i then daemon.backends i
      else { daemon.backends i with command := some call }
    task := .commanding handler call ((List.finRange count).filter fun i => !stopped i)
      (if (List.finRange count).any stopped then some "capture backend stopped" else none)
      later }

/-- A handler begins. Its calls are those it makes when a resume succeeds. -/
def handle (daemon : Daemon count) (now : Instant) (uuid : String) (wakeup : Wakeup) :
    Daemon count :=
  let handler : Step := ⟨⟨now, uuid, .ok (), .ok ()⟩, wakeup⟩
  { daemon with task := .proceeding handler (daemon.runtime.calls handler) }

/-- The broker runs to its next call of the capture control, or to the end of
the handler. `pause` clears the flag first. What a handler changes before it
awaits the threads stands in `runtime` only at its end. Deadlocks, epochs, the
order of the commands and the flag are not read off `runtime` in between, and
while an outage lasts a handler that awaits the threads has changed nothing. -/
def proceed (daemon : Daemon count) (handler : Step) : List CaptureCall → Daemon count
  | [] => { daemon with runtime := daemon.runtime.step handler, task := .idle }
  | .pause :: later => { daemon with enabled := false }.commandBackends handler .pause later
  | .resume :: later => daemon.commandBackends handler .resume later

/-- All replies are there. A failed pause is only logged; a failed resume
commands a pause and lets the handler go on with the error. -/
def finish (daemon : Daemon count) (handler : Step) (later : List CaptureCall) :
    CaptureCall → Option String → Daemon count
  | .pause, _ => { daemon with task := .proceeding handler later }
  | .resume, none => { daemon with enabled := true, task := .proceeding handler later }
  | .resume, some error =>
      daemon.commandBackends
        { handler with surroundings.resumeReply := .error error } .pause []

/-- An action that its party cannot take changes nothing. -/
def step (capacity : Nat) (daemon : Daemon count) : Action count → Daemon count
  | .receive now uuid =>
      match daemon.task, daemon.queue with
      | .idle, command :: rest => { daemon with queue := rest }.handle now uuid (.command command)
      | _, _ => daemon
  | .tick now uuid =>
      match daemon.task with
      | .idle => daemon.handle now uuid .tick
      | _ => daemon
  | .proceed =>
      match daemon.task with
      | .proceeding handler later => daemon.proceed handler later
      | _ => daemon
  | .finish =>
      match daemon.task with
      | .commanding handler call [] firstError later =>
          daemon.finish handler later call firstError
      | _ => daemon
  | .submit command =>
      if daemon.queue.length < capacity then
        { daemon with queue := daemon.queue ++ [command] }
      else daemon
  | .poll i =>
      match (daemon.backends i).phase, (daemon.backends i).command with
      | .control, none => daemon.setBackend i { daemon.backends i with phase := .fetch }
      | _, _ => daemon
  | .obey i outcome =>
      match (daemon.backends i).phase, (daemon.backends i).command with
      | .control, some call =>
          let (reply, backend) := (daemon.backends i).obey call outcome
          { daemon.setBackend i backend with task := daemon.task.answer i reply }
      | _, _ => daemon
  | .fetch i events =>
      match (daemon.backends i).phase with
      | .fetch => daemon.setBackend i { daemon.backends i with phase := .batch events }
      | _ => daemon
  | .fail i =>
      match (daemon.backends i).phase, (daemon.backends i).command with
      | .fetch, none => daemon.setBackend i { daemon.backends i with phase := .stopped }
      | .fetch, some _ =>
          { daemon.setBackend i { daemon.backends i with phase := .stopped, command := none } with
            task := daemon.task.answer i
              (.error "capture backend did not acknowledge command") }
      | _, _ => daemon
  | .next i =>
      match (daemon.backends i).phase with
      | .batch [] => daemon.setBackend i { daemon.backends i with phase := .control }
      | .batch (inputs :: events) =>
          daemon.setBackend i { daemon.backends i with
            phase := if daemon.enabled then .sending inputs events else .batch events }
      | .sending [] events => daemon.setBackend i { daemon.backends i with phase := .batch events }
      | _ => daemon
  | .send i =>
      match (daemon.backends i).phase with
      | .sending (event :: inputs) events =>
          if daemon.queue.length < capacity then
            { daemon.setBackend i { daemon.backends i with phase := .sending inputs events } with
              queue := daemon.queue ++ [.input event] }
          else daemon
      | _ => daemon

/-- What an action does when its party can take it. A thread that moves is
between two events, or it sends the next input of the present one. -/
inductive Moves (capacity : Nat) (before : Daemon count) : Action count → Daemon count → Prop
  | refused (action : Action count) : Moves capacity before action before
  | received (now : Instant) (uuid : String) (command : BrokerCommand)
      (rest : List BrokerCommand) (idle : before.task = .idle)
      (head : before.queue = command :: rest) :
      Moves capacity before (.receive now uuid)
        ({ before with queue := rest }.handle now uuid (.command command))
  | ticked (now : Instant) (uuid : String) (idle : before.task = .idle) :
      Moves capacity before (.tick now uuid) (before.handle now uuid .tick)
  | proceeded (handler : Step) (later : List CaptureCall)
      (task : before.task = .proceeding handler later) :
      Moves capacity before .proceed (before.proceed handler later)
  | finished (handler : Step) (call : CaptureCall) (firstError : Option String)
      (later : List CaptureCall)
      (task : before.task = .commanding handler call [] firstError later) :
      Moves capacity before .finish (before.finish handler later call firstError)
  | submitted (command : BrokerCommand) (room : before.queue.length < capacity) :
      Moves capacity before (.submit command)
        { before with queue := before.queue ++ [command] }
  | moved (action : Action count) (i : Fin count) (backend : Backend)
      (between : ¬ (before.backends i).phase.InsideSend)
      (checked : backend.phase.InsideSend → before.enabled = true) :
      Moves capacity before action (before.setBackend i backend)
  | replied (action : Action count) (i : Fin count) (backend : Backend)
      (reply : Except String Unit) (between : ¬ (before.backends i).phase.InsideSend)
      (outside : ¬ backend.phase.InsideSend) :
      Moves capacity before action
        { before.setBackend i backend with task := before.task.answer i reply }
  | sent (i : Fin count) (event : PhysicalEvent) (inputs : List PhysicalEvent)
      (events : List (List PhysicalEvent))
      (phase : (before.backends i).phase = .sending (event :: inputs) events)
      (room : before.queue.length < capacity) :
      Moves capacity before (.send i)
        { before.setBackend i { before.backends i with phase := .sending inputs events } with
          queue := before.queue ++ [.input event] }

theorem step_moves (daemon : Daemon count) (capacity : Nat) (action : Action count) :
    daemon.Moves capacity action (daemon.step capacity action) := by
  cases action with
  | receive now uuid =>
      dsimp only [step]
      split
      · rename_i command rest hidle hqueue
        exact .received now uuid command rest hidle hqueue
      · exact .refused _
  | tick now uuid =>
      dsimp only [step]
      split
      · rename_i hidle
        exact .ticked now uuid hidle
      · exact .refused _
  | proceed =>
      dsimp only [step]
      split
      · rename_i handler later htask
        exact .proceeded handler later htask
      · exact .refused _
  | finish =>
      dsimp only [step]
      split
      · rename_i handler call firstError later htask
        exact .finished handler call firstError later htask
      · exact .refused _
  | submit command =>
      dsimp only [step]
      split_ifs with hroom
      · exact .submitted command hroom
      · exact .refused _
  | poll i =>
      dsimp only [step]
      split
      · rename_i hphase _
        refine .moved _ i _ ?_ False.elim
        rw [hphase]
        exact id
      · exact .refused _
  | obey i outcome =>
      dsimp only [step]
      split
      · rename_i call hphase _
        refine .replied _ i _ _ ?_ ?_
        · rw [hphase]
          exact id
        · rw [Backend.obey_phase, hphase]
          exact id
      · exact .refused _
  | fetch i events =>
      dsimp only [step]
      split
      · rename_i hphase
        refine .moved _ i _ ?_ False.elim
        rw [hphase]
        exact id
      · exact .refused _
  | fail i =>
      dsimp only [step]
      split
      · rename_i hphase _
        refine .moved _ i _ ?_ False.elim
        rw [hphase]
        exact id
      · rename_i hphase _
        refine .replied _ i _ _ ?_ id
        rw [hphase]
        exact id
      · exact .refused _
  | next i =>
      dsimp only [step]
      split
      · rename_i hphase
        refine .moved _ i _ ?_ False.elim
        rw [hphase]
        exact id
      · rename_i inputs events hphase
        refine .moved _ i _ ?_ fun hinside => ?_
        · rw [hphase]
          exact id
        · -- the flag is what lets the thread begin to send
          by_contra hdown
          rw [if_neg hdown] at hinside
          exact hinside
      · rename_i hphase
        refine .moved _ i _ ?_ False.elim
        rw [hphase]
        exact id
      · exact .refused _
  | send i =>
      dsimp only [step]
      split
      · rename_i event inputs events hphase
        split_ifs with hroom
        · exact .sent i event inputs events hphase hroom
        · exact .refused _
      · exact .refused _

end Daemon

/-- The daemon with its threads started, every device grabbed. -/
def daemon (capacity : Nat) (mappings : List Mapping) (started : Instant) (count : Nat) :
    Machine (Daemon count) (Action count) where
  start :=
    { runtime := Runtime.new mappings started
      enabled := true
      queue := []
      backends := fun _ => { phase := .control, command := none, grabbed := true }
      task := .idle }
  step := Daemon.step capacity

/-- The broker waits for a backend that waits for room in the channel. -/
def Deadlocked (capacity : Nat) {count : Nat} (daemon : Daemon count) : Prop :=
  ∃ i, daemon.task.Awaits i ∧ (daemon.backends i).phase.InsideSend ∧
    capacity ≤ daemon.queue.length

/-- No pause begins while a backend is inside the sends of an event. -/
def Unhindered {count : Nat} (daemon : Daemon count) (action : Action count) : Prop :=
  ∀ handler later, action = .proceed → daemon.task = .proceeding handler (.pause :: later) →
    ∀ i, ¬ (daemon.backends i).phase.InsideSend

/-- Where a resume fails the handler leaves the flag down. -/
def FailsShut (runtime : Runtime) (handler : Step) : Prop :=
  ∀ error, (runtime.step
    { handler with surroundings.resumeReply := .error error }).capture.enabled = false

/-- The calls that are left lead from the present flag to the one the handler
ends with. Only a flag that is down is resumed. -/
inductive Leads (runtime : Runtime) (handler : Step) : Bool → List CaptureCall → Prop
  | done : Leads runtime handler (runtime.step handler).capture.enabled []
  | pause (enabled : Bool) (shut : (runtime.step handler).capture.enabled = false) :
      Leads runtime handler enabled [.pause]
  | resume (later : List CaptureCall) (rest : Leads runtime handler true later)
      (fails : FailsShut runtime handler) : Leads runtime handler false (.resume :: later)

/-- The flag as the task sees it. -/
def Consistent (runtime : Runtime) (enabled : Bool) {count : Nat} : Task count → Prop
  | .idle => enabled = runtime.capture.enabled
  | .proceeding handler later => Leads runtime handler enabled later
  | .commanding handler call _ _ later =>
      enabled = false ∧ Leads runtime handler (call = .resume) later ∧
        (call = .resume → FailsShut runtime handler)

/-- The invariant of the runs without a hindered pause. -/
structure Calm (mappings : List Mapping) (started : Instant) {count : Nat}
    (daemon : Daemon count) : Prop where
  reached : ∃ steps, daemon.runtime = (broker mappings started).run steps
  clear : daemon.enabled = false → ∀ i, ¬ (daemon.backends i).phase.InsideSend
  consistent : Consistent daemon.runtime daemon.enabled daemon.task

section Step

variable {mappings : List Mapping} {started : Instant} {count : Nat} {daemon : Daemon count}

theorem flag_of_paused {runtime : Runtime}
    (hreached : ∃ steps, runtime = (broker mappings started).run steps)
    (hpaused : runtime.paused = true) : runtime.capture.enabled = false := by
  obtain ⟨steps, rfl⟩ := hreached
  obtain ⟨mode, hsettled⟩ := reachable_settled mappings started steps
  cases mode with
  | paused => exact hsettled.1.2.2
  | broadcast => exact absurd (hsettled.1.2.1.symm.trans hpaused) Bool.false_ne_true
  | managed key => exact absurd (hsettled.1.2.1.symm.trans hpaused) Bool.false_ne_true

theorem failsShut {runtime : Runtime} (hdown : runtime.capture.enabled = false)
    (handler : Step) : FailsShut runtime handler := by
  intro error
  have hcommands := runtime.step_commands
    { handler with surroundings.resumeReply := .error error }
  generalize runtime.calls { handler with surroundings.resumeReply := .error error } = calls
    at hcommands
  generalize (runtime.step
    { handler with surroundings.resumeReply := .error error }).capture.enabled = flag
    at hcommands ⊢
  cases hcommands with
  | quiet => exact hdown
  | paused => rfl
  | resumed _ hok => cases hok
  | failed _ _ _ => exact hdown
  | returned _ hok => cases hok

/-- A handler that counts on the backends to obey. -/
theorem leads_calls {runtime : Runtime}
    (hreached : ∃ steps, runtime = (broker mappings started).run steps) {handler : Step}
    (hok : handler.surroundings.resumeReply = .ok ()) :
    Leads runtime handler runtime.capture.enabled (runtime.calls handler) := by
  have hcommands := runtime.step_commands handler
  generalize runtime.calls handler = calls at hcommands ⊢
  generalize hflag : (runtime.step handler).capture.enabled = flag at hcommands
  cases hcommands with
  | quiet =>
      rw [← hflag]
      exact .done
  | paused => exact .pause _ hflag
  | resumed hpaused _ =>
      have hdown := flag_of_paused hreached hpaused
      rw [hdown]
      refine .resume [] ?_ (failsShut hdown handler)
      rw [← hflag]
      exact .done
  | failed _ error hfailed => cases hok.symm.trans hfailed
  | returned hpaused _ =>
      have hdown := flag_of_paused hreached hpaused
      rw [hdown]
      exact .resume [.pause] (.pause true hflag) (failsShut hdown handler)

theorem consistent_answer (runtime : Runtime) (enabled : Bool) (i : Fin count)
    (reply : Except String Unit) (task : Task count) :
    Consistent runtime enabled (task.answer i reply) ↔ Consistent runtime enabled task := by
  cases task with
  | idle => exact Iff.rfl
  | proceeding _ _ => exact Iff.rfl
  | commanding _ _ _ _ _ => exact Iff.rfl

theorem commandBackends_phase (daemon : Daemon count) (handler : Step) (call : CaptureCall)
    (later : List CaptureCall) (i : Fin count) :
    ((daemon.commandBackends handler call later).backends i).phase =
      (daemon.backends i).phase := by
  change (if _ then _ else _ : Backend).phase = _
  split_ifs
  · rfl
  · rfl

/-- The broker moves no thread. -/
theorem proceed_phase (daemon : Daemon count) (handler : Step) (later : List CaptureCall)
    (i : Fin count) :
    ((daemon.proceed handler later).backends i).phase = (daemon.backends i).phase := by
  cases later with
  | nil => rfl
  | cons call later =>
      cases call with
      | pause => exact commandBackends_phase _ handler .pause later i
      | resume => exact commandBackends_phase _ handler .resume later i

theorem finish_phase (daemon : Daemon count) (handler : Step) (later : List CaptureCall)
    (call : CaptureCall) (firstError : Option String) (i : Fin count) :
    ((daemon.finish handler later call firstError).backends i).phase =
      (daemon.backends i).phase := by
  cases call with
  | pause => rfl
  | resume =>
      cases firstError with
      | none => rfl
      | some error => exact commandBackends_phase _ _ .pause [] i

/-- What the daemon keeps whatever its threads do: the broker is in a state that
its model reaches, and the flag is where the handler and its calls say. -/
structure Faithful (mappings : List Mapping) (started : Instant) {count : Nat}
    (daemon : Daemon count) : Prop where
  reached : ∃ steps, daemon.runtime = (broker mappings started).run steps
  consistent : Consistent daemon.runtime daemon.enabled daemon.task

namespace Faithful

theorem setBackend (h : Faithful mappings started daemon) (i : Fin count)
    (backend : Backend) : Faithful mappings started (daemon.setBackend i backend) :=
  ⟨h.reached, h.consistent⟩

theorem answer (h : Faithful mappings started daemon) (i : Fin count)
    (reply : Except String Unit) :
    Faithful mappings started { daemon with task := daemon.task.answer i reply } where
  reached := h.reached
  consistent := (consistent_answer _ _ i reply _).mpr h.consistent

theorem setQueue (h : Faithful mappings started daemon) (queue : List BrokerCommand) :
    Faithful mappings started { daemon with queue } :=
  ⟨h.reached, h.consistent⟩

theorem handle (h : Faithful mappings started daemon) (hidle : daemon.task = .idle)
    (now : Instant) (uuid : String) (wakeup : Wakeup) :
    Faithful mappings started (daemon.handle now uuid wakeup) where
  reached := h.reached
  consistent := by
    have hflag := h.consistent
    rw [hidle] at hflag
    change daemon.enabled = daemon.runtime.capture.enabled at hflag
    change Leads _ _ daemon.enabled _
    rw [hflag]
    exact leads_calls h.reached rfl

theorem proceed (h : Faithful mappings started daemon) {handler : Step}
    {later : List CaptureCall} (htask : daemon.task = .proceeding handler later) :
    Faithful mappings started (daemon.proceed handler later) := by
  have hleads := h.consistent
  rw [htask] at hleads
  change Leads _ _ _ _ at hleads
  generalize henabled : daemon.enabled = enabled at hleads
  cases hleads with
  | done =>
      obtain ⟨steps, hsteps⟩ := h.reached
      refine ⟨⟨steps ++ [handler], ?_⟩, henabled⟩
      rw [Machine.run_concat, ← hsteps]
      rfl
  | pause _ hshut =>
      refine ⟨h.reached, rfl, ?_, by rintro ⟨⟩⟩
      change Leads daemon.runtime handler false []
      rw [← hshut]
      exact .done
  | resume later hrest hfails => exact ⟨h.reached, henabled, hrest, fun _ => hfails⟩

theorem finish (h : Faithful mappings started daemon) {handler : Step} {call : CaptureCall}
    {awaited : List (Fin count)} {firstError : Option String} {later : List CaptureCall}
    (htask : daemon.task = .commanding handler call awaited firstError later) :
    Faithful mappings started (daemon.finish handler later call firstError) := by
  have hconsistent := h.consistent
  rw [htask] at hconsistent
  obtain ⟨hdown, hleads, hfails⟩ := hconsistent
  cases call with
  | pause =>
      refine ⟨h.reached, ?_⟩
      change Leads _ _ daemon.enabled _
      rw [hdown]
      exact hleads
  | resume =>
      cases firstError with
      | none => exact ⟨h.reached, hleads⟩
      | some error =>
          refine ⟨h.reached, hdown, ?_, by rintro ⟨⟩⟩
          have hshut := hfails rfl error
          change Leads daemon.runtime
            { handler with surroundings.resumeReply := .error error } false []
          rw [← hshut]
          exact .done

theorem step (h : Faithful mappings started daemon) (capacity : Nat)
    (action : Action count) : Faithful mappings started (daemon.step capacity action) := by
  have hmoves := daemon.step_moves capacity action
  generalize daemon.step capacity action = after at hmoves ⊢
  cases hmoves with
  | refused => exact h
  | received now uuid command rest hidle _ => exact (h.setQueue rest).handle hidle now uuid _
  | ticked now uuid hidle => exact h.handle hidle now uuid _
  | proceeded handler later htask => exact h.proceed htask
  | finished handler call firstError later htask => exact h.finish htask
  | submitted command _ => exact h.setQueue _
  | moved _ i backend _ _ => exact h.setBackend i backend
  | replied _ i backend reply _ _ => exact (h.setBackend i backend).answer i reply
  | sent i event inputs events _ _ => exact (h.setBackend i _).setQueue _

end Faithful

theorem inside_of_setBackend {i j : Fin count} {backend : Backend}
    (h : ((daemon.setBackend i backend).backends j).phase.InsideSend) :
    j = i ∧ backend.phase.InsideSend ∨ j ≠ i ∧ (daemon.backends j).phase.InsideSend := by
  change (Function.update daemon.backends i backend j).phase.InsideSend at h
  by_cases hself : j = i
  · subst hself
    rw [Function.update_self] at h
    exact .inl ⟨rfl, h⟩
  · rw [Function.update_of_ne hself] at h
    exact .inr ⟨hself, h⟩

namespace Calm

/-- With the flag down no thread begins to send, and a pause takes it down only
where none is sending. -/
theorem clear_step (h : Calm mappings started daemon) (capacity : Nat)
    {action : Action count} (hunhindered : Unhindered daemon action)
    (hdown : (daemon.step capacity action).enabled = false) (j : Fin count) :
    ¬ ((daemon.step capacity action).backends j).phase.InsideSend := by
  have hmoves := daemon.step_moves capacity action
  generalize daemon.step capacity action = after at hmoves hdown ⊢
  cases hmoves with
  | refused => exact h.clear hdown j
  | received _ _ _ _ _ _ => exact h.clear hdown j
  | ticked _ _ _ => exact h.clear hdown j
  | proceeded handler later htask =>
      rw [proceed_phase]
      cases later with
      | nil => exact h.clear hdown j
      | cons call later =>
          cases call with
          | pause => exact hunhindered handler later rfl htask j
          | resume => exact h.clear hdown j
  | finished handler call firstError later _ =>
      rw [finish_phase]
      cases call with
      | pause => exact h.clear hdown j
      | resume =>
          cases firstError with
          | none => cases hdown
          | some error => exact h.clear hdown j
  | submitted _ _ => exact h.clear hdown j
  | moved _ i backend _ hchecked =>
      intro hinside
      rcases inside_of_setBackend hinside with ⟨rfl, hnow⟩ | ⟨_, hbefore⟩
      · exact Bool.false_ne_true (hdown.symm.trans (hchecked hnow))
      · exact h.clear hdown j hbefore
  | replied _ i backend reply _ houtside =>
      intro hinside
      rcases inside_of_setBackend hinside with ⟨rfl, hnow⟩ | ⟨_, hbefore⟩
      · exact houtside hnow
      · exact h.clear hdown j hbefore
  | sent i event inputs events hphase _ =>
      intro hinside
      rcases inside_of_setBackend hinside with ⟨rfl, _⟩ | ⟨_, hbefore⟩
      · exact h.clear hdown j (by rw [hphase]; exact trivial)
      · exact h.clear hdown j hbefore

theorem step (h : Calm mappings started daemon) (capacity : Nat) {action : Action count}
    (hunhindered : Unhindered daemon action) :
    Calm mappings started (daemon.step capacity action) := by
  have hbefore : Faithful mappings started daemon := ⟨h.reached, h.consistent⟩
  have hfaithful := hbefore.step capacity action
  exact ⟨hfaithful.reached, h.clear_step capacity hunhindered, hfaithful.consistent⟩

theorem not_deadlocked (h : Calm mappings started daemon) (capacity : Nat) :
    ¬ Deadlocked capacity daemon := by
  rintro ⟨i, hawaits, hinside, _⟩
  have hflag := h.consistent
  cases htask : daemon.task with
  | idle =>
      rw [htask] at hawaits
      exact hawaits
  | proceeding handler later =>
      rw [htask] at hawaits
      exact hawaits
  | commanding handler call awaited firstError later =>
      rw [htask] at hflag
      exact h.clear hflag.1 i hinside

end Calm

namespace Deadlocked

variable {capacity : Nat}

theorem commanding {i : Fin count} {task : Task count} (h : task.Awaits i) :
    ∃ handler call awaited firstError later,
      task = .commanding handler call awaited firstError later ∧ i ∈ awaited := by
  cases task with
  | idle => exact h.elim
  | proceeding _ _ => exact h.elim
  | commanding handler call awaited firstError later =>
      exact ⟨handler, call, awaited, firstError, later, rfl, h⟩

/-- The others go on: a thread that is not inside its sends is not the one
that is waited for. -/
theorem moved (h : Deadlocked capacity daemon) (j : Fin count) (backend : Backend)
    (hother : ¬ (daemon.backends j).phase.InsideSend) (task : Task count)
    (htask : ∀ i, i ≠ j → daemon.task.Awaits i → task.Awaits i) :
    Deadlocked capacity { daemon.setBackend j backend with task } := by
  obtain ⟨i, hawaits, hinside, hfull⟩ := h
  have hne : i ≠ j := by
    rintro rfl
    exact hother hinside
  refine ⟨i, htask i hne hawaits, ?_, hfull⟩
  change (Function.update daemon.backends j backend i).phase.InsideSend
  rw [Function.update_of_ne hne]
  exact hinside

theorem awaits_answer {i j : Fin count} (hne : i ≠ j) (reply : Except String Unit)
    {task : Task count} (h : task.Awaits i) : (task.answer j reply).Awaits i := by
  obtain ⟨handler, call, awaited, firstError, later, rfl, hmem⟩ := commanding h
  exact (List.mem_erase_of_ne hne).mpr hmem

/-- Nobody can undo it: the only receiver waits for the thread, and the thread
for room that only the receiver makes. -/
theorem step (h : Deadlocked capacity daemon) (action : Action count) :
    Deadlocked capacity (daemon.step capacity action) := by
  obtain ⟨i, hawaits, hinside, hfull⟩ := id h
  obtain ⟨handler, call, awaited, firstError, later, htask, hmem⟩ := commanding hawaits
  have hmoves := daemon.step_moves capacity action
  generalize daemon.step capacity action = after at hmoves ⊢
  cases hmoves with
  | refused => exact h
  | received _ _ _ _ hidle _ => cases htask.symm.trans hidle
  | ticked _ _ hidle => cases htask.symm.trans hidle
  | proceeded _ _ hproceeding => cases htask.symm.trans hproceeding
  | finished _ _ _ _ hnone =>
      cases htask.symm.trans hnone
      exact (List.not_mem_nil hmem).elim
  | submitted _ hroom => exact absurd hroom (Nat.not_lt.mpr hfull)
  | moved _ j backend hbetween _ => exact h.moved j backend hbetween _ fun _ _ => id
  | replied _ j backend reply hbetween _ =>
      exact h.moved j backend hbetween _ fun _ hne => awaits_answer hne reply
  | sent _ _ _ _ _ hroom => exact absurd hroom (Nat.not_lt.mpr hfull)

end Deadlocked

end Step

variable (capacity : Nat) (mappings : List Mapping) (started : Instant) {count : Nat}

theorem deadlocked_run {state : Daemon count} (h : Deadlocked capacity state)
    (later : List (Action count)) :
    Deadlocked capacity ((daemon capacity mappings started count).runFrom state later) :=
  (daemon capacity mappings started count).invariant_from (Deadlocked capacity)
    (fun _ action hbefore => hbefore.step action) state h later

theorem calm_start : Calm mappings started (daemon capacity mappings started count).start where
  reached := ⟨[], rfl⟩
  clear := by rintro ⟨⟩
  consistent := rfl

theorem not_deadlocked_throughout {actions : List (Action count)}
    (h : (daemon capacity mappings started count).Along Unhindered
      (daemon capacity mappings started count).start actions) :
    (daemon capacity mappings started count).Throughout (fun state => ¬ Deadlocked capacity state)
      (daemon capacity mappings started count).start actions := by
  have hcalm := (daemon capacity mappings started count).throughout_of_along
    (Calm mappings started) (fun _ _ hbefore hgood => hbefore.step capacity hgood)
    (calm_start capacity mappings started) h
  exact hcalm.mono _ fun _ hstate => hstate.not_deadlocked capacity

/-- Other senders fill the channel. -/
theorem runFrom_submits (state : Daemon count) (command : BrokerCommand) (room : Nat) :
    ∃ queue, (daemon capacity mappings started count).runFrom state
        (List.replicate room (.submit command)) = { state with queue } ∧
      min capacity (state.queue.length + room) ≤ queue.length := by
  induction room generalizing state with
  | zero => exact ⟨state.queue, rfl, Nat.min_le_right _ _⟩
  | succ room ih =>
      rw [List.replicate_succ, Machine.runFrom_cons]
      by_cases hroom : state.queue.length < capacity
      · have hstep : (daemon capacity mappings started count).step state (.submit command) =
            { state with queue := state.queue ++ [command] } := if_pos hroom
        obtain ⟨queue, hrun, hlength⟩ := ih { state with queue := state.queue ++ [command] }
        rw [hstep]
        refine ⟨queue, hrun, ?_⟩
        rw [List.length_append, List.length_singleton] at hlength
        omega
      · have hstep : (daemon capacity mappings started count).step state (.submit command) =
            state := if_neg hroom
        obtain ⟨queue, hrun, hlength⟩ := ih state
        rw [hstep]
        refine ⟨queue, hrun, ?_⟩
        omega

/-- A pause that begins while a thread is inside its sends waits for that
thread; once the channel is full neither moves. -/
theorem deadlocked_of_pause {state : Daemon count} {handler : Step} {later : List CaptureCall}
    (htask : state.task = .proceeding handler (.pause :: later)) {i : Fin count}
    (hinside : (state.backends i).phase.InsideSend) (command : BrokerCommand) :
    Deadlocked capacity ((daemon capacity mappings started count).runFrom
      (state.step capacity .proceed) (List.replicate capacity (.submit command))) := by
  have hpaused : state.step capacity .proceed =
      { state with enabled := false }.commandBackends handler .pause later := by
    dsimp only [Daemon.step]
    rw [htask]
    rfl
  have hphase := commandBackends_phase { state with enabled := false } handler .pause later i
  have hrunning := hinside.running
  rw [hpaused]
  obtain ⟨queue, hrun, hfull⟩ := runFrom_submits capacity mappings started
    ({ state with enabled := false }.commandBackends handler .pause later) command capacity
  rw [hrun]
  refine ⟨i, ?_, ?_, ?_⟩
  · refine List.mem_filter.mpr ⟨List.mem_finRange i, ?_⟩
    change (!(state.backends i).phase.isStopped) = true
    rw [hrunning]
    rfl
  · rw [hphase]
    exact hinside
  · change capacity ≤ queue.length
    omega

/-- Runs in which no pause begins while a thread is inside the sends of an
event never deadlock. A pause that does can always be followed by a deadlock
that no further action ends. -/
theorem backends_answer (actions : List (Action count)) :
    ((daemon capacity mappings started count).Along Unhindered
        (daemon capacity mappings started count).start actions →
      (daemon capacity mappings started count).Throughout
        (fun state => ¬ Deadlocked capacity state)
        (daemon capacity mappings started count).start actions) ∧
    ∀ action, ¬ Unhindered ((daemon capacity mappings started count).run actions) action →
      ∃ more, ∀ later, Deadlocked capacity
        ((daemon capacity mappings started count).run
          (actions ++ action :: (more ++ later))) := by
  refine ⟨not_deadlocked_throughout capacity mappings started, ?_⟩
  intro action hhindered
  unfold Unhindered at hhindered
  push Not at hhindered
  obtain ⟨handler, later, rfl, htask, i, hinside⟩ := hhindered
  refine ⟨List.replicate capacity (.submit (.heartbeat 0 "")), fun rest => ?_⟩
  rw [Machine.run_append, Machine.runFrom_cons, Machine.runFrom_append]
  exact deadlocked_run capacity mappings started
    (deadlocked_of_pause capacity mappings started htask hinside _) rest

def padMapping : Mapping :=
  ⟨"pad", "primary", .gamepad, "304", some "/dev/input/event0"⟩

/-- A thread has read one press, checked the flag and is about to send when the
broker takes the command that ends the session. -/
def revokedWhileSending : List (Action 1) :=
  [.submit (.register (stuckChannel 1)), .receive 0 "", .proceed,
    .submit (.handshake 1 exclusiveHandshake), .receive 1 "session", .proceed,
    .submit (.revokeSession .explicitRevocation), .poll 0,
    .fetch 0 [[⟨"pad", .pressed, some (.finite 100)⟩]], .next 0, .receive 2 "session"]

theorem revoke_never_returns :
    Deadlocked 1024 ((daemon 1024 [padMapping] 0 1).run
      (revokedWhileSending ++
        .proceed :: List.replicate 1024 (.submit (.heartbeat 1 "session")))) := by
  have htask : ((daemon 1024 [padMapping] 0 1).run revokedWhileSending).task =
      .proceeding (passAt 2 (.command (.revokeSession .explicitRevocation))) [.pause] := rfl
  have hinside : (((daemon 1024 [padMapping] 0 1).run revokedWhileSending).backends
      0).phase.InsideSend := by decide
  rw [Machine.run_append, Machine.runFrom_cons]
  exact deadlocked_of_pause 1024 [padMapping] 0 htask hinside (.heartbeat 1 "session")

end Usahp.Capture
