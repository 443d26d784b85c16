import Usahp.Capture.Backends

/-!
Capture epochs. An edge belongs to the epoch in which its backend saw the flag
up, and a new epoch begins with every resume that succeeds. The daemon itself
does not know of epochs: an `Input` in the channel does not say when it was
captured. Here the daemon runs beside a record of that.

The keyboard callback is a backend without commands: it reads the flag once for
an event and then sends its inputs.
-/

namespace Usahp.Capture

open Std Usahp.Library Usahp.Broker

/-- An edge that the broker has handed to the state machine: when it was
captured, when it was applied, and the events that came of it. -/
structure AppliedEdge where
  captured : Nat
  epoch : Nat
  events : List SwitchEvent
  deriving DecidableEq

structure Tracked (count : Nat) where
  daemon : Daemon count
  /-- The resumes that have succeeded. -/
  epoch : Nat
  /-- For each command in the channel, when it was captured if it is an edge. -/
  origins : List (Option Nat)
  /-- When each thread checked the flag for the event it is sending. -/
  threads : Fin count → Nat
  /-- The inputs the keyboard callback has yet to send. -/
  callback : List PhysicalEvent
  heard : Nat
  applied : List AppliedEdge

/-- A step of the daemon, whose submitted commands are those of clients and
simulators, or a step of the keyboard callback. -/
inductive Move (count : Nat) where
  | daemon (action : Action count)
  | hear (inputs : List PhysicalEvent)
  | post

/-- The action that puts the flag up again. -/
def Daemon.resumes {count : Nat} (daemon : Daemon count) (action : Action count) : Bool :=
  match action, daemon.task with
  | .finish, .commanding _ .resume [] none _ => true
  | _, _ => false

def eventsOfInput (runtime : Runtime) (now : Instant) (uuid : String)
    (event : PhysicalEvent) : List SwitchEvent :=
  let after := runtime.step ⟨⟨now, uuid, .ok (), .ok ()⟩, .command (.input event)⟩
  (after.history.created.drop runtime.history.created.length).map Created.event

namespace Tracked

variable {count : Nat}

/-- The command that an action enqueues is an edge when a thread sends it. -/
def origin (tracked : Tracked count) : Action count → Option Nat
  | .send i => some (tracked.threads i)
  | _ => none

/-- What the channel holds once it has gained a command or lost its first. -/
def originsAfter (tracked : Tracked count) (length : Nat) (origin : Option Nat) :
    List (Option Nat) :=
  if tracked.daemon.queue.length < length then tracked.origins ++ [origin]
  else tracked.origins.drop (tracked.daemon.queue.length - length)

/-- A thread checks the flag for the next event of its batch. -/
def checked (tracked : Tracked count) : Action count → Fin count → Nat
  | .next i =>
      match (tracked.daemon.backends i).phase with
      | .batch _ => Function.update tracked.threads i tracked.epoch
      | _ => tracked.threads
  | _ => tracked.threads

/-- The edge that the broker takes, if it listens; otherwise its handler does
nothing. -/
def taken (tracked : Tracked count) : Action count → List AppliedEdge
  | .receive now uuid =>
      match tracked.daemon.task, tracked.daemon.queue, tracked.origins with
      | .idle, .input event :: _, some captured :: _ =>
          if tracked.daemon.runtime.Listening then
            [⟨captured, tracked.epoch, eventsOfInput tracked.daemon.runtime now uuid event⟩]
          else []
      | _, _, _ => []
  | _ => []

def act (capacity : Nat) (tracked : Tracked count) (action : Action count) : Tracked count :=
  let daemon := tracked.daemon.step capacity action
  { tracked with
    daemon
    epoch := if tracked.daemon.resumes action then tracked.epoch + 1 else tracked.epoch
    origins := tracked.originsAfter daemon.queue.length (tracked.origin action)
    threads := tracked.checked action
    applied := tracked.applied ++ tracked.taken action }

/-- With the flag down the callback passes the event through. -/
def step (capacity : Nat) (tracked : Tracked count) : Move count → Tracked count
  | .daemon action => tracked.act capacity action
  | .hear inputs =>
      match tracked.callback, tracked.daemon.enabled with
      | [], true => { tracked with callback := inputs, heard := tracked.epoch }
      | _, _ => tracked
  | .post =>
      match tracked.callback with
      | [] => tracked
      | event :: rest =>
          if tracked.daemon.queue.length < capacity then
            { tracked with
              daemon.queue := tracked.daemon.queue ++ [.input event]
              origins := tracked.origins ++ [some tracked.heard]
              callback := rest }
          else tracked

/-- Where a resume succeeds, no edge is in the channel and none in the hands of
the keyboard callback. -/
def Drained (tracked : Tracked count) : Move count → Prop
  | .daemon action => tracked.daemon.resumes action = true →
      (∀ origin ∈ tracked.origins, origin = none) ∧ tracked.callback.isEmpty = true
  | _ => True

instance (tracked : Tracked count) : DecidablePred tracked.Drained
  | .daemon _ => inferInstanceAs (Decidable (_ → _))
  | .hear _ => isTrue trivial
  | .post => isTrue trivial

/-- No edge has been applied in a later epoch than its own. -/
def InEpoch (tracked : Tracked count) : Prop :=
  ∀ edge ∈ tracked.applied, edge.captured = edge.epoch

instance : DecidablePred (InEpoch : Tracked count → Prop) :=
  fun _ => List.decidableBAll _ _

end Tracked

def tracked (capacity : Nat) (mappings : List Mapping) (started : Instant) (count : Nat) :
    Machine (Tracked count) (Move count) where
  start :=
    { daemon := (daemon capacity mappings started count).start
      epoch := 0
      origins := []
      threads := fun _ => 0
      callback := []
      heard := 0
      applied := [] }
  step := Tracked.step capacity

section Step

variable {mappings : List Mapping} {started : Instant} {capacity count : Nat}
  {daemon : Daemon count} {action : Action count}

/-- With the flag down the threads that are still sending are those that a pause
waits for. -/
def Flushing (daemon : Daemon count) : Prop :=
  daemon.enabled = false → ∀ i, (daemon.backends i).phase.InsideSend → daemon.task.Awaits i

theorem Flushing.of_task (h : Flushing daemon) (hdown : daemon.enabled = false)
    (htask : ∀ i, ¬ daemon.task.Awaits i) (i : Fin count) :
    ¬ (daemon.backends i).phase.InsideSend :=
  fun hinside => htask i (h hdown i hinside)

theorem awaits_commandBackends (handler : Step) (call : CaptureCall)
    (later : List CaptureCall) {i : Fin count}
    (hinside : ((daemon.commandBackends handler call later).backends i).phase.InsideSend) :
    (daemon.commandBackends handler call later).task.Awaits i := by
  rw [commandBackends_phase] at hinside
  refine List.mem_filter.mpr ⟨List.mem_finRange i, ?_⟩
  change (!(daemon.backends i).phase.isStopped) = true
  rw [hinside.running]
  rfl

theorem Flushing.step (h : Flushing daemon) (capacity : Nat) (action : Action count) :
    Flushing (daemon.step capacity action) := by
  have hmoves := daemon.step_moves capacity action
  generalize daemon.step capacity action = after at hmoves ⊢
  cases hmoves with
  | refused => exact h
  | received now uuid command rest hidle _ =>
      intro hdown i hinside
      exact absurd hinside (h.of_task hdown (by simp [hidle, Task.Awaits]) i)
  | ticked now uuid hidle =>
      intro hdown i hinside
      exact absurd hinside (h.of_task hdown (by simp [hidle, Task.Awaits]) i)
  | proceeded handler later htask =>
      cases later with
      | nil =>
          intro hdown i hinside
          exact absurd hinside (h.of_task hdown (by simp [htask, Task.Awaits]) i)
      | cons call later =>
          cases call with
          | pause => exact fun _ i hinside => awaits_commandBackends handler .pause later hinside
          | resume => exact fun _ i hinside => awaits_commandBackends handler .resume later hinside
  | finished handler call firstError later htask =>
      cases call with
      | pause =>
          intro hdown i hinside
          exact absurd hinside (h.of_task hdown (by simp [htask, Task.Awaits]) i)
      | resume =>
          cases firstError with
          | none => rintro ⟨⟩
          | some error => exact fun _ i hinside => awaits_commandBackends _ .pause [] hinside
  | submitted _ _ => exact h
  | moved _ i backend _ hchecked =>
      intro hdown j hinside
      rcases inside_of_setBackend hinside with ⟨rfl, hnow⟩ | ⟨_, hbefore⟩
      · exact absurd (hchecked hnow) (by simp [show daemon.enabled = false from hdown])
      · exact h hdown j hbefore
  | replied _ i backend reply _ houtside =>
      intro hdown j hinside
      rcases inside_of_setBackend hinside with ⟨rfl, hnow⟩ | ⟨hother, hbefore⟩
      · exact absurd hnow houtside
      · exact Deadlocked.awaits_answer hother reply (h hdown j hbefore)
  | sent i event inputs events hphase _ =>
      intro hdown j hinside
      rcases inside_of_setBackend hinside with ⟨rfl, _⟩ | ⟨_, hbefore⟩
      · exact h hdown j (by rw [hphase]; exact trivial)
      · exact h hdown j hbefore

/-- A thread begins to send when it has checked the flag for an event. -/
theorem inside_step {j : Fin count}
    (h : ((daemon.step capacity action).backends j).phase.InsideSend) :
    (daemon.backends j).phase.InsideSend ∨
      action = .next j ∧ ∃ events, (daemon.backends j).phase = .batch events := by
  have hmoved {i : Fin count} {backend : Backend} (hout : ¬ backend.phase.InsideSend)
      (hinside : ((daemon.setBackend i backend).backends j).phase.InsideSend) :
      (daemon.backends j).phase.InsideSend := by
    rcases inside_of_setBackend hinside with ⟨_, hnow⟩ | ⟨_, hbefore⟩
    · exact absurd hnow hout
    · exact hbefore
  cases action with
  | next i =>
      dsimp only [Daemon.step] at h
      split at h
      · exact .inl (hmoved id h)
      · rename_i inputs events hphase
        rcases inside_of_setBackend h with ⟨rfl, _⟩ | ⟨_, hbefore⟩
        · exact .inr ⟨rfl, _, hphase⟩
        · exact .inl hbefore
      · exact .inl (hmoved id h)
      · exact .inl h
  | send i =>
      dsimp only [Daemon.step] at h
      split at h
      · rename_i event inputs events hphase
        split_ifs at h with hroom
        · rcases inside_of_setBackend h with ⟨rfl, _⟩ | ⟨_, hbefore⟩
          · exact .inl (by rw [hphase]; exact trivial)
          · exact .inl hbefore
        · exact .inl h
      · exact .inl h
  | obey i outcome =>
      dsimp only [Daemon.step] at h
      split at h
      · rename_i call hphase _
        refine .inl (hmoved ?_ h)
        rw [Backend.obey_phase, hphase]
        exact id
      · exact .inl h
  | receive _ _ =>
      dsimp only [Daemon.step] at h
      split at h <;> exact .inl h
  | tick _ _ =>
      dsimp only [Daemon.step] at h
      split at h <;> exact .inl h
  | submit _ =>
      dsimp only [Daemon.step] at h
      split_ifs at h <;> exact .inl h
  | proceed =>
      dsimp only [Daemon.step] at h
      split at h
      · exact .inl (by rwa [proceed_phase] at h)
      · exact .inl h
  | finish =>
      dsimp only [Daemon.step] at h
      split at h
      · exact .inl (by rwa [finish_phase] at h)
      · exact .inl h
  | poll i =>
      dsimp only [Daemon.step] at h
      split at h
      · exact .inl (hmoved id h)
      · exact .inl h
  | fetch i events =>
      dsimp only [Daemon.step] at h
      split at h
      · exact .inl (hmoved id h)
      · exact .inl h
  | fail i =>
      dsimp only [Daemon.step] at h
      split at h
      · exact .inl (hmoved id h)
      · exact .inl (hmoved id h)
      · exact .inl h

/-- The channel gains one command at a time, from the thread that sends it or
from outside. -/
theorem grown_step
    (h : daemon.queue.length < (daemon.step capacity action).queue.length) :
    (daemon.step capacity action).queue.length = daemon.queue.length + 1 ∧
      ((∃ command, action = .submit command) ∨
        ∃ i, action = .send i ∧ (daemon.backends i).phase.InsideSend) := by
  have hmoves := daemon.step_moves capacity action
  generalize daemon.step capacity action = after at hmoves h ⊢
  cases hmoves with
  | refused => omega
  | received now uuid command rest _ hhead =>
      rw [hhead] at h
      simp [Daemon.handle] at h
  | ticked now uuid _ => simp [Daemon.handle] at h
  | proceeded handler later _ =>
      cases later with
      | nil => simp [Daemon.proceed] at h
      | cons call later => cases call <;> simp [Daemon.proceed, Daemon.commandBackends] at h
  | finished handler call firstError later _ =>
      cases call <;> cases firstError <;>
        simp [Daemon.finish, Daemon.commandBackends] at h
  | submitted command _ => exact ⟨by simp, .inl ⟨command, rfl⟩⟩
  | moved _ i backend _ _ => simp [Daemon.setBackend] at h
  | replied _ i backend reply _ _ => simp [Daemon.setBackend] at h
  | sent i event inputs events hphase _ =>
      refine ⟨by simp, .inr ⟨i, rfl, ?_⟩⟩
      rw [hphase]
      exact trivial

theorem resumes_iff :
    daemon.resumes action = true ↔ action = .finish ∧
      ∃ handler later, daemon.task = .commanding handler .resume [] none later := by
  unfold Daemon.resumes
  split
  · rename_i handler later htask
    simp [htask]
  · rename_i hother
    simp only [Bool.false_eq_true, false_iff]
    rintro ⟨rfl, handler, later, htask⟩
    exact hother handler later rfl htask

/-- What the record keeps in every run: it is aligned with the channel, and the
daemon flushes its threads before a resume. -/
structure Recorded (mappings : List Mapping) (started : Instant) (tracked : Tracked count) :
    Prop where
  faithful : Faithful mappings started tracked.daemon
  flushing : Flushing tracked.daemon
  aligned : tracked.origins.length = tracked.daemon.queue.length

/-- What it keeps in addition where no edge outlives its epoch. -/
structure Current (tracked : Tracked count) : Prop where
  queued : ∀ captured, some captured ∈ tracked.origins → captured = tracked.epoch
  sending : ∀ i, (tracked.daemon.backends i).phase.InsideSend →
    tracked.threads i = tracked.epoch
  calling : tracked.callback ≠ [] → tracked.heard = tracked.epoch
  applied : tracked.InEpoch

variable {tracked : Tracked count}

theorem Recorded.idle (h : Recorded mappings started tracked)
    (hresumes : tracked.daemon.resumes action = true) (i : Fin count) :
    ¬ (tracked.daemon.backends i).phase.InsideSend := by
  obtain ⟨-, handler, later, htask⟩ := resumes_iff.mp hresumes
  have hconsistent := h.faithful.consistent
  rw [htask] at hconsistent
  exact h.flushing.of_task hconsistent.1 (by simp [htask, Task.Awaits]) i

theorem Recorded.step (h : Recorded mappings started tracked) (capacity : Nat)
    (move : Move count) : Recorded mappings started (tracked.step capacity move) := by
  cases move with
  | daemon action =>
      refine ⟨h.faithful.step capacity action, h.flushing.step capacity action, ?_⟩
      have haligned := h.aligned
      have hgrown := @grown_step capacity count tracked.daemon action
      simp only [Tracked.step, Tracked.act, Tracked.originsAfter]
      split_ifs with hlonger
      · obtain ⟨hone, -⟩ := hgrown hlonger
        simp only [List.length_append, List.length_singleton]
        omega
      · simp only [List.length_drop]
        omega
  | hear inputs =>
      simp only [Tracked.step]
      split
      · exact ⟨h.faithful, h.flushing, h.aligned⟩
      · exact h
  | post =>
      simp only [Tracked.step]
      split
      · exact h
      · split_ifs
        · refine ⟨h.faithful.setQueue _, h.flushing, ?_⟩
          simp [h.aligned]
        · exact h

theorem Current.taken (h : Current tracked) (action : Action count) :
    ∀ edge ∈ tracked.taken action, edge.captured = edge.epoch := by
  unfold Tracked.taken
  split
  · split
    · rename_i _ _ captured _ _ _ horigins
      split_ifs
      · simp only [List.mem_singleton]
        rintro edge rfl
        exact h.queued captured (by simp [horigins])
      · simp
    · simp
  · simp

/-- What an action leaves in the channel that is an edge was there before, or it
comes from a thread that is sending. -/
theorem Current.originsAfter (h : Current tracked) (capacity : Nat) (action : Action count)
    {captured : Nat} (hmem : some captured ∈ tracked.originsAfter
      (tracked.daemon.step capacity action).queue.length (tracked.origin action)) :
    captured = tracked.epoch := by
  unfold Tracked.originsAfter at hmem
  split_ifs at hmem with hlonger
  · obtain ⟨-, ⟨command, rfl⟩ | ⟨i, rfl, hinside⟩⟩ := grown_step hlonger
    · simp only [Tracked.origin, List.mem_append, List.mem_singleton, reduceCtorEq,
        or_false] at hmem
      exact h.queued captured hmem
    · simp only [Tracked.origin, List.mem_append, List.mem_singleton,
        Option.some.injEq] at hmem
      rcases hmem with hbefore | rfl
      · exact h.queued captured hbefore
      · exact h.sending i hinside
  · exact h.queued captured (List.mem_of_mem_drop hmem)

theorem Current.checked (h : Current tracked) {capacity : Nat} {action : Action count}
    {j : Fin count}
    (hinside : ((tracked.daemon.step capacity action).backends j).phase.InsideSend) :
    tracked.checked action j = tracked.epoch := by
  have hbefore : (tracked.daemon.backends j).phase.InsideSend →
      tracked.checked action j = tracked.epoch := by
    intro hsending
    have hsame := h.sending j hsending
    cases action with
    | next i =>
        cases hphase : (tracked.daemon.backends i).phase with
        | batch events =>
            by_cases hself : j = i
            · simp [Tracked.checked, hphase, hself]
            · simp [Tracked.checked, hphase, hself, hsame]
        | _ => simpa [Tracked.checked, hphase] using hsame
    | _ => exact hsame
  rcases inside_step hinside with hsending | ⟨rfl, events, hphase⟩
  · exact hbefore hsending
  · simp [Tracked.checked, hphase]

theorem Current.step (h : Current tracked) (hrecorded : Recorded mappings started tracked)
    (capacity : Nat) {move : Move count} (hdrained : tracked.Drained move) :
    Current (tracked.step capacity move) := by
  cases move with
  | daemon action =>
      have happlied : (tracked.act capacity action).InEpoch := by
        intro edge hedge
        rcases List.mem_append.mp hedge with hbefore | hnow
        · exact h.applied edge hbefore
        · exact h.taken action edge hnow
      cases hresumes : tracked.daemon.resumes action with
      | false =>
          have hepoch : (tracked.act capacity action).epoch = tracked.epoch := by
            simp [Tracked.act, hresumes]
          refine ⟨?_, ?_, ?_, happlied⟩
          · intro captured hmem
            exact (h.originsAfter capacity action hmem).trans hepoch.symm
          · intro i hinside
            exact (h.checked hinside).trans hepoch.symm
          · intro hcalling
            exact (h.calling hcalling).trans hepoch.symm
      | true =>
          obtain ⟨hqueue, hcallback⟩ := hdrained hresumes
          obtain ⟨rfl, -⟩ := resumes_iff.mp hresumes
          refine ⟨?_, ?_, ?_, happlied⟩
          · intro captured hmem
            simp only [Tracked.step, Tracked.act, Tracked.originsAfter] at hmem
            split_ifs at hmem with hlonger
            · obtain ⟨-, ⟨_, ⟨⟩⟩ | ⟨_, ⟨⟩, _⟩⟩ := grown_step hlonger
            · cases hqueue _ (List.mem_of_mem_drop hmem)
          · intro i hinside
            rcases inside_step hinside with hsending | ⟨⟨⟩, _⟩
            exact absurd hsending (hrecorded.idle hresumes i)
          · intro hcalling
            exact absurd (List.isEmpty_iff.mp hcallback) hcalling
  | hear inputs =>
      simp only [Tracked.step]
      split
      · exact ⟨h.queued, h.sending, fun _ => rfl, h.applied⟩
      · exact h
  | post =>
      simp only [Tracked.step]
      split
      · exact h
      · rename_i event rest hcallback
        have hheard := h.calling (by simp [hcallback])
        split_ifs
        · refine ⟨?_, h.sending, fun _ => hheard, h.applied⟩
          intro captured hmem
          simp only [List.mem_append, List.mem_singleton, Option.some.injEq] at hmem
          rcases hmem with hbefore | rfl
          · exact h.queued captured hbefore
          · exact hheard
        · exact h

end Step

variable (capacity : Nat) (mappings : List Mapping) (started : Instant) (count : Nat)

theorem recorded_run (moves : List (Move count)) :
    Recorded mappings started ((tracked capacity mappings started count).run moves) := by
  apply (tracked capacity mappings started count).invariant (Recorded mappings started)
  · exact ⟨⟨⟨[], rfl⟩, rfl⟩, by rintro ⟨⟩, rfl⟩
  · intro state move hbefore
    exact hbefore.step capacity move

/-- In every run the threads have sent what they had before a resume succeeds, so
an edge that outlives its epoch is in the channel or the keyboard callback has
it. -/
theorem threads_idle_on_resume (moves : List (Move count)) {action : Action count}
    (h : ((tracked capacity mappings started count).run moves).daemon.resumes action = true)
    (i : Fin count) :
    ¬ (((tracked capacity mappings started count).run moves).daemon.backends
      i).phase.InsideSend :=
  (recorded_run capacity mappings started count moves).idle h i

/-- Where no edge waits when a resume succeeds, none is ever applied, and no event
comes of one, in a later epoch than its own. -/
theorem edges_stay_in_epoch {moves : List (Move count)}
    (h : (tracked capacity mappings started count).Along Tracked.Drained
      (tracked capacity mappings started count).start moves) :
    (tracked capacity mappings started count).Throughout Tracked.InEpoch
      (tracked capacity mappings started count).start moves := by
  have hstart : Recorded mappings started (tracked capacity mappings started count).start ∧
      Current (tracked capacity mappings started count).start := by
    refine ⟨recorded_run capacity mappings started count [], ?_, ?_, ?_, ?_⟩
    · rintro captured ⟨⟩
    · rintro i ⟨⟩
    · intro hcalling
      exact absurd rfl hcalling
    · rintro edge ⟨⟩
  have hthroughout := (tracked capacity mappings started count).throughout_of_along
    (fun state => Recorded mappings started state ∧ Current state)
    (fun state move hbefore hdrained =>
      ⟨hbefore.1.step capacity move, hbefore.2.step hbefore.1 capacity hdrained⟩) hstart h
  exact hthroughout.mono _ fun state hstate => hstate.2.applied

/-- A client is registered and gets a session. -/
def firstSession : List (Move 0) :=
  [.daemon (.submit (.register (stuckChannel 8))), .daemon (.receive 0 ""), .daemon .proceed,
    .daemon (.submit (.handshake 1 exclusiveHandshake)), .daemon (.receive 1 "first"),
    .daemon .proceed]

/-- The broker takes the command that ends the session and the handshake behind
it. -/
def sessionChange : List (Move 0) :=
  [.daemon (.receive 2 ""), .daemon .proceed, .daemon .finish, .daemon .proceed,
    .daemon (.receive 3 "second"), .daemon .proceed, .daemon .finish, .daemon .proceed]

def endAndAsk : List (Move 0) :=
  [.daemon (.submit (.revokeSession .explicitRevocation)),
    .daemon (.submit (.handshake 1 exclusiveHandshake))]

def press : List (Move 0) := [.hear [spacePress], .post]

def takeInput : List (Move 0) := [.daemon (.receive 4 ""), .daemon .proceed]

/-- The press is made in the second session. -/
def pressAfterChange : List (Move 0) :=
  firstSession ++ endAndAsk ++ sessionChange ++ press ++ takeInput

theorem pressAfterChange_in_epoch :
    (tracked 1024 [spaceMapping] 0 0).Throughout Tracked.InEpoch
        (tracked 1024 [spaceMapping] 0 0).start pressAfterChange ∧
      (((tracked 1024 [spaceMapping] 0 0).run pressAfterChange).applied.map
        fun edge => (edge.captured, edge.epoch, edge.events.length)) = [(1, 1, 1)] :=
  ⟨edges_stay_in_epoch 1024 [spaceMapping] 0 0 (by decide +kernel), by decide +kernel⟩

/-- The press is made in the first session, while the end of it and the next
handshake are in the channel. -/
def pressBeforeChange : List (Move 0) :=
  firstSession ++ endAndAsk ++ press ++ sessionChange ++ takeInput

theorem pressBeforeChange_crosses :
    ¬ (tracked 1024 [spaceMapping] 0 0).Throughout Tracked.InEpoch
        (tracked 1024 [spaceMapping] 0 0).start pressBeforeChange ∧
      (((tracked 1024 [spaceMapping] 0 0).run pressBeforeChange).applied.map
        fun edge => (edge.captured, edge.epoch, edge.events.length)) = [(0, 1, 1)] := by
  decide +kernel

end Usahp.Capture
