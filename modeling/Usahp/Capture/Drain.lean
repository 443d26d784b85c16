import Mathlib.Data.Prod.Lex
import Usahp.Capture.Handlers
import Usahp.Library.Progress

/-!
The broker is never stuck in a handler for good, as long as no pause begins
while a thread is inside its sends: the threads it waits for can answer, and
then the commands in the channel can all be dealt with.
-/

namespace Usahp.Capture

open Std Usahp.Library Usahp.Broker

def Task.awaited {count : Nat} : Task count → List (Fin count)
  | .commanding _ _ awaited _ _ => awaited
  | _ => []

section Step

variable {mappings : List Mapping} {started : Instant} {count : Nat} {daemon : Daemon count}

/-- A thread that is waited for is there and has the command before it. -/
structure Owing (daemon : Daemon count) : Prop where
  nodup : daemon.task.awaited.Nodup
  asked : ∀ i ∈ daemon.task.awaited,
    (daemon.backends i).command ≠ none ∧ (daemon.backends i).phase ≠ .stopped

theorem Owing.of_nil (h : daemon.task.awaited = []) : Owing daemon := by
  refine ⟨by rw [h]; exact List.nodup_nil, fun i hmem => ?_⟩
  rw [h] at hmem
  cases hmem

theorem Owing.setBackend (h : Owing daemon) {j : Fin count} {backend : Backend}
    (hself : j ∈ daemon.task.awaited → backend.command ≠ none ∧ backend.phase ≠ .stopped) :
    Owing (daemon.setBackend j backend) := by
  refine ⟨h.nodup, fun i hmem => ?_⟩
  change (Function.update daemon.backends j backend i).command ≠ none ∧
    (Function.update daemon.backends j backend i).phase ≠ .stopped
  by_cases heq : i = j
  · subst heq
    rw [Function.update_self]
    exact hself hmem
  · rw [Function.update_of_ne heq]
    exact h.asked i hmem

theorem awaited_answer (task : Task count) (j : Fin count) (reply : Except String Unit) :
    (task.answer j reply).awaited = task.awaited.erase j := by
  cases task with
  | idle => rfl
  | proceeding _ _ => rfl
  | commanding _ _ _ _ _ => rfl

/-- A thread that has answered is not waited for any more. -/
theorem Owing.answered (h : Owing daemon) (j : Fin count) (backend : Backend)
    (reply : Except String Unit) :
    Owing { daemon.setBackend j backend with task := daemon.task.answer j reply } := by
  have herase := awaited_answer daemon.task j reply
  constructor
  · change (daemon.task.answer j reply).awaited.Nodup
    rw [herase]
    exact h.nodup.erase j
  · intro i hmem
    change i ∈ (daemon.task.answer j reply).awaited at hmem
    rw [herase, h.nodup.mem_erase_iff] at hmem
    change (Function.update daemon.backends j backend i).command ≠ none ∧
      (Function.update daemon.backends j backend i).phase ≠ .stopped
    rw [Function.update_of_ne hmem.1]
    exact h.asked i hmem.2

theorem owing_commandBackends (daemon : Daemon count) (handler : Step) (call : CaptureCall)
    (later : List CaptureCall) : Owing (daemon.commandBackends handler call later) := by
  constructor
  · exact (List.nodup_finRange count).filter _
  · intro i hmem
    have hrunning : (daemon.backends i).phase.isStopped = false := by
      simpa using (List.mem_filter.mp hmem).2
    refine ⟨?_, ?_⟩
    · change (if _ then _ else _ : Backend).command ≠ none
      rw [if_neg (by simp [hrunning])]
      exact Option.some_ne_none call
    · rw [commandBackends_phase]
      intro hstopped
      rw [hstopped] at hrunning
      cases hrunning

theorem owing_proceed (daemon : Daemon count) (handler : Step) (later : List CaptureCall) :
    Owing (daemon.proceed handler later) := by
  cases later with
  | nil => exact .of_nil rfl
  | cons call later =>
      cases call with
      | pause => exact owing_commandBackends _ handler .pause later
      | resume => exact owing_commandBackends _ handler .resume later

theorem owing_finish (daemon : Daemon count) (handler : Step) (later : List CaptureCall)
    (call : CaptureCall) (firstError : Option String) :
    Owing (daemon.finish handler later call firstError) := by
  cases call with
  | pause => exact .of_nil rfl
  | resume =>
      cases firstError with
      | none => exact .of_nil rfl
      | some error => exact owing_commandBackends _ _ .pause []

theorem Owing.step (h : Owing daemon) (capacity : Nat) (action : Action count) :
    Owing (daemon.step capacity action) := by
  have hmoved {j : Fin count} {backend : Backend} (hcommand : backend.command =
      (daemon.backends j).command) (hrunning : backend.phase ≠ .stopped) :
      Owing (daemon.setBackend j backend) := by
    apply h.setBackend
    intro hmem
    rw [hcommand]
    exact ⟨(h.asked j hmem).1, hrunning⟩
  cases action with
  | receive now uuid =>
      dsimp only [Daemon.step]
      split
      · exact .of_nil rfl
      · exact h
  | tick now uuid =>
      dsimp only [Daemon.step]
      split
      · exact .of_nil rfl
      · exact h
  | proceed =>
      dsimp only [Daemon.step]
      split
      · exact owing_proceed daemon _ _
      · exact h
  | finish =>
      dsimp only [Daemon.step]
      split
      · exact owing_finish daemon _ _ _ _
      · exact h
  | submit command =>
      dsimp only [Daemon.step]
      split_ifs
      · exact ⟨h.nodup, h.asked⟩
      · exact h
  | poll j =>
      dsimp only [Daemon.step]
      split
      · exact hmoved rfl Phase.noConfusion
      · exact h
  | obey j outcome =>
      dsimp only [Daemon.step]
      split
      · exact h.answered j _ _
      · exact h
  | fetch j events =>
      dsimp only [Daemon.step]
      split
      · exact hmoved rfl Phase.noConfusion
      · exact h
  | fail j =>
      dsimp only [Daemon.step]
      split
      · rename_i hcommand
        -- a thread without a command is not waited for
        exact h.setBackend fun hmem => absurd hcommand (h.asked j hmem).1
      · exact h.answered j _ _
      · exact h
  | next j =>
      dsimp only [Daemon.step]
      split
      · exact hmoved rfl Phase.noConfusion
      · apply hmoved
        · rfl
        · dsimp only
          split_ifs
          · exact Phase.noConfusion
          · exact Phase.noConfusion
      · exact hmoved rfl Phase.noConfusion
      · exact h
  | send j =>
      dsimp only [Daemon.step]
      split
      · rename_i event inputs events _
        split_ifs
        · have hsent : Owing (daemon.setBackend j
              { daemon.backends j with phase := .sending inputs events }) :=
            hmoved rfl Phase.noConfusion
          exact ⟨hsent.nodup, hsent.asked⟩
        · exact h
      · exact h

/-- The time at which an action begins a handler, and the session id that is
next then. -/
def Action.begins? : Action count → Option (Instant × String)
  | .receive now uuid => some (now, uuid)
  | .tick now uuid => some (now, uuid)
  | _ => none

def begun (actions : List (Action count)) : List (Instant × String) :=
  actions.filterMap Action.begins?

/-- No thread is inside its sends. -/
def Still (daemon : Daemon count) : Prop := ∀ i, ¬ (daemon.backends i).phase.InsideSend

instance : DecidablePred (Still : Daemon count → Prop) :=
  fun daemon => inferInstanceAs (Decidable (∀ i, ¬ (daemon.backends i).phase.InsideSend))

/-- Nothing is in the way of the broker. -/
structure Quiet (mappings : List Mapping) (started : Instant) (daemon : Daemon count) : Prop where
  calm : Calm mappings started daemon
  owing : Owing daemon
  still : Still daemon

/-- How far a thread is from its next look at the commands. -/
def Phase.rank : Phase → Nat
  | .control => 0
  | .fetch => 2
  | .batch events => 2 * events.length + 1
  | .sending _ events => 2 * events.length + 2
  | .stopped => 0

/-- How far a handler is from its end. A resume may be followed by a pause. -/
def Task.rank : Task count → Nat
  | .idle => 0
  | .proceeding _ later => 4 * later.length + 1
  | .commanding _ .pause _ _ later => 4 * later.length + 2
  | .commanding _ .resume _ _ later => 4 * later.length + 4

theorem rank_answer (task : Task count) (i : Fin count) (reply : Except String Unit) :
    (task.answer i reply).rank = task.rank := by
  cases task with
  | idle => rfl
  | proceeding _ _ => rfl
  | commanding _ call _ _ _ => cases call <;> rfl

def Daemon.nextRank (daemon : Daemon count) : Nat :=
  (daemon.task.awaited.head?.map fun i => (daemon.backends i).phase.rank).getD 0

def Daemon.rank (daemon : Daemon count) : ℕ ×ₗ ℕ ×ₗ ℕ :=
  toLex (daemon.task.rank, toLex (daemon.task.awaited.length, daemon.nextRank))

theorem rank_lt_iff {before after : Daemon count} :
    after.rank < before.rank ↔ after.task.rank < before.task.rank ∨
      after.task.rank = before.task.rank ∧
        (after.task.awaited.length < before.task.awaited.length ∨
          after.task.awaited.length = before.task.awaited.length ∧
            after.nextRank < before.nextRank) := by
  simp only [Daemon.rank, Prod.Lex.toLex_lt_toLex]

theorem Quiet.step (h : Quiet mappings started daemon) (capacity : Nat) {action : Action count}
    (hunhindered : Unhindered daemon action) (hstill : Still (daemon.step capacity action)) :
    Quiet mappings started (daemon.step capacity action) :=
  ⟨h.calm.step capacity hunhindered, h.owing.step capacity action, hstill⟩

theorem Quiet.unhindered (h : Quiet mappings started daemon) (action : Action count) :
    Unhindered daemon action :=
  fun _ _ _ _ => h.still

/-- An action inside the present handler that brings it nearer to its end and
keeps the daemon quiet. -/
structure Advances (mappings : List Mapping) (started : Instant) (capacity : Nat)
    (daemon : Daemon count) (action : Action count) : Prop where
  inside : action.begins? = none
  quiet : Quiet mappings started (daemon.step capacity action)
  queue : (daemon.step capacity action).queue = daemon.queue
  lower : (daemon.step capacity action).rank < daemon.rank

theorem rank_proceed (daemon : Daemon count) (handler : Step) (later : List CaptureCall) :
    (daemon.proceed handler later).task.rank < 4 * later.length + 1 := by
  cases later with
  | nil => exact Nat.zero_lt_one
  | cons call later =>
      rw [List.length_cons]
      cases call with
      | pause =>
          change 4 * later.length + 2 < _
          omega
      | resume =>
          change 4 * later.length + 4 < _
          omega

theorem rank_finish (daemon : Daemon count) (handler : Step) (call : CaptureCall)
    (awaited : List (Fin count)) (firstError : Option String) (later : List CaptureCall) :
    (daemon.finish handler later call firstError).task.rank <
      (Task.commanding handler call awaited firstError later).rank := by
  cases call with
  | pause => exact Nat.lt_succ_self _
  | resume =>
      change _ < 4 * later.length + 4
      cases firstError with
      | none =>
          change 4 * later.length + 1 < _
          omega
      | some error =>
          change 2 < _
          omega

theorem queue_proceed (daemon : Daemon count) (handler : Step) (later : List CaptureCall) :
    (daemon.proceed handler later).queue = daemon.queue := by
  cases later with
  | nil => rfl
  | cons call later => cases call <;> rfl

theorem queue_finish (daemon : Daemon count) (handler : Step) (later : List CaptureCall)
    (call : CaptureCall) (firstError : Option String) :
    (daemon.finish handler later call firstError).queue = daemon.queue := by
  cases call with
  | pause => rfl
  | resume => cases firstError <;> rfl

/-- A thread that moves from its present phase to a lower one. -/
theorem Quiet.lower (h : Quiet mappings started daemon) (capacity : Nat) {action : Action count}
    {i : Fin count} {rest : List (Fin count)} (hnext : daemon.task.awaited = i :: rest)
    (hinside : action.begins? = none) {backend : Backend}
    (hstep : daemon.step capacity action = daemon.setBackend i backend)
    (houtside : ¬ backend.phase.InsideSend)
    (hlower : backend.phase.rank < (daemon.backends i).phase.rank) :
    Advances mappings started capacity daemon action := by
  refine ⟨hinside, h.step capacity (h.unhindered action) ?_, ?_, ?_⟩
  · rw [hstep]
    intro j hinside
    rcases inside_of_setBackend hinside with ⟨rfl, hself⟩ | ⟨_, hother⟩
    · exact houtside hself
    · exact h.still j hother
  · rw [hstep]
    rfl
  · rw [hstep, rank_lt_iff]
    refine .inr ⟨rfl, .inr ⟨rfl, ?_⟩⟩
    have hbefore : daemon.nextRank = (daemon.backends i).phase.rank := by
      rw [Daemon.nextRank, hnext]
      rfl
    have hafter : (daemon.setBackend i backend).nextRank = backend.phase.rank := by
      change (daemon.task.awaited.head?.map
        fun j => (Function.update daemon.backends i backend j).phase.rank).getD 0 = _
      rw [hnext, List.head?_cons, Option.map_some, Function.update_self]
      rfl
    rw [hbefore, hafter]
    exact hlower

/-- The thread that is waited for first comes nearer to its answer. With the flag
down it passes over the events that it has read. -/
theorem Quiet.progress_thread (h : Quiet mappings started daemon) (capacity : Nat)
    {handler : Step} {call : CaptureCall} {i : Fin count} {rest : List (Fin count)}
    {firstError : Option String} {later : List CaptureCall}
    (htask : daemon.task = .commanding handler call (i :: rest) firstError later) :
    ∃ action, Advances mappings started capacity daemon action := by
  have hnext : daemon.task.awaited = i :: rest := by rw [htask]; rfl
  have hdown : daemon.enabled = false := by
    have hflag := h.calm.consistent
    rw [htask] at hflag
    exact hflag.1
  obtain ⟨hcommand, hrunning⟩ := h.owing.asked i (hnext ▸ List.mem_cons_self)
  obtain ⟨asked, hasked⟩ := Option.ne_none_iff_exists'.mp hcommand
  cases hphase : (daemon.backends i).phase with
  | control =>
      let answered := (daemon.backends i).obey asked (.ok ())
      have hstep : daemon.step capacity (.obey i (.ok ())) =
          { daemon.setBackend i answered.2 with
            task := daemon.task.answer i answered.1 } := by
        dsimp only [Daemon.step]
        rw [hphase, hasked]
      refine ⟨.obey i (.ok ()), rfl, h.step capacity (h.unhindered _) ?_, ?_, ?_⟩
      · rw [hstep]
        intro j hinside
        rcases inside_of_setBackend hinside with ⟨rfl, hself⟩ | ⟨_, hother⟩
        · rw [Backend.obey_phase, hphase] at hself
          exact hself
        · exact h.still j hother
      · rw [hstep]
        rfl
      · rw [hstep, rank_lt_iff]
        refine .inr ⟨rank_answer daemon.task i answered.1, .inl ?_⟩
        change (daemon.task.answer i answered.1).awaited.length < _
        rw [awaited_answer, hnext, List.erase_cons_head]
        exact Nat.lt_succ_self rest.length
  | fetch =>
      have hstep : daemon.step capacity (.fetch i []) =
          daemon.setBackend i { daemon.backends i with phase := .batch [] } := by
        dsimp only [Daemon.step]
        rw [hphase]
      refine ⟨_, h.lower capacity hnext rfl hstep id ?_⟩
      rw [hphase]
      exact Nat.lt_succ_self _
  | batch events =>
      cases events with
      | nil =>
          have hstep : daemon.step capacity (.next i) =
              daemon.setBackend i { daemon.backends i with phase := .control } := by
            dsimp only [Daemon.step]
            rw [hphase]
          refine ⟨_, h.lower capacity hnext rfl hstep id ?_⟩
          rw [hphase]
          exact Nat.lt_succ_self _
      | cons inputs events =>
          have hstep : daemon.step capacity (.next i) =
              daemon.setBackend i { daemon.backends i with phase := .batch events } := by
            dsimp only [Daemon.step]
            rw [hphase, hdown]
            rfl
          refine ⟨_, h.lower capacity hnext rfl hstep id ?_⟩
          rw [hphase]
          change 2 * events.length + 1 < 2 * (events.length + 1) + 1
          omega
  | sending inputs events =>
      cases inputs with
      | nil =>
          have hstep : daemon.step capacity (.next i) =
              daemon.setBackend i { daemon.backends i with phase := .batch events } := by
            dsimp only [Daemon.step]
            rw [hphase]
          refine ⟨_, h.lower capacity hnext rfl hstep id ?_⟩
          rw [hphase]
          exact Nat.lt_succ_self _
      | cons event inputs =>
          apply absurd _ (h.still i)
          rw [hphase]
          trivial
  | stopped => exact absurd hphase hrunning

/-- While a quiet daemon is in a handler, there is an action that brings it nearer
to the end of it. -/
theorem Quiet.progress (h : Quiet mappings started daemon) (capacity : Nat)
    (hbusy : daemon.task ≠ .idle) : ∃ action, Advances mappings started capacity daemon action := by
  cases htask : daemon.task with
  | idle => exact absurd htask hbusy
  | proceeding handler later =>
      have hstep : daemon.step capacity .proceed = daemon.proceed handler later := by
        dsimp only [Daemon.step]
        rw [htask]
      refine ⟨.proceed, rfl, h.step capacity (h.unhindered _) ?_, ?_, ?_⟩
      · intro i
        rw [hstep, proceed_phase]
        exact h.still i
      · rw [hstep, queue_proceed]
      · rw [hstep, rank_lt_iff, htask]
        exact .inl (rank_proceed daemon handler later)
  | commanding handler call awaited firstError later =>
      cases awaited with
      | nil =>
          have hstep : daemon.step capacity .finish =
              daemon.finish handler later call firstError := by
            dsimp only [Daemon.step]
            rw [htask]
          refine ⟨.finish, rfl, h.step capacity (h.unhindered _) ?_, ?_, ?_⟩
          · intro i
            rw [hstep, finish_phase]
            exact h.still i
          · rw [hstep, queue_finish]
          · rw [hstep, rank_lt_iff, htask]
            exact .inl (rank_finish daemon handler call [] firstError later)
      | cons i rest => exact h.progress_thread capacity htask

/-- The next command of the channel is taken when no handler is running. -/
theorem Quiet.receive (h : Quiet mappings started daemon) (capacity : Nat)
    (hidle : daemon.task = .idle) {command : BrokerCommand} {rest : List BrokerCommand}
    (hqueue : daemon.queue = command :: rest) (now : Instant) (uuid : String) :
    Quiet mappings started (daemon.step capacity (.receive now uuid)) ∧
      (daemon.step capacity (.receive now uuid)).queue = rest := by
  have hstep : daemon.step capacity (.receive now uuid) =
      { daemon with queue := rest }.handle now uuid (.command command) := by
    dsimp only [Daemon.step]
    rw [hidle, hqueue]
  refine ⟨h.step capacity (h.unhindered _) ?_, ?_⟩
  · rw [hstep]
    exact h.still
  · rw [hstep]
    rfl

end Step

variable (capacity : Nat) (mappings : List Mapping) (started : Instant) {count : Nat}

theorem owing_run (actions : List (Action count)) :
    Owing ((daemon capacity mappings started count).run actions) :=
  (daemon capacity mappings started count).invariant Owing (.of_nil rfl)
    (fun _ action h => h.step capacity action) actions

theorem calm_run {actions : List (Action count)}
    (h : (daemon capacity mappings started count).Along Unhindered
      (daemon capacity mappings started count).start actions) :
    Calm mappings started ((daemon capacity mappings started count).run actions) :=
  (daemon capacity mappings started count).throughout_last
    ((daemon capacity mappings started count).throughout_of_along (Calm mappings started)
      (fun _ _ hbefore hgood => hbefore.step capacity hgood)
      (calm_start capacity mappings started) h)

theorem unhindered_of_still {state : Daemon count} {actions : List (Action count)}
    (h : (daemon capacity mappings started count).Throughout Still state actions) :
    (daemon capacity mappings started count).Along Unhindered state actions := by
  induction actions generalizing state with
  | nil => trivial
  | cons action rest ih => exact ⟨fun _ _ _ _ => h.1, ih h.2⟩

/-- An action of a handler that is under way, which begins no other one. -/
def Settling (daemon : Daemon count) (action : Action count) : Prop :=
  Unhindered daemon action ∧ action.begins? = none

theorem along_settling {state : Daemon count} {actions : List (Action count)}
    (h : (daemon capacity mappings started count).Along Settling state actions) :
    (daemon capacity mappings started count).Along Unhindered state actions ∧
      begun actions = [] := by
  induction actions generalizing state with
  | nil => exact ⟨trivial, rfl⟩
  | cons action rest ih =>
      obtain ⟨⟨hunhindered, hinside⟩, hrest⟩ := h
      obtain ⟨halong, hnone⟩ := ih hrest
      exact ⟨⟨hunhindered, halong⟩, (List.filterMap_cons_none hinside).trans hnone⟩

/-- A handler can always come to its end. The channel is as it was. -/
theorem Quiet.handler_ends {state : Daemon count} (h : Quiet mappings started state) :
    (daemon capacity mappings started count).Possible Settling
      (fun last => (Quiet mappings started last ∧ last.queue = state.queue) ∧ last.task = .idle)
      state := by
  refine Machine.possible_of_rank Daemon.rank
    (fun last => Quiet mappings started last ∧ last.queue = state.queue) ?_ ⟨h, rfl⟩
  rintro last ⟨hquiet, hqueue⟩ hbusy
  obtain ⟨action, hadvances⟩ := hquiet.progress capacity hbusy
  exact ⟨action, ⟨hquiet.unhindered action, hadvances.inside⟩,
    ⟨hadvances.quiet, hadvances.queue.trans hqueue⟩, hadvances.lower⟩

/-- The commands of the channel can be dealt with one after another, whenever the
broker takes them. -/
theorem Quiet.drained {state : Daemon count} (h : Quiet mappings started state)
    (moments : List (Instant × String)) (hcount : moments.length = state.queue.length) :
    ∃ more, (daemon capacity mappings started count).Along Unhindered state more ∧
      begun more = moments ∧
      ((daemon capacity mappings started count).runFrom state more).task = .idle ∧
      ((daemon capacity mappings started count).runFrom state more).queue = [] := by
  induction moments generalizing state with
  | nil =>
      obtain ⟨ending, hsettling, ⟨_, hqueue⟩, hidle⟩ := h.handler_ends capacity mappings started
      obtain ⟨halong, hbegun⟩ := along_settling capacity mappings started hsettling
      have hempty : state.queue = [] := List.eq_nil_of_length_eq_zero hcount.symm
      exact ⟨ending, halong, hbegun, hidle, hqueue.trans hempty⟩
  | cons moment later ih =>
      obtain ⟨now, uuid⟩ := moment
      obtain ⟨ending, hsettling, ⟨hquiet, hqueue⟩, hidle⟩ :=
        h.handler_ends capacity mappings started
      obtain ⟨halong, hbegun⟩ := along_settling capacity mappings started hsettling
      obtain ⟨command, rest, hfirst⟩ := List.exists_cons_of_length_eq_add_one hcount.symm
      obtain ⟨hnext, hrest⟩ := hquiet.receive capacity hidle (hqueue.trans hfirst) now uuid
      have hfewer : later.length =
          (((daemon capacity mappings started count).runFrom state ending).step capacity
            (.receive now uuid)).queue.length := by
        rw [hfirst] at hcount
        rw [hrest]
        exact Nat.succ.inj hcount
      obtain ⟨more, hmore, hlater, hdone⟩ := ih hnext hfewer
      refine ⟨ending ++ .receive now uuid :: more, ?_, ?_, ?_⟩
      · exact (Machine.along_append _).mpr ⟨halong, hquiet.unhindered _, hmore⟩
      · have hall : begun (ending ++ .receive now uuid :: more) =
            begun ending ++ (now, uuid) :: begun more := List.filterMap_append
        rw [hall, hbegun, hlater]
        rfl
      · rw [Machine.runFrom_append]
        exact hdone

/-- From every state of a run without a hindered pause, in which no thread is
inside its sends, the parties can go on without one until the broker is idle
and the channel is empty, whatever the clock shows and whichever session id is
next when it takes the commands. All commands that found room in the channel are
then dealt with, in order and each one once. -/
theorem commands_drained (actions : List (Action count)) (moments : ℕ → Instant × String)
    (hunhindered : (daemon capacity mappings started count).Along Unhindered
      (daemon capacity mappings started count).start actions)
    (hstill : Still ((daemon capacity mappings started count).run actions)) :
    ∃ more, (daemon capacity mappings started count).Along Unhindered
        (daemon capacity mappings started count).start (actions ++ more) ∧
      begun more = (List.range
        ((daemon capacity mappings started count).run actions).queue.length).map moments ∧
      let last := (daemon capacity mappings started count).run (actions ++ more)
      let steps := handled capacity mappings started (actions ++ more)
      last.task = .idle ∧ last.queue = [] ∧
        last.runtime = (broker mappings started).run steps ∧
        posted capacity mappings started (actions ++ more) = commandsOf steps ∧
        posted capacity mappings started actions <+: commandsOf steps := by
  have hquiet : Quiet mappings started ((daemon capacity mappings started count).run actions) :=
    ⟨calm_run capacity mappings started hunhindered,
      owing_run capacity mappings started actions, hstill⟩
  obtain ⟨more, hmore, hbegun, hidle, hempty⟩ :=
    hquiet.drained capacity mappings started ((List.range
      ((daemon capacity mappings started count).run actions).queue.length).map moments) (by simp)
  rw [← Machine.run_append] at hidle hempty
  obtain ⟨hruntime, hcommands⟩ := accounts_run capacity mappings started (actions ++ more)
  have hhand : ((daemon capacity mappings started count).run (actions ++ more)).inHand = [] := by
    rw [Daemon.inHand, hidle]
    rfl
  rw [hhand, hempty, List.append_nil, List.append_nil] at hcommands
  have hearlier : posted capacity mappings started actions <+:
      posted capacity mappings started (actions ++ more) :=
    ⟨_, (Machine.visible_append _ _ _ actions more).symm⟩
  refine ⟨more, (Machine.along_append _).mpr ⟨hunhindered, hmore⟩, hbegun, hidle, hempty,
    hruntime, hcommands, ?_⟩
  rw [hcommands] at hearlier
  exact hearlier

/-- The thread has read an event, and the broker waits for it to let the device
go; a heartbeat is in the channel. -/
def pausing : List (Action 1) :=
  [.submit (.register (stuckChannel 7)), .receive 0 "", .proceed,
    .submit (.handshake 1 exclusiveHandshake), .receive 1 "session", .proceed,
    .submit (.revokeSession .explicitRevocation), .submit (.heartbeat 1 "session"),
    .poll (Fin.last 0), .fetch (Fin.last 0) [[⟨"pad", .pressed, some (.finite 100)⟩]],
    .receive 2 "session", .proceed]

theorem pausing_drained : ∃ more, begun more = [(3, "later")] ∧
    ((daemon 1024 [padMapping] 0 1).run (pausing ++ more)).queue = [] := by
  obtain ⟨more, _, hbegun, _, hempty, _⟩ :=
    commands_drained 1024 [padMapping] 0 pausing (fun count => (count + 3, "later"))
      (unhindered_of_still 1024 [padMapping] 0 (by decide)) (by decide)
  exact ⟨more, hbegun, hempty⟩

end Usahp.Capture
