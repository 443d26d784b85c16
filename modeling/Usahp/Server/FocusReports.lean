import Usahp.Broker.Focus
import Usahp.Server.Departure

/-!
The way of a focus change from the watcher's sample to the broker. What the
broker is told are the changes among the samples, in order. A change that the
watcher has seen waits for room in the command channel and then behind a
bounded number of commands; when the broker takes it, no session of another
process is left.
-/

namespace Usahp.Server

open Std Usahp.Library Usahp.Broker

/-- The reports among the commands. -/
def reportsOf (commands : List BrokerCommand) : List (Option UInt32) :=
  commands.filterMap fun
    | .focusChanged frontmostPid => some frontmostPid
    | _ => none

theorem reportsOf_map (reports : List (Option UInt32)) :
    reportsOf (reports.map .focusChanged) = reports := by
  rw [reportsOf, List.filterMap_map]
  exact List.filterMap_some

theorem reportsOf_append (first second : List BrokerCommand) :
    reportsOf (first ++ second) = reportsOf first ++ reportsOf second :=
  List.filterMap_append

/-- What the broker was told last is the last report. -/
theorem lastReport_eq (steps : List Step) :
    lastReport steps = (reportsOf (commandsOf steps)).getLast? := by
  induction steps using List.reverseRecOn with
  | nil => rfl
  | append_singleton steps step ih =>
      obtain ⟨surroundings, wakeup⟩ := step
      rw [lastReport_concat, ih, commandsOf_append, reportsOf_append]
      cases wakeup with
      | tick => simp [reportAfter, commandsOf, reportsOf]
      | command command =>
          cases command with
          | focusChanged pid => simp [reportAfter, commandsOf, reportsOf]
          | _ => simp [reportAfter, commandsOf, reportsOf]

section Reports

variable {serving after : Serving} {queueCapacity : ℕ+} {move : Move}

/-- Nobody but the watcher reports the focus. -/
theorem Consistent.reportsOf_taken (h : Consistent serving) :
    reportsOf (serving.mailbox.taken.map (·.2)) =
      reportsOf (serving.mailbox.takenFrom .focusWatcher) := by
  unfold reportsOf Mailbox.takenFrom Mailbox.ofOrigin
  rw [List.filterMap_map, List.filterMap_map, List.filterMap_filter]
  refine List.filterMap_congr ?_
  rintro ⟨origin, command⟩ hmem
  by_cases hwatcher : origin = .focusWatcher
  · simp [hwatcher]
  · simp only [hwatcher, decide_false, Bool.false_eq_true, if_false, Function.comp]
    split
    · rename_i pid
      have hsent := Mailbox.mem_sent.mpr (List.mem_append_left serving.mailbox.queue hmem)
      cases origin with
      | focusWatcher => exact absurd rfl hwatcher
      | input =>
          obtain ⟨event, heq⟩ := h.inputs _ hsent
          cases heq
      | connection connectionId =>
          rcases (h.linked connectionId).conversed.of_mem hsent with
            ⟨channel, heq⟩ | ⟨clientId, _, hspeaker⟩
          · cases heq
          · cases hspeaker
    · rfl

/-- A report is on its way: the watcher is sending it, or it waits at some
position of the command channel. -/
inductive Underway (pid : Option UInt32) (serving : Serving) : Prop
  | sending (report : serving.watcher.report = some pid)
  | waiting (position : Nat)
      (queued : serving.mailbox.queue[position]? = some (.focusWatcher, .focusChanged pid))

/-- No session belongs to a process other than the reported one. -/
def Settled (pid : Option UInt32) (serving : Serving) : Prop :=
  ∀ session bound, serving.runtime.session = some session → session.pid = some bound →
    pid = some bound

theorem settled_of_report {runtime : Runtime} (hsound : Sound runtime)
    (surroundings : Surroundings) (pid : Option UInt32) {session : Session} {bound : UInt32}
    (hactive : (runtime.step ⟨surroundings, .command (.focusChanged pid)⟩).session = some session)
    (hbound : session.pid = some bound) : pid = some bound := by
  have hbefore : Frontmost none runtime := fun _ _ _ h => nomatch h
  have hgrants : GrantsFrontmost none runtime
      ⟨surroundings, .command (.focusChanged pid)⟩ := fun _ _ _ _ _ _ h => nomatch h
  exact hbefore.step hsound hgrants pid session bound rfl hactive hbound

/-- The broker takes the report in this move. -/
def Told (pid : Option UInt32) (serving : Serving) (move : Move) (after : Serving) : Prop :=
  (∃ surroundings,
    serving.brokerStep move = some ⟨surroundings, .command (.focusChanged pid)⟩) ∧
    Settled pid after

/-- A waiting report moves forward with each command that is taken. -/
theorem waiting_step (hconsistent : Consistent serving)
    (hacted : serving.Acted queueCapacity move after) {pid : Option UInt32} {position : Nat}
    (hwaits : serving.mailbox.queue[position]? = some (.focusWatcher, .focusChanged pid)) :
    (∃ next, next + receives [move] ≤ position ∧
      after.mailbox.queue[next]? = some (.focusWatcher, .focusChanged pid)) ∨
      Told pid serving move after := by
  cases hacted with
  | idle move hstill =>
      cases move with
      | receive surroundings =>
          have hnone : serving.mailbox.take? = none := Option.map_eq_none_iff.mp hstill
          rw [Mailbox.take?_eq_none hnone] at hwaits
          cases hwaits
      | _ => exact .inl ⟨position, le_rfl, hwaits⟩
  | posted connectionId command next _ _ =>
      exact .inl ⟨position, le_rfl, Mailbox.getElem?_post hwaits _ command⟩
  | reported other _ _ =>
      exact .inl ⟨position, le_rfl, Mailbox.getElem?_post hwaits _ (.focusChanged other)⟩
  | inputSent event _ =>
      exact .inl ⟨position, le_rfl, Mailbox.getElem?_post hwaits _ (.input event)⟩
  | registered surroundings connectionId channel mailbox htaken =>
      rcases Mailbox.getElem?_take? htaken hwaits with ⟨_, heq⟩ | ⟨next, rfl, hnext⟩
      · cases heq
      · exact .inl ⟨next, le_rfl, hnext⟩
  | received surroundings origin command mailbox htaken _ =>
      rcases Mailbox.getElem?_take? htaken hwaits with ⟨_, heq⟩ | ⟨next, rfl, hnext⟩
      · cases heq
        refine .inr ⟨⟨surroundings, ?_⟩, fun session bound =>
          settled_of_report hconsistent.sound surroundings pid⟩
        simp [Serving.brokerStep, htaken]
      · exact .inl ⟨next, le_rfl, hnext⟩
  | _ => exact .inl ⟨position, le_rfl, hwaits⟩

theorem underway_step (hconsistent : Consistent serving)
    (hacted : serving.Acted queueCapacity move after) {pid : Option UInt32}
    (h : Underway pid serving) : Underway pid after ∨ Told pid serving move after := by
  cases h with
  | waiting position hwaits =>
      rcases waiting_step hconsistent hacted hwaits with ⟨next, _, hnext⟩ | htold
      · exact .inl (.waiting next hnext)
      · exact .inr htold
  | sending hreport =>
      left
      cases hacted with
      | polled answer =>
          refine .sending ?_
          dsimp only
          rw [FocusWatcher.poll, hreport]
          exact hreport
      | reported other hsending hroom =>
          cases hsending.symm.trans hreport
          refine .waiting serving.mailbox.queue.length ?_
          simp [Mailbox.post]
      | _ => exact .sending hreport

end Reports

variable (setup : Setup)

/-- The broker has taken the report in one of the later moves. -/
def ToldWithin (moves more : List Move) (pid : Option UInt32) : Prop :=
  ∃ early rest surroundings, early <+: more ∧
    brokerSteps setup (moves ++ early) =
      brokerSteps setup moves ++ rest ++ [⟨surroundings, .command (.focusChanged pid)⟩] ∧
    Settled pid ((daemon setup).run (moves ++ early))

theorem ToldWithin.append {setup : Setup} {moves more : List Move} {pid : Option UInt32}
    (h : ToldWithin setup moves more pid) (later : List Move) :
    ToldWithin setup moves (more ++ later) pid := by
  obtain ⟨early, rest, surroundings, hearly, htold⟩ := h
  exact ⟨early, rest, surroundings, hearly.trans (List.prefix_append _ _), htold⟩

theorem step_later (moves more : List Move) (last : Move) :
    ((daemon setup).run (moves ++ more)).step setup.queueCapacity last =
      (daemon setup).run (moves ++ (more ++ [last])) := by
  rw [← List.append_assoc, Machine.run_concat]
  rfl

theorem Told.within {setup : Setup} {moves more : List Move} {last : Move}
    {pid : Option UInt32} (h : Told pid ((daemon setup).run (moves ++ more)) last
      ((daemon setup).run (moves ++ (more ++ [last])))) :
    ToldWithin setup moves (more ++ [last]) pid := by
  obtain ⟨⟨surroundings, hstep⟩, hsettled⟩ := h
  obtain ⟨rest, hrest⟩ := brokerSteps_append setup moves more
  refine ⟨more ++ [last], rest, surroundings, List.prefix_rfl, ?_, hsettled⟩
  rw [← List.append_assoc, brokerSteps_concat, hstep, hrest]
  rfl

theorem underway_run (moves more : List Move) {pid : Option UInt32}
    (hreport : ((daemon setup).run moves).watcher.report = some pid) :
    Underway pid ((daemon setup).run (moves ++ more)) ∨ ToldWithin setup moves more pid := by
  induction more using List.reverseRecOn with
  | nil =>
      rw [List.append_nil]
      exact .inl (.sending hreport)
  | append_singleton more last ih =>
      rcases ih with hunderway | htold
      · have hacted := Serving.step_acted ((daemon setup).run (moves ++ more))
          setup.queueCapacity last
        rw [step_later] at hacted
        exact (underway_step (consistent_run setup _) hacted hunderway).imp_right Told.within
      · exact .inr (htold.append [last])

theorem waiting_run (moves more : List Move) {pid : Option UInt32} {position : Nat}
    (hwaits : ((daemon setup).run moves).mailbox.queue[position]? =
      some (.focusWatcher, .focusChanged pid)) :
    (∃ next, next + receives more ≤ position ∧
      ((daemon setup).run (moves ++ more)).mailbox.queue[next]? =
        some (.focusWatcher, .focusChanged pid)) ∨ ToldWithin setup moves more pid := by
  induction more using List.reverseRecOn with
  | nil =>
      rw [List.append_nil]
      exact .inl ⟨position, le_rfl, hwaits⟩
  | append_singleton more last ih =>
      rcases ih with ⟨next, hnext, hstill⟩ | htold
      · have hacted := Serving.step_acted ((daemon setup).run (moves ++ more))
          setup.queueCapacity last
        rw [step_later] at hacted
        have hcount : receives (more ++ [last]) = receives more + receives [last] :=
          List.countP_append
        rcases waiting_step (consistent_run setup _) hacted hstill with
          ⟨later, hlater, hqueued⟩ | htold
        · refine .inl ⟨later, ?_, hqueued⟩
          omega
        · exact .inr htold.within
      · exact .inr (htold.append [last])

theorem first_sample_run (moves : List Move) :
    ((daemon setup).run moves).watcher.samples.head? =
      some (frontmostPid setup.frontmost) := by
  refine (daemon setup).invariant
    (fun serving => serving.watcher.samples.head? = some (frontmostPid setup.frontmost)) rfl
    ?_ moves
  intro serving move hfirst
  have hacted := serving.step_acted setup.queueCapacity move
  change (serving.step setup.queueCapacity move).watcher.samples.head? = _
  generalize serving.step setup.queueCapacity move = after at hacted ⊢
  cases hacted with
  | polled processIdentifier =>
      exact FocusWatcher.head?_samples_poll hfirst processIdentifier
  | _ => exact hfirst

/-- With no report on its way all of them have been taken. -/
theorem Consistent.takenFrom_watcher {serving : Serving} (h : Consistent serving)
    (hidle : ∀ pid, ¬ Underway pid serving) :
    serving.mailbox.takenFrom .focusWatcher = serving.mailbox.sent .focusWatcher := by
  have hnothing : Mailbox.ofOrigin .focusWatcher serving.mailbox.queue = [] := by
    refine List.eq_nil_iff_forall_not_mem.mpr fun command hmem => ?_
    obtain ⟨⟨origin, _⟩, hentry, rfl⟩ := List.mem_map.mp hmem
    obtain ⟨hqueued, horigin⟩ := List.mem_filter.mp hentry
    cases of_decide_eq_true horigin
    obtain ⟨reports, hsent, _⟩ := h.reports
    have hlogged := Mailbox.mem_sent.mpr (List.mem_append_right serving.mailbox.taken hqueued)
    rw [hsent] at hlogged
    obtain ⟨pid, _, rfl⟩ := List.mem_map.mp hlogged
    obtain ⟨position, hposition⟩ := List.mem_iff_getElem?.mp hqueued
    exact hidle pid (.waiting position hposition)
  rw [Mailbox.sent, Mailbox.log, Mailbox.ofOrigin_append, hnothing, List.append_nil]
  rfl

/-- The broker is told the changes among the samples of the watcher, in order.
No report repeats the one before it, and the first one is not the process that
was frontmost at the start, which is never reported itself. With no report on
its way, the broker was last told what was sampled last, or it was told nothing
and the process of the start is still the one sampled last. -/
theorem focus_reports (moves : List Move) :
    let serving := (daemon setup).run moves
    let reports := reportsOf (commandsOf (brokerSteps setup moves))
    let first := frontmostPid setup.frontmost
    reports <+: serving.watcher.changes ∧
    (first :: reports).IsChain (· ≠ ·) ∧
    lastReport (brokerSteps setup moves) = reports.getLast? ∧
    ((∀ pid, ¬ Underway pid serving) →
      reports = [] ∧ serving.watcher.lastPid = first ∨
        reports.getLast? = some serving.watcher.lastPid) := by
  intro serving reports first
  have hconsistent : Consistent serving := consistent_run setup moves
  have hfirst : serving.watcher.samples.head? = some first := first_sample_run setup moves
  obtain ⟨sent, hsent, hreported⟩ := hconsistent.reports
  have hreports : reports = reportsOf (serving.mailbox.takenFrom .focusWatcher) :=
    (congrArg reportsOf (commandsOf_brokerSteps setup moves)).trans hconsistent.reportsOf_taken
  have hearlier : reports <+: sent := by
    have htaken : reportsOf _ <+: reportsOf _ :=
      (serving.mailbox.takenFrom_prefix .focusWatcher).filterMap _
    rwa [hsent, reportsOf_map, ← hreports] at htaken
  have hchanges : sent <+: serving.watcher.changes := by
    rw [← hreported.reports]
    exact List.prefix_append _ _
  refine ⟨hearlier.trans hchanges, ?_, lastReport_eq _, fun hidle => ?_⟩
  · obtain ⟨later, rfl⟩ := hearlier
    have hchain := hreported.isChain hfirst
    rw [← List.cons_append] at hchain
    exact hchain.left_of_append
  · have hall : reports = sent := by
      rw [hreports, hconsistent.takenFrom_watcher hidle, hsent, reportsOf_map]
    have hsilent : serving.watcher.report = none := by
      cases hreport : serving.watcher.report with
      | none => rfl
      | some pid => exact absurd (.sending hreport) (hidle pid)
    rw [hall]
    exact hreported.latest hsilent hfirst

/-- A focus change that the watcher has seen reaches the broker. Once the report
could be sent and the broker has asked for as many commands as its channel can
hold, it has taken the report, and then no session was bound to another
process. -/
theorem focus_loss (moves sending more : List Move) {pid : Option UInt32}
    (hseen : ((daemon setup).run moves).watcher.report = some pid)
    (hsent : ((daemon setup).run (moves ++ sending)).watcher.report ≠ some pid)
    (hreceives : commandCapacity ≤ receives more) :
    ∃ early rest surroundings, early <+: sending ++ more ∧
      brokerSteps setup (moves ++ early) =
        brokerSteps setup moves ++ rest ++ [⟨surroundings, .command (.focusChanged pid)⟩] ∧
      ∀ session bound, ((daemon setup).run (moves ++ early)).runtime.session = some session →
        session.pid = some bound → pid = some bound := by
  change ToldWithin setup moves (sending ++ more) pid
  rcases underway_run setup moves sending hseen with hunderway | htold
  · cases hunderway with
    | sending hreport => exact absurd hreport hsent
    | waiting position hwaits =>
        rcases waiting_run setup (moves ++ sending) more hwaits with
          ⟨next, hnext, _⟩ | ⟨early, rest, surroundings, hearly, hsteps, hsettled⟩
        · have hbounded := (consistent_run setup (moves ++ sending)).bounded
          have hcapacity := capacity_run setup (moves ++ sending)
          obtain ⟨hlt, _⟩ := List.getElem?_eq_some_iff.mp hwaits
          unfold Mailbox.Bounded at hbounded
          omega
        · obtain ⟨between, hbetween⟩ := brokerSteps_append setup moves sending
          rw [List.append_assoc] at hsteps hsettled
          refine ⟨sending ++ early, between ++ rest, surroundings,
            (List.prefix_append_right_inj sending).mpr hearly, ?_, hsettled⟩
          rw [hsteps, hbetween]
          simp only [List.append_assoc]
  · exact htold.append more

/-- A client opens a session for process 1000, and then the focus goes to
process 5. -/
def switched : List Move :=
  [.connect 7 [], .post 7, .receive calm, .answer 7,
    .read 7 (.text (some (ClientMessage.handshake
      { exclusiveHandshake with pid := some 1000 }).encode)),
    .post 7, .receive calm, .poll (some 5)]

theorem switched_focus_loss :
    ((daemon plainSetup).run switched).runtime.session =
      some ⟨1, "session", some 1000, 0⟩ ∧
    ∃ early rest surroundings,
      early <+: [.report] ++ List.replicate commandCapacity (.receive calm) ∧
      brokerSteps plainSetup (switched ++ early) =
        brokerSteps plainSetup switched ++ rest ++
          [⟨surroundings, .command (.focusChanged (some 5))⟩] ∧
      ∀ session,
        ((daemon plainSetup).run (switched ++ early)).runtime.session = some session →
        session.pid ≠ some 1000 := by
  have hseen : ((daemon plainSetup).run switched).watcher.report = some (some 5) := by
    decide +kernel
  have hsent : ((daemon plainSetup).run (switched ++ [.report])).watcher.report ≠
      some (some 5) := by
    decide +kernel
  refine ⟨by decide +kernel, ?_⟩
  obtain ⟨early, rest, surroundings, hearly, hsteps, hsettled⟩ :=
    focus_loss plainSetup switched [.report] (List.replicate commandCapacity (.receive calm))
      hseen hsent (by simp [receives, List.countP_replicate])
  refine ⟨early, rest, surroundings, hearly, hsteps, ?_⟩
  intro session hactive hbound
  exact absurd (hsettled session 1000 hactive hbound) (by decide)

end Usahp.Server
