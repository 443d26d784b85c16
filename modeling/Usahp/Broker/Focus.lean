import Usahp.Broker.Outcome

/-!
Sessions that are bound to the frontmost process. A report that arrives while
such a session is active ends it when it names another process. The broker
does not remember reports, so one that arrives before the session is accepted
is lost: exactly the handshakes that are granted against the last report break
the binding.
-/

namespace Usahp.Broker

open Std Usahp.Library

/-- The last report after one more step. -/
def reportAfter (report : Option (Option UInt32)) (step : Step) : Option (Option UInt32) :=
  match step.wakeup with
  | .command (.focusChanged frontmostPid) => some frontmostPid
  | _ => report

/-- What the last `FocusChanged` of a run reported; none before the first. -/
def lastReport (steps : List Step) : Option (Option UInt32) :=
  steps.foldl reportAfter none

/-- A session with a process belongs to the one that was last reported. -/
def Frontmost (report : Option (Option UInt32)) (runtime : Runtime) : Prop :=
  ∀ frontmost session pid, report = some frontmost → runtime.session = some session →
    session.pid = some pid → frontmost = some pid

/-- The handshake passes its checks, and the client's queue takes the releases
that are due before it and the answer. -/
def Grants (runtime : Runtime) (surroundings : Surroundings) (clientId : ClientId)
    (handshake : Handshake) : Prop :=
  runtime.firstFailure surroundings handshake = none ∧
    ∃ sender, runtime.clients[clientId]? = some sender ∧
      sender.TakesAll ((runtime.legacy surroundings.now).map .switchEvent ++
        [.handshakeResponse (acceptance surroundings.uuid)])

/-- No handshake is granted to a process that was not last reported. -/
def GrantsFrontmost (report : Option (Option UInt32)) (runtime : Runtime) (step : Step) :
    Prop :=
  ∀ clientId handshake pid frontmost,
    step.wakeup = .command (.handshake clientId handshake) → handshake.pid = some pid →
    report = some frontmost → Grants runtime step.surroundings clientId handshake →
    frontmost = some pid

theorem lastReport_concat (steps : List Step) (step : Step) :
    lastReport (steps ++ [step]) = reportAfter (lastReport steps) step :=
  List.foldl_concat _ _ _ _

theorem reportAfter_of_handshake (report : Option (Option UInt32)) {step : Step}
    {clientId : ClientId} {handshake : Handshake}
    (h : step.wakeup = .command (.handshake clientId handshake)) :
    reportAfter report step = report := by
  unfold reportAfter
  rw [h]

namespace Runtime

variable (runtime : Runtime) (surroundings : Surroundings)

theorem foldl_broadcast_accepts_iff (messages : List ServerMessage) (clientId : ClientId)
    (last : ServerMessage) :
    (messages.foldl broadcast runtime).Accepts clientId ↔
      ∃ sender, runtime.clients[clientId]? = some sender ∧
        sender.TakesAll (messages ++ [last]) := by
  induction messages generalizing runtime with
  | nil => simp [Accepts, Sender.TakesAll]
  | cons message rest ih =>
      rw [List.foldl_cons, ih, getElem?_broadcast]
      cases hclient : runtime.clients[clientId]? with
      | none => simp
      | some sender =>
          by_cases haccepts : sender.Accepts
          · simp [haccepts, Sender.TakesAll]
          · simp [haccepts, Sender.TakesAll]

/-- The acceptance finds room exactly when everything due before it does too. -/
theorem ready_accepts_iff {base : Runtime} (hready : Ready runtime surroundings base)
    (clientId : ClientId) (last : ServerMessage) :
    (base.releaseLegacy surroundings).Accepts clientId ↔
      ∃ sender, runtime.clients[clientId]? = some sender ∧
        sender.TakesAll ((runtime.legacy surroundings.now).map .switchEvent ++ [last]) := by
  cases hready with
  | running hrunning =>
      rw [runtime.releaseLegacy_of_running surroundings hrunning,
        foldl_broadcast_accepts_iff _ _ clientId last, legacy, hrunning]
      rfl
  | resumed hpaused hok =>
      rw [(runtime.resumeCapture surroundings).2.releaseLegacy_of_paused surroundings hpaused,
        legacy, if_pos hpaused]
      exact (runtime.resumeCapture surroundings).2.foldl_broadcast_accepts_iff [] clientId last

/-- A handshake opens a session when it is granted, and else leaves the session
as it was. -/
theorem handshake_session (clientId : ClientId) (handshake : Handshake) :
    Grants runtime surroundings clientId handshake ∧
        (runtime.handshake surroundings clientId handshake).session =
          some ⟨clientId, surroundings.uuid, handshake.pid, surroundings.now⟩ ∨
      ¬ Grants runtime surroundings clientId handshake ∧
        (runtime.handshake surroundings clientId handshake).session = runtime.session := by
  have hturn := runtime.handshake_turn surroundings clientId handshake
  generalize runtime.handshake surroundings clientId handshake = after at hturn ⊢
  cases hturn with
  | rejected _ _ reason hrejection =>
      have hfirst := runtime.firstFailure_of_rejection surroundings hrejection
      right
      constructor
      · rintro ⟨hpassed, _⟩
        rw [hfirst] at hpassed
        cases hpassed
      · exact congrArg Core.session (runtime.reject_core clientId reason)
  | unavailable _ _ hrejection hpaused error hfailed =>
      have hfirst := runtime.firstFailure_of_passed surroundings hrejection
      simp only [hpaused, hfailed, Except.isOk, Except.toBool, Bool.not_false, Bool.and_self,
        if_true] at hfirst
      right
      constructor
      · rintro ⟨hpassed, _⟩
        rw [hfirst] at hpassed
        cases hpassed
      · rw [runtime.resumeCapture_of_error surroundings hfailed]
        exact congrArg Core.session (reject_core _ clientId .captureUnavailable)
  | abandoned _ _ hrejection base hready hgone =>
      right
      constructor
      · rintro ⟨_, hroom⟩
        obtain ⟨sender, hsender, _⟩ :=
          (runtime.ready_accepts_iff surroundings hready clientId _).mpr hroom
        exact hgone ((mem_clients_iff _).mpr ⟨sender, hsender⟩)
      · have hsame := releaseLegacy_core base surroundings
        change (base.releaseLegacy surroundings).core.session = runtime.session
        rw [hsame]
        cases hready with
        | running _ => split_ifs <;> rfl
        | resumed _ _ => split_ifs <;> rfl
  | accepted _ _ hrejection base hready haccepts =>
      left
      constructor
      · exact ⟨runtime.firstFailure_of_ready surroundings hrejection hready,
          (runtime.ready_accepts_iff surroundings hready clientId _).mp haccepts⟩
      · exact opened_session _ surroundings clientId _ _
  | refused _ _ hrejection base hready _ hrefuses =>
      right
      constructor
      · rintro ⟨_, hroom⟩
        exact hrefuses ((runtime.ready_accepts_iff surroundings hready clientId _).mpr hroom)
      · have hactive := (base.releaseLegacy surroundings).opened_session surroundings clientId
          handshake.pid (acceptance surroundings.uuid)
        exact (revoke_session _ surroundings .queueOverflow hactive).trans
          (runtime.rejection_eq_none hrejection).symm
  | revoked session hactive _ reason hdemand => cases hdemand
  | ignored _ hkind _ =>
      rcases hkind with h | ⟨_, h⟩ | ⟨_, h⟩
      · cases h
      · cases h
      · cases h

end Runtime

/-- One step keeps the binding unless it grants a handshake against the last
report. -/
theorem Frontmost.step {report : Option (Option UInt32)} {runtime : Runtime}
    (hfrontmost : Frontmost report runtime) (hsound : Sound runtime) {step : Step}
    (hgrants : GrantsFrontmost report runtime step) :
    Frontmost (reportAfter report step) (runtime.step step) := by
  intro frontmost session pid hreport hactive hpid
  cases hsound.change step with
  | idle _ hstill =>
      rw [hstill] at hactive
      cases hactive
  | opened clientId handshake hasked hidle hopened _ _ _ =>
      rw [reportAfter_of_handshake report hasked] at hreport
      rw [hopened] at hactive
      cases hactive
      apply hgrants clientId handshake pid frontmost hasked hpid hreport
      have hsession := runtime.handshake_session step.surroundings clientId handshake
      have hstep : runtime.step step =
          runtime.handshake step.surroundings clientId handshake := by
        unfold Runtime.step Runtime.handle
        rw [hasked]
      rw [hstep] at hopened
      rcases hsession with ⟨hgranted, _⟩ | ⟨_, hsame⟩
      · exact hgranted
      · rw [hopened, hidle] at hsame
        cases hsame
  | kept before hbefore hkept hunforced _ _ _ _ =>
      rw [hkept] at hactive
      cases hactive
      have hbound : before.pid = some pid :=
        (congrArg SessionKey.pid (beat_key before _ _)).symm.trans hpid
      unfold reportAfter at hreport
      split at hreport
      · rename_i reported hwakeup
        cases hreport
        by_contra hother
        refine hunforced .focusLost (.demanded _ _ ?_)
        rw [hwakeup]
        exact .focusLost pid frontmost hbound hother
      · exact hfrontmost frontmost before pid hreport hbefore hbound
  | ended _ _ hstill _ _ _ _ _ =>
      rw [hstill] at hactive
      cases hactive

/-- A handshake that is granted against the last report breaks the binding. -/
theorem GrantsFrontmost.of_after {report : Option (Option UInt32)} {runtime : Runtime}
    {step : Step} (hafter : Frontmost (reportAfter report step) (runtime.step step)) :
    GrantsFrontmost report runtime step := by
  intro clientId handshake pid frontmost hasked hpid hreport hgranted
  have hstep : runtime.step step =
      runtime.handshake step.surroundings clientId handshake := by
    unfold Runtime.step Runtime.handle
    rw [hasked]
  rw [reportAfter_of_handshake report hasked, hstep] at hafter
  rcases runtime.handshake_session step.surroundings clientId handshake with
    ⟨_, hopened⟩ | ⟨hrefused, _⟩
  · exact hafter frontmost _ pid hreport hopened hpid
  · exact absurd hgranted hrefused

variable (mappings : List Mapping) (started : Instant)

/-- The active session belongs to the last reported process in every state of
a run exactly when no handshake of the run is granted against the last
report. -/
theorem frontmost_iff (steps : List Step) :
    (∀ front back, steps = front ++ back →
        Frontmost (lastReport front) ((broker mappings started).run front)) ↔
      ∀ front step back, steps = front ++ step :: back →
        GrantsFrontmost (lastReport front) ((broker mappings started).run front) step := by
  constructor
  · intro hbound front step back hsteps
    have hafter := hbound (front ++ [step]) back (by rw [hsteps]; simp)
    rw [lastReport_concat, Machine.run_concat] at hafter
    exact .of_after hafter
  · intro hgrants front
    induction front using List.reverseRecOn with
    | nil =>
        intro back _ frontmost session pid hreport
        cases hreport
    | append_singleton front step ih =>
        intro back hsteps
        rw [List.append_assoc, List.singleton_append] at hsteps
        rw [lastReport_concat, Machine.run_concat]
        exact (ih (step :: back) hsteps).step (sound_run mappings started front)
          (hgrants front step back hsteps)

/-- The application of process 1000 is left before its handshake arrives. -/
def lateHandshake : List Step :=
  [passAt 0 (.command (.register (stuckChannel 7))),
    passAt 1 (.command (.focusChanged (some 2000))),
    passAt 2 (.command (.handshake 1 { exclusiveHandshake with pid := some 1000 }))]

theorem lateHandshake_background :
    ¬ Frontmost (lastReport lateHandshake) ((broker [] 0).run lateHandshake) := by
  intro hfrontmost
  have hactive : ((broker [] 0).run lateHandshake).session =
      some ⟨1, "session", some 1000, 2⟩ := by decide
  have hpid := hfrontmost (some 2000) _ 1000 rfl hactive rfl
  revert hpid
  decide

end Usahp.Broker
