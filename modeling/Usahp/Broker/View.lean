import Usahp.Broker.Holder

/-!
What a client believes about the switches: the levels of its hello, changed by
every event it is sent. While a client is served its belief is the level of
the state machine, because the events of a pass are an exact log. A client who
registers while another one's session holds a switch is greeted with that
press and is never sent the release.
-/

namespace Usahp.Broker

open Std Usahp.Library

/-- The levels a hello reports; a switch it does not list counts as released. -/
def reported (hello : Hello) (switchId : String) : SwitchState :=
  match hello.switches.find? (·.switchId = switchId) with
  | some snapshot => snapshot.state
  | none => .released

def believe (levels : String → SwitchState) : ServerMessage → String → SwitchState
  | .hello hello => reported hello
  | .switchEvent event => Function.update levels event.switchId event.action.state
  | .handshakeResponse _ => levels
  | .sessionRevoked _ => levels

/-- What a client believes after its messages. -/
def view (messages : List ServerMessage) : String → SwitchState :=
  messages.foldl believe fun _ => .released

/-- Events reach the client now: there is no session, or it is the client's. -/
def Served (runtime : Runtime) (clientId : ClientId) : Prop :=
  runtime.session.all (·.clientId = clientId)

instance (runtime : Runtime) (clientId : ClientId) :
    Decidable (Served runtime clientId) :=
  inferInstanceAs (Decidable (_ = true))

/-- A registered client who is served believes what `snapshots` reports. -/
def Coherent (clientId : ClientId) (runtime : Runtime) : Prop :=
  clientId ∈ runtime.clients → Served runtime clientId →
    ∀ snapshot ∈ runtime.state.snapshots,
      view (enqueued runtime clientId) snapshot.switchId = snapshot.state

/-- The receiver of the channel is there for the hello. -/
def Welcomes (channel : Channel) : Prop :=
  (Sender.ofChannel channel : Sender ServerMessage).Accepts

instance (channel : Channel) : Decidable (Welcomes channel) :=
  inferInstanceAs (Decidable (Sender.Accepts _))

/-- No client is registered during a session with something pressed. -/
def WellTimed (runtime : Runtime) (step : Step) : Prop :=
  ∀ channel, step.wakeup = .command (.register channel) → Welcomes channel →
    runtime.session = none ∨ runtime.state.AllReleased

theorem reported_snapshots (state : SwitchStateMachine) (version : String) :
    reported ⟨version, state.snapshots⟩ = state.level := by
  funext switchId
  unfold reported
  rw [SwitchStateMachine.snapshots_eq]
  cases hfind : (state.switches.map fun switchId =>
      (⟨switchId, state.level switchId, none⟩ : SwitchSnapshot)).find?
        (·.switchId = switchId) with
  | some snapshot =>
      obtain ⟨listed, _, rfl⟩ := List.mem_map.mp (List.mem_of_find?_eq_some hfind)
      have hlisted : listed = switchId := by simpa using List.find?_some hfind
      subst hlisted
      rfl
  | none =>
      symm
      rw [SwitchState.eq_released_iff]
      intro hpressed
      have hentry := List.mem_map_of_mem
        (f := fun switchId => (⟨switchId, state.level switchId, none⟩ : SwitchSnapshot))
        (state.mem_switches_of_pressed hpressed)
      have hmiss := List.find?_eq_none.mp hfind _ hentry
      simp at hmiss

theorem view_append (first second : List ServerMessage) :
    view (first ++ second) = second.foldl believe (view first) :=
  List.foldl_append

/-- Without a hello a client replays the events and ignores the rest. -/
theorem foldl_believe {messages : List ServerMessage}
    (h : ∀ hello, ServerMessage.hello hello ∉ messages) (levels : String → SwitchState) :
    messages.foldl believe levels = replay levels ((eventsOf messages).map eventEdge) := by
  induction messages generalizing levels with
  | nil => rfl
  | cons message rest ih =>
      have hrest : ∀ hello, ServerMessage.hello hello ∉ rest := by
        intro hello hmem
        exact h hello (List.mem_cons_of_mem _ hmem)
      cases message with
      | hello hello => exact absurd List.mem_cons_self (h hello)
      | switchEvent event => exact ih hrest _
      | handshakeResponse response => exact ih hrest levels
      | sessionRevoked revoked => exact ih hrest levels

/-- A client who was there before the step is not greeted in it. -/
theorem hello_not_mem_addressedBy {clientId : ClientId} {runtime : Runtime}
    (hmem : clientId ∈ runtime.clients) (step : Step) (hello : Hello) :
    ServerMessage.hello hello ∉ addressedBy clientId runtime step := by
  rw [addressedBy, addressed, if_pos hmem]
  intro h
  rcases List.mem_append.mp h with hevent | h
  · obtain ⟨_, ⟨⟩⟩ := kind_of_mem_eventsFor hevent
  · rcases List.mem_append.mp h with hresponse | hrevocation
    · obtain ⟨_, ⟨⟩⟩ := kind_of_mem_responsesFor hresponse
    · obtain ⟨_, _, heq⟩ := List.mem_map.mp hrevocation
      cases heq

/-- The belief of a client who stays, after one step. -/
theorem Sound.view_step {runtime : Runtime} (hsound : Sound runtime) (step : Step)
    {clientId : ClientId} (hmem : clientId ∈ runtime.clients)
    (hstays : clientId ∈ (runtime.step step).clients) :
    view (enqueued (runtime.step step) clientId) =
      if Served runtime clientId then
        replay (view (enqueued runtime clientId))
          ((createdBy runtime step).map eventEdge)
      else view (enqueued runtime clientId) := by
  rw [hsound.enqueued_step step hstays, view_append,
    foldl_believe (hello_not_mem_addressedBy hmem step), eventsOf_addressedBy]
  by_cases hserved : Served runtime clientId
  · rw [if_pos ⟨hmem, hserved⟩, if_pos hserved]
  · rw [if_neg fun h => hserved h.2, if_neg hserved]
    rfl

theorem served_iff (runtime : Runtime) (clientId : ClientId) :
    Served runtime clientId ↔
      (runtime.session.map Session.key).all (·.clientId = clientId) = true := by
  unfold Served
  cases runtime.session <;> rfl

/-- The invariant behind the belief of a registered client: it is exact while
the client is served, and nothing is believed pressed during the session of
another client. -/
structure Informed (clientId : ClientId) (runtime : Runtime) : Prop where
  current : Served runtime clientId →
    view (enqueued runtime clientId) = runtime.state.level
  apart : ¬ Served runtime clientId →
    view (enqueued runtime clientId) = fun _ => .released

theorem Informed.of_level {clientId : ClientId} {runtime : Runtime}
    (h : view (enqueued runtime clientId) = runtime.state.level)
    (hreleased : ¬ Served runtime clientId → runtime.state.AllReleased) :
    Informed clientId runtime where
  current _ := h
  apart hother := h.trans (funext (hreleased hother))

/-- The greeting is the present state. -/
theorem Sound.view_greeted {runtime : Runtime} (hsound : Sound runtime) (step : Step)
    {channel : Channel} (hregister : step.wakeup = .command (.register channel))
    (hmem : runtime.nextClient ∈ (runtime.step step).clients) :
    view (enqueued (runtime.step step) runtime.nextClient) =
      (runtime.step step).state.level := by
  obtain ⟨habsent, hempty⟩ := hsound.unused _ le_rfl
  have hgreeting : addressedBy runtime.nextClient runtime step = [runtime.greeting] := by
    rw [addressedBy, addressed, if_neg habsent, hregister]
    exact if_pos rfl
  have hstate : (runtime.step step).state = runtime.state := by
    obtain ⟨surroundings, wakeup⟩ := step
    cases hregister
    exact congrArg Core.state (runtime.register_core channel)
  rw [hsound.enqueued_step step hmem, hgreeting, hstate, enqueued, hempty]
  exact reported_snapshots runtime.state protocolVersion

theorem informed_step {runtime : Runtime} (hsound : Sound runtime) {step : Step}
    (htimed : WellTimed runtime step) {clientId : ClientId}
    (hinformed : clientId ∈ runtime.clients → Informed clientId runtime)
    (hstays : clientId ∈ (runtime.step step).clients) :
    Informed clientId (runtime.step step) := by
  have hpassed := hsound.passed step
  rcases hpassed.members clientId hstays with hmem | ⟨rfl, channel, hregister⟩
  · have hview := hsound.view_step step hmem hstays
    have hold := hinformed hmem
    by_cases hserved : Served runtime clientId
    · -- served so far: the belief follows the log of the step
      rw [if_pos hserved, hold.current hserved] at hview
      refine .of_level (hview.trans hpassed.creates.changes.replay_eq) ?_
      intro hother
      rcases hsound.session_step step with hsame | hreleased
      · rw [served_iff, hsame, ← served_iff] at hother
        exact absurd hserved hother
      · exact hreleased
    · -- another client's session: no events, and it ends with nothing pressed
      rw [if_neg hserved, hold.apart hserved] at hview
      rcases hsound.session_step step with hsame | hreleased
      · refine ⟨fun hlater => ?_, fun _ => hview⟩
        rw [served_iff, hsame, ← served_iff] at hlater
        exact absurd hlater hserved
      · exact .of_level (hview.trans (funext hreleased).symm) fun _ => hreleased
  · refine .of_level (hsound.view_greeted step hregister hstays) ?_
    intro hother
    have hwelcome : Welcomes channel := by
      obtain ⟨surroundings, wakeup⟩ := step
      cases hregister
      rcases (runtime.mem_register_clients channel _).mp hstays with hold | ⟨_, hok⟩
      · exact absurd hold (hsound.unused _ le_rfl).1
      · rw [Sender.trySend_isOk] at hok
        exact of_decide_eq_true hok
    obtain ⟨surroundings, wakeup⟩ := step
    cases hregister
    have hcore := runtime.register_core channel
    rcases htimed channel rfl hwelcome with hidle | hreleased
    · refine absurd ?_ hother
      have hsession : (runtime.register channel).session = none :=
        (congrArg Core.session hcore).trans hidle
      change (runtime.register channel).session.all _ = true
      rw [hsession]
      rfl
    · have hstate : (runtime.register channel).state = runtime.state :=
        congrArg Core.state hcore
      change (runtime.register channel).state.AllReleased
      rw [hstate]
      exact hreleased

variable (mappings : List Mapping) (started : Instant)

theorem informed_run {runtime : Runtime} (hsound : Sound runtime) {clientId : ClientId}
    (hinformed : clientId ∈ runtime.clients → Informed clientId runtime)
    (steps : List Step)
    (htimed : (broker mappings started).Along WellTimed runtime steps)
    (hmem : clientId ∈ ((broker mappings started).runFrom runtime steps).clients) :
    Informed clientId ((broker mappings started).runFrom runtime steps) := by
  induction steps generalizing runtime with
  | nil => exact hinformed hmem
  | cons step rest ih =>
      exact ih (hsound.step step) (informed_step hsound htimed.1 hinformed) htimed.2 hmem

theorem Informed.coherent {clientId : ClientId} {runtime : Runtime}
    (h : Informed clientId runtime) : Coherent clientId runtime := by
  intro _ hserved snapshot hsnapshot
  rw [SwitchStateMachine.snapshots_eq] at hsnapshot
  obtain ⟨switchId, _, rfl⟩ := List.mem_map.mp hsnapshot
  exact congrFun (h.current hserved) switchId

/-- Another client is not touched by the end of a session. -/
theorem revoke_other {runtime : Runtime} {session : Session}
    (hactive : runtime.session = some session) {clientId : ClientId}
    (hne : clientId ≠ session.clientId) (surroundings : Surroundings)
    (reason : SessionRevocationReason) :
    (clientId ∈ (runtime.revoke surroundings reason).clients ↔
      clientId ∈ runtime.clients) ∧
    enqueued (runtime.revoke surroundings reason) clientId =
      enqueued runtime clientId := by
  rw [runtime.revoke_of_some surroundings reason hactive]
  constructor
  · exact (runtime.stopped surroundings).mem_dismiss_of_ne hne _
  · exact congrArg (fun attempts : List Attempt =>
      (attempts.filter (·.sent)).map (·.message))
      ((runtime.stopped surroundings).attempts_dismiss_of_ne hne _)

/-- A registration at a bad moment misleads the client for good: when the
session is ended next, the client still believes the press it was greeted
with. -/
theorem misled_of_not_wellTimed {runtime : Runtime} (hsound : Sound runtime)
    (hassigned : HolderAssigned runtime) {step : Step} (hbad : ¬ WellTimed runtime step)
    (ending : Step)
    (hending : ending.wakeup = .command (.revokeSession .explicitRevocation)) :
    ¬ Coherent runtime.nextClient ((runtime.step step).step ending) := by
  unfold WellTimed at hbad
  push Not at hbad
  obtain ⟨channel, hregister, hwelcome, hsession, hpressed⟩ := hbad
  obtain ⟨session, hactive⟩ := Option.ne_none_iff_exists'.mp hsession
  have hne : runtime.nextClient ≠ session.clientId :=
    Nat.ne_of_gt (hassigned session hactive)
  obtain ⟨surroundings, wakeup⟩ := step
  cases hregister
  obtain ⟨later, wakeup⟩ := ending
  cases hending
  have hcore := runtime.register_core channel
  have hmem : runtime.nextClient ∈ (runtime.register channel).clients := by
    refine (runtime.mem_register_clients channel _).mpr (Or.inr ⟨rfl, ?_⟩)
    rw [Sender.trySend_isOk]
    exact decide_eq_true hwelcome
  have hgreeted := hsound.view_greeted ⟨surroundings, .command (.register channel)⟩ rfl hmem
  change view (enqueued (runtime.register channel) _) = (runtime.register channel).state.level
    at hgreeted
  have hstillActive : (runtime.register channel).session = some session :=
    (congrArg Core.session hcore).trans hactive
  have hstate : (runtime.register channel).state = runtime.state :=
    congrArg Core.state hcore
  obtain ⟨hmembers, hview⟩ := revoke_other hstillActive hne later .explicitRevocation
  change ¬ Coherent runtime.nextClient
    ((runtime.register channel).revoke later .explicitRevocation)
  intro hcoherent
  have hserved : Served ((runtime.register channel).revoke later .explicitRevocation)
      runtime.nextClient := by
    unfold Served
    rw [Runtime.revoke_session _ later .explicitRevocation hstillActive]
    rfl
  have hlevels := hcoherent (hmembers.mpr hmem) hserved
  have hfinal : ((runtime.register channel).revoke later .explicitRevocation).state =
      runtime.state.releaseAll.2 := by
    rw [Runtime.revoke_state _ later .explicitRevocation hstillActive, hstate]
  rw [hview, hgreeted, hstate, hfinal, SwitchStateMachine.snapshots_eq,
    SwitchStateMachine.releaseAll_switches] at hlevels
  refine hpressed fun switchId => ?_
  by_contra hlevel
  have hlisted : switchId ∈ runtime.state.switches := by
    apply runtime.state.mem_switches_of_pressed
    by_contra hnot
    exact hlevel ((SwitchState.eq_released_iff _).mpr hnot)
  have hwrong := hlevels _ (List.mem_map_of_mem hlisted)
  exact hlevel (hwrong.trans (runtime.state.allReleased_releaseAll switchId))

/-- Registrations at the right moment keep every client's view coherent, and a
registration at a wrong moment does not. -/
theorem views_coherent :
    (∀ steps, (broker mappings started).Along WellTimed
        (Runtime.new mappings started) steps →
      ∀ clientId, Coherent clientId ((broker mappings started).run steps)) ∧
    (∀ steps step, ¬ WellTimed ((broker mappings started).run steps) step →
      ∃ more, ¬ Coherent ((broker mappings started).run steps).nextClient
        ((broker mappings started).run (steps ++ step :: more))) := by
  constructor
  · intro steps htimed clientId hmem
    refine (informed_run mappings started (sound_new mappings started) ?_ steps htimed
      hmem).coherent hmem
    intro hnew
    exact absurd hnew ExtTreeMap.not_mem_empty
  · intro steps step hbad
    refine ⟨[passAt 0 (.command (.revokeSession .explicitRevocation))], ?_⟩
    rw [Machine.run_append]
    exact misled_of_not_wellTimed (sound_run mappings started steps)
      (holderAssigned_run mappings started steps) hbad
      (passAt 0 (.command (.revokeSession .explicitRevocation))) rfl

/-- A second client registers while the first one's session holds a switch,
and the session is revoked. -/
def lateRegistration : List Step :=
  [passAt 0 (.command (.register (stuckChannel 7))),
    passAt 1 (.command (.handshake 1 exclusiveHandshake)),
    passAt 2 (.command (.input spacePress)),
    passAt 3 (.command (.register (stuckChannel 7))),
    passAt 4 (.command (.revokeSession .explicitRevocation))]

theorem late_client_misled :
    ¬ Coherent 2 ((broker [spaceMapping] 0).run lateRegistration) := by
  intro hcoherent
  have hmem : 2 ∈ ((broker [spaceMapping] 0).run lateRegistration).clients := by decide
  have hserved : Served ((broker [spaceMapping] 0).run lateRegistration) 2 := by decide
  have hlevels := hcoherent hmem hserved ⟨"primary", .released, none⟩ (by decide)
  revert hlevels
  decide

end Usahp.Broker
