import Usahp.Broker.Account

/-!
Deliveries over a whole run. The account of one pass is added up along the
run: a registered client has had exactly the messages addressed to it
enqueued, and its events are numbered upwards.
-/

namespace Usahp.Broker

open Std Usahp.Library

/-- The sessions a step ends, with the reasons. -/
def revokedBy (before : Runtime) (step : Step) :
    List (Session × SessionRevocationReason) :=
  (before.step step).history.revoked.drop before.history.revoked.length

/-- The messages of one step for a client. -/
def addressedBy (clientId : ClientId) (before : Runtime) (step : Step) :
    List ServerMessage :=
  addressed clientId before step.surroundings step.wakeup (createdBy before step)
    (revokedBy before step)

/-- The messages of a run for a client, in the order they were created. -/
def addressedAlong (clientId : ClientId) : Runtime → List Step → List ServerMessage
  | _, [] => []
  | runtime, step :: rest =>
      addressedBy clientId runtime step ++ addressedAlong clientId (runtime.step step) rest

/-- The part of the reachable states that the account of a step rests on. -/
structure Sound (runtime : Runtime) : Prop where
  settled : ∃ mode, runtime.core.Settled mode
  unused : runtime.Unused

theorem Sound.passed {runtime : Runtime} (hsound : Sound runtime) (step : Step) :
    Passed runtime step.surroundings step.wakeup (createdBy runtime step)
      (revokedBy runtime step) (runtime.step step) := by
  obtain ⟨mode, hsettled⟩ := hsound.settled
  obtain ⟨events, ended, hpassed⟩ := runtime.turn_passed step.surroundings hsettled
    hsound.unused (runtime.step_turn step)
  have hended : revokedBy runtime step = ended := by
    have hlog : (runtime.step step).history.revoked = _ := hpassed.revoked
    rw [revokedBy, hlog]
    exact List.drop_left
  rw [hpassed.creates.createdBy_eq, hended]
  exact hpassed

theorem Sound.step {runtime : Runtime} (hsound : Sound runtime) (step : Step) :
    Sound (runtime.step step) := by
  obtain ⟨mode, hsettled⟩ := hsound.settled
  obtain ⟨next, hentered⟩ := runtime.turn_settled step.surroundings hsettled
    (runtime.step_turn step)
  exact ⟨⟨next, hentered.settled⟩, hsound.unused.step (hsound.passed step)
    (runtime.turn_nextClient step.surroundings (runtime.step_turn step))⟩

variable (mappings : List Mapping) (started : Instant)

theorem sound_new : Sound (Runtime.new mappings started) := by
  obtain ⟨mode, hsettled⟩ := reachable_settled mappings started []
  refine ⟨⟨mode, hsettled⟩, fun clientId _ => ⟨?_, rfl⟩⟩
  exact ExtTreeMap.not_mem_empty

theorem sound_run (steps : List Step) : Sound ((broker mappings started).run steps) :=
  (broker mappings started).invariant Sound (sound_new mappings started)
    (fun _ step hsound => hsound.step step) steps

theorem addressedAlong_append (clientId : ClientId) (runtime : Runtime)
    (first second : List Step) :
    addressedAlong clientId runtime (first ++ second) =
      addressedAlong clientId runtime first ++
        addressedAlong clientId ((broker mappings started).runFrom runtime first) second := by
  induction first generalizing runtime with
  | nil => rfl
  | cons step rest ih =>
      rw [List.cons_append, addressedAlong, ih, addressedAlong, List.append_assoc]
      rfl

theorem addressedAlong_concat (clientId : ClientId) (runtime : Runtime)
    (steps : List Step) (step : Step) :
    addressedAlong clientId runtime (steps ++ [step]) =
      addressedAlong clientId runtime steps ++
        addressedBy clientId ((broker mappings started).runFrom runtime steps) step := by
  rw [addressedAlong_append mappings started, addressedAlong, addressedAlong,
    List.append_nil]

/-- Nothing is for a client who is not there and does not come. -/
theorem addressedBy_of_absent {clientId : ClientId} {runtime : Runtime} {step : Step}
    (habsent : clientId ∉ runtime.clients)
    (hother : ∀ channel, step.wakeup = .command (.register channel) →
      clientId ≠ runtime.nextClient) :
    addressedBy clientId runtime step = [] := by
  rw [addressedBy, addressed, if_neg habsent]
  unfold greetingsFor
  split
  · rename_i channel hregister
    exact if_neg (hother channel hregister)
  · rfl

/-- From one registered state to a later one, exactly the addressed messages
have been enqueued, each with success. -/
theorem attempts_along (steps : List Step) (clientId : ClientId) :
    let runtime := (broker mappings started).run steps
    (clientId ∈ runtime.clients → runtime.history.attempts clientId =
      allSent (addressedAlong clientId (Runtime.new mappings started) steps)) ∧
    (runtime.nextClient ≤ clientId →
      addressedAlong clientId (Runtime.new mappings started) steps = []) := by
  refine (broker mappings started).history_invariant
    (fun steps runtime =>
      (clientId ∈ runtime.clients → runtime.history.attempts clientId =
        allSent (addressedAlong clientId (Runtime.new mappings started) steps)) ∧
      (runtime.nextClient ≤ clientId →
        addressedAlong clientId (Runtime.new mappings started) steps = [])) ?_ ?_ steps
  · exact ⟨fun hmem => absurd hmem ExtTreeMap.not_mem_empty, fun _ => rfl⟩
  · intro steps step ih
    obtain ⟨hattempts, hnothing⟩ := ih
    have hsound := sound_run mappings started steps
    have hconcat := addressedAlong_concat mappings started clientId
      (Runtime.new mappings started) steps step
    change _ = _ ++ addressedBy clientId ((broker mappings started).run steps) step at hconcat
    generalize (broker mappings started).run steps = runtime at *
    have hpassed := hsound.passed step
    change (clientId ∈ (runtime.step step).clients →
        (runtime.step step).history.attempts clientId = _) ∧
      ((runtime.step step).nextClient ≤ clientId → _)
    rw [hconcat, allSent_append]
    constructor
    · intro hmem
      rw [hpassed.delivered clientId hmem]
      congr 1
      rcases hpassed.members clientId hmem with hold | ⟨rfl, _⟩
      · exact hattempts hold
      · rw [(hsound.unused _ le_rfl).2, hnothing le_rfl]
        rfl
    · intro hle
      have hnext : (runtime.step step).nextClient =
          runtime.nextClient + step.wakeup.registrations :=
        runtime.turn_nextClient step.surroundings (runtime.step_turn step)
      have hlater : runtime.nextClient + step.wakeup.registrations ≤ clientId := hnext ▸ hle
      have hold : runtime.nextClient ≤ clientId := (Nat.le_add_right _ _).trans hlater
      rw [hnothing hold, List.nil_append]
      apply addressedBy_of_absent (hsound.unused clientId hold).1
      rintro channel hregister rfl
      rw [hregister] at hlater
      exact Nat.not_succ_le_self _ hlater

/-- The events among the messages. -/
def eventsOf (messages : List ServerMessage) : List SwitchEvent :=
  messages.filterMap fun
    | .switchEvent event => some event
    | _ => none

@[simp] theorem eventsOf_append (first second : List ServerMessage) :
    eventsOf (first ++ second) = eventsOf first ++ eventsOf second :=
  List.filterMap_append

@[simp] theorem eventsOf_map (events : List SwitchEvent) :
    eventsOf (events.map .switchEvent) = events := by
  rw [eventsOf, List.filterMap_map]
  exact List.filterMap_some

theorem eventsOf_responsesFor (clientId : ClientId) (runtime : Runtime)
    (surroundings : Surroundings) (wakeup : Wakeup) :
    eventsOf (responsesFor clientId runtime surroundings wakeup) = [] := by
  unfold responsesFor
  split
  · split_ifs <;> rfl
  · rfl

theorem eventsOf_revocationsFor (clientId : ClientId)
    (ended : List (Session × SessionRevocationReason)) :
    eventsOf (revocationsFor clientId ended) = [] := by
  rw [revocationsFor, eventsOf, List.filterMap_map]
  exact List.filterMap_eq_nil_iff.mpr fun _ _ => rfl

theorem eventsOf_greetingsFor (clientId : ClientId) (runtime : Runtime) (wakeup : Wakeup) :
    eventsOf (greetingsFor clientId runtime wakeup) = [] := by
  unfold greetingsFor
  split
  · split_ifs <;> rfl
  · rfl

/-- A client gets all events of a step or none of them. -/
theorem eventsOf_addressedBy (clientId : ClientId) (runtime : Runtime) (step : Step) :
    eventsOf (addressedBy clientId runtime step) =
      if clientId ∈ runtime.clients ∧ runtime.session.all (·.clientId = clientId) then
        createdBy runtime step
      else [] := by
  rw [addressedBy, addressed]
  by_cases hmem : clientId ∈ runtime.clients
  · rw [if_pos hmem, eventsOf_append, eventsOf_append, eventsOf_responsesFor,
      eventsOf_revocationsFor, List.append_nil, List.append_nil, eventsFor]
    simp only [hmem, true_and]
    split_ifs
    · exact eventsOf_map _
    · rfl
  · rw [if_neg hmem, if_neg fun h => hmem h.1]
    exact eventsOf_greetingsFor clientId runtime step.wakeup

/-- The created events are numbered 1, 2, 3 and so on. -/
theorem created_numbered (steps : List Step) :
    let runtime := (broker mappings started).run steps
    runtime.history.created.map (·.event.sequence) = List.range' 1 runtime.sequence := by
  refine (broker mappings started).history_invariant
    (fun _ runtime => runtime.history.created.map (·.event.sequence) =
      List.range' 1 runtime.sequence) rfl ?_ steps
  intro steps step ih
  have hcreates := ((sound_run mappings started steps).passed step).creates
  generalize (broker mappings started).run steps = runtime at *
  have hcreated : (runtime.step step).history.created = _ := hcreates.created
  have hsequence : (runtime.step step).sequence = _ := hcreates.sequence
  have hnumbered : (createdBy runtime step).map (·.sequence) =
      List.range' (1 + 1 * runtime.core.sequence) (createdBy runtime step).length := by
    rw [hcreates.numbered]
    congr 1
    omega
  change (runtime.step step).history.created.map (·.event.sequence) =
    List.range' 1 (runtime.step step).sequence
  rw [hcreated, hsequence, List.map_append, ← List.range'_append, ← hnumbered, List.map_map]
  exact congrArg (· ++ _) ih

/-- Whoever they are for, the events of a run are a part of the created ones,
in the same order. -/
theorem eventsOf_addressedAlong (steps : List Step) (clientId : ClientId) :
    (eventsOf (addressedAlong clientId (Runtime.new mappings started) steps)).Sublist
      (((broker mappings started).run steps).history.created.map (·.event)) := by
  refine (broker mappings started).history_invariant
    (fun steps runtime =>
      (eventsOf (addressedAlong clientId (Runtime.new mappings started) steps)).Sublist
        (runtime.history.created.map (·.event))) (List.nil_sublist _) ?_ steps
  intro steps step ih
  have hcreates := ((sound_run mappings started steps).passed step).creates
  have hcreated : ((broker mappings started).step ((broker mappings started).run steps)
    step).history.created = _ := hcreates.created
  have hpart : (eventsOf (addressedBy clientId ((broker mappings started).run steps)
      step)).Sublist (createdBy ((broker mappings started).run steps) step) := by
    rw [eventsOf_addressedBy]
    split_ifs
    · exact List.Sublist.refl _
    · exact List.nil_sublist _
  have hmap (now : Instant) (events : List SwitchEvent) :
      (events.map fun event => (⟨now, event⟩ : Created)).map (·.event) = events := by
    rw [List.map_map]
    exact List.map_id _
  rw [addressedAlong_concat mappings started, eventsOf_append, hcreated, List.map_append,
    hmap]
  exact ih.append hpart

theorem sent_of_allSent (messages : List ServerMessage) :
    ((allSent messages).filter (·.sent)).map (·.message) = messages := by
  have hsent : ∀ attempt ∈ allSent messages, attempt.sent = true := by
    intro attempt hmem
    obtain ⟨message, _, rfl⟩ := List.mem_map.mp hmem
    rfl
  rw [List.filter_eq_self.mpr hsent, allSent, List.map_map]
  exact List.map_id _

theorem Sound.enqueued_step {runtime : Runtime} (hsound : Sound runtime) (step : Step)
    {clientId : ClientId} (hmem : clientId ∈ (runtime.step step).clients) :
    enqueued (runtime.step step) clientId =
      enqueued runtime clientId ++ addressedBy clientId runtime step := by
  rw [enqueued, (hsound.passed step).delivered clientId hmem, List.filter_append,
    List.map_append, sent_of_allSent]
  rfl

/-- Nothing addressed to a registered client is lost, duplicated or reordered,
and a failed send costs the registration. -/
theorem nothing_lost (steps : List Step) (clientId : ClientId) :
    let runtime := (broker mappings started).run steps
    (clientId ∈ runtime.clients →
      enqueued runtime clientId =
        addressedAlong clientId (Runtime.new mappings started) steps ∧
      (eventsOf (enqueued runtime clientId)).Pairwise (·.sequence < ·.sequence)) ∧
    ((∃ attempt ∈ runtime.history.attempts clientId, attempt.sent = false) →
      clientId ∉ runtime.clients) := by
  intro runtime
  have hattempts := (attempts_along mappings started steps clientId).1
  constructor
  · intro hmem
    have henqueued : enqueued runtime clientId =
        addressedAlong clientId (Runtime.new mappings started) steps := by
      rw [enqueued, hattempts hmem, sent_of_allSent]
    refine ⟨henqueued, ?_⟩
    rw [henqueued]
    have hsorted : (runtime.history.created.map (·.event)).Pairwise
        (·.sequence < ·.sequence) := by
      rw [List.pairwise_map, ← List.pairwise_map (f := fun c : Created => c.event.sequence)]
      rw [created_numbered mappings started steps]
      exact List.pairwise_lt_range'
    exact hsorted.sublist (eventsOf_addressedAlong mappings started steps clientId)
  · rintro ⟨attempt, hattempt, hfailed⟩ hmem
    rw [hattempts hmem, allSent] at hattempt
    obtain ⟨message, _, rfl⟩ := List.mem_map.mp hattempt
    cases hfailed

end Usahp.Broker
