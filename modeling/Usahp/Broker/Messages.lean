import Usahp.Broker.Log
import Usahp.Broker.Offered
import Usahp.Broker.View
import Usahp.Wire

/-!
What kind of messages the broker sends. Whatever a client is sent, the format
has a text for it that reads back as the same message, as long as the numbers
of the events are 64 bits wide. A client is sent a hello first and never again.
-/

namespace Usahp.Broker

open Std Usahp.Library SwitchStateMachine

theorem Percentage.finiteOrAbsent {confidence : Option F32} (h : Percentage confidence) :
    FiniteOrAbsent confidence := by
  intro value hvalue
  obtain ⟨percent, rfl, _⟩ := h value hvalue
  rfl

/-- No snapshot in the hello has a confidence. -/
theorem greeting_transportable (runtime : Runtime) : runtime.greeting.Transportable := by
  intro snapshot hmem value hvalue
  change snapshot ∈ runtime.state.snapshots at hmem
  rw [snapshots_eq] at hmem
  obtain ⟨switchId, _, rfl⟩ := List.mem_map.mp hmem
  cases hvalue

/-- What is for a client is an event or can be carried as it is. -/
theorem mem_addressedBy {clientId : ClientId} {runtime : Runtime} {step : Step}
    {message : ServerMessage} (h : message ∈ addressedBy clientId runtime step) :
    (∃ event, message = .switchEvent event) ∨ message.Transportable := by
  rw [addressedBy, addressed] at h
  split_ifs at h
  · rcases List.mem_append.mp h with hevent | hother
    · exact .inl (kind_of_mem_eventsFor hevent)
    · right
      rcases List.mem_append.mp hother with hresponse | hrevocation
      · obtain ⟨response, rfl⟩ := kind_of_mem_responsesFor hresponse
        trivial
      · obtain ⟨ended, _, rfl⟩ := List.mem_map.mp hrevocation
        trivial
  · rw [kind_of_mem_greetingsFor h]
    exact .inr (greeting_transportable runtime)

theorem mem_addressedAlong {clientId : ClientId} {runtime : Runtime} {steps : List Step}
    {message : ServerMessage} (h : message ∈ addressedAlong clientId runtime steps) :
    (∃ event, message = .switchEvent event) ∨ message.Transportable := by
  induction steps generalizing runtime with
  | nil => cases h
  | cons step rest ih =>
      rcases List.mem_append.mp h with hnow | hlater
      · exact mem_addressedBy hnow
      · exact ih hlater

variable (mappings : List Mapping) (started : Instant)

/-- The created events can be carried while there are few enough of them. -/
theorem created_transportable (steps : List Step)
    (hfew : ((broker mappings started).run steps).sequence < 2 ^ 64) :
    ∀ event ∈ ((broker mappings started).run steps).history.created.map (·.event),
      (ServerMessage.switchEvent event).Transportable := by
  intro event hmem
  obtain ⟨entry, hentry, rfl⟩ := List.mem_map.mp hmem
  obtain ⟨_, _, hstamped⟩ := (chronicle_run mappings started steps).stamped entry hentry
  have hnumber : entry.event.sequence ∈
      ((broker mappings started).run steps).history.created.map (·.event.sequence) :=
    List.mem_map_of_mem hentry
  rw [created_numbered mappings started steps, List.mem_range'_1] at hnumber
  refine ⟨?_, ?_, hstamped.confidence.finiteOrAbsent⟩
  · omega
  · rw [hstamped.monotonicUs]
    unfold microseconds
    omega

/-- Every message that was ever tried for a client can be carried. -/
theorem attempted_transportable (steps : List Step)
    (hfew : ((broker mappings started).run steps).sequence < 2 ^ 64) (clientId : ClientId) :
    ∀ message ∈ attempted ((broker mappings started).run steps) clientId,
      message.Transportable := by
  intro message hmem
  have haddressed := (attempted_sublist mappings started steps clientId).subset hmem
  rcases mem_addressedAlong haddressed with ⟨event, rfl⟩ | htransportable
  · apply created_transportable mappings started steps hfew
    exact (eventsOf_addressedAlong mappings started steps clientId).subset
      (mem_eventsOf.mpr haddressed)
  · exact htransportable

/-- A hello comes first, and there is no other. -/
structure Introduced (messages : List ServerMessage) : Prop where
  first : ∀ message ∈ messages.head?, ∃ hello, message = .hello hello
  once : ∀ hello, .hello hello ∉ messages.tail

theorem Introduced.nil : Introduced [] :=
  ⟨fun _ h => absurd h (Option.not_mem_none _), fun _ => List.not_mem_nil⟩

theorem Introduced.of_isPrefix {messages later : List ServerMessage}
    (h : Introduced later) (hearlier : messages <+: later) : Introduced messages := by
  obtain ⟨more, rfl⟩ := hearlier
  cases messages with
  | nil => exact .nil
  | cons message rest =>
      refine ⟨h.first, fun hello hmem => h.once hello ?_⟩
      exact List.mem_append_left more hmem

theorem Introduced.append {messages more : List ServerMessage} (h : Introduced messages)
    (hnonempty : messages ≠ []) (hmore : ∀ hello, .hello hello ∉ more) :
    Introduced (messages ++ more) := by
  cases messages with
  | nil => exact absurd rfl hnonempty
  | cons message rest =>
      refine ⟨h.first, fun hello hmem => ?_⟩
      rcases List.mem_append.mp hmem with hold | hnew
      · exact h.once hello hold
      · exact hmore hello hnew

/-- One step adds to a queue what it takes of the messages for its client. -/
theorem Sound.enqueued_more {runtime : Runtime} (hsound : Sound runtime) (step : Step)
    (clientId : ClientId) :
    ∃ more, enqueued (runtime.step step) clientId = enqueued runtime clientId ++ more ∧
      more.Sublist (addressedBy clientId runtime step) := by
  obtain ⟨attempts, hattempts, hoffered⟩ := hsound.offered step clientId
  refine ⟨(attempts.filter (·.sent)).map (·.message), ?_, ?_⟩
  · rw [enqueued, hattempts, List.filter_append, List.map_append]
    rfl
  · exact (List.filter_sublist.map _).trans hoffered

/-- What is for a client who is not registered is the hello. -/
theorem addressedBy_of_not_mem {clientId : ClientId} {runtime : Runtime}
    (h : clientId ∉ runtime.clients) (step : Step) :
    addressedBy clientId runtime step = [] ∨
      addressedBy clientId runtime step = [runtime.greeting] ∧
        clientId = runtime.nextClient := by
  rw [addressedBy, addressed, if_neg h]
  unfold greetingsFor
  split
  · split_ifs with hself
    · exact .inr ⟨rfl, hself⟩
    · exact .inl rfl
  · exact .inl rfl

theorem introduced_run (steps : List Step) :
    let runtime := (broker mappings started).run steps
    ∀ clientId, Introduced (enqueued runtime clientId) ∧
      (clientId ∈ runtime.clients → enqueued runtime clientId ≠ []) := by
  refine (broker mappings started).history_invariant (fun _ runtime => ∀ clientId,
    Introduced (enqueued runtime clientId) ∧
      (clientId ∈ runtime.clients → enqueued runtime clientId ≠ [])) ?_ ?_ steps
  · exact fun clientId => ⟨.nil, fun hmem => absurd hmem ExtTreeMap.not_mem_empty⟩
  · intro steps step ih clientId
    have hsound := sound_run mappings started steps
    change Introduced (enqueued (((broker mappings started).run steps).step step) clientId) ∧
      (clientId ∈ (((broker mappings started).run steps).step step).clients →
        enqueued (((broker mappings started).run steps).step step) clientId ≠ [])
    generalize (broker mappings started).run steps = runtime at ih hsound ⊢
    obtain ⟨hintroduced, hnonempty⟩ := ih clientId
    obtain ⟨more, hafter, hmore⟩ := hsound.enqueued_more step clientId
    by_cases hmem : clientId ∈ runtime.clients
    · rw [hafter]
      refine ⟨hintroduced.append (hnonempty hmem) fun hello h => ?_, fun _ => ?_⟩
      · exact hello_not_mem_addressedBy hmem step hello (hmore.subset h)
      · exact List.append_ne_nil_of_left_ne_nil (hnonempty hmem) more
    · refine ⟨?_, fun hnow => ?_⟩
      · rw [hafter]
        rcases addressedBy_of_not_mem hmem step with hnothing | ⟨hhello, rfl⟩
        · rw [hnothing, List.sublist_nil] at hmore
          rw [hmore, List.append_nil]
          exact hintroduced
        · have hfresh : enqueued runtime runtime.nextClient = [] := by
            rw [enqueued, (hsound.unused runtime.nextClient le_rfl).2]
            rfl
          rw [hfresh, List.nil_append]
          rw [hhello] at hmore
          rcases List.sublist_singleton.mp hmore with rfl | rfl
          · exact .nil
          · exact ⟨fun _ h => ⟨_, (Option.some.inj h).symm⟩, fun _ => List.not_mem_nil⟩
      · rw [hsound.enqueued_step step hnow]
        rcases (hsound.passed step).members clientId hnow with hold | ⟨rfl, channel, hasked⟩
        · exact absurd hold hmem
        · rw [addressedBy, addressed, if_neg hmem, hasked, greetingsFor, if_pos rfl]
          exact List.append_ne_nil_of_right_ne_nil _ (List.cons_ne_nil _ _)

end Usahp.Broker
