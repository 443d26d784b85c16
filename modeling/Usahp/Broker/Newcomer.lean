import Usahp.Broker.Notices
import Usahp.Broker.Steady

/-!
Silence does not keep others out. Once a tick has found the holder silent for
too long, the next client whose handshake is in order gets the session, however
long that takes and whatever else the broker is told meanwhile, as long as its
queue takes what the broker sends it.
-/

namespace Usahp.Broker

open Std Usahp.Library SwitchStateMachine

/-- The step is a handshake. -/
def isHandshake (step : Step) : Bool :=
  match step.wakeup with
  | .command (.handshake _ _) => true
  | _ => false

/-- The step ends the registration of the client. -/
def unregisters (clientId : ClientId) (step : Step) : Bool :=
  match step.wakeup with
  | .command (.unregister other) => other == clientId
  | _ => false

/-- The client's queue takes so many of the next messages for it. -/
def Runtime.Takes (runtime : Runtime) (clientId : ClientId) (count : Nat) : Prop :=
  ∃ sender, runtime.clients[clientId]? = some sender ∧ sender.Takes count

namespace Runtime.Takes

variable {runtime : Runtime} {clientId : ClientId} {count : Nat}

theorem accepts (h : runtime.Takes clientId (count + 1)) : runtime.Accepts clientId := by
  obtain ⟨sender, hsender, htakes⟩ := h
  exact ⟨sender, hsender, htakes.1⟩

theorem mono (h : runtime.Takes clientId count) {fewer : Nat} (hle : fewer ≤ count) :
    runtime.Takes clientId fewer := by
  obtain ⟨sender, hsender, htakes⟩ := h
  exact ⟨sender, hsender, htakes.mono hle⟩

theorem mem (h : runtime.Takes clientId count) : clientId ∈ runtime.clients := by
  obtain ⟨sender, hsender, _⟩ := h
  exact runtime.mem_clients_iff.mpr ⟨sender, hsender⟩

/-- Another client does not change what this one takes. -/
theorem register (h : runtime.Takes clientId count) (hunused : runtime.Unused)
    (channel : Channel) : (runtime.register channel).Takes clientId count := by
  have hold : clientId ≠ runtime.nextClient := by
    rintro rfl
    exact (hunused _ le_rfl).1 h.mem
  obtain ⟨sender, hsender, htakes⟩ := h
  refine ⟨sender, ?_, htakes⟩
  rw [getElem?_register, if_neg fun hnew => hold hnew.1]
  exact hsender

theorem removeClient (h : runtime.Takes clientId count) {other : ClientId}
    (hne : clientId ≠ other) : (runtime.removeClient other).Takes clientId count := by
  obtain ⟨sender, hsender, htakes⟩ := h
  refine ⟨sender, ?_, htakes⟩
  rw [getElem?_removeClient, if_neg hne]
  exact hsender

theorem broadcast (h : runtime.Takes clientId (count + 1)) (message : ServerMessage) :
    (runtime.broadcast message).Takes clientId count := by
  obtain ⟨sender, hsender, htakes⟩ := h
  refine ⟨(sender.trySend message).2, ?_, htakes.2 message⟩
  rw [getElem?_broadcast, hsender, Option.bind_some, if_pos htakes.1]

theorem broadcastAll {messages : List ServerMessage}
    (h : runtime.Takes clientId (count + messages.length)) :
    (messages.foldl Runtime.broadcast runtime).Takes clientId count := by
  induction messages generalizing runtime with
  | nil => exact h
  | cons message rest ih => exact ih (h.broadcast message)

theorem releaseLegacy {surroundings : Surroundings}
    (h : runtime.Takes clientId (count + (runtime.releases surroundings.now).length)) :
    (runtime.releaseLegacy surroundings).Takes clientId count := by
  cases hpaused : runtime.paused with
  | true =>
      rw [runtime.releaseLegacy_of_paused surroundings hpaused]
      exact h.mono (Nat.le_add_right _ _)
  | false =>
      rw [runtime.releaseLegacy_of_running surroundings hpaused]
      apply broadcastAll
      rw [List.length_map]
      exact h

theorem ready {surroundings : Surroundings} {base : Runtime}
    (h : runtime.Takes clientId (count + (runtime.releases surroundings.now).length))
    (hready : Ready runtime surroundings base) :
    (base.releaseLegacy surroundings).Takes clientId count := by
  cases hready with
  | running _ => exact h.releaseLegacy
  | resumed _ _ => exact releaseLegacy h

end Runtime.Takes

namespace Runtime

variable (runtime : Runtime) (surroundings : Surroundings)

/-- A fresh queue has its hello, and takes what it takes after that. -/
theorem register_takes (hunused : runtime.Unused) {channel : Channel} {count : Nat}
    (h : (Sender.ofChannel channel : Sender ServerMessage).Takes (count + 1)) :
    (runtime.register channel).Takes runtime.nextClient count ∧
      enqueued (runtime.register channel) runtime.nextClient = [runtime.greeting] := by
  obtain ⟨haccepts, hlater⟩ := h
  have hsent : ((Sender.ofChannel channel).trySend runtime.greeting).1.isOk = true := by
    rw [Sender.trySend_isOk]
    exact decide_eq_true haccepts
  constructor
  · refine ⟨((Sender.ofChannel channel).trySend runtime.greeting).2, ?_, hlater _⟩
    rw [getElem?_register, if_pos ⟨rfl, hsent⟩]
  · rw [enqueued, register_attempts_self, (hunused _ le_rfl).2, hsent]
    rfl

/-- A tick after too long a silence leaves no session. -/
theorem tick_lapsed (hlapsed : ∀ session, runtime.session = some session →
      session.lastHeartbeat + millis leaseMs ≤ surroundings.now) :
    (runtime.tick surroundings).session = none := by
  cases hactive : runtime.session with
  | none =>
      unfold tick
      simp [hactive]
  | some session =>
      have hlate : millis leaseMs ≤ elapsed surroundings.now session.lastHeartbeat :=
        Nat.le_sub_of_add_le' (hlapsed session hactive)
      unfold tick
      simp only [hactive, Option.any_some, hlate, decide_true, if_true]
      exact runtime.revoke_session surroundings _ hactive

/-- Without a session, a step that is not a handshake sends a client one message
for an input and else nothing. -/
theorem turn_takes (hunused : runtime.Unused) (hidle : runtime.session = none)
    {clientId : ClientId} {count : Nat} {step : Step}
    (hasked : isHandshake step = false) (hstays : unregisters clientId step = false)
    (hroom : runtime.Takes clientId (count + (inputsIn [step]).length)) {after : Runtime}
    (hturn : Turn runtime surroundings step.wakeup after) : after.Takes clientId count := by
  have hnever {session : Session} {goal : Prop} (hactive : runtime.session = some session) :
      goal := by
    rw [hidle] at hactive
    cases hactive
  obtain ⟨present, wakeup⟩ := step
  have hless : runtime.Takes clientId count := hroom.mono (Nat.le_add_right _ _)
  cases hturn with
  | registered channel => exact hless.register hunused channel
  | left other _ =>
      have hne : clientId ≠ other := by
        rintro rfl
        exact absurd hstays (by simp [unregisters])
      exact hless.removeClient hne
  | disconnected _ hactive => exact hnever hactive
  | muted _ _ => exact hless
  | unchanged _ _ _ _ => exact hless
  | inner _ _ _ _ _ => exact hless
  | announced event _ _ transition state _ => exact hroom.broadcast _
  | routed _ _ _ hactive _ _ _ _ => exact hnever hactive
  | overflowed _ _ _ hactive _ _ _ _ => exact hnever hactive
  | rejected _ _ _ _ => exact absurd hasked Bool.noConfusion
  | unavailable _ _ _ _ _ _ => exact absurd hasked Bool.noConfusion
  | abandoned _ _ _ _ _ _ => exact absurd hasked Bool.noConfusion
  | accepted _ _ _ _ _ _ => exact absurd hasked Bool.noConfusion
  | refused _ _ _ _ _ _ _ => exact absurd hasked Bool.noConfusion
  | renewed _ hactive => exact hnever hactive
  | stale _ _ _ => exact hless
  | revoked _ hactive _ _ _ => exact hnever hactive
  | ignored _ _ _ => exact hless

end Runtime

/-- Where no one asks, no one is answered. -/
theorem responsesFor_of_unasked {clientId : ClientId} {runtime : Runtime} {step : Step}
    (hasked : isHandshake step = false) :
    responsesFor clientId runtime step.surroundings step.wakeup = [] := by
  unfold responsesFor
  split
  · rename_i sender handshake hwakeup
    rw [isHandshake, hwakeup] at hasked
    cases hasked
  · rfl

/-- Where no one asks, no session begins. -/
theorem Sound.idle_of_unasked {runtime : Runtime} (hsound : Sound runtime) {step : Step}
    (hidle : runtime.session = none) (hasked : isHandshake step = false) :
    (runtime.step step).session = none := by
  cases hsound.change step with
  | idle _ hstill => exact hstill
  | opened clientId handshake hhandshake _ _ _ _ _ =>
      rw [isHandshake, hhandshake] at hasked
      cases hasked
  | kept _ hbefore _ _ _ _ _ _ => cases hidle.symm.trans hbefore
  | ended _ hbefore _ _ _ _ _ _ => cases hidle.symm.trans hbefore

/-- A client between its hello and its handshake, while there is no session. -/
structure Waiting (clientId : ClientId) (hello : ServerMessage) (count : Nat)
    (runtime : Runtime) : Prop where
  idle : runtime.session = none
  room : runtime.Takes clientId count
  told : ∃ told, enqueued runtime clientId = hello :: told ∧
    ∀ message ∈ told, ∃ event, message = .switchEvent event

theorem Waiting.mono {clientId : ClientId} {hello : ServerMessage} {count fewer : Nat}
    {runtime : Runtime} (h : Waiting clientId hello count runtime) (hle : fewer ≤ count) :
    Waiting clientId hello fewer runtime :=
  ⟨h.idle, h.room.mono hle, h.told⟩

theorem Sound.waiting {runtime : Runtime} (hsound : Sound runtime)
    {clientId : ClientId} {hello : ServerMessage} {count : Nat} {step : Step}
    (h : Waiting clientId hello (count + (inputsIn [step]).length) runtime)
    (hasked : isHandshake step = false) (hstays : unregisters clientId step = false) :
    Waiting clientId hello count (runtime.step step) := by
  obtain ⟨hidle, hroom, told, htold, hevents⟩ := h
  have hturn := runtime.step_turn step
  have hstill := hsound.idle_of_unasked hidle hasked
  have hafter := runtime.turn_takes step.surroundings hsound.unused hidle hasked hstays hroom
    hturn
  refine ⟨hstill, hafter, ?_⟩
  obtain ⟨more, hqueue, hallowed⟩ := hsound.queued_bland step hidle hstill clientId
  refine ⟨told ++ more, by rw [hqueue, htold, List.cons_append], fun message hmem => ?_⟩
  rcases List.mem_append.mp hmem with hearlier | hlater
  · exact hevents message hearlier
  · obtain ⟨hnotice, haddressed⟩ := hallowed message hlater
    change notice? message = none at hnotice
    rw [addressedBy, addressed, if_pos hroom.mem, responsesFor_of_unasked hasked,
      List.nil_append] at haddressed
    rcases List.mem_append.mp haddressed with hevent | hrevocation
    · exact kind_of_mem_eventsFor hevent
    · obtain ⟨ended, _, rfl⟩ := List.mem_map.mp hrevocation
      cases hnotice

/-- A waiting client whose handshake is in order gets the session. -/
theorem Sound.admits {runtime : Runtime} (hsound : Sound runtime) {surroundings : Surroundings}
    {clientId : ClientId} {hello : ServerMessage} {handshake : Handshake}
    (h : Waiting clientId hello (1 + (runtime.releases surroundings.now).length) runtime)
    (hversion : handshake.protocolVersion = protocolVersion)
    (happId : validAppId handshake.appId = true)
    (hmode : handshake.requestedMode = .exclusiveForeground)
    (hresume : surroundings.resumeReply = .ok ()) :
    Granted runtime surroundings clientId handshake
      (runtime.step ⟨surroundings, .command (.handshake clientId handshake)⟩) := by
  obtain ⟨hidle, hroom, -⟩ := h
  have hpasses : runtime.rejection handshake = none := by
    simp [Runtime.rejection, hversion, happId, hmode, hidle]
  have hturn := runtime.step_turn ⟨surroundings, .command (.handshake clientId handshake)⟩
  generalize hafter : runtime.step ⟨surroundings, .command (.handshake clientId handshake)⟩ =
    after at hturn ⊢
  cases hturn with
  | rejected _ _ _ hrejection => cases hpasses.symm.trans hrejection
  | unavailable _ _ _ _ _ hfailed => cases hresume.symm.trans hfailed
  | abandoned _ _ _ base hready hgone => exact absurd (hroom.ready hready).mem hgone
  | accepted _ _ _ base hready haccepts =>
      exact hsound.granted surroundings clientId handshake hpasses hready haccepts rfl
  | refused _ _ _ base hready _ hrefuses =>
      have hready' : (base.releaseLegacy surroundings).Takes clientId 1 := hroom.ready hready
      exact absurd hready'.accepts hrefuses
  | revoked _ hactive _ _ _ => cases hidle.symm.trans hactive
  | ignored _ hkind _ =>
      rcases hkind with hkind | ⟨_, hkind⟩ | ⟨_, hkind⟩
      · cases hkind
      · cases hkind
      · cases hkind

variable (mappings : List Mapping) (started : Instant)

/-- Only switches of the configuration are released. -/
theorem releases_length_le (steps : List Step) (now : Instant) :
    (((broker mappings started).run steps).releases now).length ≤ mappings.length := by
  have hreleases := ((broker mappings started).run steps).releases_letsGo now
  obtain ⟨calls, hcalls⟩ := state_of_calls mappings started steps
  have hsubset : (((broker mappings started).run steps).releases now).map (·.switchId) ⊆
      mappings.map (·.switchId) := by
    intro switchId hmem
    have hpressed := (hreleases.pressed switchId).mp hmem
    rw [hcalls, (reflects_run mappings calls).level] at hpressed
    obtain ⟨mapping, hmapping, hswitch, _⟩ := hpressed
    obtain ⟨found, hfound, _, rfl⟩ := mem_of_configuredSwitch hswitch
    exact List.mem_map_of_mem hfound
  have hnodup : ((((broker mappings started).run steps).releases now).map
      (·.switchId)).Nodup := hreleases.ascending.imp fun h => h.ne
  have hle := (hnodup.subperm hsubset).length_le
  rwa [List.length_map, List.length_map] at hle

theorem waiting_run (earlier : List Step) {clientId : ClientId} {hello : ServerMessage}
    {count : Nat} (waiting : List Step)
    (h : Waiting clientId hello (count + (inputsIn waiting).length)
      ((broker mappings started).run earlier))
    (hunasked : ∀ step ∈ waiting, isHandshake step = false)
    (hstays : ∀ step ∈ waiting, unregisters clientId step = false) :
    Waiting clientId hello count ((broker mappings started).run (earlier ++ waiting)) := by
  induction waiting using List.reverseRecOn generalizing count with
  | nil => rwa [List.append_nil]
  | append_singleton waiting step ih =>
      have hlength : (inputsIn (waiting ++ [step])).length =
          (inputsIn waiting).length + (inputsIn [step]).length := by
        rw [inputsIn, List.filterMap_append, List.length_append]
        rfl
      rw [hlength] at h
      have hearlier := ih (by rwa [Nat.add_right_comm, Nat.add_assoc])
        (fun other hmem => hunasked other (List.mem_append_left _ hmem))
        (fun other hmem => hstays other (List.mem_append_left _ hmem))
      rw [← List.append_assoc, (broker mappings started).run_concat]
      exact (sound_run mappings started (earlier ++ waiting)).waiting hearlier
        (hunasked step (List.mem_append_right _ (List.mem_singleton_self _)))
        (hstays step (List.mem_append_right _ (List.mem_singleton_self _)))

theorem idle_run (earlier : List Step) (between : List Step)
    (hidle : ((broker mappings started).run earlier).session = none)
    (hunasked : ∀ step ∈ between, isHandshake step = false) :
    ((broker mappings started).run (earlier ++ between)).session = none := by
  induction between using List.reverseRecOn with
  | nil => rwa [List.append_nil]
  | append_singleton between step ih =>
      rw [← List.append_assoc, (broker mappings started).run_concat]
      apply (sound_run mappings started (earlier ++ between)).idle_of_unasked
      · exact ih fun other hmem => hunasked other (List.mem_append_left _ hmem)
      · exact hunasked step (List.mem_append_right _ (List.mem_singleton_self _))

/-- A holder who is never heard of again. -/
def silentHolder : List Step :=
  [passAt 0 (.command (.register (stuckChannel 7))),
    passAt 1 (.command (.handshake 1 exclusiveHandshake)),
    passAt 2 (.command (.input spacePress))]

end Usahp.Broker
