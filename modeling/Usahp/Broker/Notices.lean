import Usahp.Broker.Outcome
import Usahp.Library.Brackets

/-!
What a client is told about its sessions. On every queue a session is accepted
and then revoked before the next one is accepted, and a client who is still
registered was last told of the acceptance exactly when it holds the session.
No session ids have to differ for this.
-/

namespace Usahp.Broker

open Std Usahp.Library

/-- What a message tells its client about a session. -/
def notice? : ServerMessage → Option (Mark String)
  | .handshakeResponse (.accepted _ sessionId _ _) => some (.begins sessionId)
  | .sessionRevoked revoked => some (.ends revoked.sessionId)
  | _ => none

def notices (messages : List ServerMessage) : List (Mark String) := messages.filterMap notice?

@[simp] theorem notices_append (first second : List ServerMessage) :
    notices (first ++ second) = notices first ++ notices second :=
  List.filterMap_append

@[simp] theorem notices_events (events : List SwitchEvent) :
    notices (events.map .switchEvent) = [] := by
  rw [notices, List.filterMap_map]
  exact List.filterMap_eq_nil_iff.mpr fun _ _ => rfl

theorem notices_farewell (events : List SwitchEvent)
    (ended : Session × SessionRevocationReason) :
    notices (events.map .switchEvent ++ [revocation ended]) = [.ends ended.1.sessionId] := by
  rw [notices_append, notices_events]
  rfl

/-- A client's queue gets nothing but messages of a kind. -/
def Queued (clientId : ClientId) (allowed : ServerMessage → Prop)
    (before after : Runtime) : Prop :=
  ∃ more, enqueued after clientId = enqueued before clientId ++ more ∧
    ∀ message ∈ more, allowed message

theorem Queued.trans {clientId : ClientId} {allowed : ServerMessage → Prop}
    {before middle after : Runtime} (hfirst : Queued clientId allowed before middle)
    (hsecond : Queued clientId allowed middle after) : Queued clientId allowed before after := by
  obtain ⟨early, hmiddle, hearly⟩ := hfirst
  obtain ⟨late, hafter, hlate⟩ := hsecond
  refine ⟨early ++ late, by rw [hafter, hmiddle, List.append_assoc], fun message hmem => ?_⟩
  rcases List.mem_append.mp hmem with hmem | hmem
  · exact hearly message hmem
  · exact hlate message hmem

/-- A message without a notice. -/
def Bland (message : ServerMessage) : Prop := notice? message = none

theorem Queued.notices_eq {clientId : ClientId} {before after : Runtime}
    (h : Queued clientId Bland before after) :
    notices (enqueued after clientId) = notices (enqueued before clientId) := by
  obtain ⟨more, hqueue, hbland⟩ := h
  rw [hqueue, notices_append]
  have hnothing : notices more = [] := List.filterMap_eq_nil_iff.mpr hbland
  rw [hnothing, List.append_nil]

namespace Runtime

variable (runtime : Runtime) (surroundings : Surroundings)

/-- The acceptance that a client's queue refuses is not on the queue. -/
theorem sendResponse_queued {clientId : ClientId} (hrefuses : ¬ runtime.Accepts clientId)
    (response : HandshakeResponse) (other : ClientId) (allowed : ServerMessage → Prop) :
    Queued other allowed runtime (runtime.sendResponse clientId response).2 := by
  refine ⟨[], ?_, fun _ h => absurd h List.not_mem_nil⟩
  obtain ⟨part, _, hqueue, hnothing⟩ :=
    runtime.enqueued_trySend clientId (.handshakeResponse response)
  rw [hnothing hrefuses] at hqueue
  have hsent : enqueued (runtime.trySend clientId (.handshakeResponse response)).2 other =
      enqueued runtime other ++ [] := by
    by_cases hself : other = clientId
    · rw [hself]
      exact hqueue
    · rw [enqueued, runtime.attempts_trySend_of_ne hself, List.append_nil]
      rfl
  rw [sendResponse_eq]
  split_ifs
  · exact hsent
  · exact hsent

theorem reply_bland_of_rejection {handshake : Handshake} {reason : HandshakeRejectionReason}
    (h : runtime.rejection handshake = some reason) :
    Bland (.handshakeResponse (runtime.reply surroundings handshake)) := by
  rw [reply, h]
  rfl

/-- The releases before a session are no notices. -/
theorem ready_bland {base : Runtime} (hready : Ready runtime surroundings base)
    (clientId : ClientId) : Tried clientId Bland runtime (base.releaseLegacy surroundings) :=
  runtime.ready_tried surroundings hready clientId fun _ _ _ => rfl

theorem opened_bland {base : Runtime} (hready : Ready runtime surroundings base)
    (clientId other : ClientId) (pid : Option UInt32) :
    Tried other Bland runtime
      ((base.releaseLegacy surroundings).opened surroundings clientId pid) :=
  (runtime.ready_bland surroundings hready other).trans
    (opened_tried _ surroundings clientId other pid)

/-- While there is no session, no one is told of one. -/
theorem turn_bland (hidle : runtime.session = none) {wakeup : Wakeup} {after : Runtime}
    (hturn : Turn runtime surroundings wakeup after) (hstill : after.session = none)
    (clientId : ClientId) : Queued clientId Bland runtime after := by
  have hnever {session : Session} {goal : Prop} (hactive : runtime.session = some session) :
      goal := by
    rw [hidle] at hactive
    cases hactive
  suffices h : Tried clientId Bland runtime after ∨ Queued clientId Bland runtime after by
    exact h.elim Tried.queue id
  cases hturn with
  | registered channel =>
      left
      by_cases hself : clientId = runtime.nextClient
      · subst hself
        exact ⟨_, runtime.register_attempts_self channel, by simp [greeting, Bland, notice?]⟩
      · exact .of_eq (runtime.register_attempts_of_ne channel hself)
  | left other _ => exact .inl (runtime.removeClient_tried other clientId)
  | disconnected _ hactive => exact hnever hactive
  | muted _ _ => exact .inl (.refl _ _ _)
  | unchanged _ _ _ _ => exact .inl (.refl _ _ _)
  | inner _ _ _ _ _ => exact .inl (.of_eq rfl)
  | announced _ _ _ transition state _ =>
      left
      apply (runtime.published_tried surroundings.now state transition clientId).trans
      apply broadcast_tried
      exact fun _ => rfl
  | routed _ _ _ hactive _ _ _ _ => exact hnever hactive
  | overflowed _ _ _ hactive _ _ _ _ => exact hnever hactive
  | rejected other _ reason _ =>
      left
      apply runtime.sendResponse_tried other clientId
      exact fun _ _ => rfl
  | unavailable other _ _ _ _ _ =>
      left
      have hresumed : Tried clientId Bland runtime (runtime.resumeCapture surroundings).2 :=
        .of_eq rfl
      apply hresumed.trans
      apply sendResponse_tried
      exact fun _ _ => rfl
  | abandoned _ _ _ base hready _ =>
      exact .inl ((runtime.ready_bland surroundings hready clientId).trans (.of_eq rfl))
  | accepted other handshake _ base hready _ =>
      rw [opened_session] at hstill
      cases hstill
  | refused other handshake _ base hready _ hrefuses =>
      right
      have hrefused := sendResponse_queued
        ((base.releaseLegacy surroundings).opened surroundings other handshake.pid) hrefuses
        (acceptance surroundings.uuid) clientId Bland
      have hgone := not_mem_sendResponse
        ((base.releaseLegacy surroundings).opened surroundings other handshake.pid) hrefuses
        (acceptance surroundings.uuid)
      have hsession := (base.releaseLegacy surroundings).opened_session surroundings other
        handshake.pid (acceptance surroundings.uuid)
      have hrevoked : Tried clientId Bland _ _ :=
        revoke_tried _ surroundings .queueOverflow hsession clientId fun hself hmem =>
          absurd ((congrArg (· ∈ Runtime.clients _) hself).mp hmem) hgone
      have hopened := runtime.opened_bland surroundings hready other clientId handshake.pid
      exact (Queued.trans hopened.queue hrefused).trans hrevoked.queue
  | renewed _ hactive => exact hnever hactive
  | stale _ _ _ => exact .inl (.refl _ _ _)
  | revoked _ hactive _ _ _ => exact hnever hactive
  | ignored _ _ _ => exact .inl (.refl _ _ _)

end Runtime

/-- While there is no session, a step queues messages for a client that are for
it and that do not tell of one. -/
theorem Sound.queued_bland {runtime : Runtime} (hsound : Sound runtime) (step : Step)
    (hidle : runtime.session = none) (hstill : (runtime.step step).session = none)
    (clientId : ClientId) :
    Queued clientId (fun message => Bland message ∧ message ∈ addressedBy clientId runtime step)
      runtime (runtime.step step) := by
  obtain ⟨more, hqueue, hbland⟩ :=
    runtime.turn_bland step.surroundings hidle (runtime.step_turn step) hstill clientId
  obtain ⟨same, hsame, haddressed⟩ := ((hsound.passed step).tried clientId).queue
  cases List.append_cancel_left (hqueue.symm.trans hsame)
  exact ⟨more, hqueue, fun message hmem => ⟨hbland message hmem, haddressed message hmem⟩⟩

/-- The step that opens a session tells its holder, and no one else. -/
theorem Sound.admitted {runtime : Runtime} (hsound : Sound runtime) (step : Step)
    {session : Session} (hidle : runtime.session = none)
    (hopened : (runtime.step step).session = some session) :
    notices (enqueued (runtime.step step) session.clientId) =
        notices (enqueued runtime session.clientId) ++ [.begins session.sessionId] ∧
      ∀ other, other ≠ session.clientId → Queued other Bland runtime (runtime.step step) := by
  have hturn := runtime.step_turn step
  cases hsound.change step with
  | idle _ hstill => cases hstill.symm.trans hopened
  | kept _ hbefore _ _ _ _ _ _ => cases hidle.symm.trans hbefore
  | ended _ hbefore _ _ _ _ _ _ => cases hidle.symm.trans hbefore
  | opened clientId handshake hasked _ hsession _ _ _ =>
      cases hopened.symm.trans hsession
      rw [hasked] at hturn
      generalize runtime.step step = after at hturn hopened ⊢
      cases hturn with
      | rejected _ _ reason _ =>
          have hsame := congrArg Core.session (runtime.reject_core clientId reason)
          cases (hsame.trans hidle).symm.trans hopened
      | unavailable _ _ _ _ _ _ =>
          have hsame := congrArg Core.session ((runtime.resumeCapture
            step.surroundings).2.reject_core clientId .captureUnavailable)
          cases (hsame.trans hidle).symm.trans hopened
      | abandoned _ _ hrejection base hready hgone =>
          have hlost := (hsound.lost step.surroundings clientId handshake hrejection hready
            hgone).session
          cases hlost.symm.trans hopened
      | refused _ _ hrejection base hready _ hrefuses =>
          have hlost := ((base.releaseLegacy step.surroundings).refused_lost step.surroundings
            clientId handshake.pid hrefuses).session
          cases hlost.symm.trans hopened
      | accepted _ _ hrejection base hready haccepts =>
          have hgranted := hsound.granted step.surroundings clientId handshake hrejection
            hready haccepts rfl
          obtain ⟨releases, _, _, hqueue, _⟩ := hgranted.messages
          refine ⟨?_, fun other hother => ?_⟩
          · rw [hqueue, notices_append, notices_append, notices_events]
            rfl
          · have hopened := runtime.opened_bland step.surroundings hready clientId other
              handshake.pid
            apply Tried.queue (hopened.trans _)
            apply Runtime.sendResponse_tried
            exact fun hself _ => absurd hself hother
      | revoked _ _ _ _ hdemand => cases hdemand
      | ignored _ hkind _ =>
          rcases hkind with h | ⟨_, h⟩ | ⟨_, h⟩
          · cases h
          · cases h
          · cases h

/-- With a session active a handshake is rejected, so a client is told of a
session only where one ends. -/
theorem Sound.bland {runtime : Runtime} (hsound : Sound runtime) (step : Step)
    {session : Session} (hactive : runtime.session = some session) (clientId : ClientId)
    (hnever : ∀ ended ∈ revokedBy runtime step, ended.1.clientId ≠ clientId) :
    Queued clientId Bland runtime (runtime.step step) := by
  obtain ⟨more, hqueue, hallowed⟩ := ((hsound.passed step).tried clientId).queue
  refine ⟨more, hqueue, fun message hmem => ?_⟩
  have haddressed := hallowed message hmem
  unfold addressed at haddressed
  split_ifs at haddressed
  · rcases List.mem_append.mp haddressed with hevent | haddressed
    · obtain ⟨_, rfl⟩ := kind_of_mem_eventsFor hevent
      rfl
    · rcases List.mem_append.mp haddressed with hresponse | hrevocation
      · unfold responsesFor at hresponse
        split at hresponse
        · rename_i sender handshake _
          split_ifs at hresponse
          · rw [List.mem_singleton.mp hresponse]
            cases hrejection : runtime.rejection handshake with
            | none =>
                rw [runtime.rejection_eq_none hrejection] at hactive
                cases hactive
            | some reason =>
                exact runtime.reply_bland_of_rejection step.surroundings hrejection
          · cases hresponse
        · cases hresponse
      · obtain ⟨ended, hended, _⟩ := List.mem_map.mp hrevocation
        obtain ⟨hended, hself⟩ := List.mem_filter.mp hended
        exact absurd (by simpa using hself) (hnever ended hended)
  · rw [kind_of_mem_greetingsFor haddressed]
    rfl

/-- The session that a client holds. -/
def Runtime.heldBy (runtime : Runtime) (clientId : ClientId) : Option String :=
  (runtime.session.filter (·.clientId = clientId)).map (·.sessionId)

theorem Runtime.heldBy_of_none {runtime : Runtime} (h : runtime.session = none)
    (clientId : ClientId) : runtime.heldBy clientId = none := by
  rw [heldBy, h]
  rfl

theorem Runtime.heldBy_of_some {runtime : Runtime} {session : Session}
    (h : runtime.session = some session) (clientId : ClientId) :
    runtime.heldBy clientId =
      if session.clientId = clientId then some session.sessionId else none := by
  rw [heldBy, h]
  by_cases hself : session.clientId = clientId <;> simp [hself]

/-- A client was told of the session that it holds, or it has left. -/
structure Aware (runtime : Runtime) (clientId : ClientId) (current : Option String) : Prop where
  bracketed : Bracketed (notices (enqueued runtime clientId)) current
  current : current = runtime.heldBy clientId ∨
    clientId ∉ runtime.clients ∧ runtime.heldBy clientId = none ∧ clientId < runtime.nextClient

section Step

variable {runtime : Runtime} (hsound : Sound runtime) (step : Step) {clientId : ClientId}
  {current : Option String}

include hsound

/-- Who has left has left for good. -/
theorem Sound.left_step (hgone : clientId ∉ runtime.clients)
    (hassigned : clientId < runtime.nextClient) :
    clientId ∉ (runtime.step step).clients ∧ clientId < (runtime.step step).nextClient := by
  refine ⟨fun hmem => ?_, ?_⟩
  · rcases (hsound.passed step).members clientId hmem with hold | ⟨rfl, _⟩
    · exact hgone hold
    · exact Nat.lt_irrefl _ hassigned
  · have hnext : (runtime.step step).nextClient =
        runtime.nextClient + step.wakeup.registrations :=
      runtime.turn_nextClient step.surroundings (runtime.step_turn step)
    rw [hnext]
    exact Nat.lt_add_right _ hassigned

/-- A step that tells the client nothing. -/
theorem Aware.unchanged (h : Aware runtime clientId current)
    (hbland : Queued clientId Bland runtime (runtime.step step))
    (hheld : (runtime.step step).heldBy clientId = runtime.heldBy clientId) :
    Aware (runtime.step step) clientId current := by
  refine ⟨hbland.notices_eq ▸ h.bracketed, ?_⟩
  rw [hheld]
  refine h.current.imp_right ?_
  rintro ⟨hgone, hnone, hassigned⟩
  obtain ⟨hstill, hlater⟩ := hsound.left_step step hgone hassigned
  exact ⟨hstill, hnone, hlater⟩

/-- The holder is told of the end of its session, or has left. -/
theorem Aware.concluded (hassigned : HolderAssigned runtime) {session : Session}
    (h : Aware runtime session.clientId current) (hactive : runtime.session = some session)
    (hends : (runtime.step step).session = none) :
    ∃ later, Aware (runtime.step step) session.clientId later := by
  obtain ⟨reason, _, ⟨part, hpart, hqueue⟩, hall⟩ :=
    hsound.concluded hassigned step hactive hends
  have hheld : current = some session.sessionId := by
    have hself := Runtime.heldBy_of_some hactive session.clientId
    rw [if_pos rfl] at hself
    rcases h.current with hcurrent | ⟨_, hnone, _⟩
    · exact hcurrent.trans hself
    · cases hself.symm.trans hnone
  subst hheld
  have hafter : (runtime.step step).heldBy session.clientId = none :=
    Runtime.heldBy_of_none hends session.clientId
  have hnotices : (notices part).Sublist [.ends session.sessionId] := by
    have hsublist : (notices part).Sublist (notices _) := hpart.filterMap _
    rwa [notices_farewell] at hsublist
  rcases List.sublist_singleton.mp hnotices with hnothing | hended
  · refine ⟨some session.sessionId, ?_, .inr ⟨fun hmem => ?_, hafter, ?_⟩⟩
    · rw [hqueue, notices_append, hnothing, List.append_nil]
      exact h.bracketed
    · have hsame := congrArg notices (List.append_cancel_left
        (hqueue.symm.trans (hall hmem).1))
      rw [hnothing, notices_farewell] at hsame
      cases hsame
    · have hnext : (runtime.step step).nextClient =
          runtime.nextClient + step.wakeup.registrations :=
        runtime.turn_nextClient step.surroundings (runtime.step_turn step)
      rw [hnext]
      exact Nat.lt_add_right _ (hassigned session hactive)
  · refine ⟨none, ?_, .inl hafter.symm⟩
    rw [hqueue, notices_append, hended]
    exact h.bracketed.ends

theorem Aware.next (h : Aware runtime clientId current) (hassigned : HolderAssigned runtime) :
    ∃ later, Aware (runtime.step step) clientId later := by
  have hturn := runtime.step_turn step
  cases hsound.change step with
  | idle hidle hstill =>
      refine ⟨current, h.unchanged hsound step
        (runtime.turn_bland step.surroundings hidle hturn hstill clientId) ?_⟩
      rw [Runtime.heldBy_of_none hidle, Runtime.heldBy_of_none hstill]
  | opened holder handshake _ hidle hopened hregistered _ _ =>
      obtain ⟨htold, hothers⟩ := hsound.admitted step hidle hopened
      by_cases hself : clientId = holder
      · subst hself
        have hnone : current = none := by
          rcases h.current with hnone | ⟨hgone, _, hgiven⟩
          · rw [hnone, Runtime.heldBy_of_none hidle]
          · exact absurd hregistered (hsound.left_step step hgone hgiven).1
        subst hnone
        refine ⟨some step.surroundings.uuid, ?_, .inl ?_⟩
        · rw [htold]
          exact h.bracketed.begins _
        · rw [Runtime.heldBy_of_some hopened, if_pos rfl]
      · refine ⟨current, h.unchanged hsound step (hothers clientId hself) ?_⟩
        rw [Runtime.heldBy_of_none hidle, Runtime.heldBy_of_some hopened, if_neg]
        exact fun heq => hself heq.symm
  | kept session hbefore hkept _ _ _ _ hlog =>
      refine ⟨current, h.unchanged hsound step (hsound.bland step hbefore clientId ?_) ?_⟩
      · rw [revokedBy, hlog, List.drop_length]
        exact fun _ hmem => absurd hmem List.not_mem_nil
      · have hid : (session.beat step.surroundings.now step.wakeup).sessionId =
            session.sessionId := congrArg SessionKey.sessionId (beat_key session _ _)
        rw [Runtime.heldBy_of_some hbefore, Runtime.heldBy_of_some hkept, beat_clientId, hid]
  | ended session hbefore hstill reason _ hlogged _ _ =>
      by_cases hself : session.clientId = clientId
      · subst hself
        exact h.concluded hsound step hassigned hbefore hstill
      · refine ⟨current, h.unchanged hsound step (hsound.bland step hbefore clientId ?_) ?_⟩
        · intro ended hmem
          rw [revokedBy, hlogged, List.drop_left, List.mem_singleton] at hmem
          rw [hmem]
          exact hself
        · rw [Runtime.heldBy_of_none hstill, Runtime.heldBy_of_some hbefore, if_neg hself]

end Step

variable (mappings : List Mapping) (started : Instant)

theorem aware_run (steps : List Step) (clientId : ClientId) :
    ∃ current, Aware ((broker mappings started).run steps) clientId current := by
  refine (broker mappings started).history_invariant
    (fun _ runtime => ∃ current, Aware runtime clientId current) ?_ ?_ steps
  · exact ⟨none, .nil, .inl rfl⟩
  · rintro steps step ⟨current, haware⟩
    exact haware.next (sound_run mappings started steps) step
      (holderAssigned_run mappings started steps)

/-- On every queue the acceptances and the ends of sessions take turns, and an
end names the session that was accepted last. The sessions that a registered
client was told of leave open the one that it holds, and no two registered
clients have one open. -/
theorem sessions_bracketed (steps : List Step) :
    let runtime := (broker mappings started).run steps
    (∀ clientId, ∃ current, Bracketed (notices (enqueued runtime clientId)) current) ∧
    (∀ clientId ∈ runtime.clients,
      Bracketed (notices (enqueued runtime clientId)) (runtime.heldBy clientId)) ∧
    ∀ first ∈ runtime.clients, ∀ second ∈ runtime.clients, ∀ one other,
      Bracketed (notices (enqueued runtime first)) (some one) →
      Bracketed (notices (enqueued runtime second)) (some other) → first = second := by
  intro runtime
  have hregistered : ∀ clientId ∈ runtime.clients,
      Bracketed (notices (enqueued runtime clientId)) (runtime.heldBy clientId) := by
    intro clientId hmem
    obtain ⟨current, haware⟩ := aware_run mappings started steps clientId
    rcases haware.current with rfl | ⟨hgone, _⟩
    · exact haware.bracketed
    · exact absurd hmem hgone
  have hheld {clientId : ClientId} {sessionId : String} (hmem : clientId ∈ runtime.clients)
      (hopen : Bracketed (notices (enqueued runtime clientId)) (some sessionId)) :
      ∃ session, runtime.session = some session ∧ session.clientId = clientId := by
    have hcurrent := hopen.unique (hregistered clientId hmem)
    cases hactive : runtime.session with
    | none =>
        rw [Runtime.heldBy_of_none hactive] at hcurrent
        cases hcurrent
    | some session =>
        rw [Runtime.heldBy_of_some hactive] at hcurrent
        split_ifs at hcurrent with hself
        exact ⟨session, rfl, hself⟩
  refine ⟨fun clientId => ?_, hregistered, ?_⟩
  · obtain ⟨current, haware⟩ := aware_run mappings started steps clientId
    exact ⟨current, haware.bracketed⟩
  · intro first hfirst second hsecond one other hone hother
    obtain ⟨session, hactive, rfl⟩ := hheld hfirst hone
    obtain ⟨same, hsame, rfl⟩ := hheld hsecond hother
    cases hactive.symm.trans hsame
    rfl

end Usahp.Broker
