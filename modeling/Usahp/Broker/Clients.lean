import Usahp.Broker.Effects

/-!
What one client sees of the building blocks. `Delivered` speaks about a client
who is registered afterwards: it was registered before, and exactly the listed
messages were tried for it in between, every one with success. `Tried` speaks
about any client, dropped or not: it bounds what was tried for it at all, and
a client without a sender is tried with nothing.
Both compose along the sends of a handler, so each handler is a short sum.
-/

namespace Usahp.Broker

open Std Usahp.Library

def allSent (messages : List ServerMessage) : List Attempt :=
  messages.map fun message => ⟨message, true⟩

@[simp] theorem allSent_append (first second : List ServerMessage) :
    allSent (first ++ second) = allSent first ++ allSent second :=
  List.map_append

/-- The messages that reached the queue, in order. -/
def enqueued (runtime : Runtime) (clientId : ClientId) : List ServerMessage :=
  ((runtime.history.attempts clientId).filter (·.sent)).map (·.message)

def Delivered (clientId : ClientId) (messages : List ServerMessage)
    (before after : Runtime) : Prop :=
  clientId ∈ after.clients →
    clientId ∈ before.clients ∧
      after.history.attempts clientId =
        before.history.attempts clientId ++ allSent messages

def Tried (clientId : ClientId) (allowed : ServerMessage → Prop)
    (before after : Runtime) : Prop :=
  ∃ more, after.history.attempts clientId =
      before.history.attempts clientId ++ more ∧
    ∀ attempt ∈ more, allowed attempt.message

theorem Delivered.refl (clientId : ClientId) (runtime : Runtime) :
    Delivered clientId [] runtime runtime :=
  fun h => ⟨h, (List.append_nil _).symm⟩

theorem Delivered.trans {clientId : ClientId} {first second : List ServerMessage}
    {before middle after : Runtime} (hfirst : Delivered clientId first before middle)
    (hsecond : Delivered clientId second middle after) :
    Delivered clientId (first ++ second) before after := by
  intro hmem
  obtain ⟨hmiddle, hafter⟩ := hsecond hmem
  obtain ⟨hbefore, heq⟩ := hfirst hmiddle
  refine ⟨hbefore, ?_⟩
  rw [hafter, heq, allSent_append, List.append_assoc]

theorem Delivered.of_eq {clientId : ClientId} {before after : Runtime}
    (hclients : after.clients = before.clients)
    (hattempts : after.history.attempts = before.history.attempts) :
    Delivered clientId [] before after := by
  intro hmem
  rw [hclients] at hmem
  refine ⟨hmem, ?_⟩
  rw [hattempts]
  exact (List.append_nil _).symm

theorem Tried.refl (clientId : ClientId) (allowed : ServerMessage → Prop)
    (runtime : Runtime) : Tried clientId allowed runtime runtime :=
  ⟨[], (List.append_nil _).symm, by simp⟩

theorem Tried.trans {clientId : ClientId} {allowed : ServerMessage → Prop}
    {before middle after : Runtime} (hfirst : Tried clientId allowed before middle)
    (hsecond : Tried clientId allowed middle after) :
    Tried clientId allowed before after := by
  obtain ⟨first, hmiddle, hfirst⟩ := hfirst
  obtain ⟨second, hafter, hsecond⟩ := hsecond
  refine ⟨first ++ second, ?_, ?_⟩
  · rw [hafter, hmiddle, List.append_assoc]
  · intro attempt hmem
    rcases List.mem_append.mp hmem with h | h
    · exact hfirst attempt h
    · exact hsecond attempt h

theorem Tried.of_eq {clientId : ClientId} {allowed : ServerMessage → Prop}
    {before after : Runtime}
    (h : after.history.attempts clientId = before.history.attempts clientId) :
    Tried clientId allowed before after :=
  ⟨[], by rw [h, List.append_nil], by simp⟩

namespace Runtime

variable (runtime : Runtime)

theorem mem_clients_iff {clientId : ClientId} :
    clientId ∈ runtime.clients ↔
      ∃ sender, runtime.clients[clientId]? = some sender := by
  rw [ExtTreeMap.mem_iff_isSome_getElem?, Option.isSome_iff_exists]

/-- The client is registered and its queue takes the next message. -/
def Accepts (clientId : ClientId) : Prop :=
  ∃ sender, runtime.clients[clientId]? = some sender ∧ sender.Accepts

theorem trySend_of_none {clientId : ClientId}
    (h : runtime.clients[clientId]? = none) (message : ServerMessage) :
    runtime.trySend clientId message = (false, runtime) := by
  unfold trySend
  rw [h]

theorem trySend_of_some {clientId : ClientId} {sender : Sender ServerMessage}
    (h : runtime.clients[clientId]? = some sender) (message : ServerMessage) :
    runtime.trySend clientId message =
      (decide sender.Accepts,
        { runtime with
          clients := runtime.clients.insert clientId (sender.trySend message).2
          history.attempts := Function.update runtime.history.attempts clientId
            (runtime.history.attempts clientId ++
              [⟨message, decide sender.Accepts⟩]) }) := by
  unfold trySend
  rw [h]
  simp only [Sender.trySend_isOk]

theorem trySend_fst_iff (clientId : ClientId) (message : ServerMessage) :
    (runtime.trySend clientId message).1 = true ↔ runtime.Accepts clientId := by
  cases h : runtime.clients[clientId]? with
  | none =>
      rw [runtime.trySend_of_none h]
      simp [Accepts, h]
  | some sender =>
      rw [runtime.trySend_of_some h]
      simp [Accepts, h]

@[simp] theorem mem_trySend_clients (clientId other : ClientId)
    (message : ServerMessage) :
    other ∈ (runtime.trySend clientId message).2.clients ↔
      other ∈ runtime.clients := by
  cases h : runtime.clients[clientId]? with
  | none => rw [runtime.trySend_of_none h]
  | some sender =>
      rw [runtime.trySend_of_some h, ExtTreeMap.mem_insert]
      constructor
      · rintro (heq | hmem)
        · cases LawfulEqCmp.eq_of_compare heq
          exact runtime.mem_clients_iff.mpr ⟨sender, h⟩
        · exact hmem
      · exact Or.inr

theorem attempts_trySend_of_ne {clientId other : ClientId} (hne : other ≠ clientId)
    (message : ServerMessage) :
    (runtime.trySend clientId message).2.history.attempts other =
      runtime.history.attempts other := by
  cases h : runtime.clients[clientId]? with
  | none => rw [runtime.trySend_of_none h]
  | some sender =>
      rw [runtime.trySend_of_some h]
      exact Function.update_of_ne hne _ _

theorem getElem?_trySend_of_ne {clientId other : ClientId} (hne : other ≠ clientId)
    (message : ServerMessage) :
    (runtime.trySend clientId message).2.clients[other]? =
      runtime.clients[other]? := by
  cases h : runtime.clients[clientId]? with
  | none => rw [runtime.trySend_of_none h]
  | some sender =>
      rw [runtime.trySend_of_some h, ExtTreeMap.getElem?_insert, if_neg]
      intro heq
      exact hne (LawfulEqCmp.eq_of_compare heq).symm

theorem getElem?_trySend_self {clientId : ClientId} {sender : Sender ServerMessage}
    (h : runtime.clients[clientId]? = some sender) (message : ServerMessage) :
    (runtime.trySend clientId message).2.clients[clientId]? =
      some (sender.trySend message).2 := by
  rw [runtime.trySend_of_some h]
  exact ExtTreeMap.getElem?_insert_self

theorem attempts_trySend_self {clientId : ClientId} {sender : Sender ServerMessage}
    (h : runtime.clients[clientId]? = some sender) (message : ServerMessage) :
    (runtime.trySend clientId message).2.history.attempts clientId =
      runtime.history.attempts clientId ++ [⟨message, decide sender.Accepts⟩] := by
  rw [runtime.trySend_of_some h]
  exact Function.update_self _ _ _

theorem trySend_delivered {clientId : ClientId} {message : ServerMessage}
    (hsent : (runtime.trySend clientId message).1 = true) (other : ClientId) :
    Delivered other (if other = clientId then [message] else []) runtime
      (runtime.trySend clientId message).2 := by
  intro hmem
  refine ⟨(runtime.mem_trySend_clients clientId other message).mp hmem, ?_⟩
  split_ifs with hother
  · subst hother
    obtain ⟨sender, hsender, haccepts⟩ := (runtime.trySend_fst_iff other message).mp hsent
    rw [runtime.trySend_of_some hsender]
    simp [allSent, haccepts]
  · rw [runtime.attempts_trySend_of_ne hother]
    exact (List.append_nil _).symm

theorem trySend_tried (clientId other : ClientId) (message : ServerMessage)
    {allowed : ServerMessage → Prop}
    (h : other = clientId → other ∈ runtime.clients → allowed message) :
    Tried other allowed runtime (runtime.trySend clientId message).2 := by
  by_cases hother : other = clientId
  · subst hother
    cases hclient : runtime.clients[other]? with
    | none =>
        rw [runtime.trySend_of_none hclient]
        exact .refl _ _ _
    | some sender =>
        have hallowed := h rfl (runtime.mem_clients_iff.mpr ⟨sender, hclient⟩)
        rw [runtime.trySend_of_some hclient]
        exact ⟨_, Function.update_self _ _ _, by simpa using hallowed⟩
  · exact .of_eq (runtime.attempts_trySend_of_ne hother message)

@[simp] theorem mem_removeClient_clients (clientId other : ClientId) :
    other ∈ (runtime.removeClient clientId).clients ↔
      other ≠ clientId ∧ other ∈ runtime.clients := by
  unfold removeClient
  rw [ExtTreeMap.mem_erase]
  constructor
  · rintro ⟨hne, hmem⟩
    exact ⟨fun heq => hne (by rw [heq]; exact compare_self), hmem⟩
  · rintro ⟨hne, hmem⟩
    exact ⟨fun heq => hne (LawfulEqCmp.eq_of_compare heq).symm, hmem⟩

theorem removeClient_delivered (clientId other : ClientId) :
    Delivered other [] runtime (runtime.removeClient clientId) := by
  intro hmem
  exact ⟨((runtime.mem_removeClient_clients clientId other).mp hmem).2,
    (List.append_nil _).symm⟩

theorem removeClient_tried (clientId other : ClientId) {allowed : ServerMessage → Prop} :
    Tried other allowed runtime (runtime.removeClient clientId) :=
  .of_eq rfl

theorem not_mem_removeClient (clientId : ClientId) :
    clientId ∉ (runtime.removeClient clientId).clients :=
  fun hmem => ((runtime.mem_removeClient_clients clientId clientId).mp hmem).1 rfl

theorem getElem?_removeClient (clientId other : ClientId) :
    (runtime.removeClient clientId).clients[other]? =
      if other = clientId then none else runtime.clients[other]? := by
  unfold removeClient
  rw [ExtTreeMap.getElem?_erase]
  simp only [Std.compare_eq_iff_eq]
  simp only [eq_comm]

theorem getElem?_broadcast (message : ServerMessage) (clientId : ClientId) :
    (runtime.broadcast message).clients[clientId]? =
      runtime.clients[clientId]?.bind fun sender =>
        if sender.Accepts then some (sender.trySend message).2 else none := by
  unfold broadcast
  rw [ExtTreeMap.getElem?_filterMap']
  congr 1
  funext sender
  have hok := sender.trySend_isOk message
  cases hsend : sender.trySend message with
  | mk outcome next =>
      rw [hsend] at hok
      cases outcome with
      | ok _ =>
          have haccepts : sender.Accepts := by simpa [Except.isOk, Except.toBool] using hok
          rw [if_pos haccepts]
      | error _ =>
          have hrefuses : ¬ sender.Accepts := by
            simpa [Except.isOk, Except.toBool] using hok
          rw [if_neg hrefuses]

theorem attempts_broadcast (message : ServerMessage) (clientId : ClientId) :
    (runtime.broadcast message).history.attempts clientId =
      match runtime.clients[clientId]? with
      | none => runtime.history.attempts clientId
      | some sender =>
          runtime.history.attempts clientId ++ [⟨message, decide sender.Accepts⟩] := by
  unfold broadcast
  cases h : runtime.clients[clientId]? with
  | none => simp [h]
  | some sender => simp [h, Sender.trySend_isOk]

theorem broadcast_delivered (message : ServerMessage) (clientId : ClientId) :
    Delivered clientId [message] runtime (runtime.broadcast message) := by
  intro hmem
  obtain ⟨sender, hsender⟩ := mem_clients_iff _ |>.mp hmem
  rw [getElem?_broadcast] at hsender
  obtain ⟨original, horiginal, hkept⟩ := Option.bind_eq_some_iff.mp hsender
  have haccepts : original.Accepts := by
    by_contra hrefuses
    rw [if_neg hrefuses] at hkept
    cases hkept
  refine ⟨runtime.mem_clients_iff.mpr ⟨original, horiginal⟩, ?_⟩
  rw [attempts_broadcast, horiginal]
  simp [allSent, haccepts]

theorem broadcast_tried (message : ServerMessage) (clientId : ClientId)
    {allowed : ServerMessage → Prop} (h : clientId ∈ runtime.clients → allowed message) :
    Tried clientId allowed runtime (runtime.broadcast message) := by
  unfold Tried
  rw [attempts_broadcast]
  cases hclient : runtime.clients[clientId]? with
  | none => exact ⟨[], by simp⟩
  | some sender =>
      have hallowed := h (runtime.mem_clients_iff.mpr ⟨sender, hclient⟩)
      exact ⟨_, rfl, by simpa using hallowed⟩

/-- One client of a `retain`. -/
def visit (message : ServerMessage) (runtime : Runtime) (clientId : ClientId) : Runtime :=
  let (sent, runtime) := runtime.trySend clientId message
  if sent then runtime else runtime.removeClient clientId

theorem getElem?_visit (message : ServerMessage) (clientId other : ClientId) :
    (runtime.visit message clientId).clients[other]? =
      if other = clientId then (runtime.broadcast message).clients[other]?
      else runtime.clients[other]? := by
  rw [getElem?_broadcast]
  unfold visit
  cases h : runtime.clients[clientId]? with
  | none =>
      rw [runtime.trySend_of_none h]
      simp only [Bool.false_eq_true, if_false, getElem?_removeClient]
      split_ifs with hself
      · rw [hself, h, Option.bind_none]
      · rfl
  | some sender => 
      rw [runtime.trySend_of_some h]
      by_cases haccepts : sender.Accepts
      · simp only [haccepts, decide_true, if_true]
        rw [ExtTreeMap.getElem?_insert]
        simp only [Std.compare_eq_iff_eq]
        by_cases hself : other = clientId
        · subst hself
          simp [h, haccepts]
        · simp [hself, Ne.symm hself]
      · simp only [haccepts, decide_false, Bool.false_eq_true, if_false]
        rw [getElem?_removeClient, ExtTreeMap.getElem?_insert]
        simp only [Std.compare_eq_iff_eq]
        by_cases hself : other = clientId
        · subst hself
          simp [h, haccepts]
        · simp [hself, Ne.symm hself]

theorem attempts_visit (message : ServerMessage) (clientId other : ClientId) :
    (runtime.visit message clientId).history.attempts other =
      if other = clientId then (runtime.broadcast message).history.attempts other
      else runtime.history.attempts other := by
  rw [attempts_broadcast]
  have hvisit : (runtime.visit message clientId).history.attempts =
      (runtime.trySend clientId message).2.history.attempts := by
    unfold visit
    dsimp only
    split_ifs <;> rfl
  rw [hvisit]
  split_ifs with hself
  · subst hself
    cases h : runtime.clients[other]? with
    | none => rw [runtime.trySend_of_none h]
    | some sender => exact runtime.attempts_trySend_self h message
  · exact runtime.attempts_trySend_of_ne hself message

theorem foldl_visit_client (message : ServerMessage) {order : List ClientId}
    (hnodup : order.Nodup) (clientId : ClientId) :
    let visited := order.foldl (visit message) runtime
    visited.clients[clientId]? =
        (if clientId ∈ order then (runtime.broadcast message).clients[clientId]?
        else runtime.clients[clientId]?) ∧
      visited.history.attempts clientId =
        if clientId ∈ order then (runtime.broadcast message).history.attempts clientId
        else runtime.history.attempts clientId := by
  induction order generalizing runtime with
  | nil => exact ⟨rfl, rfl⟩
  | cons first rest ih =>
      obtain ⟨hfirst, hrest⟩ := List.nodup_cons.mp hnodup
      obtain ⟨hclient, hattempts⟩ := ih (runtime.visit message first) hrest
      have hentry := runtime.getElem?_visit message first clientId
      have htried := runtime.attempts_visit message first clientId
      rw [List.foldl_cons]
      refine ⟨hclient.trans ?_, hattempts.trans ?_⟩
      · by_cases hlater : clientId ∈ rest
        · have hne : clientId ≠ first := fun heq => hfirst (heq ▸ hlater)
          rw [if_neg hne] at hentry
          rw [if_pos hlater, if_pos (List.mem_cons_of_mem _ hlater), getElem?_broadcast,
            getElem?_broadcast, hentry]
        · rw [if_neg hlater, hentry]
          simp only [List.mem_cons, hlater, or_false]
      · by_cases hlater : clientId ∈ rest
        · have hne : clientId ≠ first := fun heq => hfirst (heq ▸ hlater)
          rw [if_neg hne] at hentry htried
          rw [if_pos hlater, if_pos (List.mem_cons_of_mem _ hlater), attempts_broadcast,
            attempts_broadcast, hentry, htried]
        · rw [if_neg hlater, htried]
          simp only [List.mem_cons, hlater, or_false]

/-- Nothing else is written on the way. -/
theorem foldl_visit_rest (message : ServerMessage) (order : List ClientId) :
    ∃ clients attempts, order.foldl (visit message) runtime =
      { runtime with clients, history.attempts := attempts } := by
  induction order generalizing runtime with
  | nil => exact ⟨runtime.clients, runtime.history.attempts, rfl⟩
  | cons first rest ih =>
      have hfirst : ∃ clients attempts, runtime.visit message first =
          { runtime with clients, history.attempts := attempts } := by
        unfold visit trySend
        cases runtime.clients[first]? with
        | none => exact ⟨_, runtime.history.attempts, rfl⟩
        | some sender =>
            dsimp only
            split_ifs
            · exact ⟨_, _, rfl⟩
            · exact ⟨_, _, rfl⟩
      obtain ⟨clients, attempts, hfirst⟩ := hfirst
      obtain ⟨later, tried, hrest⟩ := ih (runtime.visit message first)
      refine ⟨later, tried, ?_⟩
      rw [List.foldl_cons, hrest, hfirst]

/-- The order in which the map of the clients is iterated does not matter. -/
theorem foldl_visit (message : ServerMessage) {order : List ClientId} (hnodup : order.Nodup)
    (hmem : ∀ clientId, clientId ∈ order ↔ clientId ∈ runtime.clients) :
    order.foldl (visit message) runtime = runtime.broadcast message := by
  have hvisited := runtime.foldl_visit_client message hnodup
  have hclients : (order.foldl (visit message) runtime).clients =
      (runtime.broadcast message).clients := by
    apply ExtTreeMap.ext_getElem?
    intro clientId
    rw [(hvisited clientId).1]
    split_ifs with h
    · rfl
    · rw [hmem] at h
      rw [getElem?_broadcast, ExtTreeMap.getElem?_eq_none h, Option.bind_none]
  have hattempts : (order.foldl (visit message) runtime).history.attempts =
      (runtime.broadcast message).history.attempts := by
    funext clientId
    rw [(hvisited clientId).2]
    split_ifs with h
    · rfl
    · rw [hmem] at h
      rw [attempts_broadcast, ExtTreeMap.getElem?_eq_none h]
  obtain ⟨clients, attempts, hrest⟩ := runtime.foldl_visit_rest message order
  rw [hrest] at hclients hattempts ⊢
  change clients = _ at hclients
  change attempts = _ at hattempts
  rw [hclients, hattempts]
  rfl

theorem foldl_broadcast_delivered (messages : List ServerMessage) (clientId : ClientId) :
    Delivered clientId messages runtime (messages.foldl broadcast runtime) := by
  induction messages generalizing runtime with
  | nil => exact .refl clientId runtime
  | cons message rest ih =>
      exact (runtime.broadcast_delivered message clientId).trans (ih _)

theorem foldl_broadcast_tried (messages : List ServerMessage) (clientId : ClientId)
    {allowed : ServerMessage → Prop}
    (h : clientId ∈ runtime.clients → ∀ message ∈ messages, allowed message) :
    Tried clientId allowed runtime (messages.foldl broadcast runtime) := by
  induction messages generalizing runtime with
  | nil => exact .refl _ _ _
  | cons message rest ih =>
      refine (runtime.broadcast_tried message clientId fun hmem =>
        h hmem message (by simp)).trans (ih _ ?_)
      intro hmem other hother
      exact h (runtime.broadcast_delivered message clientId hmem).1 other (by simp [hother])

/-- A response either reaches the client or costs it its registration. -/
theorem sendResponse_eq (clientId : ClientId) (response : HandshakeResponse) :
    runtime.sendResponse clientId response =
      if (runtime.trySend clientId (.handshakeResponse response)).1 then
        (true, (runtime.trySend clientId (.handshakeResponse response)).2)
      else
        (false,
          (runtime.trySend clientId (.handshakeResponse response)).2.removeClient
            clientId) := by
  unfold sendResponse
  cases runtime.trySend clientId (.handshakeResponse response) with
  | mk sent next => cases sent <;> rfl

theorem sendResponse_fst_iff (clientId : ClientId) (response : HandshakeResponse) :
    (runtime.sendResponse clientId response).1 = true ↔ runtime.Accepts clientId := by
  rw [sendResponse_eq, ← runtime.trySend_fst_iff clientId (.handshakeResponse response)]
  split_ifs with h
  · simp [h]
  · simp [h]

theorem sendResponse_delivered (clientId other : ClientId)
    (response : HandshakeResponse) :
    Delivered other (if other = clientId then [.handshakeResponse response] else [])
      runtime (runtime.sendResponse clientId response).2 := by
  rw [sendResponse_eq]
  by_cases hsent : (runtime.trySend clientId (.handshakeResponse response)).1 = true
  · rw [if_pos hsent]
    exact runtime.trySend_delivered hsent other
  · rw [if_neg hsent]
    intro hmem
    obtain ⟨hother, hmem⟩ := (mem_removeClient_clients _ clientId other).mp hmem
    rw [if_neg hother]
    refine ⟨(runtime.mem_trySend_clients clientId other _).mp hmem, ?_⟩
    exact (runtime.attempts_trySend_of_ne hother _).trans (List.append_nil _).symm

theorem sendResponse_tried (clientId other : ClientId) (response : HandshakeResponse)
    {allowed : ServerMessage → Prop}
    (h : other = clientId → other ∈ runtime.clients →
      allowed (.handshakeResponse response)) :
    Tried other allowed runtime (runtime.sendResponse clientId response).2 := by
  rw [sendResponse_eq]
  split_ifs
  · exact runtime.trySend_tried clientId other _ h
  · exact runtime.trySend_tried clientId other _ h

theorem not_mem_sendResponse {clientId : ClientId} (h : ¬ runtime.Accepts clientId)
    (response : HandshakeResponse) :
    clientId ∉ (runtime.sendResponse clientId response).2.clients := by
  have hfailed := (not_congr (runtime.trySend_fst_iff clientId
    (.handshakeResponse response))).mpr h
  rw [sendResponse_eq, if_neg hfailed]
  exact not_mem_removeClient _ clientId

theorem mem_sendResponse_of_accepts {clientId : ClientId} (h : runtime.Accepts clientId)
    (response : HandshakeResponse) :
    clientId ∈ (runtime.sendResponse clientId response).2.clients := by
  have hsent := (runtime.trySend_fst_iff clientId (.handshakeResponse response)).mpr h
  obtain ⟨sender, hsender, _⟩ := h
  rw [sendResponse_eq, if_pos hsent, mem_trySend_clients]
  exact runtime.mem_clients_iff.mpr ⟨sender, hsender⟩

theorem mem_sendResponse_of_ne {clientId other : ClientId} (hne : other ≠ clientId)
    (h : other ∈ runtime.clients) (response : HandshakeResponse) :
    other ∈ (runtime.sendResponse clientId response).2.clients := by
  have hsent := (runtime.mem_trySend_clients clientId other
    (.handshakeResponse response)).mpr h
  rw [sendResponse_eq]
  split_ifs
  · exact hsent
  · exact (mem_removeClient_clients _ clientId other).mpr ⟨hne, hsent⟩

theorem deliver_delivered (clientId : ClientId) (messages : List ServerMessage)
    (hok : (runtime.deliver clientId messages).1 = false) (other : ClientId) :
    Delivered other (if other = clientId then messages else []) runtime
      (runtime.deliver clientId messages).2 := by
  induction messages generalizing runtime with
  | nil =>
      rw [ite_self]
      exact .refl other runtime
  | cons message rest ih =>
      simp only [deliver, Bool.or_eq_false_iff, Bool.not_eq_false'] at hok ⊢
      have hstep := (runtime.trySend_delivered hok.1 other).trans (ih _ hok.2)
      split_ifs at hstep ⊢ with hother
      · exact hstep
      · exact hstep

/-- Of a list of messages a part reaches the queue, in order; where the queue
refuses a message in the middle, a later one may still find room. -/
theorem enqueued_trySend (clientId : ClientId) (message : ServerMessage) :
    ∃ part, part.Sublist [message] ∧
      enqueued (runtime.trySend clientId message).2 clientId =
        enqueued runtime clientId ++ part ∧
      (¬ runtime.Accepts clientId → part = []) := by
  cases hclient : runtime.clients[clientId]? with
  | none =>
      refine ⟨[], List.nil_sublist _, ?_, fun _ => rfl⟩
      rw [runtime.trySend_of_none hclient, List.append_nil]
  | some sender =>
      have haccepts : runtime.Accepts clientId ↔ sender.Accepts := by
        simp [Accepts, hclient]
      rw [runtime.trySend_of_some hclient, haccepts]
      by_cases hroom : sender.Accepts
      · refine ⟨[message], List.Sublist.refl _, ?_, fun h => absurd hroom h⟩
        simp [enqueued, hroom]
      · refine ⟨[], List.nil_sublist _, ?_, fun _ => rfl⟩
        simp [enqueued, hroom]

theorem enqueued_deliver (clientId : ClientId) (messages : List ServerMessage) :
    ∃ part, part.Sublist messages ∧
      enqueued (runtime.deliver clientId messages).2 clientId =
        enqueued runtime clientId ++ part := by
  induction messages generalizing runtime with
  | nil => exact ⟨[], List.Sublist.refl _, (List.append_nil _).symm⟩
  | cons message rest ih =>
      obtain ⟨first, hfirst, hqueue, _⟩ := runtime.enqueued_trySend clientId message
      obtain ⟨later, hlater, hdelivered⟩ := ih (runtime.trySend clientId message).2
      refine ⟨first ++ later, hfirst.append hlater, ?_⟩
      rw [← List.append_assoc, ← hqueue]
      exact hdelivered

theorem deliver_tried (clientId other : ClientId) (messages : List ServerMessage)
    {allowed : ServerMessage → Prop}
    (h : other = clientId → other ∈ runtime.clients →
      ∀ message ∈ messages, allowed message) :
    Tried other allowed runtime (runtime.deliver clientId messages).2 := by
  induction messages generalizing runtime with
  | nil => exact .refl _ _ _
  | cons message rest ih =>
      refine (runtime.trySend_tried clientId other message fun heq hmem =>
        h heq hmem message (by simp)).trans (ih _ ?_)
      intro heq hmem later hlater
      exact h heq ((runtime.mem_trySend_clients clientId other message).mp hmem) later
        (by simp [hlater])

theorem mem_deliver_clients (clientId other : ClientId)
    (messages : List ServerMessage) :
    other ∈ (runtime.deliver clientId messages).2.clients ↔
      other ∈ runtime.clients := by
  induction messages generalizing runtime with
  | nil => exact Iff.rfl
  | cons message rest ih =>
      exact (ih _).trans (runtime.mem_trySend_clients clientId other message)

theorem attempts_deliver_of_ne {clientId other : ClientId} (hne : other ≠ clientId)
    (messages : List ServerMessage) :
    (runtime.deliver clientId messages).2.history.attempts other =
      runtime.history.attempts other := by
  induction messages generalizing runtime with
  | nil => rfl
  | cons message rest ih =>
      exact (ih _).trans (runtime.attempts_trySend_of_ne hne message)

theorem dismiss_eq (clientId : ClientId) (messages : List ServerMessage) :
    runtime.dismiss clientId messages =
      if clientId ∈ runtime.clients then
        if (runtime.deliver clientId messages).1 then
          (runtime.deliver clientId messages).2.removeClient clientId
        else (runtime.deliver clientId messages).2
      else runtime := rfl

theorem attempts_dismiss_of_ne {clientId other : ClientId} (hne : other ≠ clientId)
    (messages : List ServerMessage) :
    (runtime.dismiss clientId messages).history.attempts other =
      runtime.history.attempts other := by
  rw [dismiss_eq]
  split_ifs
  · exact runtime.attempts_deliver_of_ne hne messages
  · exact runtime.attempts_deliver_of_ne hne messages
  · rfl

theorem mem_dismiss_of_ne {clientId other : ClientId} (hne : other ≠ clientId)
    (messages : List ServerMessage) :
    other ∈ (runtime.dismiss clientId messages).clients ↔ other ∈ runtime.clients := by
  have hmembers := runtime.mem_deliver_clients clientId other messages
  rw [dismiss_eq]
  split_ifs
  · rw [mem_removeClient_clients, hmembers]
    exact and_iff_right hne
  · exact hmembers
  · exact Iff.rfl

theorem mem_of_mem_dismiss {clientId other : ClientId} {messages : List ServerMessage}
    (h : other ∈ (runtime.dismiss clientId messages).clients) :
    other ∈ runtime.clients := by
  have hmembers := runtime.mem_deliver_clients clientId other messages
  rw [dismiss_eq] at h
  split_ifs at h
  · exact hmembers.mp ((mem_removeClient_clients _ clientId other).mp h).2
  · exact hmembers.mp h
  · exact h

theorem dismiss_delivered (clientId other : ClientId) (messages : List ServerMessage) :
    Delivered other (if other = clientId then messages else []) runtime
      (runtime.dismiss clientId messages) := by
  intro hmem
  refine ⟨runtime.mem_of_mem_dismiss hmem, ?_⟩
  by_cases hother : other = clientId
  · subst hother
    rw [if_pos rfl]
    rw [dismiss_eq] at hmem ⊢
    split_ifs at hmem ⊢ with hregistered hfailed
    · exact absurd hmem (not_mem_removeClient _ other)
    · have hdelivered := runtime.deliver_delivered other messages
        (by simpa using hfailed) other hmem
      simpa using hdelivered.2
    · exact absurd hmem hregistered
  · rw [if_neg hother, runtime.attempts_dismiss_of_ne hother]
    exact (List.append_nil _).symm

theorem dismiss_tried (clientId other : ClientId) (messages : List ServerMessage)
    {allowed : ServerMessage → Prop}
    (h : other = clientId → other ∈ runtime.clients →
      ∀ message ∈ messages, allowed message) :
    Tried other allowed runtime (runtime.dismiss clientId messages) := by
  rw [dismiss_eq]
  split_ifs
  · exact runtime.deliver_tried clientId other messages h
  · exact runtime.deliver_tried clientId other messages h
  · exact .refl _ _ _

theorem enqueued_dismiss (clientId : ClientId) (messages : List ServerMessage) :
    ∃ part, part.Sublist messages ∧
      enqueued (runtime.dismiss clientId messages) clientId =
        enqueued runtime clientId ++ part := by
  rw [dismiss_eq]
  split_ifs
  · exact runtime.enqueued_deliver clientId messages
  · exact runtime.enqueued_deliver clientId messages
  · exact ⟨[], List.nil_sublist _, (List.append_nil _).symm⟩

theorem stopped_delivered (surroundings : Surroundings) (clientId : ClientId) :
    Delivered clientId [] runtime (runtime.stopped surroundings) :=
  .of_eq rfl rfl

/-- The holder gets the farewell, every other client gets nothing. -/
theorem revoke_delivered (surroundings : Surroundings)
    (reason : SessionRevocationReason) {session : Session}
    (h : runtime.session = some session) (clientId : ClientId) :
    Delivered clientId
      (if clientId = session.clientId then runtime.farewell surroundings session reason
        else [])
      runtime (runtime.revoke surroundings reason) := by
  rw [runtime.revoke_of_some surroundings reason h]
  exact (runtime.stopped_delivered surroundings clientId).trans
    ((runtime.stopped surroundings).dismiss_delivered session.clientId clientId _)

theorem enqueued_revoke (surroundings : Surroundings) (reason : SessionRevocationReason)
    {session : Session} (h : runtime.session = some session) :
    ∃ part, part.Sublist (runtime.farewell surroundings session reason) ∧
      enqueued (runtime.revoke surroundings reason) session.clientId =
        enqueued runtime session.clientId ++ part := by
  rw [runtime.revoke_of_some surroundings reason h]
  exact (runtime.stopped surroundings).enqueued_dismiss session.clientId _

theorem revoke_tried (surroundings : Surroundings)
    (reason : SessionRevocationReason) {session : Session}
    (h : runtime.session = some session) (clientId : ClientId)
    {allowed : ServerMessage → Prop}
    (hallowed : clientId = session.clientId → clientId ∈ runtime.clients →
      ∀ message ∈ runtime.farewell surroundings session reason, allowed message) :
    Tried clientId allowed runtime (runtime.revoke surroundings reason) := by
  rw [runtime.revoke_of_some surroundings reason h]
  exact (runtime.stopped surroundings).dismiss_tried session.clientId clientId _ hallowed

end Runtime

end Usahp.Broker
