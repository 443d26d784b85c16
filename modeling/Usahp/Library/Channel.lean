import Mathlib.Data.List.Basic

/-!
The sending half of a bounded channel, seen by a task that only ever calls
`try_send`.

The receiver runs in another task and may take messages, or go away, at any
moment. What it does matters to the sender only through the outcome of the
next `try_send`, so its behaviour is a script of gaps: one for the time before
the first send, one for the time between the first and the second, and so on.
A script covers every interleaving with the sender, also a receiver that runs
between two sends of one operation. Past the end of its script a receiver
does nothing more.
-/

namespace Usahp.Library

/-- What the receiver does between two consecutive sends. -/
structure Gap where
  taken : Nat
  dropped : Bool
  deriving DecidableEq

/-- A fresh channel of `mpsc::channel(capacity)`, which rejects a zero
capacity, together with the script of its receiver. -/
structure Channel where
  capacity : Nat
  capacity_pos : 0 < capacity
  gaps : List Gap

inductive TrySendError where
  | full
  | closed
  deriving DecidableEq

structure Sender (α : Type*) where
  capacity : Nat
  queue : List α
  closed : Bool
  gaps : List Gap

namespace Sender

variable {α : Type*}

def ofChannel (channel : Channel) : Sender α where
  capacity := channel.capacity
  queue := []
  closed := false
  gaps := channel.gaps

/-- Let the receiver run for one gap. -/
def settle (sender : Sender α) : Sender α :=
  match sender.gaps with
  | [] => sender
  | gap :: rest =>
      { sender with
        queue := sender.queue.drop gap.taken
        closed := sender.closed || gap.dropped
        gaps := rest }

def trySend (sender : Sender α) (message : α) :
    Except TrySendError Unit × Sender α :=
  let sender := sender.settle
  if sender.closed then
    (.error .closed, sender)
  else if sender.queue.length < sender.capacity then
    (.ok (), { sender with queue := sender.queue ++ [message] })
  else
    (.error .full, sender)

/-- The next `try_send` will succeed. -/
def Accepts (sender : Sender α) : Prop :=
  sender.settle.closed = false ∧ sender.settle.queue.length < sender.settle.capacity

instance (sender : Sender α) : Decidable sender.Accepts :=
  inferInstanceAs (Decidable (_ ∧ _))

/-- Every message of the list will be taken, one after another. -/
def TakesAll (sender : Sender α) : List α → Prop
  | [] => True
  | message :: rest => sender.Accepts ∧ (sender.trySend message).2.TakesAll rest

theorem trySend_isOk (sender : Sender α) (message : α) :
    (sender.trySend message).1.isOk = decide sender.Accepts := by
  rw [trySend]
  split_ifs with hclosed hroom
  · simp [Accepts, hclosed, Except.isOk, Except.toBool]
  · simp [Accepts, hclosed, hroom, Except.isOk, Except.toBool]
  · simp [Accepts, hroom, Except.isOk, Except.toBool]

/-- What the sends of a list of messages, one after another, are answered. -/
def outcomes (sender : Sender α) : List α → List Bool
  | [] => []
  | message :: rest =>
      (sender.trySend message).1.isOk :: (sender.trySend message).2.outcomes rest

/-- The sender after the sends of a list of messages, one after another. -/
def sendAll (sender : Sender α) (messages : List α) : Sender α :=
  messages.foldl (fun sender message => (sender.trySend message).2) sender

/-- What the receiver takes in the next gap. -/
def taken (sender : Sender α) : List α :=
  match sender.gaps with
  | [] => []
  | gap :: _ => sender.queue.take gap.taken

/-- All that the receiver takes before and between the sends of these messages. -/
def received (sender : Sender α) : List α → List α
  | [] => []
  | message :: rest => sender.taken ++ (sender.trySend message).2.received rest

/-- The messages whose send is answered with success. -/
def accepted (sender : Sender α) (messages : List α) : List α :=
  ((messages.zip (sender.outcomes messages)).filter (·.2)).map (·.1)

/-- After the first failure there is no further success. -/
def Monotone (outcomes : List Bool) : Prop :=
  outcomes.Pairwise fun earlier later => later = true → earlier = true

/-- In the next `count` gaps the receiver takes nothing, unless it goes away. -/
def LeavesFull : List Gap → Nat → Prop
  | [], _ => True
  | _ :: _, 0 => True
  | gap :: rest, count + 1 => gap.dropped = true ∨ gap.taken = 0 ∧ LeavesFull rest count

/-- Once the queue is found full with one of the messages, the receiver takes
nothing before the last of them, unless it goes away. -/
def Undisturbed (sender : Sender α) : List α → Prop
  | [] => True
  | message :: rest =>
      if sender.Accepts then (sender.trySend message).2.Undisturbed rest
      else sender.settle.closed = true ∨ LeavesFull sender.settle.gaps rest.length

/-- The queue of a channel holds at most its capacity. -/
structure Bounded (sender : Sender α) : Prop where
  capacity_pos : 0 < sender.capacity
  length_le : sender.queue.length ≤ sender.capacity

theorem bounded_ofChannel (channel : Channel) : (ofChannel channel : Sender α).Bounded :=
  ⟨channel.capacity_pos, Nat.zero_le _⟩

theorem Bounded.settle {sender : Sender α} (h : sender.Bounded) : sender.settle.Bounded := by
  unfold Sender.settle
  split
  · exact h
  · refine ⟨h.capacity_pos, ?_⟩
    have hle := h.length_le
    simp only [List.length_drop]
    omega

theorem trySend_of_accepts {sender : Sender α} (h : sender.Accepts) (message : α) :
    sender.trySend message =
      (.ok (), { sender.settle with queue := sender.settle.queue ++ [message] }) := by
  simp [trySend, h.1, h.2]

theorem trySend_of_refuses {sender : Sender α} (h : ¬ sender.Accepts) (message : α) :
    (sender.trySend message).2 = sender.settle := by
  simp only [Accepts, not_and] at h
  unfold trySend
  dsimp only
  split_ifs with hclosed hroom
  · rfl
  · exact absurd hroom (h (by simpa using hclosed))
  · rfl

theorem Bounded.trySend {sender : Sender α} (h : sender.Bounded) (message : α) :
    (sender.trySend message).2.Bounded := by
  by_cases haccepts : sender.Accepts
  · rw [trySend_of_accepts haccepts]
    refine ⟨h.settle.capacity_pos, ?_⟩
    have hroom := haccepts.2
    simp only [List.length_append, List.length_singleton]
    omega
  · rw [trySend_of_refuses haccepts]
    exact h.settle

theorem outcomes_length (sender : Sender α) (messages : List α) :
    (sender.outcomes messages).length = messages.length := by
  induction messages generalizing sender with
  | nil => rfl
  | cons message rest ih => simp [outcomes, ih]

theorem sendAll_concat (sender : Sender α) (messages : List α) (message : α) :
    sender.sendAll (messages ++ [message]) = ((sender.sendAll messages).trySend message).2 :=
  List.foldl_concat _ _ _ _

theorem outcomes_concat (sender : Sender α) (messages : List α) (message : α) :
    sender.outcomes (messages ++ [message]) =
      sender.outcomes messages ++ [((sender.sendAll messages).trySend message).1.isOk] := by
  induction messages generalizing sender with
  | nil => rfl
  | cons first rest ih =>
      rw [List.cons_append, outcomes, ih]
      rfl

/-- In a gap the receiver takes the messages that are first in the queue. -/
theorem taken_append_settle (sender : Sender α) :
    sender.taken ++ sender.settle.queue = sender.queue := by
  obtain ⟨capacity, queue, closed, gaps⟩ := sender
  cases gaps with
  | nil => rfl
  | cons gap rest => exact List.take_append_drop gap.taken queue

/-- A message whose send succeeds is last in the queue then. -/
theorem taken_append_trySend (sender : Sender α) (message : α) :
    sender.taken ++ (sender.trySend message).2.queue =
      sender.queue ++ if sender.Accepts then [message] else [] := by
  split_ifs with haccepts
  · rw [trySend_of_accepts haccepts, ← List.append_assoc, taken_append_settle]
  · rw [trySend_of_refuses haccepts, taken_append_settle, List.append_nil]

theorem accepted_cons (sender : Sender α) (message : α) (rest : List α) :
    sender.accepted (message :: rest) =
      (if sender.Accepts then [message] else []) ++
        (sender.trySend message).2.accepted rest := by
  rw [accepted, outcomes, trySend_isOk]
  by_cases haccepts : sender.Accepts
  · simp [haccepts, accepted]
  · simp [haccepts, accepted]

/-- First in, first out: what the receiver has taken and what is still in the
queue are, in order, what was in it and the messages whose sends succeeded. -/
theorem received_append_queue (sender : Sender α) (messages : List α) :
    sender.received messages ++ (sender.sendAll messages).queue =
      sender.queue ++ sender.accepted messages := by
  induction messages generalizing sender with
  | nil => exact (List.append_nil _).symm
  | cons message rest ih =>
      have hnext := ih (sender.trySend message).2
      calc sender.taken ++ (sender.trySend message).2.received rest ++
            ((sender.trySend message).2.sendAll rest).queue
          = sender.taken ++ ((sender.trySend message).2.queue ++
              (sender.trySend message).2.accepted rest) := by
            rw [List.append_assoc, hnext]
        _ = sender.queue ++ sender.accepted (message :: rest) := by
            rw [← List.append_assoc, taken_append_trySend, List.append_assoc, accepted_cons]

theorem settle_closed {sender : Sender α} (h : sender.closed = true) :
    sender.settle.closed = true := by
  unfold settle
  split
  · exact h
  · simp [h]

/-- A channel whose receiver is gone takes nothing any more. -/
theorem outcomes_of_closed {sender : Sender α} (h : sender.closed = true)
    (messages : List α) : ∀ outcome ∈ sender.outcomes messages, outcome = false := by
  induction messages generalizing sender with
  | nil => simp [outcomes]
  | cons message rest ih =>
      have hclosed := settle_closed h
      have hrefuses : ¬ sender.Accepts := by
        intro haccepts
        rw [haccepts.1] at hclosed
        cases hclosed
      have hnext : (sender.trySend message).2.closed = true := by
        rw [trySend_of_refuses hrefuses]
        exact hclosed
      intro outcome hmem
      rcases List.mem_cons.mp hmem with rfl | hrest
      · simp [trySend_isOk, hrefuses]
      · exact ih hnext outcome hrest

/-- A full queue goes on refusing exactly as long as nothing is taken. -/
theorem outcomes_of_full {sender : Sender α} (hbounded : sender.Bounded)
    (hopen : sender.closed = false) (hfull : sender.queue.length = sender.capacity)
    (messages : List α) :
    (∀ outcome ∈ sender.outcomes messages, outcome = false) ↔
      LeavesFull sender.gaps messages.length := by
  induction messages generalizing sender with
  | nil => cases sender.gaps <;> simp [outcomes, LeavesFull]
  | cons message rest ih =>
      obtain ⟨capacity, queue, closed, gaps⟩ := sender
      simp only at hopen hfull
      subst hopen
      have hpos := hbounded.capacity_pos
      have hgoes (hrefuses : ¬ (⟨capacity, queue, false, gaps⟩ : Sender α).Accepts) :
          (∀ outcome ∈ (⟨capacity, queue, false, gaps⟩ : Sender α).outcomes
              (message :: rest), outcome = false) ↔
            ∀ outcome ∈ (⟨capacity, queue, false, gaps⟩ : Sender α).settle.outcomes rest,
              outcome = false := by
        simp [outcomes, trySend_isOk, hrefuses, trySend_of_refuses hrefuses]
      cases gaps with
      | nil =>
          have hrefuses : ¬ (⟨capacity, queue, false, []⟩ : Sender α).Accepts := by
            rintro ⟨_, hroom⟩
            simp only [settle] at hroom
            omega
          rw [hgoes hrefuses]
          have hstill := ih hbounded rfl hfull
          simpa [settle, LeavesFull] using hstill
      | cons gap later =>
          obtain ⟨taken, dropped⟩ := gap
          cases dropped with
          | true =>
              have hrefuses :
                  ¬ (⟨capacity, queue, false, ⟨taken, true⟩ :: later⟩ : Sender α).Accepts := by
                rintro ⟨hopen, _⟩
                simp [settle] at hopen
              rw [hgoes hrefuses]
              refine iff_of_true ?_ (Or.inl rfl)
              exact outcomes_of_closed (by simp [settle]) rest
          | false =>
              cases taken with
              | zero =>
                  have hrefuses :
                      ¬ (⟨capacity, queue, false, ⟨0, false⟩ :: later⟩ : Sender α).Accepts := by
                    rintro ⟨_, hroom⟩
                    simp only [settle, List.drop_zero] at hroom
                    omega
                  have hstill := @ih ⟨capacity, queue, false, later⟩
                    ⟨hpos, hbounded.length_le⟩ rfl hfull
                  rw [hgoes hrefuses]
                  simpa [settle, LeavesFull] using hstill
              | succ taken =>
                  have haccepts : (⟨capacity, queue, false, ⟨taken + 1, false⟩ :: later⟩ :
                      Sender α).Accepts := by
                    refine ⟨by simp [settle], ?_⟩
                    simp only [settle, List.length_drop]
                    change 0 < capacity at hpos
                    omega
                  simp [outcomes, trySend_isOk, haccepts, LeavesFull]

/-- The sends of a list of messages have no success after a failure exactly
when the receiver leaves a full queue alone. -/
theorem outcomes_monotone_iff {sender : Sender α} (hbounded : sender.Bounded)
    (messages : List α) :
    Monotone (sender.outcomes messages) ↔ sender.Undisturbed messages := by
  induction messages generalizing sender with
  | nil => simp [outcomes, Monotone, Undisturbed]
  | cons message rest ih =>
      unfold Undisturbed
      split_ifs with haccepts
      · rw [← ih (hbounded.trySend message)]
        simp [outcomes, Monotone, trySend_isOk, haccepts]
      · have hrest : Monotone (sender.outcomes (message :: rest)) ↔
            ∀ outcome ∈ sender.settle.outcomes rest, outcome = false := by
          simp only [outcomes, Monotone, trySend_isOk, haccepts, decide_false,
            trySend_of_refuses haccepts, List.pairwise_cons]
          constructor
          · rintro ⟨hfirst, _⟩ outcome hmem
            cases outcome with
            | false => rfl
            | true => exact (hfirst true hmem rfl).symm
          · intro hfalse
            constructor
            · intro outcome hmem htrue
              rw [← htrue, hfalse outcome hmem]
            · apply List.pairwise_of_forall_mem_list
              intro first _ second hsecond htrue
              rw [hfalse second hsecond] at htrue
              cases htrue
        rw [hrest]
        cases hclosed : sender.settle.closed with
        | true => exact iff_of_true (outcomes_of_closed hclosed rest) (Or.inl rfl)
        | false =>
            have hfull : sender.settle.queue.length = sender.settle.capacity := by
              have hle := hbounded.settle.length_le
              have hroom : ¬ sender.settle.queue.length < sender.settle.capacity :=
                fun hroom => haccepts ⟨hclosed, hroom⟩
              omega
            simpa using outcomes_of_full hbounded.settle hclosed hfull rest

/-- The receiver does not go away, and the queue takes so many more messages
even if it takes none. -/
structure Roomy (sender : Sender α) (count : Nat) : Prop where
  opened : sender.closed = false
  staying : ∀ gap ∈ sender.gaps, gap.dropped = false
  room : sender.queue.length + count ≤ sender.capacity

theorem roomy_ofChannel {channel : Channel} {count : Nat}
    (hstaying : ∀ gap ∈ channel.gaps, gap.dropped = false) (hroom : count ≤ channel.capacity) :
    (ofChannel channel : Sender α).Roomy count := by
  refine ⟨rfl, hstaying, ?_⟩
  change 0 + count ≤ channel.capacity
  omega

theorem Roomy.settle {sender : Sender α} {count : Nat} (h : sender.Roomy count) :
    sender.settle.Roomy count := by
  obtain ⟨hopened, hstaying, hroom⟩ := h
  obtain ⟨capacity, queue, closed, gaps⟩ := sender
  cases gaps with
  | nil => exact ⟨hopened, hstaying, hroom⟩
  | cons gap rest =>
      have hstays : gap.dropped = false := hstaying gap List.mem_cons_self
      refine ⟨?_, fun later hlater => hstaying later (List.mem_cons_of_mem _ hlater), ?_⟩
      · change (closed || gap.dropped) = false
        rw [hstays, Bool.or_false]
        exact hopened
      · have hle : (queue.drop gap.taken).length ≤ queue.length := by
          rw [List.length_drop]
          omega
        exact Nat.le_trans (Nat.add_le_add_right hle count) hroom

theorem Roomy.accepts {sender : Sender α} {count : Nat} (h : sender.Roomy (count + 1)) :
    sender.Accepts := by
  obtain ⟨hopened, _, hroom⟩ := h.settle
  refine ⟨hopened, ?_⟩
  omega

/-- Every message takes one place. -/
theorem Roomy.trySend {sender : Sender α} {count : Nat} (h : sender.Roomy (count + 1))
    (message : α) : (sender.trySend message).2.Roomy count := by
  obtain ⟨hopened, hstaying, hroom⟩ := h.settle
  rw [trySend_of_accepts h.accepts]
  refine ⟨hopened, hstaying, ?_⟩
  rw [List.length_append, List.length_singleton]
  change _ ≤ sender.settle.capacity
  omega

/-- So many of the next messages will be taken, whatever they are. -/
def Takes (sender : Sender α) : Nat → Prop
  | 0 => True
  | count + 1 => sender.Accepts ∧ ∀ message, (sender.trySend message).2.Takes count

theorem Takes.mono {sender : Sender α} {count fewer : Nat} (h : sender.Takes count)
    (hle : fewer ≤ count) : sender.Takes fewer := by
  induction count generalizing sender fewer with
  | zero =>
      rw [Nat.le_zero.mp hle]
      exact h
  | succ count ih =>
      cases fewer with
      | zero => trivial
      | succ fewer => exact ⟨h.1, fun message => ih (h.2 message) (Nat.le_of_succ_le_succ hle)⟩

theorem Roomy.takes {sender : Sender α} {count : Nat} (h : sender.Roomy count) :
    sender.Takes count := by
  induction count generalizing sender with
  | zero => trivial
  | succ count ih => exact ⟨h.accepts, fun message => ih (h.trySend message)⟩

/-- In so many of the next gaps the receiver empties the queue and stays. -/
structure Prompt (sender : Sender α) (count : Nat) : Prop where
  bounded : sender.Bounded
  opened : sender.closed = false
  scripted : count ≤ sender.gaps.length
  emptying : ∀ gap ∈ sender.gaps, sender.capacity ≤ gap.taken ∧ gap.dropped = false

/-- However small its queue is, it takes every message. -/
theorem Prompt.takes {sender : Sender α} {count : Nat} (h : sender.Prompt count) :
    sender.Takes count := by
  induction count generalizing sender with
  | zero => trivial
  | succ count ih =>
      obtain ⟨hbounded, hopened, hscripted, hemptying⟩ := h
      have hpos := hbounded.capacity_pos
      have hlength := hbounded.length_le
      obtain ⟨capacity, queue, closed, gaps⟩ := sender
      cases gaps with
      | nil => exact absurd hscripted (Nat.not_succ_le_zero count)
      | cons gap rest =>
          obtain ⟨htaken, hstays⟩ := hemptying gap List.mem_cons_self
          have hempty : queue.drop gap.taken = [] :=
            List.drop_eq_nil_of_le (Nat.le_trans hlength htaken)
          have hsettled : (⟨capacity, queue, closed, gap :: rest⟩ : Sender α).settle =
              ⟨capacity, [], false, rest⟩ := by
            change (⟨capacity, queue.drop gap.taken, closed || gap.dropped, rest⟩ : Sender α) = _
            rw [hempty, hstays, Bool.or_false]
            exact congrArg (Sender.mk capacity [] · rest) hopened
          have haccepts : (⟨capacity, queue, closed, gap :: rest⟩ : Sender α).Accepts := by
            rw [Accepts, hsettled]
            exact ⟨rfl, hpos⟩
          refine ⟨haccepts, fun message => ih ?_⟩
          rw [trySend_of_accepts haccepts, hsettled]
          refine ⟨⟨hpos, hpos⟩, rfl, Nat.le_of_succ_le_succ hscripted, ?_⟩
          exact fun later hmem => hemptying later (List.mem_cons_of_mem _ hmem)

end Sender

end Usahp.Library
