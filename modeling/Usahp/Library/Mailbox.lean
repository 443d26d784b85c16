import Mathlib.Data.List.Basic

/-!
A bounded channel with many senders and one receiver, seen from all sides. A
sender waits until there is room, so a post into a full mailbox does not
happen and is tried again. Each message carries the sender it comes from, and
the mailbox remembers what was taken from it; the receiver sees neither.

The rules are those of a queue: what is taken was sent, in order for each
sender, and what was ever posted is taken once enough has been taken.
-/

namespace Usahp.Library

structure Mailbox (ω α : Type*) where
  capacity : Nat
  queue : List (ω × α)
  taken : List (ω × α)

namespace Mailbox

variable {ω α : Type*}

def empty (capacity : Nat) : Mailbox ω α := ⟨capacity, [], []⟩

def HasRoom (mailbox : Mailbox ω α) : Prop := mailbox.queue.length < mailbox.capacity

instance (mailbox : Mailbox ω α) : Decidable mailbox.HasRoom :=
  inferInstanceAs (Decidable (_ < _))

/-- The post of a sender who found room. -/
def post (mailbox : Mailbox ω α) (origin : ω) (message : α) : Mailbox ω α :=
  { mailbox with queue := mailbox.queue ++ [(origin, message)] }

/-- The message that is taken next, and what is left. -/
def take? (mailbox : Mailbox ω α) : Option ((ω × α) × Mailbox ω α) :=
  match mailbox.queue with
  | [] => none
  | entry :: rest => some (entry, { mailbox with queue := rest, taken := mailbox.taken ++ [entry] })

/-- All messages ever posted, in order. -/
def log (mailbox : Mailbox ω α) : List (ω × α) := mailbox.taken ++ mailbox.queue

/-- The queue never holds more than the capacity. -/
def Bounded (mailbox : Mailbox ω α) : Prop := mailbox.queue.length ≤ mailbox.capacity

section Queue

variable {mailbox after : Mailbox ω α} {entry : ω × α}

theorem take?_eq_some (h : mailbox.take? = some (entry, after)) :
    ∃ rest, mailbox.queue = entry :: rest ∧
      after = { mailbox with queue := rest, taken := mailbox.taken ++ [entry] } := by
  unfold take? at h
  cases hqueue : mailbox.queue with
  | nil =>
      rw [hqueue] at h
      cases h
  | cons first rest =>
      rw [hqueue] at h
      cases h
      exact ⟨rest, rfl, rfl⟩

theorem take?_eq_none (h : mailbox.take? = none) : mailbox.queue = [] := by
  unfold take? at h
  cases hqueue : mailbox.queue with
  | nil => rfl
  | cons first rest =>
      rw [hqueue] at h
      cases h

theorem log_post (mailbox : Mailbox ω α) (origin : ω) (message : α) :
    (mailbox.post origin message).log = mailbox.log ++ [(origin, message)] := by
  rw [log, post, ← List.append_assoc]
  rfl

theorem log_of_take? (h : mailbox.take? = some (entry, after)) : after.log = mailbox.log := by
  obtain ⟨rest, hqueue, rfl⟩ := take?_eq_some h
  simp [log, hqueue]

theorem taken_of_take? (h : mailbox.take? = some (entry, after)) :
    after.taken = mailbox.taken ++ [entry] := by
  obtain ⟨rest, _, rfl⟩ := take?_eq_some h
  rfl

theorem mem_log_of_take? (h : mailbox.take? = some (entry, after)) : entry ∈ mailbox.log := by
  obtain ⟨rest, hqueue, _⟩ := take?_eq_some h
  simp [log, hqueue]

theorem Bounded.post (hroom : mailbox.HasRoom) (origin : ω) (message : α) :
    (mailbox.post origin message).Bounded := by
  unfold HasRoom at hroom
  simp only [Bounded, Mailbox.post, List.length_append, List.length_singleton]
  omega

theorem Bounded.take (hbounded : mailbox.Bounded)
    (h : mailbox.take? = some (entry, after)) : after.Bounded := by
  obtain ⟨rest, hqueue, rfl⟩ := take?_eq_some h
  unfold Bounded at hbounded ⊢
  rw [hqueue, List.length_cons] at hbounded
  exact Nat.le_of_succ_le hbounded

/-- Nothing overtakes an entry that waits. -/
theorem getElem?_post {position : Nat} (h : mailbox.queue[position]? = some entry) (origin : ω)
    (message : α) : (mailbox.post origin message).queue[position]? = some entry := by
  obtain ⟨hlt, _⟩ := List.getElem?_eq_some_iff.mp h
  rw [post, List.getElem?_append_left hlt, h]

/-- With each message that is taken an entry moves forward by one, until it is
taken itself. -/
theorem getElem?_take? {taken : ω × α} {position : Nat}
    (h : mailbox.take? = some (taken, after))
    (hwaits : mailbox.queue[position]? = some entry) :
    position = 0 ∧ taken = entry ∨
      ∃ next, position = next + 1 ∧ after.queue[next]? = some entry := by
  obtain ⟨rest, hqueue, rfl⟩ := take?_eq_some h
  rw [hqueue] at hwaits
  cases position with
  | zero => exact .inl ⟨rfl, Option.some.inj hwaits⟩
  | succ next => exact .inr ⟨next, rfl, hwaits⟩

/-- What was posted up to some moment is taken once as many messages are. -/
theorem prefix_taken {earlier : List (ω × α)} (hposted : earlier <+: mailbox.log)
    (hlength : earlier.length ≤ mailbox.taken.length) : earlier <+: mailbox.taken :=
  List.prefix_of_prefix_length_le hposted (List.prefix_append _ _) hlength

end Queue

section Senders

variable [DecidableEq ω]

def ofOrigin (origin : ω) (entries : List (ω × α)) : List α :=
  (entries.filter (·.1 = origin)).map (·.2)

/-- What a sender has posted. -/
def sent (mailbox : Mailbox ω α) (origin : ω) : List α := ofOrigin origin mailbox.log

/-- What of it has been taken. -/
def takenFrom (mailbox : Mailbox ω α) (origin : ω) : List α := ofOrigin origin mailbox.taken

@[simp] theorem ofOrigin_append (origin : ω) (first second : List (ω × α)) :
    ofOrigin origin (first ++ second) = ofOrigin origin first ++ ofOrigin origin second := by
  simp only [ofOrigin, List.filter_append, List.map_append]

theorem ofOrigin_singleton (origin : ω) (entry : ω × α) :
    ofOrigin origin [entry] = if entry.1 = origin then [entry.2] else [] := by
  by_cases h : entry.1 = origin
  · simp [ofOrigin, h]
  · simp [ofOrigin, h]

theorem mem_sent {mailbox : Mailbox ω α} {origin : ω} {message : α} :
    message ∈ mailbox.sent origin ↔ (origin, message) ∈ mailbox.log := by
  simp only [sent, ofOrigin, List.mem_map, List.mem_filter, decide_eq_true_eq, Prod.exists]
  constructor
  · rintro ⟨sender, posted, ⟨hmem, rfl⟩, rfl⟩
    exact hmem
  · intro hmem
    exact ⟨origin, message, ⟨hmem, rfl⟩, rfl⟩

theorem sent_post (mailbox : Mailbox ω α) (origin sender : ω) (message : α) :
    (mailbox.post sender message).sent origin =
      mailbox.sent origin ++ if sender = origin then [message] else [] := by
  rw [sent, log_post, ofOrigin_append, ofOrigin_singleton]
  rfl

/-- Nothing is taken that was not sent, and nothing overtakes what the same
sender sent before it. -/
theorem takenFrom_prefix (mailbox : Mailbox ω α) (origin : ω) :
    mailbox.takenFrom origin <+: mailbox.sent origin := by
  rw [sent, log, ofOrigin_append]
  exact List.prefix_append _ _

variable {mailbox after : Mailbox ω α} {entry : ω × α}

theorem sent_of_take? (h : mailbox.take? = some (entry, after)) (origin : ω) :
    after.sent origin = mailbox.sent origin :=
  congrArg (ofOrigin origin) (log_of_take? h)

theorem takenFrom_of_take? (h : mailbox.take? = some (entry, after)) (origin : ω) :
    after.takenFrom origin =
      mailbox.takenFrom origin ++ if entry.1 = origin then [entry.2] else [] := by
  rw [takenFrom, taken_of_take? h, ofOrigin_append, ofOrigin_singleton]
  rfl

/-- What is taken comes next in the order of its sender. -/
theorem next_of_take? (h : mailbox.take? = some (entry, after)) :
    mailbox.takenFrom entry.1 ++ [entry.2] <+: mailbox.sent entry.1 := by
  have htaken := takenFrom_of_take? h entry.1
  rw [if_pos rfl] at htaken
  rw [← htaken, ← sent_of_take? h entry.1]
  exact after.takenFrom_prefix entry.1

end Senders

end Mailbox

end Usahp.Library
