import Mathlib.Data.PNat.Defs
import Usahp.Broker.Offered
import Usahp.FocusWatcher
import Usahp.Library.Mailbox
import Usahp.Wire

/-!
The daemon around the broker: the WebSocket connections, the focus watcher and
the threads that send inputs, all of them in front of the broker's command
channel. One move of the machine is what one of the tasks does between two
points at which it may have to wait, so a run is one interleaving of them.

A connection runs `handle_client`. Its phase says where it waits, and the
command it waits to send there. `heard` is what it has read from its socket and
`frames` what it has written to it.
-/

namespace Usahp.Server

open Std Usahp.Library Usahp.Broker

abbrev ConnectionId := Nat

/-- Who sends a command. The capture threads and the simulator send inputs. -/
inductive Origin where
  | connection (connectionId : ConnectionId)
  | focusWatcher
  | input
  deriving DecidableEq

/-- A frame from a client, a text with the JSON value that it is, if any. -/
inductive Frame where
  | text (content : Option Json)
  | other

/-- The message that a frame decodes as. All others are ignored. -/
def Frame.message? : Frame → Option ClientMessage
  | .text content => content.bind ClientMessage.decode
  | .other => none

/-- The command for a message, under the client id of the connection. -/
def command (clientId : ClientId) : ClientMessage → BrokerCommand
  | .handshake handshake => .handshake clientId handshake
  | .heartbeat sessionId => .heartbeat clientId sessionId

/-- The `oneshot` that the client id comes back through. -/
inductive Reply where
  | pending
  | registered (clientId : ClientId)
  | dropped
  deriving DecidableEq

inductive Phase where
  | absent
  /-- Waits to send its registration. -/
  | registering (channel : Channel)
  /-- Waits for the reply to it. -/
  | awaiting
  /-- In the `select!`, where it waits for its queue and for its socket. -/
  | selecting (clientId : ClientId)
  /-- Waits to send a message that it has read. -/
  | relaying (clientId : ClientId) (message : ClientMessage)
  /-- Out of the loop, waits to send `Unregister`. -/
  | leaving (clientId : ClientId)
  | ended

/-- The command that a task waits to send, and where it goes on. -/
def Phase.waiting : Phase → Option (BrokerCommand × Phase)
  | .registering channel => some (.register channel, .awaiting)
  | .relaying clientId message => some (command clientId message, .selecting clientId)
  | .leaving clientId => some (.unregister clientId, .ended)
  | _ => none

structure Connection where
  phase : Phase
  reply : Reply
  frames : List Json
  heard : List ClientMessage

structure Serving where
  runtime : Runtime
  mailbox : Mailbox Origin BrokerCommand
  connections : ConnectionId → Connection
  watcher : FocusWatcher

/-- What ends the loop of a connection: its socket is closed or fails, a frame
cannot be written, or its queue is closed and empty. -/
inductive HangUp where
  | closed
  | sinkFailed
  | exhausted
  deriving DecidableEq

inductive Move where
  | connect (connectionId : ConnectionId) (gaps : List Gap)
  /-- The send that a connection waits for is done. -/
  | post (connectionId : ConnectionId)
  | answer (connectionId : ConnectionId)
  | read (connectionId : ConnectionId) (frame : Frame)
  | forward (connectionId : ConnectionId)
  | hangUp (connectionId : ConnectionId) (cause : HangUp)
  | poll (processIdentifier : Option Int32)
  /-- The send that the focus watcher waits for is done. -/
  | report
  | input (event : PhysicalEvent)
  /-- The broker takes a command. -/
  | receive (surroundings : Surroundings)
  | tick (surroundings : Surroundings)

namespace Serving

variable (serving : Serving)

def update (connectionId : ConnectionId) (connection : Connection) : Serving :=
  { serving with connections := Function.update serving.connections connectionId connection }

def enter (connectionId : ConnectionId) (phase : Phase) : Serving :=
  serving.update connectionId { serving.connections connectionId with phase }

@[simp] theorem enter_mailbox (connectionId : ConnectionId) (phase : Phase) :
    (serving.enter connectionId phase).mailbox = serving.mailbox := rfl

/-- A connection is accepted. Its receiver is there and its queue is empty when
the hello is sent, so nothing happens in the gap before it. -/
def connect (queueCapacity : ℕ+) (connectionId : ConnectionId) (gaps : List Gap) : Serving :=
  match (serving.connections connectionId).phase with
  | .absent =>
      serving.enter connectionId
        (.registering ⟨queueCapacity, queueCapacity.pos, ⟨0, false⟩ :: gaps⟩)
  | _ => serving

def post (connectionId : ConnectionId) : Serving :=
  match (serving.connections connectionId).phase.waiting with
  | some (command, next) =>
      if serving.mailbox.HasRoom then
        { serving with
          mailbox := serving.mailbox.post (.connection connectionId) command }.enter
            connectionId next
      else serving
  | none => serving

def answer (connectionId : ConnectionId) : Serving :=
  match (serving.connections connectionId).phase,
      (serving.connections connectionId).reply with
  | .awaiting, .registered clientId => serving.enter connectionId (.selecting clientId)
  | .awaiting, .dropped => serving.enter connectionId .ended
  | _, _ => serving

def read (connectionId : ConnectionId) (frame : Frame) : Serving :=
  let connection := serving.connections connectionId
  match connection.phase, frame.message? with
  | .selecting clientId, some message =>
      serving.update connectionId
        { connection with
          phase := .relaying clientId message
          heard := connection.heard ++ [message] }
  | _, _ => serving

/-- The next message that a connection takes from its queue. What it has taken
is what it has written: a failed write is the end of the loop. -/
def upcoming (clientId : ClientId) (connectionId : ConnectionId) : Option ServerMessage :=
  (enqueued serving.runtime clientId)[(serving.connections connectionId).frames.length]?

def forward (connectionId : ConnectionId) : Serving :=
  let connection := serving.connections connectionId
  match connection.phase with
  | .selecting clientId =>
      match serving.upcoming clientId connectionId with
      | some message =>
          serving.update connectionId
            { connection with frames := connection.frames ++ [message.encode] }
      | none => serving
  | _ => serving

/-- The queue is closed once the broker has dropped the sender. -/
def HangsUp (clientId : ClientId) (connectionId : ConnectionId) : HangUp → Prop
  | .closed => True
  | .sinkFailed => (serving.upcoming clientId connectionId).isSome
  | .exhausted => clientId ∉ serving.runtime.clients ∧
      (serving.upcoming clientId connectionId).isNone

instance (clientId : ClientId) (connectionId : ConnectionId) (cause : HangUp) :
    Decidable (serving.HangsUp clientId connectionId cause) :=
  match cause with
  | .closed => isTrue trivial
  | .sinkFailed => inferInstanceAs (Decidable (_ = true))
  | .exhausted => inferInstanceAs (Decidable (_ ∧ _))

def hangUp (connectionId : ConnectionId) (cause : HangUp) : Serving :=
  match (serving.connections connectionId).phase with
  | .selecting clientId =>
      if serving.HangsUp clientId connectionId cause then
        serving.enter connectionId (.leaving clientId)
      else serving
  | _ => serving

def report : Serving :=
  match serving.watcher.report with
  | some pid =>
      if serving.mailbox.HasRoom then
        { serving with
          mailbox := serving.mailbox.post .focusWatcher (.focusChanged pid)
          watcher := { serving.watcher with report := none } }
      else serving
  | none => serving

def input (event : PhysicalEvent) : Serving :=
  if serving.mailbox.HasRoom then
    { serving with mailbox := serving.mailbox.post .input (.input event) }
  else serving

/-- What the broker answers to a registration: the id of the client that it has
inserted. -/
def replyTo (runtime next : Runtime) : Reply :=
  if runtime.nextClient ∈ next.clients then .registered runtime.nextClient else .dropped

def receive (surroundings : Surroundings) : Serving :=
  match serving.mailbox.take? with
  | none => serving
  | some ((origin, command), mailbox) =>
      let runtime := serving.runtime.step ⟨surroundings, .command command⟩
      let serving' := { serving with runtime, mailbox }
      match origin, command with
      | .connection connectionId, .register _ =>
          serving'.update connectionId
            { serving.connections connectionId with
              reply := replyTo serving.runtime runtime }
      | _, _ => serving'

def step (queueCapacity : ℕ+) : Move → Serving
  | .connect connectionId gaps => serving.connect queueCapacity connectionId gaps
  | .post connectionId => serving.post connectionId
  | .answer connectionId => serving.answer connectionId
  | .read connectionId frame => serving.read connectionId frame
  | .forward connectionId => serving.forward connectionId
  | .hangUp connectionId cause => serving.hangUp connectionId cause
  | .poll processIdentifier =>
      { serving with watcher := serving.watcher.poll processIdentifier }
  | .report => serving.report
  | .input event => serving.input event
  | .receive surroundings => serving.receive surroundings
  | .tick surroundings =>
      { serving with runtime := serving.runtime.step ⟨surroundings, .tick⟩ }

end Serving

/-- What the daemon starts with: the capacity of the clients' queues, the
mappings of the broker and the first sample of the focus watcher. -/
structure Setup where
  queueCapacity : ℕ+
  mappings : List Mapping
  started : Instant
  frontmost : Option Int32

/-- The capacity of the broker's channel. -/
def commandCapacity : Nat := 1024

def daemon (setup : Setup) : Machine Serving Move where
  start :=
    { runtime := Runtime.new setup.mappings setup.started
      mailbox := Mailbox.empty commandCapacity
      connections := fun _ => ⟨.absent, .pending, [], []⟩
      watcher := .spawn setup.frontmost }
  step := fun serving move => serving.step setup.queueCapacity move

namespace Serving

variable (serving : Serving)

/-- The pass of the broker's loop that a move is, if it is one. -/
def brokerStep (serving : Serving) : Move → Option Step
  | .receive surroundings =>
      serving.mailbox.take?.map fun entry => ⟨surroundings, .command entry.1.2⟩
  | .tick surroundings => some ⟨surroundings, .tick⟩
  | _ => none

/-- What a move can do: nothing, or one of the listed changes. -/
inductive Acted (queueCapacity : ℕ+) : Move → Serving → Prop
  | idle (move : Move) (still : serving.brokerStep move = none) :
      Acted queueCapacity move serving
  | connected (connectionId : ConnectionId) (gaps : List Gap)
      (absent : (serving.connections connectionId).phase = .absent) :
      Acted queueCapacity (.connect connectionId gaps)
        (serving.enter connectionId
          (.registering ⟨queueCapacity, queueCapacity.pos, ⟨0, false⟩ :: gaps⟩))
  | posted (connectionId : ConnectionId) (command : BrokerCommand) (next : Phase)
      (waiting : (serving.connections connectionId).phase.waiting = some (command, next))
      (room : serving.mailbox.HasRoom) :
      Acted queueCapacity (.post connectionId)
        ({ serving with
          mailbox := serving.mailbox.post (.connection connectionId) command }.enter
            connectionId next)
  | answered (connectionId : ConnectionId) (clientId : ClientId)
      (awaiting : (serving.connections connectionId).phase = .awaiting)
      (reply : (serving.connections connectionId).reply = .registered clientId) :
      Acted queueCapacity (.answer connectionId)
        (serving.enter connectionId (.selecting clientId))
  | turnedAway (connectionId : ConnectionId)
      (awaiting : (serving.connections connectionId).phase = .awaiting)
      (reply : (serving.connections connectionId).reply = .dropped) :
      Acted queueCapacity (.answer connectionId) (serving.enter connectionId .ended)
  | heard (connectionId : ConnectionId) (clientId : ClientId) (frame : Frame)
      (message : ClientMessage)
      (selecting : (serving.connections connectionId).phase = .selecting clientId)
      (decoded : frame.message? = some message) :
      Acted queueCapacity (.read connectionId frame)
        (serving.update connectionId
          { serving.connections connectionId with
            phase := .relaying clientId message
            heard := (serving.connections connectionId).heard ++ [message] })
  | forwarded (connectionId : ConnectionId) (clientId : ClientId) (message : ServerMessage)
      (selecting : (serving.connections connectionId).phase = .selecting clientId)
      (upcoming : serving.upcoming clientId connectionId = some message) :
      Acted queueCapacity (.forward connectionId)
        (serving.update connectionId
          { serving.connections connectionId with
            frames := (serving.connections connectionId).frames ++ [message.encode] })
  | hungUp (connectionId : ConnectionId) (clientId : ClientId) (cause : HangUp)
      (selecting : (serving.connections connectionId).phase = .selecting clientId)
      (due : serving.HangsUp clientId connectionId cause) :
      Acted queueCapacity (.hangUp connectionId cause)
        (serving.enter connectionId (.leaving clientId))
  | polled (processIdentifier : Option Int32) :
      Acted queueCapacity (.poll processIdentifier)
        { serving with watcher := serving.watcher.poll processIdentifier }
  | reported (pid : Option UInt32) (sending : serving.watcher.report = some pid)
      (room : serving.mailbox.HasRoom) :
      Acted queueCapacity .report
        { serving with
          mailbox := serving.mailbox.post .focusWatcher (.focusChanged pid)
          watcher := { serving.watcher with report := none } }
  | inputSent (event : PhysicalEvent) (room : serving.mailbox.HasRoom) :
      Acted queueCapacity (.input event)
        { serving with mailbox := serving.mailbox.post .input (.input event) }
  | registered (surroundings : Surroundings) (connectionId : ConnectionId)
      (channel : Channel) (mailbox : Mailbox Origin BrokerCommand)
      (taken : serving.mailbox.take? =
        some ((.connection connectionId, .register channel), mailbox)) :
      Acted queueCapacity (.receive surroundings)
        ({ serving with
          runtime := serving.runtime.register channel
          mailbox }.update connectionId
            { serving.connections connectionId with
              reply := replyTo serving.runtime (serving.runtime.register channel) })
  | received (surroundings : Surroundings) (origin : Origin) (command : BrokerCommand)
      (mailbox : Mailbox Origin BrokerCommand)
      (taken : serving.mailbox.take? = some ((origin, command), mailbox))
      (plain : ∀ connectionId channel,
        origin = .connection connectionId → command ≠ .register channel) :
      Acted queueCapacity (.receive surroundings)
        { serving with
          runtime := serving.runtime.step ⟨surroundings, .command command⟩
          mailbox }
  | ticked (surroundings : Surroundings) :
      Acted queueCapacity (.tick surroundings)
        { serving with runtime := serving.runtime.step ⟨surroundings, .tick⟩ }

variable (queueCapacity : ℕ+)

theorem receive_acted (surroundings : Surroundings) :
    serving.Acted queueCapacity (.receive surroundings) (serving.receive surroundings) := by
  unfold receive
  cases htaken : serving.mailbox.take? with
  | none => exact .idle _ (by simp [brokerStep, htaken])
  | some result =>
      obtain ⟨⟨origin, command⟩, mailbox⟩ := result
      have hplain : _ → serving.Acted queueCapacity _ _ :=
        .received surroundings origin command mailbox htaken
      cases origin with
      | focusWatcher => exact hplain fun _ _ h => Origin.noConfusion h
      | input => exact hplain fun _ _ h => Origin.noConfusion h
      | connection connectionId =>
          cases command with
          | register channel =>
              exact .registered surroundings connectionId channel mailbox htaken
          | input event => exact hplain fun _ _ _ h => BrokerCommand.noConfusion h
          | unregister clientId => exact hplain fun _ _ _ h => BrokerCommand.noConfusion h
          | handshake clientId handshake =>
              exact hplain fun _ _ _ h => BrokerCommand.noConfusion h
          | heartbeat clientId sessionId =>
              exact hplain fun _ _ _ h => BrokerCommand.noConfusion h
          | revokeSession reason => exact hplain fun _ _ _ h => BrokerCommand.noConfusion h
          | focusChanged pid => exact hplain fun _ _ _ h => BrokerCommand.noConfusion h

theorem step_acted (move : Move) :
    serving.Acted queueCapacity move (serving.step queueCapacity move) := by
  cases move with
  | connect connectionId gaps =>
      change serving.Acted queueCapacity _ (serving.connect queueCapacity connectionId gaps)
      unfold connect
      cases habsent : (serving.connections connectionId).phase with
      | absent => exact .connected connectionId gaps habsent
      | _ => exact .idle _ rfl
  | post connectionId =>
      change serving.Acted queueCapacity _ (serving.post connectionId)
      unfold post
      cases hwaiting : (serving.connections connectionId).phase.waiting with
      | none => exact .idle _ rfl
      | some result =>
          obtain ⟨command, next⟩ := result
          dsimp only
          split_ifs with hroom
          · exact .posted connectionId command next hwaiting hroom
          · exact .idle _ rfl
  | answer connectionId =>
      change serving.Acted queueCapacity _ (serving.answer connectionId)
      unfold answer
      split
      · exact .answered connectionId _ ‹_› ‹_›
      · exact .turnedAway connectionId ‹_› ‹_›
      · exact .idle _ rfl
  | read connectionId frame =>
      change serving.Acted queueCapacity _ (serving.read connectionId frame)
      unfold read
      dsimp only
      split
      · exact .heard connectionId _ frame _ ‹_› ‹_›
      · exact .idle _ rfl
  | forward connectionId =>
      change serving.Acted queueCapacity _ (serving.forward connectionId)
      unfold forward
      dsimp only
      split
      · split
        · exact .forwarded connectionId _ _ ‹_› ‹_›
        · exact .idle _ rfl
      · exact .idle _ rfl
  | hangUp connectionId cause =>
      change serving.Acted queueCapacity _ (serving.hangUp connectionId cause)
      unfold hangUp
      split
      · split_ifs with hdue
        · exact .hungUp connectionId _ cause ‹_› hdue
        · exact .idle _ rfl
      · exact .idle _ rfl
  | poll processIdentifier => exact .polled processIdentifier
  | report =>
      change serving.Acted queueCapacity _ (serving.report)
      unfold report
      split
      · split_ifs with hroom
        · exact .reported _ ‹_› hroom
        · exact .idle _ rfl
      · exact .idle _ rfl
  | input event =>
      change serving.Acted queueCapacity _ (serving.input event)
      unfold input
      split_ifs with hroom
      · exact .inputSent event hroom
      · exact .idle _ rfl
  | receive surroundings => exact serving.receive_acted queueCapacity surroundings
  | tick surroundings => exact .ticked surroundings

variable {serving queueCapacity}

/-- Only the broker changes its own state, by a pass of its loop. -/
theorem Acted.runtime_eq {move : Move} {after : Serving}
    (h : serving.Acted queueCapacity move after) :
    after.runtime = match serving.brokerStep move with
      | none => serving.runtime
      | some step => serving.runtime.step step := by
  cases h with
  | idle move still => rw [still]
  | registered surroundings connectionId channel mailbox taken =>
      simp only [brokerStep, taken]
      rfl
  | received surroundings origin command mailbox taken plain =>
      simp only [brokerStep, taken]
      rfl
  | _ => rfl

end Serving

/-- The passes of the broker's loop in a run of the daemon. -/
def brokerSteps (setup : Setup) (moves : List Move) : List Step :=
  (daemon setup).visible Serving.brokerStep (daemon setup).start moves

variable (setup : Setup)

/-- Whatever the tasks around it do, the broker runs as it does on its own. -/
theorem runtime_run (moves : List Move) :
    ((daemon setup).run moves).runtime =
      (broker setup.mappings setup.started).run (brokerSteps setup moves) := by
  refine (daemon setup).simulation (broker setup.mappings setup.started) Serving.brokerStep
    (fun _ _ => True) (fun serving runtime => serving.runtime = runtime) ?_ ?_ rfl ?_
  · rintro serving _ move rfl - hhidden
    have hacted := (serving.step_acted setup.queueCapacity move).runtime_eq
    rw [hhidden] at hacted
    exact hacted
  · rintro serving _ move step rfl - hshown
    have hacted := (serving.step_acted setup.queueCapacity move).runtime_eq
    rw [hshown] at hacted
    exact hacted
  · induction moves using List.reverseRecOn with
    | nil => trivial
    | append_singleton moves move ih => exact (daemon setup).along_append.mpr ⟨ih, trivial, trivial⟩

theorem brokerSteps_append (moves more : List Move) :
    ∃ rest, brokerSteps setup (moves ++ more) = brokerSteps setup moves ++ rest :=
  ⟨_, (daemon setup).visible_append Serving.brokerStep _ moves more⟩

theorem brokerSteps_concat (moves : List Move) (move : Move) :
    brokerSteps setup (moves ++ [move]) = brokerSteps setup moves ++
      (((daemon setup).run moves).brokerStep move).toList := by
  rw [brokerSteps, Machine.visible_concat]
  rfl

end Usahp.Server
