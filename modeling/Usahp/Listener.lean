import Usahp.Wire

/-!
The client of `usahp-listen`, which prints what a daemon sends it. First it
prints that it has connected. A text that is not a message of the protocol ends
it with an error; other frames are skipped. With `--json` it prints each message
as JSON again, in one line, and otherwise as readable lines.

A confidence is printed from its exact value. Which characters of a quoted text
are written by their numbers is for the Unicode tables of the standard library
to say; `escaped` stands for them.
-/

namespace Usahp

open Library Json

/-- What comes from the socket: a failure, a text with the JSON value that it
is, or another frame. -/
inductive Incoming where
  | failed
  | text (content : Option Json)
  | other

inductive ListenError where
  | couldNotConnect (url : String)
  | receiveFailed
  | invalidMessage
  deriving DecidableEq

def ListenError.message : ListenError → String
  | .couldNotConnect url => "could not connect to " ++ url
  | .receiveFailed => "WebSocket receive failed"
  | .invalidMessage => "server sent an invalid USAHP message"

/-- `{:<width}` of a number. -/
def alignLeft (width number : Nat) : String :=
  String.ofList ((toString number).toList.rightpad width ' ')

/-- `{:>width}` of a number. -/
def alignRight (width number : Nat) : String :=
  String.ofList ((toString number).toList.leftpad width ' ')

/-- A number that is not negative in tenths, rounded to the nearest one and in
the middle to the even one. -/
def tenths (value : Rat) : Nat :=
  let below := (value * 10).floor.toNat
  let rest := value * 10 - below
  if rest < 1 / 2 ∨ rest = 1 / 2 ∧ below % 2 = 0 then below else below + 1

/-- `{:.1}`. The sign of a zero is not kept. -/
def F32.display : F32 → String
  | .nan => "NaN"
  | .infinity negative => if negative then "-inf" else "inf"
  | .finite value =>
      let digits := tenths value.abs
      (if value < 0 then "-" else "") ++ toString (digits / 10) ++ "." ++ toString (digits % 10)

def Action.debug : Action → String
  | .pressed => "Pressed"
  | .released => "Released"

def SwitchState.debug : SwitchState → String
  | .pressed => "Pressed"
  | .released => "Released"

def HandshakeRejectionReason.debug : HandshakeRejectionReason → String
  | .protocolMismatch => "ProtocolMismatch"
  | .invalidAppId => "InvalidAppId"
  | .unsupportedMode => "UnsupportedMode"
  | .sessionBusy => "SessionBusy"
  | .captureUnavailable => "CaptureUnavailable"

def SessionRevocationReason.debug : SessionRevocationReason → String
  | .heartbeatTimeout => "HeartbeatTimeout"
  | .queueOverflow => "QueueOverflow"
  | .explicitRevocation => "ExplicitRevocation"
  | .focusLost => "FocusLost"
  | .escapeHatch => "EscapeHatch"

section Readable

variable (escaped : Char → Bool)

def debugChar (char : Char) : String :=
  match char.toNat with
  | 0 => "\\0"
  | 9 => "\\t"
  | 10 => "\\n"
  | 13 => "\\r"
  | 34 => "\\\""
  | 92 => "\\\\"
  | code =>
      if escaped char then "\\u\x7b" ++ String.ofList (Nat.toDigits 16 code) ++ "\x7d"
      else String.singleton char

/-- `{:?}` of a text. -/
def debugString (text : String) : String :=
  "\"" ++ String.join (text.toList.map (debugChar escaped)) ++ "\""

def HandshakeResponse.debug : HandshakeResponse → String
  | .accepted protocolVersion sessionId heartbeatIntervalMs missedHeartbeatLimit =>
      "Accepted \x7b protocol_version: " ++ debugString escaped protocolVersion ++
        ", session_id: " ++ debugString escaped sessionId ++
        ", heartbeat_interval_ms: " ++ toString heartbeatIntervalMs.toNat ++
        ", missed_heartbeat_limit: " ++ toString missedHeartbeatLimit.toNat ++ " \x7d"
  | .rejected protocolVersion reason =>
      "Rejected \x7b protocol_version: " ++ debugString escaped protocolVersion ++
        ", reason: " ++ reason.debug ++ " \x7d"

/-- The lines that are printed for a message without `--json`. -/
def ServerMessage.readable : ServerMessage → List String
  | .hello greeting =>
      ("protocol " ++ greeting.protocolVersion) ::
        greeting.switches.map fun switch =>
          "  " ++ switch.switchId ++ ": " ++ switch.state.debug
  | .switchEvent event =>
      ["#" ++ alignLeft 6 event.sequence ++ " +" ++ alignRight 10 event.monotonicUs ++ "us  " ++
        event.switchId ++ " " ++ event.action.debug ++ "  " ++
        (event.confidence.map fun value => value.display ++ "%").getD "—"]
  | .handshakeResponse response => ["handshake: " ++ response.debug escaped]
  | .sessionRevoked revoked =>
      ["session " ++ revoked.sessionId ++ " revoked: " ++ revoked.reason.debug]

example :
    (ServerMessage.switchEvent
        ⟨"0.3.0", 7, 1234, "primary", .pressed, some (.finite 100)⟩).readable (fun _ => false) =
      ["#7      +      1234us  primary Pressed  100.0%"] := by
  decide +kernel

/-- A line that is printed: a text, or a value as compact JSON. -/
inductive Printed where
  | line (text : String)
  | json (value : Json)

def printed (json : Bool) (message : ServerMessage) : List Printed :=
  if json then [.json message.encode] else (message.readable escaped).map .line

/-- The loop over the incoming frames: all that is printed, and the error that
ends it, if any. -/
def listen (json : Bool) : List Incoming → List Printed × Option ListenError
  | [] => ([], none)
  | .failed :: _ => ([], some .receiveFailed)
  | .other :: rest => listen json rest
  | .text content :: rest =>
      match content.bind ServerMessage.decode with
      | none => ([], some .invalidMessage)
      | some message =>
          let (lines, error) := listen json rest
          (printed escaped json message ++ lines, error)

/-- `main`, with the frames that come once it has connected, if it can. -/
def usahpListen (url : String) (json : Bool) :
    Option (List Incoming) → List Printed × Option ListenError
  | none => ([], some (.couldNotConnect url))
  | some incoming =>
      let (lines, error) := listen escaped json incoming
      (.line ("connected to " ++ url) :: lines, error)

/-- The texts among the frames. -/
def Incoming.text? : Incoming → Option (Option Json)
  | .text content => some content
  | _ => none

/-- A listener that gets the texts of messages, and whatever other frames,
prints the messages and goes on. -/
theorem listen_encode (json : Bool) (incoming : List Incoming) {messages : List ServerMessage}
    (hreceived : .failed ∉ incoming)
    (htexts : incoming.filterMap Incoming.text? = messages.map fun message => some message.encode)
    (htransportable : ∀ message ∈ messages, message.Transportable) :
    listen escaped json incoming = (messages.flatMap (printed escaped json), none) := by
  induction incoming generalizing messages with
  | nil =>
      cases messages with
      | nil => rfl
      | cons message rest => cases htexts
  | cons frame rest ih =>
      have hlater : .failed ∉ rest := fun h => hreceived (List.mem_cons_of_mem _ h)
      cases frame with
      | failed => exact absurd List.mem_cons_self hreceived
      | other => exact ih hlater htexts htransportable
      | text content =>
          cases messages with
          | nil => cases htexts
          | cons message others =>
              obtain ⟨hcontent, hothers⟩ := List.cons.inj htexts
              have hread := message.decode_encode (htransportable message (by simp))
              have hrest := ih hlater hothers fun other hother =>
                htransportable other (by simp [hother])
              have hbind : Option.bind content ServerMessage.decode = some message := by
                rw [hcontent]
                exact hread
              simp only [listen, hbind, hrest, List.flatMap_cons]

/-- While nothing ends it, the listener takes the frames one after another. -/
theorem listen_append (json : Bool) (earlier later : List Incoming)
    (hgoesOn : (listen escaped json earlier).2 = none) :
    listen escaped json (earlier ++ later) =
      ((listen escaped json earlier).1 ++ (listen escaped json later).1,
        (listen escaped json later).2) := by
  induction earlier with
  | nil => rfl
  | cons frame rest ih =>
      cases frame with
      | failed => cases hgoesOn
      | other => exact ih hgoesOn
      | text content =>
          cases hdecoded : content.bind ServerMessage.decode with
          | none =>
              simp only [listen, hdecoded] at hgoesOn
              cases hgoesOn
          | some message =>
              simp only [listen, hdecoded] at hgoesOn
              simp only [List.cons_append, listen, hdecoded, ih hgoesOn, List.append_assoc]

/-- The listener stops at the first text that is not a message. What came before
it is printed, what comes after it is not. -/
theorem listen_invalid (json : Bool) (earlier later : List Incoming) (content : Option Json)
    {messages : List ServerMessage} (hreceived : .failed ∉ earlier)
    (htexts : earlier.filterMap Incoming.text? = messages.map fun message => some message.encode)
    (htransportable : ∀ message ∈ messages, message.Transportable)
    (hinvalid : content.bind ServerMessage.decode = none) :
    listen escaped json (earlier ++ .text content :: later) =
      (messages.flatMap (printed escaped json), some .invalidMessage) := by
  have hearlier := listen_encode escaped json earlier hreceived htexts htransportable
  have hstop : listen escaped json (.text content :: later) = ([], some .invalidMessage) := by
    simp only [listen, hinvalid]
  rw [listen_append escaped json earlier _ (congrArg (·.2) hearlier), hearlier, hstop,
    List.append_nil]

end Readable

end Usahp
