import Usahp.Library.Json
import Usahp.Protocol

/-!
The wire format. The serde attributes of the message types are read as the
definition of an encoder and a decoder: `tag` puts the name of the variant
next to its fields, `rename_all` gives the names of variants, and a field
with `skip_serializing_if` is left out when it is `None`.

The decoder reads the documented form, an object. A number that is not finite
has no JSON form and is written as null.
-/

namespace Usahp

open Usahp.Library Usahp.Library.Json

/-- `serialize_f32`. -/
def F32.encode : F32 → Json
  | .finite value => .fraction value
  | _ => .null

def F32.decode (json : Json) : Option F32 :=
  (readRational json).map .finite

def Action.encode : Action → Json
  | .pressed => .string "pressed"
  | .released => .string "released"

def Action.decode : Json → Option Action
  | .string "pressed" => some .pressed
  | .string "released" => some .released
  | _ => none

def SwitchState.encode : SwitchState → Json
  | .pressed => .string "pressed"
  | .released => .string "released"

def SwitchState.decode : Json → Option SwitchState
  | .string "pressed" => some .pressed
  | .string "released" => some .released
  | _ => none

def SwitchSnapshot.encode (snapshot : SwitchSnapshot) : Json :=
  .object ([("switch_id", .string snapshot.switchId), ("state", snapshot.state.encode)] ++
    skipNone "confidence" F32.encode snapshot.confidence)

def SwitchSnapshot.read (members : List (String × Json)) : Option SwitchSnapshot := do
  let switchId ← requiredField "switch_id" readString members
  let state ← requiredField "state" SwitchState.decode members
  let confidence ← optionalField "confidence" F32.decode members
  return { switchId, state, confidence }

def Hello.write (hello : Hello) : List (String × Json) :=
  [("protocol_version", .string hello.protocolVersion),
    ("switches", .array (hello.switches.map SwitchSnapshot.encode))]

def Hello.read (members : List (String × Json)) : Option Hello := do
  let protocolVersion ← requiredField "protocol_version" readString members
  let switches ← requiredField "switches" (readArray (readObject SwitchSnapshot.read)) members
  return { protocolVersion, switches }

def SwitchEvent.write (event : SwitchEvent) : List (String × Json) :=
  [("protocol_version", .string event.protocolVersion), ("sequence", .integer event.sequence),
    ("monotonic_us", .integer event.monotonicUs), ("switch_id", .string event.switchId),
    ("action", event.action.encode)] ++
    skipNone "confidence" F32.encode event.confidence

def SwitchEvent.read (members : List (String × Json)) : Option SwitchEvent := do
  let protocolVersion ← requiredField "protocol_version" readString members
  let sequence ← requiredField "sequence" (readUnsigned 64) members
  let monotonicUs ← requiredField "monotonic_us" (readUnsigned 64) members
  let switchId ← requiredField "switch_id" readString members
  let action ← requiredField "action" Action.decode members
  let confidence ← optionalField "confidence" F32.decode members
  return { protocolVersion, sequence, monotonicUs, switchId, action, confidence }

/-- `From<String>`: every other string is kept as it is. -/
def RequestedMode.ofString (value : String) : RequestedMode :=
  if value = "exclusive_foreground" then .exclusiveForeground else .unsupported value

def RequestedMode.toString : RequestedMode → String
  | .exclusiveForeground => "exclusive_foreground"
  | .unsupported value => value

def encodeUInt32 (value : UInt32) : Json := .integer value.toNat

def decodeUInt32 (json : Json) : Option UInt32 :=
  (readUnsigned 32 json).map UInt32.ofNat

def Handshake.write (handshake : Handshake) : List (String × Json) :=
  [("protocol_version", .string handshake.protocolVersion),
    ("app_id", .string handshake.appId),
    ("requested_mode", .string handshake.requestedMode.toString),
    ("pid", nullable encodeUInt32 handshake.pid)]

def Handshake.read (members : List (String × Json)) : Option Handshake := do
  let protocolVersion ← requiredField "protocol_version" readString members
  let appId ← requiredField "app_id" readString members
  let requestedMode ← requiredField "requested_mode" readString members
  let pid ← optionalField "pid" decodeUInt32 members
  return { protocolVersion, appId, requestedMode := .ofString requestedMode, pid }

def HandshakeRejectionReason.encode : HandshakeRejectionReason → Json
  | .protocolMismatch => .string "PROTOCOL_MISMATCH"
  | .invalidAppId => .string "INVALID_APP_ID"
  | .unsupportedMode => .string "UNSUPPORTED_MODE"
  | .sessionBusy => .string "SESSION_BUSY"
  | .captureUnavailable => .string "CAPTURE_UNAVAILABLE"

def HandshakeRejectionReason.decode : Json → Option HandshakeRejectionReason
  | .string "PROTOCOL_MISMATCH" => some .protocolMismatch
  | .string "INVALID_APP_ID" => some .invalidAppId
  | .string "UNSUPPORTED_MODE" => some .unsupportedMode
  | .string "SESSION_BUSY" => some .sessionBusy
  | .string "CAPTURE_UNAVAILABLE" => some .captureUnavailable
  | _ => none

/-- The status is a second tag, next to that of the message. -/
def HandshakeResponse.write : HandshakeResponse → List (String × Json)
  | .accepted protocolVersion sessionId heartbeatIntervalMs missedHeartbeatLimit =>
      [("status", .string "ACCEPTED"), ("protocol_version", .string protocolVersion),
        ("session_id", .string sessionId),
        ("heartbeat_interval_ms", encodeUInt32 heartbeatIntervalMs),
        ("missed_heartbeat_limit", encodeUInt32 missedHeartbeatLimit)]
  | .rejected protocolVersion reason =>
      [("status", .string "REJECTED"), ("protocol_version", .string protocolVersion),
        ("reason", reason.encode)]

def HandshakeResponse.read (members : List (String × Json)) : Option HandshakeResponse := do
  let status ← requiredField "status" readString members
  if status = "ACCEPTED" then
    let protocolVersion ← requiredField "protocol_version" readString members
    let sessionId ← requiredField "session_id" readString members
    let heartbeatIntervalMs ← requiredField "heartbeat_interval_ms" decodeUInt32 members
    let missedHeartbeatLimit ← requiredField "missed_heartbeat_limit" decodeUInt32 members
    return .accepted protocolVersion sessionId heartbeatIntervalMs missedHeartbeatLimit
  else if status = "REJECTED" then
    let protocolVersion ← requiredField "protocol_version" readString members
    let reason ← requiredField "reason" HandshakeRejectionReason.decode members
    return .rejected protocolVersion reason
  else none

def SessionRevocationReason.encode : SessionRevocationReason → Json
  | .heartbeatTimeout => .string "HEARTBEAT_TIMEOUT"
  | .queueOverflow => .string "QUEUE_OVERFLOW"
  | .explicitRevocation => .string "EXPLICIT_REVOCATION"
  | .focusLost => .string "FOCUS_LOST"
  | .escapeHatch => .string "ESCAPE_HATCH"

def SessionRevocationReason.decode : Json → Option SessionRevocationReason
  | .string "HEARTBEAT_TIMEOUT" => some .heartbeatTimeout
  | .string "QUEUE_OVERFLOW" => some .queueOverflow
  | .string "EXPLICIT_REVOCATION" => some .explicitRevocation
  | .string "FOCUS_LOST" => some .focusLost
  | .string "ESCAPE_HATCH" => some .escapeHatch
  | _ => none

def SessionRevoked.write (revoked : SessionRevoked) : List (String × Json) :=
  [("protocol_version", .string revoked.protocolVersion),
    ("session_id", .string revoked.sessionId), ("reason", revoked.reason.encode)]

def SessionRevoked.read (members : List (String × Json)) : Option SessionRevoked := do
  let protocolVersion ← requiredField "protocol_version" readString members
  let sessionId ← requiredField "session_id" readString members
  let reason ← requiredField "reason" SessionRevocationReason.decode members
  return { protocolVersion, sessionId, reason }

def ServerMessage.encode : ServerMessage → Json
  | .hello greeting => .object (("type", .string "hello") :: greeting.write)
  | .switchEvent event => .object (("type", .string "switch_event") :: event.write)
  | .handshakeResponse response =>
      .object (("type", .string "handshake_response") :: response.write)
  | .sessionRevoked revoked => .object (("type", .string "session_revoked") :: revoked.write)

def ServerMessage.read (members : List (String × Json)) : Option ServerMessage := do
  let type ← requiredField "type" readString members
  if type = "hello" then (Hello.read members).map .hello
  else if type = "switch_event" then (SwitchEvent.read members).map .switchEvent
  else if type = "handshake_response" then
    (HandshakeResponse.read members).map .handshakeResponse
  else if type = "session_revoked" then (SessionRevoked.read members).map .sessionRevoked
  else none

def ServerMessage.decode : Json → Option ServerMessage := readObject ServerMessage.read

def ClientMessage.encode : ClientMessage → Json
  | .handshake request => .object (("type", .string "handshake") :: request.write)
  | .heartbeat sessionId =>
      .object [("type", .string "heartbeat"), ("session_id", .string sessionId)]

def ClientMessage.read (members : List (String × Json)) : Option ClientMessage := do
  let type ← requiredField "type" readString members
  if type = "handshake" then (Handshake.read members).map .handshake
  else if type = "heartbeat" then
    (requiredField "session_id" readString members).map .heartbeat
  else none

def ClientMessage.decode : Json → Option ClientMessage := readObject ClientMessage.read

/-- A confidence that has a JSON form, or none. -/
def FiniteOrAbsent (confidence : Option F32) : Prop :=
  ∀ value, confidence = some value → value.isFinite = true

/-- The messages that the format can carry: their counters are 64 bits wide,
as the fields of the source are, and their confidences are finite. -/
def ServerMessage.Transportable : ServerMessage → Prop
  | .hello greeting => ∀ snapshot ∈ greeting.switches, FiniteOrAbsent snapshot.confidence
  | .switchEvent event => event.sequence < 2 ^ 64 ∧ event.monotonicUs < 2 ^ 64 ∧
      FiniteOrAbsent event.confidence
  | .handshakeResponse _ => True
  | .sessionRevoked _ => True

theorem Action.decode_encode (action : Action) : decode action.encode = some action := by
  cases action <;> rfl

theorem SwitchState.decode_encode (state : SwitchState) :
    decode state.encode = some state := by
  cases state <;> rfl

theorem HandshakeRejectionReason.decode_encode (reason : HandshakeRejectionReason) :
    decode reason.encode = some reason := by
  cases reason <;> rfl

theorem SessionRevocationReason.decode_encode (reason : SessionRevocationReason) :
    decode reason.encode = some reason := by
  cases reason <;> rfl

@[simp] theorem decodeUInt32_encodeUInt32 (value : UInt32) :
    decodeUInt32 (encodeUInt32 value) = some value := by
  have hlt : value.toNat < 2 ^ 32 := value.toNat_lt
  rw [decodeUInt32, encodeUInt32, readUnsigned_integer hlt]
  simp

attribute [local simp] requiredField optionalField lookup readString

/-- A finite number is read as it was written, and it is not the null that
stands for no value. -/
theorem confidence_read {confidence : Option F32} (h : FiniteOrAbsent confidence) :
    optionalField "confidence" F32.decode (skipNone "confidence" F32.encode confidence) =
      some confidence := by
  cases confidence with
  | none => simp [skipNone]
  | some value =>
      have hfinite := h value rfl
      cases value with
      | finite number => simp [skipNone, F32.encode, F32.decode, readRational]
      | nan => cases hfinite
      | infinity _ => cases hfinite

/-- Nothing but the confidence is in the members that may be left out. -/
theorem lookup_skipNone {name : String} (hname : name ≠ "confidence")
    (confidence : Option F32) :
    lookup name (skipNone "confidence" F32.encode confidence) = .missing := by
  have hother : ¬"confidence" = name := Ne.symm hname
  cases confidence <;> simp [skipNone, hother]

theorem SwitchSnapshot.read_encode (snapshot : SwitchSnapshot)
    (h : FiniteOrAbsent snapshot.confidence) :
    readObject SwitchSnapshot.read snapshot.encode = some snapshot := by
  have hconfidence := confidence_read h
  simp only [optionalField] at hconfidence
  simp [SwitchSnapshot.encode, SwitchSnapshot.read, readObject, lookup_skipNone,
    SwitchState.decode_encode, hconfidence]

theorem Hello.read_write (greeting : Hello)
    (h : ∀ snapshot ∈ greeting.switches, FiniteOrAbsent snapshot.confidence) :
    Hello.read (("type", .string "hello") :: greeting.write) = some greeting := by
  have hswitches : readArray (readObject SwitchSnapshot.read)
      (.array (greeting.switches.map SwitchSnapshot.encode)) = some greeting.switches :=
    readArray_map fun snapshot hsnapshot =>
      SwitchSnapshot.read_encode snapshot (h snapshot hsnapshot)
  simp [Hello.write, Hello.read, hswitches]

theorem SwitchEvent.read_write (event : SwitchEvent) (hsequence : event.sequence < 2 ^ 64)
    (hmonotonic : event.monotonicUs < 2 ^ 64) (h : FiniteOrAbsent event.confidence) :
    SwitchEvent.read (("type", .string "switch_event") :: event.write) = some event := by
  have hconfidence := confidence_read h
  simp only [optionalField] at hconfidence
  simp [SwitchEvent.write, SwitchEvent.read, lookup_skipNone, Action.decode_encode,
    readUnsigned_integer hsequence, readUnsigned_integer hmonotonic, hconfidence]

theorem HandshakeResponse.read_write (response : HandshakeResponse) :
    HandshakeResponse.read (("type", .string "handshake_response") :: response.write) =
      some response := by
  cases response with
  | accepted version sessionId interval limit =>
      simp [HandshakeResponse.write, HandshakeResponse.read]
  | rejected version reason =>
      simp [HandshakeResponse.write, HandshakeResponse.read,
        HandshakeRejectionReason.decode_encode]

theorem SessionRevoked.read_write (revoked : SessionRevoked) :
    SessionRevoked.read (("type", .string "session_revoked") :: revoked.write) =
      some revoked := by
  simp [SessionRevoked.write, SessionRevoked.read, SessionRevocationReason.decode_encode]

/-- No message has a field of its own under the name of the tag. -/
theorem tag_unused :
    (∀ greeting : Hello, lookup "type" greeting.write = .missing) ∧
      (∀ event : SwitchEvent, lookup "type" event.write = .missing) ∧
      (∀ response : HandshakeResponse, lookup "type" response.write = .missing) ∧
      (∀ revoked : SessionRevoked, lookup "type" revoked.write = .missing) ∧
      ∀ request : Handshake, lookup "type" request.write = .missing := by
  refine ⟨?_, ?_, ?_, ?_, ?_⟩
  · intro greeting
    simp [Hello.write]
  · intro event
    simp [SwitchEvent.write, lookup_skipNone]
  · intro response
    cases response <;> simp [HandshakeResponse.write]
  · intro revoked
    simp [SessionRevoked.write]
  · intro request
    simp [Handshake.write]

theorem ServerMessage.decode_encode (message : ServerMessage) (h : message.Transportable) :
    decode message.encode = some message := by
  obtain ⟨hhello, hevent, hresponse, hrevoked, -⟩ := tag_unused
  cases message with
  | hello greeting =>
      have hread := Hello.read_write greeting h
      simp [decode, encode, readObject, ServerMessage.read, hhello, hread]
  | switchEvent event =>
      obtain ⟨hsequence, hmonotonic, hconfidence⟩ := h
      have hread := SwitchEvent.read_write event hsequence hmonotonic hconfidence
      simp [decode, encode, readObject, ServerMessage.read, hevent, hread]
  | handshakeResponse response =>
      have hread := HandshakeResponse.read_write response
      simp [decode, encode, readObject, ServerMessage.read, hresponse, hread]
  | sessionRevoked revoked =>
      have hread := SessionRevoked.read_write revoked
      simp [decode, encode, readObject, ServerMessage.read, hrevoked, hread]

/-- A mode that came from a string goes back to that string. -/
theorem RequestedMode.ofString_toString (value : String) :
    ofString (ofString value).toString = ofString value := by
  by_cases h : value = "exclusive_foreground" <;> simp [ofString, RequestedMode.toString, h]

theorem RequestedMode.ofString_eq_exclusiveForeground (value : String) :
    ofString value = .exclusiveForeground ↔ value = "exclusive_foreground" := by
  by_cases h : value = "exclusive_foreground" <;> simp [ofString, h]

/-- The mode of a handshake that was read is the one its string names. -/
theorem Handshake.read_some {members : List (String × Json)} {request : Handshake}
    (h : Handshake.read members = some request) :
    ∃ mode, lookup "requested_mode" members = .found (.string mode) ∧
      request.requestedMode = .ofString mode := by
  simp only [Handshake.read, bind, Option.bind_eq_some_iff] at h
  obtain ⟨version, -, appId, -, mode, hmode, pid, -, hrequest⟩ := h
  obtain ⟨value, hfound, hvalue⟩ := requiredField_some hmode
  cases hrequest
  exact ⟨mode, by rw [hfound, readString_some hvalue], rfl⟩

theorem Handshake.read_write {request : Handshake}
    (h : .ofString request.requestedMode.toString = request.requestedMode) :
    Handshake.read (("type", .string "handshake") :: request.write) = some request := by
  have hpid : optionalField "pid" decodeUInt32 [("pid", nullable encodeUInt32 request.pid)] =
      some request.pid := by
    cases request.pid with
    | none => simp [nullable]
    | some value =>
        have hvalue := decodeUInt32_encodeUInt32 value
        simp only [encodeUInt32] at hvalue
        simp [nullable, encodeUInt32, hvalue]
  simp only [optionalField, lookup, if_true] at hpid
  simp [Handshake.write, Handshake.read, h, hpid]

/-- The messages of a client that can be sent: a mode is named by its string. -/
def ClientMessage.Canonical : ClientMessage → Prop
  | .handshake request => .ofString request.requestedMode.toString = request.requestedMode
  | .heartbeat _ => True

theorem ClientMessage.decode_encode (message : ClientMessage) (h : message.Canonical) :
    decode message.encode = some message := by
  obtain ⟨-, -, -, -, hrequest⟩ := tag_unused
  cases message with
  | handshake request =>
      have hread := Handshake.read_write h
      simp [decode, encode, readObject, ClientMessage.read, hrequest, hread]
  | heartbeat sessionId => simp [decode, encode, readObject, ClientMessage.read]

/-- What a value that is accepted from a client is: an object, and in a
handshake the requested mode is one of its strings. -/
theorem ClientMessage.decode_some {json : Json} {message : ClientMessage}
    (h : decode json = some message) :
    ∃ members, json = .object members ∧
      ∀ request, message = .handshake request →
        ∃ mode, lookup "requested_mode" members = .found (.string mode) ∧
          request.requestedMode = .ofString mode := by
  cases json with
  | object members =>
      refine ⟨members, rfl, ?_⟩
      rintro request rfl
      simp only [decode, readObject, ClientMessage.read, bind, Option.bind_eq_some_iff] at h
      obtain ⟨type, -, hbody⟩ := h
      split at hbody
      · obtain ⟨read, hread, hrequest⟩ := Option.map_eq_some_iff.mp hbody
        cases hrequest
        exact Handshake.read_some hread
      · split at hbody
        · obtain ⟨sessionId, -, hheartbeat⟩ := Option.map_eq_some_iff.mp hbody
          cases hheartbeat
        · cases hbody
  | _ => cases h

/-- What is accepted from a client can be sent again. -/
theorem ClientMessage.canonical_of_decode {json : Json} {message : ClientMessage}
    (h : decode json = some message) : message.Canonical := by
  obtain ⟨members, -, hmode⟩ := decode_some h
  cases message with
  | handshake request =>
      obtain ⟨mode, -, hrequest⟩ := hmode request rfl
      simp only [Canonical, hrequest, RequestedMode.ofString_toString]
  | heartbeat sessionId => trivial

/-- The messages of the broker survive the format, so that different messages
look different and an absent confidence is not a zero. The messages that clients
can send are accepted as what they are, those that are accepted survive the
format too, and only the documented string asks for the exclusive mode. -/
theorem wire_round_trip :
    (∀ message : ServerMessage, message.Transportable →
      ServerMessage.decode message.encode = some message) ∧
    (∀ first second : ServerMessage, first.Transportable → second.Transportable →
      first.encode = second.encode → first = second) ∧
    (∀ event : SwitchEvent, ∀ value, event.sequence < 2 ^ 64 → event.monotonicUs < 2 ^ 64 →
      ServerMessage.decode (ServerMessage.switchEvent { event with confidence := none }).encode ≠
        some (.switchEvent { event with confidence := some value })) ∧
    (∀ message : ClientMessage, message.Canonical →
      ClientMessage.decode message.encode = some message) ∧
    (∀ json message, ClientMessage.decode json = some message →
      ClientMessage.decode message.encode = some message ∧
      ∀ request, message = .handshake request →
        (request.requestedMode = .exclusiveForeground ↔
          ∃ members, json = .object members ∧
            lookup "requested_mode" members = .found (.string "exclusive_foreground"))) := by
  have htrip := ServerMessage.decode_encode
  refine ⟨htrip, ?_, ?_, ClientMessage.decode_encode, ?_⟩
  · intro first second hfirst hsecond hencode
    have hread := htrip first hfirst
    rw [hencode, htrip second hsecond] at hread
    exact (Option.some.inj hread).symm
  · intro event value hsequence hmonotonic h
    have htransportable :
        (ServerMessage.switchEvent { event with confidence := none }).Transportable :=
      ⟨hsequence, hmonotonic, by rintro other ⟨⟩⟩
    rw [htrip _ htransportable] at h
    cases h
  · intro json message h
    refine ⟨ClientMessage.decode_encode message (ClientMessage.canonical_of_decode h), ?_⟩
    intro request hrequest
    obtain ⟨members, hjson, hmode⟩ := ClientMessage.decode_some h
    obtain ⟨mode, hfound, hrequested⟩ := hmode request hrequest
    rw [hrequested, RequestedMode.ofString_eq_exclusiveForeground]
    constructor
    · rintro rfl
      exact ⟨members, hjson, hfound⟩
    · rintro ⟨others, hothers, hexclusive⟩
      cases hjson.symm.trans hothers
      cases hfound.symm.trans hexclusive
      rfl

end Usahp
