import Mathlib.Data.Rat.Defs

/-!
The message types of the broker, with the fields, constants and checks of the
protocol crate. An `f32` is a special value or a finite number; the finite
ones are rationals here, a superset of the representable ones, because the
daemon only compares confidences with bounds and passes them on.
-/

namespace Usahp

def protocolVersion : String := "0.3.0"

/-- The values of an `f32`, the two zeros identified. -/
inductive F32 where
  | nan
  | infinity (negative : Bool)
  | finite (value : Rat)
  deriving DecidableEq

def F32.isFinite : F32 → Bool
  | .finite _ => true
  | _ => false

/-- Membership in `0.0..=100.0`; every comparison with a NaN is false. -/
def F32.inConfidenceRange : F32 → Bool
  | .finite value => decide (0 ≤ value) && decide (value ≤ 100)
  | _ => false

def validateConfidence (value : F32) : Option F32 :=
  if value.isFinite && value.inConfidenceRange then some value else none

inductive Action where
  | pressed
  | released
  deriving DecidableEq

inductive SwitchState where
  | pressed
  | released
  deriving DecidableEq

structure SwitchSnapshot where
  switchId : String
  state : SwitchState
  confidence : Option F32
  deriving DecidableEq

structure Hello where
  protocolVersion : String
  switches : List SwitchSnapshot
  deriving DecidableEq

/-- `sequence` is a `u64` in the source and a natural number here. The two agree
while a run has fewer than 2^64 events, and what is proved about the order of the
numbers speaks of the source in such runs only. -/
structure SwitchEvent where
  protocolVersion : String
  sequence : Nat
  monotonicUs : Nat
  switchId : String
  action : Action
  confidence : Option F32
  deriving DecidableEq

inductive RequestedMode where
  | exclusiveForeground
  | unsupported (value : String)
  deriving DecidableEq

structure Handshake where
  protocolVersion : String
  appId : String
  requestedMode : RequestedMode
  pid : Option UInt32
  deriving DecidableEq

inductive HandshakeRejectionReason where
  | protocolMismatch
  | invalidAppId
  | unsupportedMode
  | sessionBusy
  | captureUnavailable
  deriving DecidableEq

inductive HandshakeResponse where
  | accepted (protocolVersion sessionId : String)
      (heartbeatIntervalMs missedHeartbeatLimit : UInt32)
  | rejected (protocolVersion : String) (reason : HandshakeRejectionReason)
  deriving DecidableEq

inductive SessionRevocationReason where
  | heartbeatTimeout
  | queueOverflow
  | explicitRevocation
  | focusLost
  | escapeHatch
  deriving DecidableEq

structure SessionRevoked where
  protocolVersion : String
  sessionId : String
  reason : SessionRevocationReason
  deriving DecidableEq

inductive ServerMessage where
  | hello (hello : Hello)
  | switchEvent (event : SwitchEvent)
  | handshakeResponse (response : HandshakeResponse)
  | sessionRevoked (revoked : SessionRevoked)
  deriving DecidableEq

inductive ClientMessage where
  | handshake (handshake : Handshake)
  | heartbeat (sessionId : String)
  deriving DecidableEq

def isAsciiAlphanumeric (byte : UInt8) : Bool :=
  (48 ≤ byte && byte ≤ 57) || (65 ≤ byte && byte ≤ 90) || (97 ≤ byte && byte ≤ 122)

/-- The length is in bytes, as `str::len` counts, and every byte is checked. -/
def validAppId (appId : String) : Bool :=
  let bytes := appId.toUTF8.data.toList
  (1 ≤ bytes.length && bytes.length ≤ 128) &&
    bytes.all fun byte =>
      isAsciiAlphanumeric byte || byte == 46 || byte == 95 || byte == 45

/-- The level a switch is at after an action. -/
def Action.state : Action → SwitchState
  | .pressed => .pressed
  | .released => .released

theorem Action.state_injective : Function.Injective Action.state := by
  intro first second h
  cases first <;> cases second <;> first | rfl | cases h

theorem SwitchState.eq_released_iff (state : SwitchState) :
    state = .released ↔ state ≠ .pressed := by
  cases state <;> simp

example : validAppId "org.example.Switch_1" = true := by decide

example : validAppId "has space" = false := by decide

end Usahp
