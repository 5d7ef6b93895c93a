import Mathlib.Data.Option.Basic

/-! Delivery states, observers and the closed error taxonomy of `core/src/delivery.rs`. -/

namespace Oac

inductive DeliveryState where
  | acceptedByAdapter
  | handedToHarness
  | unknown
  | rejected
  | expired
  | duplicate
  | unreachable
  | failed
  deriving DecidableEq

inductive Observer where
  | sender
  | receiver
  deriving DecidableEq

namespace DeliveryState

def all : List DeliveryState :=
  [acceptedByAdapter, handedToHarness, unknown, rejected, expired, duplicate, unreachable, failed]

def asStr : DeliveryState → String
  | acceptedByAdapter => "accepted-by-adapter"
  | handedToHarness => "handed-to-harness"
  | unknown => "unknown"
  | rejected => "rejected"
  | expired => "expired"
  | duplicate => "duplicate"
  | unreachable => "unreachable"
  | failed => "failed"

def parse (s : String) : Option DeliveryState := all.find? (·.asStr == s)

theorem parse_asStr (state : DeliveryState) : parse state.asStr = some state := by
  cases state <;> decide

end DeliveryState

namespace Observer

def asStr : Observer → String
  | sender => "sender"
  | receiver => "receiver"

def parse (s : String) : Option Observer :=
  if s = "sender" then some sender else if s = "receiver" then some receiver else none

theorem parse_asStr (observer : Observer) : parse observer.asStr = some observer := by
  cases observer <;> decide

end Observer

def DeliveryState.allowedFor (state : DeliveryState) : Observer → Bool
  | .sender => state ∈ [acceptedByAdapter, unknown, unreachable, failed]
  | .receiver => state ≠ acceptedByAdapter

def DeliveryState.carriesError (state : DeliveryState) : Bool :=
  state ∈ [rejected, expired, duplicate, unreachable, failed]

/-- Where a code may appear. -/
inductive Scope where
  | sender
  | receiver
  | request
  deriving DecidableEq

inductive ErrorCode where
  | envelopeTooLarge
  | malformedEnvelope
  | unsupportedVersion
  | unsupportedContentType
  | expired
  | unknownKey
  | signatureInvalid
  | outsideReplayWindow
  | duplicate
  | unauthorized
  | unknownDestination
  | destinationUnavailable
  | unsupportedCapability
  | handoffFailed
  | transportFailure
  | internalError
  | invalidRequest
  deriving DecidableEq

namespace ErrorCode

/-- The wire name, the delivery state and the scope of each code of Table 8.3. -/
def row : ErrorCode → String × Option DeliveryState × List Scope
  | envelopeTooLarge => ("envelope-too-large", some .rejected, [.receiver, .request])
  | malformedEnvelope => ("malformed-envelope", some .rejected, [.receiver])
  | unsupportedVersion => ("unsupported-version", some .rejected, [.receiver, .request])
  | unsupportedContentType => ("unsupported-content-type", some .rejected, [.receiver, .request])
  | expired => ("expired", some .expired, [.receiver])
  | unknownKey => ("unknown-key", some .rejected, [.receiver])
  | signatureInvalid => ("signature-invalid", some .rejected, [.receiver])
  | outsideReplayWindow => ("outside-replay-window", some .expired, [.receiver])
  | duplicate => ("duplicate", some .duplicate, [.receiver])
  | unauthorized => ("unauthorized", some .rejected, [.receiver, .request])
  | unknownDestination => ("unknown-destination", some .unreachable, [.sender, .receiver, .request])
  | destinationUnavailable => ("destination-unavailable", some .unreachable, [.sender, .receiver, .request])
  | unsupportedCapability => ("unsupported-capability", some .rejected, [.receiver, .request])
  | handoffFailed => ("handoff-failed", some .failed, [.receiver])
  | transportFailure => ("transport-failure", some .failed, [.sender])
  | internalError => ("internal-error", some .failed, [.sender, .receiver, .request])
  | invalidRequest => ("invalid-request", none, [.request])

def all : List ErrorCode :=
  [envelopeTooLarge, malformedEnvelope, unsupportedVersion, unsupportedContentType, expired, unknownKey,
    signatureInvalid, outsideReplayWindow, duplicate, unauthorized, unknownDestination, destinationUnavailable,
    unsupportedCapability, handoffFailed, transportFailure, internalError, invalidRequest]

def asStr (code : ErrorCode) : String := code.row.1

def parse (s : String) : Option ErrorCode := all.find? (·.asStr == s)

theorem parse_asStr (code : ErrorCode) : parse code.asStr = some code := by
  cases code <;> decide

def state (code : ErrorCode) : Option DeliveryState := code.row.2.1

def scope (code : ErrorCode) : List Scope := code.row.2.2

def fitsReceipt (code : ErrorCode) (state : DeliveryState) (observer : Observer) : Bool :=
  let scope : Scope := match observer with
    | .sender => .sender
    | .receiver => .receiver
  code.state == some state && code.scope.contains scope

end ErrorCode

end Oac
