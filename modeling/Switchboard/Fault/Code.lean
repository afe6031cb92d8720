import Switchboard.Text.Hex

/-!
Numeric error codes, also sent to clients by name. The high byte of a code is its category.
-/

namespace Switchboard

inductive Category
  | protocol
  | auth
  | delivery
  | store
  | system
  deriving DecidableEq, Repr

namespace Category

def name : Category → String
  | protocol => "Protocol"
  | auth => "Auth"
  | delivery => "Delivery"
  | store => "Store"
  | system => "System"

def number : Category → Nat
  | protocol => 0
  | auth => 1
  | delivery => 2
  | store => 3
  | system => 4

end Category

inductive Code
  | malformedFrame
  | unknownMessageType
  | missingField
  | invalidCredential
  | roleMismatch
  | notInRoom
  | sendFailed
  | connectionClosed
  | queueFull
  | dispatcherClosed
  | storeUnavailable
  | conversationNotFound
  | conversationInactive
  | internalError
  | configInvalid
  deriving DecidableEq, Repr

namespace Code

def all : List Code :=
  [malformedFrame, unknownMessageType, missingField, invalidCredential, roleMismatch, notInRoom,
    sendFailed, connectionClosed, queueFull, dispatcherClosed, storeUnavailable,
    conversationNotFound, conversationInactive, internalError, configInvalid]

def category : Code → Category
  | malformedFrame | unknownMessageType | missingField => .protocol
  | invalidCredential | roleMismatch | notInRoom => .auth
  | sendFailed | connectionClosed | queueFull | dispatcherClosed => .delivery
  | storeUnavailable | conversationNotFound | conversationInactive => .store
  | internalError | configInvalid => .system

def place : Code → Nat
  | malformedFrame | invalidCredential | sendFailed | storeUnavailable | internalError => 1
  | unknownMessageType | roleMismatch | connectionClosed | conversationNotFound | configInvalid => 2
  | missingField | notInRoom | queueFull | conversationInactive => 3
  | dispatcherClosed => 4

def number (code : Code) : Nat := code.category.number * 0x100 + code.place

def ofNumber? (n : Nat) : Option Code := all.find? (·.number == n)

def name : Code → String
  | malformedFrame => "MALFORMED_FRAME"
  | unknownMessageType => "UNKNOWN_MESSAGE_TYPE"
  | missingField => "MISSING_FIELD"
  | invalidCredential => "INVALID_CREDENTIAL"
  | roleMismatch => "ROLE_MISMATCH"
  | notInRoom => "NOT_IN_ROOM"
  | sendFailed => "SEND_FAILED"
  | connectionClosed => "CONNECTION_CLOSED"
  | queueFull => "QUEUE_FULL"
  | dispatcherClosed => "DISPATCHER_CLOSED"
  | storeUnavailable => "STORE_UNAVAILABLE"
  | conversationNotFound => "CONVERSATION_NOT_FOUND"
  | conversationInactive => "CONVERSATION_INACTIVE"
  | internalError => "INTERNAL_SERVER_ERROR"
  | configInvalid => "CONFIG_INVALID"

def ofName? (name : String) : Option Code := all.find? (·.name == name)

def display (code : Code) : String :=
  s!"{code.name} (0x{String.ofList (Text.paddedHex true 4 code.number)})"

theorem ofNumber?_number (code : Code) : ofNumber? code.number = some code := by
  cases code <;> rfl

end Code

end Switchboard
