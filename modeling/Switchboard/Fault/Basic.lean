import Switchboard.Entry
import Switchboard.Fault.Code
import Switchboard.Json.Typed

/-!
What can go wrong in the hub: refusals of its own, and faults that come from outside. Each has a
code and a message for the client, and either ends the session or does not.
-/

namespace Switchboard

inductive QueueName
  | admin
  | technician
  | conversation
  deriving DecidableEq, Repr

namespace QueueName

def title : QueueName → String
  | admin => "admin notification"
  | technician => "technician notification"
  | conversation => "admin conversation"

end QueueName

inductive Refusal
  | notUtf8
  | lineTooLong
  | typeNotString
  | unknownType (name : String)
  | serverOnly
  | noType
  | noConversation
  | noContent
  | noCredential
  | unknownCredential
  | wrongRole (role : Role) (entry : EntryPoint)
  | adminOnly
  | notInRoom (id : ConversationId)
  | frameTooLarge (bytes : Nat)
  | brokenPipe
  | outboundFull
  | peerClosed
  | connectionClosed
  | writerStopped
  | closedEarly
  | queueFull (queue : QueueName)
  | dispatcherGone
  | storeDown
  | conversationMissing (id : ConversationId)
  | conversationInactive (id : ConversationId)
  | zeroCapacity
  | zeroInterval
  | noConfigFile
  | configNotUtf8
  | badConfig
  | misshapenConfig (sentence : String)
  | unwritableConfig
  deriving DecidableEq, Repr

namespace Refusal

def code : Refusal → Code
  | notUtf8 | lineTooLong | typeNotString => .malformedFrame
  | unknownType _ | serverOnly => .unknownMessageType
  | noType | noConversation | noContent => .missingField
  | noCredential | unknownCredential => .invalidCredential
  | wrongRole _ _ | adminOnly => .roleMismatch
  | notInRoom _ => .notInRoom
  | frameTooLarge _ | brokenPipe | outboundFull => .sendFailed
  | peerClosed | connectionClosed | writerStopped | closedEarly => .connectionClosed
  | queueFull _ => .queueFull
  | dispatcherGone => .dispatcherClosed
  | storeDown => .storeUnavailable
  | conversationMissing _ => .conversationNotFound
  | conversationInactive _ => .conversationInactive
  | zeroCapacity | zeroInterval | noConfigFile | configNotUtf8 | badConfig | misshapenConfig _
  | unwritableConfig => .configInvalid

def message : Refusal → String
  | notUtf8 => "Frame is not valid UTF-8"
  | lineTooLong => "Frame exceeds maximum size"
  | typeNotString => "msg_type must be a string"
  | unknownType name => s!"Unknown message type: {name}"
  | serverOnly => "SYSTEM_USER_JOIN_RESPONSE is sent by the server only"
  | noType => "Frame has no msg_type"
  | noConversation => "TEXTING needs a conversation_id"
  | noContent => "TEXTING needs content"
  | noCredential => "First frame carries no credential"
  | unknownCredential => "Unknown credential"
  | wrongRole role entry => s!"Role {role.title} may not connect to {entry.label}"
  | adminOnly => "ADMIN_JOIN requires the admin role"
  | notInRoom id => s!"Not a member of conversation {id.toNat}"
  | frameTooLarge bytes => s!"Frame of {bytes} bytes exceeds maximum size"
  | brokenPipe => "broken pipe"
  | outboundFull => "Outbound queue is full"
  | peerClosed => "closed"
  | connectionClosed => "Connection is closed"
  | writerStopped => "Writer has stopped"
  | closedEarly => "Closed before sending a credential"
  | queueFull queue => s!"The {queue.title} queue is full"
  | dispatcherGone => "Dispatcher is not running"
  | storeDown => "database is down"
  | conversationMissing id => s!"Conversation {id.toNat} not found"
  | conversationInactive id => s!"Conversation {id.toNat} is inactive"
  | zeroCapacity => "Queue capacities must be greater than zero"
  | zeroInterval => "Timeouts and intervals must be greater than zero"
  | noConfigFile => "Failed to read config file: No such file or directory (os error 2)"
  | configNotUtf8 => "Failed to read config file: stream did not contain valid UTF-8"
  | badConfig => "Failed to parse TOML"
  | misshapenConfig sentence => s!"Failed to parse TOML: {sentence}"
  | unwritableConfig => "Failed to serialize to TOML"

end Refusal

inductive Fault
  | refused (why : Refusal)
  | reported (code : Code) (message : String)
  | io (message : String)
  | settings (message : String)
  | unreadable (why : Unreadable)
  | unknown (message : String)
  deriving DecidableEq, Repr

namespace Fault

def code? : Fault → Option Code
  | refused why => some why.code
  | reported code _ => some code
  | settings _ => some .configInvalid
  | unreadable _ => some .malformedFrame
  | io _ | unknown _ => none

def message : Fault → String
  | refused why => why.message
  | reported _ message => message
  | io message => s!"I/O error: {message}"
  | settings message => s!"Config error: {message}"
  | unreadable why => s!"Serialization error: {why.message}"
  | unknown message => s!"Unknown error: {message}"

def display : Fault → String
  | refused why => s!"{why.code.display}: {why.message}"
  | reported code message => s!"{code.display}: {message}"
  | fault => fault.message

def wireCode (fault : Fault) : Code := fault.code?.getD .internalError

/-- Broken input and refused credentials end a session, as do failed reads; a message to a room that
the sender is not in does not. -/
def isFatal (fault : Fault) : Bool :=
  match fault with
  | io _ => true
  | _ =>
    match fault.code? with
    | some code => code != .notInRoom && (code.category == .protocol || code.category == .auth)
    | none => false

theorem isFatal_of_code {fault : Fault} {code : Code} (coded : fault.code? = some code) :
    fault.isFatal =
      (code != .notInRoom && (code.category == .protocol || code.category == .auth)) := by
  cases fault <;> cases coded <;> rfl

end Fault

end Switchboard
