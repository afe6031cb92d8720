import Switchboard.Entry
import Switchboard.Fault.Basic
import Switchboard.Wire.Frame

/-!
Events for the dispatcher: notifications, to administrators or technicians, and news about
conversations, to administrators.
-/

namespace Switchboard

open Shape

structure Notification where
  account : AccountId
  title : String
  body : String
  data : Json

namespace Notification

def toJson (n : Notification) : Json :=
  .object [("account_id", .number (.int n.account.toNat)), ("title", .string n.title),
    ("body", .string n.body), ("data", n.data)]

structure Draft where
  account? : Option AccountId
  title? : Option String
  body? : Option String
  data : Json

def enter (d : Draft) (name : String) (value : Json) : Except Mismatch Draft :=
  if name = "account_id" then do
    return { d with account? := some (← Json.format.word "u64" value) }
  else if name = "title" then do return { d with title? := some (← Json.format.string value) }
  else if name = "body" then do return { d with body? := some (← Json.format.string value) }
  else if name = "data" then return { d with data := value }
  else return d

def finish (d : Draft) : Except String Notification := do
  return ⟨← required "account_id" d.account?, ← required "title" d.title?,
    ← required "body" d.body?, d.data⟩

def record : Record Json Draft Notification where
  name := "Notification"
  fields := ["account_id", "title", "body", "data"]
  blank := ⟨none, none, none, .null⟩
  enter := enter
  finish := finish

def parse (text : String) : Except Unreadable Notification := Json.readAs record text

end Notification

structure ConversationEvent where
  conversation : ConversationId
  account : AccountId
  content : String
  deriving DecidableEq, Repr

namespace ConversationEvent

def opened (conversation : ConversationId) (account : AccountId) : ConversationEvent :=
  ⟨conversation, account, s!"account {account.toNat} opened conversation {conversation.toNat}"⟩

def toJson (e : ConversationEvent) : Json :=
  .object [("conversation_id", .number (.int e.conversation.toNat)),
    ("account_id", .number (.int e.account.toNat)), ("content", .string e.content)]

structure Draft where
  conversation? : Option ConversationId
  account? : Option AccountId
  content? : Option String

def enter (d : Draft) (name : String) (value : Json) : Except Mismatch Draft :=
  if name = "conversation_id" then do
    return { d with conversation? := some (← Json.format.word "u64" value) }
  else if name = "account_id" then do
    return { d with account? := some (← Json.format.word "u64" value) }
  else if name = "content" then do return { d with content? := some (← Json.format.string value) }
  else return d

def finish (d : Draft) : Except String ConversationEvent := do
  return ⟨← required "conversation_id" d.conversation?, ← required "account_id" d.account?,
    ← required "content" d.content?⟩

def record : Record Json Draft ConversationEvent where
  name := "ConversationEvent"
  fields := ["conversation_id", "account_id", "content"]
  blank := ⟨none, none, none⟩
  enter := enter
  finish := finish

def parse (text : String) : Except Unreadable ConversationEvent := Json.readAs record text

end ConversationEvent

inductive Audience
  | admin
  | technician
  deriving DecidableEq, Repr

def Audience.name : Audience → String
  | admin => "admin"
  | technician => "technician"

inductive Event
  | notification (audience : Audience) (content : Notification)
  | conversation (content : ConversationEvent)

namespace Event

def topic : Event → Topic
  | notification .admin _ => .adminNotifications
  | notification .technician _ => .technicianNotifications
  | conversation _ => .adminConversations

def queue : Event → QueueName
  | notification .admin _ => .admin
  | notification .technician _ => .technician
  | conversation _ => .conversation

def frame : Event → Except Refusal Frame
  | notification _ content => Frame.ofJson content.toJson
  | conversation content => Frame.ofJson content.toJson

end Event

end Switchboard
