import Switchboard.Event
import Switchboard.Table

/-!
The store keeps notifications, conversations and their messages. Parts of it can be down.
-/

namespace Switchboard

structure StoredMessage where
  sender : AccountId
  content : String
  deriving DecidableEq, Repr

structure Conversation where
  active : Bool
  messages : List StoredMessage
  deriving DecidableEq, Repr

structure Outage where
  notifications : Bool
  messages : Bool
  conversations : Bool
  deriving DecidableEq, Repr

def Outage.none : Outage := ⟨false, false, false⟩

/-- Notifications with their audiences, and conversations by number; `last` is the number given
last, `asked` are the notifications that it was to keep, whether it could or not. -/
structure Store where
  last : ConversationId
  conversations : Table ConversationId Conversation
  notifications : List (Audience × Notification)
  outage : Outage
  asked : List (Audience × Notification)

namespace Store

def empty : Store := ⟨0, .empty, [], .none, []⟩

/-! ### Calls, each with its answer and the store after it -/

def note (s : Store) (audience : Audience) (n : Notification) : Except Refusal Unit × Store :=
  let s := { s with asked := s.asked ++ [(audience, n)] }
  if s.outage.notifications then (.error .storeDown, s)
  else (.ok (), { s with notifications := s.notifications ++ [(audience, n)] })

def openNext (s : Store) : Except Refusal ConversationId × Store :=
  if s.outage.conversations then (.error .storeDown, s)
  else
    let id := s.last + 1
    (.ok id, { s with last := id, conversations := s.conversations.insert id ⟨true, []⟩ })

def write (s : Store) (id : ConversationId) (sender : AccountId) (content : String) :
    Except Refusal Unit × Store :=
  if s.outage.messages then (.error .storeDown, s)
  else
    match s.conversations.find? id with
    | none => (.error (.conversationMissing id), s)
    | some c =>
      if c.active then
        let c := { c with messages := c.messages ++ [⟨sender, content⟩] }
        (.ok (), { s with conversations := s.conversations.insert id c })
      else (.error (.conversationInactive id), s)

def shut (s : Store) (id : ConversationId) : Except Refusal Unit × Store :=
  match s.conversations.find? id with
  | none => (.error (.conversationMissing id), s)
  | some c =>
    (.ok (), { s with conversations := s.conversations.insert id { c with active := false } })

/-! ### Calls that are accepted -/

def accepted {α : Type} : Except Refusal α × Store → Except Refusal (α × Store)
  | (.ok a, s) => .ok (a, s)
  | (.error e, _) => .error e

def createConversation (s : Store) : Except Refusal (ConversationId × Store) := accepted s.openNext

def createMessage (s : Store) (id : ConversationId) (sender : AccountId) (content : String) :
    Except Refusal Store := (accepted (s.write id sender content)).map Prod.snd

def closeConversation (s : Store) (id : ConversationId) : Except Refusal Store :=
  (accepted (s.shut id)).map Prod.snd

/-! ### Reading -/

def isActive? (s : Store) (id : ConversationId) : Option Bool :=
  (s.conversations.find? id).map (·.active)

def messages (s : Store) (id : ConversationId) : List StoredMessage :=
  match s.conversations.find? id with
  | some c => c.messages
  | none => []

def notificationsFor (s : Store) (audience : Audience) : List Notification :=
  (s.notifications.filter (·.1 == audience)).map Prod.snd

end Store

end Switchboard
