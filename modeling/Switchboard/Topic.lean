/-!
Topics: what can be published to. Three serve a role each; every conversation has a room.
-/

namespace Switchboard

abbrev AccountId := UInt64

abbrev ConversationId := UInt64

inductive Topic
  | adminNotifications
  | adminConversations
  | technicianNotifications
  | room (id : ConversationId)
  deriving DecidableEq, Repr

namespace Topic

def label : Topic → String
  | adminNotifications => "admin/notifications"
  | adminConversations => "admin/conversations"
  | technicianNotifications => "technician/notifications"
  | room id => s!"chat/{id.toNat}"

def room? : Topic → Option ConversationId
  | room id => some id
  | _ => none

def readId? (text : List Char) : Option ConversationId :=
  if text.isEmpty ∨ ¬ text.all Char.isDigit then none
  else
    let n := text.foldl (fun n c => n * 10 + (c.toNat - 48)) 0
    if n < Nat.pow 2 64 then some n.toUInt64 else none

def ofLabel? (text : String) : Option Topic :=
  match text.toList with
  | 'c' :: 'h' :: 'a' :: 't' :: '/' :: id => (readId? id).map room
  | _ => [adminNotifications, adminConversations, technicianNotifications].find? (·.label == text)

end Topic

end Switchboard
