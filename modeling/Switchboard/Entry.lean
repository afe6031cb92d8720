import Switchboard.Topic

/-!
Who may come in where: roles, identities and the four entry points.
-/

namespace Switchboard

inductive Role
  | admin
  | technician
  | user
  deriving DecidableEq, Repr

namespace Role

def all : List Role := [admin, technician, user]

def name : Role → String
  | admin => "admin"
  | technician => "technician"
  | user => "user"

def title : Role → String
  | admin => "Admin"
  | technician => "Technician"
  | user => "User"

def ofName? (name : String) : Option Role := all.find? (·.name == name)

end Role

structure Identity where
  account : AccountId
  role : Role
  deriving DecidableEq, Repr

inductive EntryPoint
  | adminNotifications
  | adminConversations
  | technicianNotifications
  | chat
  deriving DecidableEq, Repr

namespace EntryPoint

def all : List EntryPoint := [adminNotifications, adminConversations, technicianNotifications, chat]

/-- The topic that an entry point serves; chat serves rooms instead. -/
def topic? : EntryPoint → Option Topic
  | adminNotifications => some .adminNotifications
  | adminConversations => some .adminConversations
  | technicianNotifications => some .technicianNotifications
  | chat => none

def allows : EntryPoint → Role → Bool
  | adminNotifications, role | adminConversations, role => role == .admin
  | technicianNotifications, role => role == .technician
  | chat, _ => true

def label (entry : EntryPoint) : String :=
  match entry.topic? with
  | some topic => topic.label
  | none => "chat"

def ofLabel? (label : String) : Option EntryPoint := all.find? (·.label == label)

end EntryPoint

end Switchboard
