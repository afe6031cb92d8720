import Switchboard.Config.Limits
import Switchboard.Entry

/-!
The hub's configuration, and how it is read out of any file format.
-/

namespace Switchboard

open Shape

structure Listen where
  chat : String
  adminNotifications : String
  adminConversations : String
  technicianNotifications : String
  deriving DecidableEq, Repr

structure TokenEntry where
  token : String
  account : AccountId
  role : Role
  deriving DecidableEq, Repr

structure Config where
  id : String
  listen : Listen
  limits : Limits
  tokens : List TokenEntry
  deriving DecidableEq, Repr

variable {α : Type}

namespace Listen

structure Draft where
  chat? : Option String
  adminNotifications? : Option String
  adminConversations? : Option String
  technicianNotifications? : Option String

def enter (format : Format α) (d : Draft) (name : String) (value : α) : Except Mismatch Draft :=
  if name = "chat" then do return { d with chat? := some (← format.string value) }
  else if name = "admin_notifications" then do
    return { d with adminNotifications? := some (← format.string value) }
  else if name = "admin_conversations" then do
    return { d with adminConversations? := some (← format.string value) }
  else if name = "technician_notifications" then do
    return { d with technicianNotifications? := some (← format.string value) }
  else return d

def finish (d : Draft) : Except String Listen := do
  return ⟨← required "chat" d.chat?,
    ← required "admin_notifications" d.adminNotifications?,
    ← required "admin_conversations" d.adminConversations?,
    ← required "technician_notifications" d.technicianNotifications?⟩

def record (format : Format α) : Record α Draft Listen where
  name := "ListenConfig"
  fields := ["chat", "admin_notifications", "admin_conversations", "technician_notifications"]
  blank := ⟨none, none, none, none⟩
  enter := enter format
  finish := finish

end Listen

namespace TokenEntry

structure Draft where
  token? : Option String
  account? : Option AccountId
  role? : Option Role

def enter (format : Format α) (d : Draft) (name : String) (value : α) : Except Mismatch Draft :=
  if name = "token" then do return { d with token? := some (← format.string value) }
  else if name = "account_id" then do
    return { d with account? := some (← format.word "u64" value) }
  else if name = "role" then do
    return { d with role? := some (← format.choice (Role.all.map fun r => (r.name, r)) value) }
  else return d

def finish (d : Draft) : Except String TokenEntry := do
  return ⟨← required "token" d.token?, ← required "account_id" d.account?,
    ← required "role" d.role?⟩

def record (format : Format α) : Record α Draft TokenEntry where
  name := "TokenEntry"
  fields := ["token", "account_id", "role"]
  blank := ⟨none, none, none⟩
  enter := enter format
  finish := finish

end TokenEntry

namespace Config

structure Draft where
  id? : Option String
  listen? : Option Listen
  limits : Limits
  tokens : List TokenEntry

def enter (format : Format α) (d : Draft) (name : String) (value : α) : Except Mismatch Draft :=
  if name = "id" then do return { d with id? := some (← format.string value) }
  else if name = "listen" then do
    return { d with listen? := some (← (Listen.record format).read format value) }
  else if name = "limits" then do
    return { d with limits := ← (Limits.record format).read format value }
  else if name = "tokens" then do
    return { d with tokens := ← format.list ((TokenEntry.record format).read format) value }
  else return d

def finish (d : Draft) : Except String Config := do
  return ⟨← required "id" d.id?, ← required "listen" d.listen?, d.limits, d.tokens⟩

def record (format : Format α) : Record α Draft Config where
  name := "HubConfig"
  fields := ["id", "listen", "limits", "tokens"]
  blank := ⟨none, none, .standard, []⟩
  enter := enter format
  finish := finish

end Config

end Switchboard
