import Switchboard.Fault.Basic

/-!
The envelope that clients and the hub exchange. Every field may be absent.
-/

namespace Switchboard

inductive MessageType
  | adminJoin
  | userJoin
  | texting
  | joinResponse
  deriving DecidableEq, Repr

namespace MessageType

def all : List MessageType := [adminJoin, userJoin, texting, joinResponse]

def name : MessageType → String
  | adminJoin => "ADMIN_JOIN"
  | userJoin => "USER_JOIN"
  | texting => "TEXTING"
  | joinResponse => "SYSTEM_USER_JOIN_RESPONSE"

def ofName (name : String) : Except Refusal MessageType :=
  match all.find? (·.name == name) with
  | some type => .ok type
  | none => .error (.unknownType name)

end MessageType

structure Envelope where
  type? : Option MessageType
  content? : Option String
  conversation? : Option ConversationId
  token? : Option String
  deriving DecidableEq, Repr

namespace Envelope

open Shape

def blank : Envelope := ⟨none, none, none, none⟩

def ofType (type : MessageType) : Envelope := ⟨some type, none, none, none⟩

def texting (id : ConversationId) (content : String) : Envelope :=
  ⟨some .texting, some content, some id, none⟩

def joinResponse (id : ConversationId) : Envelope := ⟨some .joinResponse, none, some id, none⟩

def credential (token : String) : Envelope := ⟨none, none, none, some token⟩

def requireType (e : Envelope) : Except Refusal MessageType :=
  match e.type? with
  | some type => .ok type
  | none => .error .noType

def toJson (e : Envelope) : Json :=
  .object ([e.type?.map fun t => ("msg_type", Json.string t.name),
    e.content?.map fun c => ("content", .string c),
    e.conversation?.map fun id => ("conversation_id", .number (.int id.toNat)),
    e.token?.map fun t => ("token", .string t)].filterMap id)

def enter (e : Envelope) (name : String) (value : Json) : Except Mismatch Envelope :=
  let string := Json.format.optional Json.format.string
  if name = "msg_type" then do
    let names := MessageType.all.map fun t => (t.name, t)
    return { e with type? := ← Json.format.optional (Json.format.choice names) value }
  else if name = "content" then do return { e with content? := ← string value }
  else if name = "conversation_id" then do
    return { e with conversation? := ← Json.format.optional (Json.format.word "u64") value }
  else if name = "token" then do return { e with token? := ← string value }
  else return e

def record : Record Json Envelope Envelope where
  name := "Envelope"
  fields := ["msg_type", "content", "conversation_id", "token"]
  blank := blank
  enter := enter
  finish := .ok

/-- A named type has to be a known one; this is seen before anything else about the shape. -/
def checkType (value : Json) : Except Refusal Unit :=
  match value.member? "msg_type" with
  | none | some .null => .ok ()
  | some (.string name) => (MessageType.ofName name).map fun _ => ()
  | some _ => .error .typeNotString

def ofJson (value : Json) : Except Fault Envelope := do
  (checkType value).mapError .refused
  (record.read Json.format value).mapError fun e => .unreadable (.shape e)

def parse (text : String) : Except Fault Envelope :=
  match Json.read text with
  | .error e => .error (.unreadable (.text e))
  | .ok value => ofJson value

end Envelope

end Switchboard
