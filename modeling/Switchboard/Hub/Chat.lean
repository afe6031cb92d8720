import Switchboard.Credential
import Switchboard.Hub.Basic

/-!
What chat frames do: administrators join all rooms, users open a conversation and sit in its room,
members of a room talk.
-/

namespace Switchboard.Hub

def adminJoin (h : Hub) (who : Identity) (id : ConnId) : Except Refusal Unit × Hub :=
  if who.role = .admin then (.ok (), { h with exchange := (h.exchange.joinAllRooms id).2 })
  else (.error .adminOnly, h)

/-- Tells the administrators, if there is room in their queue. -/
def announce (h : Hub) (event : ConversationEvent) : Hub :=
  match h.bus.enqueue (.conversation event) with
  | .ok bus => { h with bus := bus }
  | .error _ => h

def sendJoinResponse (h : Hub) (room : ConversationId) (id : ConnId) : Except Refusal Hub :=
  match Frame.ofEnvelope (.joinResponse room) with
  | .error e => .error e
  | .ok frame => (h.exchange.send id frame).map fun x => { h with exchange := x }

def userJoin (h : Hub) (who : Identity) (id : ConnId) : Except Refusal Unit × Hub :=
  match h.store.openNext with
  | (.error e, store) => (.error e, { h with store := store })
  | (.ok room, store) =>
    let h := { h with store := store }
    match h.sendJoinResponse room id with
    | .error e => (.error e, h)
    | .ok h =>
      let (greeted, x) := h.exchange.joinRoom room id
      let h := { h with exchange := x }
      match greeted with
      | .error e => (.error e, h)
      | .ok _ => (.ok (), h.announce (.opened room who.account))

def log (h : Hub) (room : ConversationId) (sender : AccountId) (content : String) : Hub :=
  { h with store := (h.store.write room sender content).2 }

/-- The room is the one named, or else the one that the connection sits in. A message that cannot
go out is not stored either. -/
def texting (h : Hub) (who : Identity) (id : ConnId) (e : Envelope) : Except Refusal Unit × Hub :=
  match e.conversation?.or (h.exchange.seatOf id) with
  | none => (.error .noConversation, h)
  | some room =>
    match e.content? with
    | none => (.error .noContent, h)
    | some content =>
      if h.exchange.isMember room id then
        match Frame.ofEnvelope (.texting room content) with
        | .error e => (.error e, h)
        | .ok frame =>
          let h := h.log room who.account content
          (.ok (), { h with exchange := (h.exchange.publish (.room room) frame).2 })
      else (.error (.notInRoom room), h)

def chat (h : Hub) (who : Identity) (id : ConnId) (e : Envelope) : Except Refusal Unit × Hub :=
  match e.requireType with
  | .error why => (.error why, h)
  | .ok .adminJoin => h.adminJoin who id
  | .ok .userJoin => h.userJoin who id
  | .ok .texting => h.texting who id e
  | .ok .joinResponse => (.error .serverOnly, h)

def tell (h : Hub) (id : ConnId) (fault : Fault) : Hub :=
  match Frame.ofFault fault with
  | .error _ => h
  | .ok frame =>
    match h.exchange.send id frame with
    | .ok x => { h with exchange := x }
    | .error _ => h

def close (h : Hub) (id : ConnId) : Hub := { h with exchange := h.exchange.close id }

def reject (h : Hub) (id : ConnId) (fault : Fault) : Hub := (h.tell id fault).close id

end Switchboard.Hub
