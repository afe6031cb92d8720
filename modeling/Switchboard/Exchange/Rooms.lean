import Switchboard.Exchange.Topics
import Switchboard.Wire.Frame

/-!
Rooms: a connection sits in one room at a time, but may be made a member of all of them.
-/

namespace Switchboard

def greeting : String := "new comer joined"

namespace Exchange

def broadcast (x : Exchange) (room : ConversationId) (content : String) :
    Except Refusal Report × Exchange :=
  match Frame.ofEnvelope (.texting room content) with
  | .error e => (.error e, x)
  | .ok frame =>
    let (report, x) := x.publish (.room room) frame
    (.ok report, x)

/-- Takes the seat in a room, leaving the room of the seat before. -/
def sit (x : Exchange) (room : ConversationId) (id : ConnId) : Exchange :=
  let before := x.seatOf id
  let x := { x with seats := x.seats.insert id room }
  match before with
  | some previous => if previous = room then x else (x.leave (.room previous) id).2
  | none => x.attach id .vacateRoom

/-- Moves to a room and greets it. -/
def joinRoom (x : Exchange) (room : ConversationId) (id : ConnId) :
    Except Refusal Report × Exchange :=
  let x := x.sit room id
  let x := (x.join (.room room) id).2
  x.broadcast room greeting

def joinEach (x : Exchange) (id : ConnId) : List ConversationId → Exchange
  | [] => x
  | room :: rooms => joinEach (x.join (.room room) id).2 id rooms

def joinAllRooms (x : Exchange) (id : ConnId) : Nat × Exchange :=
  (x.rooms.length, x.joinEach id x.rooms)

def leaveRoom (x : Exchange) (id : ConnId) : Bool × Exchange :=
  match x.seatOf id with
  | some room => (x.vacate id).leave (.room room) id
  | none => (false, x)

def isMember (x : Exchange) (room : ConversationId) (id : ConnId) : Bool :=
  x.contains (.room room) id

theorem isMember_iff {x : Exchange} {room : ConversationId} {id : ConnId} :
    x.isMember room id = true ↔ id ∈ x.membersOf (.room room) := List.contains_iff_mem

end Exchange

end Switchboard
