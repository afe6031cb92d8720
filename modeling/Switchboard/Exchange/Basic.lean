import Switchboard.Conn.Basic
import Switchboard.Table
import Switchboard.Topic

/-!
The exchange: connections, the topics they are members of, and the rooms they sit in. Its steps
here are the indivisible ones: each reads and changes one part, and the operations of the exchange
are sequences of them.
-/

namespace Switchboard

/-- A topic is known once it has a list of members, even an empty one; subscriptions are the same
relation seen from the connections. -/
structure Exchange where
  conns : Table ConnId Conn
  members : Table Topic (List ConnId)
  subscriptions : Table ConnId (List Topic)
  seats : Table ConnId ConversationId

namespace Exchange

def empty : Exchange := ⟨.empty, .empty, .empty, .empty⟩

def isClosed (x : Exchange) (id : ConnId) : Bool :=
  match x.conns.find? id with
  | some c => c.closed
  | none => true

def membersOf (x : Exchange) (topic : Topic) : List ConnId := (x.members.find? topic).getD []

def topicsOf (x : Exchange) (id : ConnId) : List Topic := (x.subscriptions.find? id).getD []

def contains (x : Exchange) (topic : Topic) (id : ConnId) : Bool := (x.membersOf topic).contains id

def isKnown (x : Exchange) (topic : Topic) : Bool := x.members.contains topic

def count (x : Exchange) (topic : Topic) : Nat := (x.membersOf topic).length

def rooms (x : Exchange) : List ConversationId := x.members.keys.filterMap Topic.room?

def seatOf (x : Exchange) (id : ConnId) : Option ConversationId := x.seats.find? id

def connect (x : Exchange) (id : ConnId) (link : Link) : Exchange :=
  { x with conns := x.conns.insert id (.ofLink link) }

def setLink (x : Exchange) (id : ConnId) (link : Link) : Exchange :=
  { x with conns := x.conns.modify id fun c => { c with link := link } }

/-! ### Members and subscriptions -/

inductive Enlisted
  | already
  | added
  | addedFirst
  deriving DecidableEq, Repr

/-- Makes a connection a member; the first subscription of a connection is told apart, because it
needs a hook. -/
def enlist (x : Exchange) (topic : Topic) (id : ConnId) : Enlisted × Exchange :=
  let members := x.membersOf topic
  if members.contains id then (.already, x)
  else
    let x := { x with members := x.members.insert topic (members ++ [id]) }
    match x.subscriptions.find? id with
    | none => (.addedFirst, { x with subscriptions := x.subscriptions.insert id [topic] })
    | some topics =>
      (.added, { x with subscriptions := x.subscriptions.insert id (topics.insert topic) })

def leave (x : Exchange) (topic : Topic) (id : ConnId) : Bool × Exchange :=
  let members := x.membersOf topic
  if members.contains id then
    (true, { x with
      members := x.members.insert topic (members.erase id)
      subscriptions := x.subscriptions.modify id fun topics => topics.erase topic })
  else (false, x)

def unsubscribe (x : Exchange) (id : ConnId) : List Topic × Exchange :=
  (x.topicsOf id, { x with subscriptions := x.subscriptions.erase id })

def leaveAll (x : Exchange) (id : ConnId) : List Topic → Exchange
  | [] => x
  | topic :: topics => leaveAll (x.leave topic id).2 id topics

def forget (x : Exchange) (id : ConnId) : Exchange :=
  let (topics, x) := x.unsubscribe id
  x.leaveAll id topics

def vacate (x : Exchange) (id : ConnId) : Exchange := { x with seats := x.seats.erase id }

/-! ### Hooks -/

def clean (x : Exchange) (id : ConnId) : Cleanup → Exchange
  | .forgetTopics => x.forget id
  | .vacateRoom => x.vacate id

def cleanAll (x : Exchange) (id : ConnId) : List Cleanup → Exchange
  | [] => x
  | act :: acts => cleanAll (x.clean id act) id acts

/-- Leaves a hook with a connection; if that is closed the hook runs now. -/
def attach (x : Exchange) (id : ConnId) (act : Cleanup) : Exchange :=
  match x.conns.find? id with
  | none => x
  | some c =>
    let (hooks, acts) := c.hooks.register (.mk act [])
    { x with conns := x.conns.insert id { c with hooks := hooks } }.cleanAll id acts

def close (x : Exchange) (id : ConnId) : Exchange :=
  match x.conns.find? id with
  | none => x
  | some c =>
    if c.closed then x
    else
      match c.hooks.fire? with
      | none => { x with conns := x.conns.insert id { c with closed := true } }
      | some (hooks, acts) =>
        { x with
          conns := x.conns.insert id { c with closed := true, hooks := hooks } }.cleanAll id acts

/-! ### Sending -/

def send (x : Exchange) (id : ConnId) (frame : Frame) : Except Refusal Exchange :=
  match x.conns.find? id with
  | none => .error .connectionClosed
  | some c =>
    match c.send frame with
    | .error e => .error e
    | .ok c => .ok { x with conns := x.conns.insert id c }

end Exchange

end Switchboard
