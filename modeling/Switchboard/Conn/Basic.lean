import Switchboard.Conn.Outbound
import Switchboard.Conn.Peer
import Switchboard.Hooks

/-!
Connections: open or closed, with hooks that run on closing, and a link that frames go out on.
-/

namespace Switchboard

abbrev ConnId := Nat

inductive Cleanup
  | forgetTopics
  | vacateRoom
  deriving DecidableEq, Repr

inductive Link
  | peer (p : Peer)
  | client (o : Outbound)

/-- `taken` are the frames that it took for sending, the newest first. -/
structure Conn where
  closed : Bool
  hooks : Hooks Cleanup
  link : Link
  taken : List Frame

namespace Conn

def ofLink (link : Link) : Conn := ⟨false, .fresh, link, []⟩

def send (c : Conn) (frame : Frame) : Except Refusal Conn :=
  match c.link with
  | .peer p =>
    if c.closed then .error .peerClosed
    else (p.send frame).map fun p => { c with link := .peer p, taken := frame :: c.taken }
  | .client o =>
    if c.closed then .error .connectionClosed
    else (o.send frame).map fun o => { c with link := .client o, taken := frame :: c.taken }

end Conn

end Switchboard
