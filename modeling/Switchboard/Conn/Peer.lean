import Switchboard.Wire.Frame

/-!
Peers in memory: they keep the frames that they get. Sending to one may fail, at once or after a
number of frames.
-/

namespace Switchboard

/-- `received` has the newest frame first; `allowance?` is how many more can be sent, if that is
limited. -/
structure Peer where
  failing : Bool
  allowance? : Option Nat
  received : List Frame
  deriving DecidableEq, Repr

namespace Peer

def fresh (allowance? : Option Nat) : Peer := ⟨false, allowance?, []⟩

def send (p : Peer) (frame : Frame) : Except Refusal Peer :=
  if p.failing ∨ p.allowance? = some 0 then .error .brokenPipe
  else .ok { p with
    allowance? := p.allowance?.map (· - 1)
    received := frame :: p.received }

end Peer

end Switchboard
