/-!
Pipes to a far end, which hold only so many bytes. A far end that reads takes them whenever the
writer pauses; one that has stalled leaves them there.
-/

namespace Switchboard

inductive FarEnd
  | reading
  | stalled
  | gone
  deriving DecidableEq, Repr

/-- `arrived` are the pieces that came out at the far end and have not been looked at, the newest
first; `endSeen` is set once the far end was told that nothing more will come. -/
structure Pipe where
  room : Nat
  held : List UInt8
  far : FarEnd
  shut : Bool
  arrived : List (List UInt8)
  endSeen : Bool
  deriving DecidableEq, Repr

namespace Pipe

def fresh (room : Nat) (stalled : Bool) : Pipe :=
  ⟨room, [], if stalled then .stalled else .reading, false, [], false⟩

/-- Writes as much as goes in; answers with what does not. A writer that may pause gets everything
out to a far end that reads, if there is any room at all. -/
def write (p : Pipe) (mayPause : Bool) (bytes : List UInt8) : List UInt8 × Pipe :=
  if p.far = .gone then (bytes, p)
  else if mayPause ∧ p.far = .reading ∧ p.room ≠ 0 then
    ([], { p with held := [], arrived := bytes :: p.held :: p.arrived })
  else
    let space := p.room - p.held.length
    (bytes.drop space, { p with held := p.held ++ bytes.take space })

def drain (p : Pipe) : Pipe :=
  if p.far = .reading then { p with held := [], arrived := p.held :: p.arrived } else p

def setStalled (p : Pipe) (stalled : Bool) : Pipe :=
  match p.far with
  | .gone => p
  | _ =>
    if stalled then { p with far := .stalled } else { p with far := .reading }.drain

/-- What came out since the last time, and whether the end came too. -/
def collect (p : Pipe) : (List UInt8 × Bool) × Pipe :=
  let ended := p.far = .reading ∧ p.shut ∧ ¬ p.endSeen
  ((p.arrived.reverse.flatten, ended), { p with arrived := [], endSeen := p.endSeen || ended })

end Pipe

end Switchboard
