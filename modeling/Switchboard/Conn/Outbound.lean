import Switchboard.Conn.Pipe
import Switchboard.Queue
import Switchboard.Wire.Frame

/-!
The write side of a client: a bounded queue of frames, and a writer that puts them into a pipe one
by one. A frame that is not written in time, or to a far end that is gone, stops the writer.
-/

namespace Switchboard

inductive Writer
  | ready
  | writing (rest : List UInt8) (deadline : Nat)
  | stopped
  deriving DecidableEq, Repr

structure Outbound where
  queue : Queue Frame
  writer : Writer
  pipe : Pipe

namespace Outbound

def fresh (capacity room : Nat) (stalled : Bool) : Outbound :=
  ⟨.empty capacity, .ready, .fresh room stalled⟩

def send (o : Outbound) (frame : Frame) : Except Refusal Outbound :=
  if o.writer = .stopped then .error .writerStopped
  else
    match o.queue.push? frame with
    | some queue => .ok { o with queue := queue }
    | none => .error .outboundFull

/-- What is queued is lost, and the far end reads no further than what is in the pipe. -/
def stop (o : Outbound) : Outbound :=
  { o with queue := o.queue.clear, writer := .stopped, pipe := { o.pipe with shut := true } }

/-- One move of the writer, if it can make one. With no time left it does not wait for the far end.
With the connection closed it still writes what is queued, and then shuts the pipe. -/
def step? (now timeout : Nat) (closed : Bool) (o : Outbound) : Option Outbound :=
  match o.writer with
  | .stopped => none
  | .ready =>
    match o.queue.pop? with
    | some (frame, queue) =>
      some { o with queue := queue, writer := .writing frame.bytes (now + timeout) }
    | none => if closed then some o.stop else none
  | .writing rest deadline =>
    if o.pipe.far = .gone then some o.stop
    else
      let (left, pipe) := o.pipe.write (now < deadline) rest
      if left = [] then some { o with writer := .ready, pipe := pipe }
      else if deadline ≤ now then some { o with pipe := pipe }.stop
      else if left.length < rest.length then
        some { o with writer := .writing left deadline, pipe := pipe }
      else none

/-- A bound on the moves that frames in the queue need. -/
def waiting (frames : List Frame) : Nat :=
  frames.foldr (fun frame total => frame.bytes.length + 2 + total) 0

def work (o : Outbound) : Nat :=
  match o.writer with
  | .stopped => 0
  | .ready => 1 + waiting o.queue.items
  | .writing rest _ => 2 + rest.length + waiting o.queue.items

theorem step?_work {now timeout : Nat} {closed : Bool} {o next : Outbound}
    (hit : o.step? now timeout closed = some next) : next.work < o.work := by
  unfold step? at hit
  split at hit
  · cases hit
  · next ready =>
    split at hit
    · next popped =>
      cases hit
      have shape := (Queue.items_pop popped).1
      simp only [work, waiting, ready, shape, List.foldr_cons]
      omega
    · split at hit <;> cases hit
      simp only [work, stop, ready]
      omega
  · next rest deadline writing =>
    split at hit
    · cases hit
      simp only [work, stop, writing]
      omega
    · dsimp only at hit
      split at hit
      · cases hit
        simp only [work, writing]
        omega
      · split at hit
        · cases hit
          simp only [work, stop, writing]
          omega
        · split at hit <;> cases hit
          simp only [work, writing]
          omega

/-- All moves that the writer can make now, after which it pauses. -/
def drain (now timeout : Nat) (closed : Bool) (o : Outbound) : Outbound :=
  match _step : o.step? now timeout closed with
  | some next => drain now timeout closed next
  | none => { o with pipe := o.pipe.drain }
termination_by o.work
decreasing_by exact step?_work _step

def deadline? (o : Outbound) : Option Nat :=
  match o.writer with
  | .writing _ deadline => some deadline
  | _ => none

end Outbound

end Switchboard
