import Switchboard.Exchange.Basic

/-!
Joining topics and publishing to them. A member that a frame cannot be sent to is evicted and
closed; the others are not affected.
-/

namespace Switchboard

structure Report where
  delivered : Nat
  evicted : Nat
  deriving DecidableEq, Repr

namespace Exchange

def join (x : Exchange) (topic : Topic) (id : ConnId) : Bool × Exchange :=
  match x.enlist topic id with
  | (.already, x) => (false, x)
  | (.added, x) => (true, x)
  | (.addedFirst, x) => (true, x.attach id .forgetTopics)

/-- Sends to each; answers how many took the frame, and who did not. -/
def offer (x : Exchange) (frame : Frame) (delivered : Nat) (failed : List ConnId) :
    List ConnId → Nat × List ConnId × Exchange
  | [] => (delivered, failed.reverse, x)
  | id :: ids =>
    match x.send id frame with
    | .ok x => offer x frame (delivered + 1) failed ids
    | .error _ => offer x frame delivered (id :: failed) ids

def evict (x : Exchange) (topic : Topic) (evicted : Nat) : List ConnId → Nat × Exchange
  | [] => (evicted, x)
  | id :: ids =>
    let (left, x) := x.leave topic id
    evict (x.close id) topic (if left then evicted + 1 else evicted) ids

def publish (x : Exchange) (topic : Topic) (frame : Frame) : Report × Exchange :=
  let (delivered, failed, x) := x.offer frame 0 [] (x.membersOf topic)
  let (evicted, x) := x.evict topic 0 failed
  (⟨delivered, evicted⟩, x)

end Exchange

end Switchboard
