import Switchboard.Proofs.Exchange.Consistent
import Switchboard.Proofs.Table

/-!
The calls of an exchange in pieces. What one piece does nobody else sees half done, but between two
pieces of a call anything may happen. Done without a break they are the calls.
-/

namespace Switchboard

/-- A `drop` is a leave on behalf of a connection that closes; an `offer` goes on with those that it
has not been made to. -/
inductive Piece
  | enlist (topic : Topic) (id : ConnId)
  | attach (id : ConnId) (act : Cleanup)
  | leave (topic : Topic) (id : ConnId)
  | drop (topic : Topic) (id : ConnId)
  | clean (id : ConnId) (act : Cleanup)
  | swap (id : ConnId)
  | fire (id : ConnId)
  | snapshot (topic : Topic) (frame : Frame)
  | offer (topic : Topic) (frame : Frame) (failed ids : List ConnId)
  deriving DecidableEq

def Exchange.mark (x : Exchange) (id : ConnId) (c : Conn) (closed : Bool) (hooks : Hooks Cleanup) :
    Exchange :=
  x.withConn id { c with closed := closed, hooks := hooks }

namespace Piece

/-- What a piece does, and the pieces that its call goes on with. -/
def run (x : Exchange) : Piece → List Piece × Exchange
  | enlist topic id =>
    match x.enlist topic id with
    | (.addedFirst, x) => ([attach id .forgetTopics], x)
    | (_, x) => ([], x)
  | attach id act =>
    match x.conns.find? id with
    | none => ([], x)
    | some c =>
      let (hooks, acts) := c.hooks.register (.mk act [])
      (acts.map (clean id), x.mark id c c.closed hooks)
  | leave topic id | drop topic id => ([], (x.leave topic id).2)
  | clean id .forgetTopics =>
    let (topics, x) := x.unsubscribe id
    (topics.map (drop · id), x)
  | clean id .vacateRoom => ([], x.vacate id)
  | swap id =>
    match x.conns.find? id with
    | none => ([], x)
    | some c => if c.closed then ([], x) else ([fire id], x.mark id c true c.hooks)
  | fire id =>
    match x.conns.find? id with
    | none => ([], x)
    | some c =>
      match c.hooks.fire? with
      | none => ([], x)
      | some (hooks, acts) => (acts.map (clean id), x.mark id c c.closed hooks)
  | snapshot topic frame => ([offer topic frame [] (x.membersOf topic)], x)
  | offer topic frame failed (id :: ids) =>
    match x.send id frame with
    | .ok x => ([offer topic frame failed ids], x)
    | .error _ => ([offer topic frame (id :: failed) ids], x)
  | offer topic _ failed [] => (failed.reverse.flatMap fun id => [leave topic id, swap id], x)

theorem run_enlist (x : Exchange) (topic : Topic) (id : ConnId) :
    (enlist topic id).run x =
      (if id ∉ x.membersOf topic ∧ x.subscriptions.find? id = none then
          [attach id .forgetTopics] else [], (x.enlist topic id).2) := by
  rw [run]
  unfold Exchange.enlist
  by_cases member : id ∈ x.membersOf topic
  · simp [member]
  · cases found : x.subscriptions.find? id <;> simp [member, found]

/-! ### Without a break -/

/-- The pieces, and all that they go on with, lead from one exchange to another. -/
inductive Unbroken : List Piece → Exchange → Exchange → Prop
  | done (x : Exchange) : Unbroken [] x x
  | next {piece : Piece} {pieces : List Piece} {x y : Exchange}
      (rest : Unbroken ((piece.run x).1 ++ pieces) (piece.run x).2 y) :
      Unbroken (piece :: pieces) x y

namespace Unbroken

variable {x y z : Exchange} {pieces more : List Piece} {topic : Topic} {id : ConnId}

theorem append (first : Unbroken pieces x y) (second : Unbroken more y z) :
    Unbroken (pieces ++ more) x z := by
  induction first with
  | done x => exact second
  | next rest ih =>
    have rest' := ih second
    rw [List.append_assoc] at rest'
    exact .next rest'

theorem single {piece : Piece} (rest : Unbroken (piece.run x).1 (piece.run x).2 y) :
    Unbroken [piece] x y := by
  apply Unbroken.next
  rwa [List.append_nil]

theorem leave (x : Exchange) (topic : Topic) (id : ConnId) :
    Unbroken [.leave topic id] x (x.leave topic id).2 :=
  single (.done _)

theorem leaveAll (x : Exchange) (id : ConnId) (topics : List Topic) :
    Unbroken (topics.map (.drop · id)) x (x.leaveAll id topics) := by
  induction topics generalizing x with
  | nil => exact .done x
  | cons topic topics ih => exact .next (ih (x.leave topic id).2)

theorem clean (x : Exchange) (id : ConnId) (act : Cleanup) :
    Unbroken [.clean id act] x (x.clean id act) := by
  cases act with
  | forgetTopics => exact single (leaveAll _ id (x.topicsOf id))
  | vacateRoom => exact single (.done _)

theorem cleanAll (x : Exchange) (id : ConnId) (acts : List Cleanup) :
    Unbroken (acts.map (.clean id)) x (x.cleanAll id acts) := by
  induction acts generalizing x with
  | nil => exact .done x
  | cons act acts ih => exact (clean x id act).append (ih (x.clean id act))

theorem attach (x : Exchange) (id : ConnId) (act : Cleanup) :
    Unbroken [.attach id act] x (x.attach id act) := by
  apply single
  unfold Exchange.attach
  rw [run]
  cases found : x.conns.find? id with
  | none => exact .done x
  | some c => exact cleanAll _ id _

theorem join (x : Exchange) (topic : Topic) (id : ConnId) :
    Unbroken [.enlist topic id] x (x.join topic id).2 := by
  apply single
  unfold Exchange.join
  rw [run]
  rcases answer : x.enlist topic id with ⟨_ | _ | _, next⟩
  · exact .done next
  · exact .done next
  · exact attach next id .forgetTopics

theorem close (x : Exchange) (id : ConnId) : Unbroken [.swap id] x (x.close id) := by
  apply single
  unfold Exchange.close
  rw [run]
  cases found : x.conns.find? id with
  | none => exact .done x
  | some c =>
    dsimp only
    split
    · exact .done x
    · apply single
      have present : (x.mark id c true c.hooks).conns.find? id = some { c with closed := true } := by
        rw [Exchange.mark, Exchange.find?_conns_withConn, if_pos rfl]
      rw [run, present]
      dsimp only
      cases c.hooks.fire? with
      | none => exact .done _
      | some fired =>
        have marked : (x.mark id c true c.hooks).mark id { c with closed := true } true fired.1 =
            { x with conns := x.conns.insert id { c with closed := true, hooks := fired.1 } } := by
          simp only [Exchange.mark, Exchange.withConn, Table.insert_insert]
        dsimp only
        rw [marked]
        exact cleanAll _ id fired.2

theorem evict (x : Exchange) (topic : Topic) (evicted : Nat) (ids : List ConnId) :
    Unbroken (ids.flatMap fun id => [.leave topic id, .swap id]) x
      (x.evict topic evicted ids).2 := by
  induction ids generalizing x evicted with
  | nil => exact .done x
  | cons id ids ih => exact (leave x topic id).append ((close _ id).append (ih _ _))

theorem offer (x : Exchange) (topic : Topic) (frame : Frame) (delivered : Nat)
    (failed ids : List ConnId) :
    Unbroken [.offer topic frame failed ids] x
      ((x.offer frame delivered failed ids).2.2.evict topic 0
        (x.offer frame delivered failed ids).2.1).2 := by
  induction ids generalizing x delivered failed with
  | nil => exact single (evict x topic 0 failed.reverse)
  | cons id ids ih =>
    apply single
    unfold Exchange.offer
    rw [run]
    cases x.send id frame with
    | ok next => exact ih next _ _
    | error why => exact ih x _ _

theorem publish (x : Exchange) (topic : Topic) (frame : Frame) :
    Unbroken [.snapshot topic frame] x (x.publish topic frame).2 :=
  single (offer x topic frame 0 [] (x.membersOf topic))

end Unbroken

end Piece

end Switchboard
