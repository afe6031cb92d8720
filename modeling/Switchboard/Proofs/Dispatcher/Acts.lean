import Switchboard.Proofs.Bus
import Switchboard.Proofs.Hub.Calls
import Switchboard.Station.Basic

/-!
The dispatcher's loop, turn by turn, among the notifiers that feed it and everything that may stop
it. Acts may come in any order; one that is not possible changes nothing.
-/

namespace Switchboard

def QueueName.all : List QueueName := [admin, technician, conversation]

theorem QueueName.mem_all (queue : QueueName) : queue ∈ all := by
  cases queue <;> decide

theorem QueueName.all_ne_nil : all ≠ [] := List.cons_ne_nil _ _

/-- Some number of notifiers share the queues of the hub. The loop still waits for the `live` ones
of these. -/
structure Dispatcher where
  hub : Hub
  notifiers : Nat
  loop : Loop
  cancelled : Bool
  live : List QueueName

namespace Dispatcher

/-- A `turn` is one round of the loop: with the event that is first in a queue, with the end of a
queue, or without a queue when the loop is told to stop. -/
inductive Act
  | enqueue (event : Event)
  | clone
  | dropNotifier
  | start
  | turn (ready : Option QueueName)
  | cancel
  | drop
  | elsewhere (w : World)

def fresh (hub : Hub) (capacity : Nat) : Dispatcher :=
  ⟨{ hub with bus := .fresh capacity }, 1, .idle, false, QueueName.all⟩

def Exists (d : Dispatcher) : Prop := d.loop = .idle ∨ d.loop = .running

instance (d : Dispatcher) : Decidable d.Exists := inferInstanceAs (Decidable (_ ∨ _))

def queued (d : Dispatcher) (queue : QueueName) : List Event := d.hub.bus.queued queue

def enqueue (d : Dispatcher) (event : Event) : Except Refusal Unit × Dispatcher :=
  match d.hub.bus.enqueue event with
  | .ok bus => (.ok (), { d with hub := { d.hub with bus := bus } })
  | .error why => (.error why, d)

def stop (d : Dispatcher) (loop : Loop) : Dispatcher :=
  { d with loop := loop, hub := { d.hub with bus := d.hub.bus.shut } }

def receive (d : Dispatcher) (queue : QueueName) : Dispatcher :=
  match d.hub.bus.take? queue with
  | some (event, bus) => { d with hub := ({ d.hub with bus := bus }.dispatch event).2 }
  | none => if d.notifiers = 0 then { d with live := d.live.filter (· ≠ queue) } else d

def turn (d : Dispatcher) (ready : Option QueueName) : Dispatcher :=
  if d.loop = .running then
    if d.live = [] then d.stop .ended
    else
      match ready with
      | none => if d.cancelled then d.stop .ended else d
      | some queue => if queue ∈ d.live then d.receive queue else d
  else d

def step (d : Dispatcher) : Act → Dispatcher
  | .enqueue event => if d.notifiers = 0 then d else (d.enqueue event).2
  | .clone => if d.notifiers = 0 then d else { d with notifiers := d.notifiers + 1 }
  | .dropNotifier => { d with notifiers := d.notifiers - 1 }
  | .start => if d.loop = .idle then { d with loop := .running } else d
  | .turn ready => d.turn ready
  | .cancel => { d with cancelled := true }
  | .drop => if d.Exists then d.stop .dropped else d
  | .elsewhere w => { d with hub := { d.hub with exchange := w.exchange, store := w.store } }

def run (d : Dispatcher) (acts : List Act) : Dispatcher := acts.foldl step d

@[simp] theorem run_nil (d : Dispatcher) : d.run [] = d := rfl

@[simp] theorem run_cons (d : Dispatcher) (a : Act) (acts : List Act) :
    d.run (a :: acts) = (d.step a).run acts := rfl

theorem run_append (d : Dispatcher) (acts more : List Act) :
    d.run (acts ++ more) = (d.run acts).run more := List.foldl_append

theorem ended_gone : Loop.ended ≠ .idle ∧ Loop.ended ≠ .running :=
  ⟨Loop.noConfusion, Loop.noConfusion⟩

theorem dropped_gone : Loop.dropped ≠ .idle ∧ Loop.dropped ≠ .running :=
  ⟨Loop.noConfusion, Loop.noConfusion⟩

theorem Exists.not_ended {d : Dispatcher} (here : d.Exists) : d.loop ≠ .ended := by
  rcases here with idle | running
  · rw [idle]
    exact Loop.noConfusion
  · rw [running]
    exact Loop.noConfusion

/-! ### Histories -/

def accepts (d : Dispatcher) : Act → List Event
  | .enqueue event =>
    if d.notifiers = 0 then []
    else
      match d.hub.bus.enqueue event with
      | .ok _ => [event]
      | .error _ => []
  | _ => []

def dispatches (d : Dispatcher) : Act → List Event
  | .turn (some queue) =>
    if d.loop = .running ∧ queue ∈ d.live then
      match d.hub.bus.take? queue with
      | some (event, _) => [event]
      | none => []
    else []
  | _ => []

def calls (d : Dispatcher) : Act → List Call
  | .elsewhere w => [.elsewhere w]
  | a => (d.dispatches a).flatMap Event.calls

def history {α : Type} (adds : Dispatcher → Act → List α) (d : Dispatcher) : List Act → List α
  | [] => []
  | a :: acts => adds d a ++ history adds (d.step a) acts

def accepted (d : Dispatcher) (acts : List Act) : List Event := history accepts d acts

def dispatched (d : Dispatcher) (acts : List Act) : List Event := history dispatches d acts

def called (d : Dispatcher) (acts : List Act) : List Call := history calls d acts

end Dispatcher

end Switchboard
