import Switchboard.Event
import Switchboard.Queue

/-!
The dispatcher's three input queues. Events are refused by a queue that is full, and by all of them
once the dispatcher is gone.
-/

namespace Switchboard

structure Bus where
  isOpen : Bool
  admin : Queue Notification
  technician : Queue Notification
  conversation : Queue ConversationEvent

namespace Bus

def fresh (capacity : Nat) : Bus := ⟨true, .empty capacity, .empty capacity, .empty capacity⟩

def push? (b : Bus) : Event → Option Bus
  | .notification .admin n => (b.admin.push? n).map fun q => { b with admin := q }
  | .notification .technician n => (b.technician.push? n).map fun q => { b with technician := q }
  | .conversation e => (b.conversation.push? e).map fun q => { b with conversation := q }

def enqueue (b : Bus) (event : Event) : Except Refusal Bus :=
  if b.isOpen then
    match b.push? event with
    | some b => .ok b
    | none => .error (.queueFull event.queue)
  else .error .dispatcherGone

/-- The event that has waited longest in a queue. -/
def take? (b : Bus) : QueueName → Option (Event × Bus)
  | .admin => b.admin.pop?.map fun (n, q) => (.notification .admin n, { b with admin := q })
  | .technician =>
    b.technician.pop?.map fun (n, q) => (.notification .technician n, { b with technician := q })
  | .conversation =>
    b.conversation.pop?.map fun (e, q) => (.conversation e, { b with conversation := q })

def size (b : Bus) : Nat :=
  b.admin.items.length + b.technician.items.length + b.conversation.items.length

/-- Any event at all; which queue comes first makes no difference to a topic. -/
def next? (b : Bus) : Option (Event × Bus) :=
  match b.take? .admin, b.take? .technician with
  | some found, _ => some found
  | none, some found => some found
  | none, none => b.take? .conversation

/-- The dispatcher is gone, and with it what was queued. -/
def shut (b : Bus) : Bus := ⟨false, b.admin.clear, b.technician.clear, b.conversation.clear⟩

theorem take?_size {b next : Bus} {queue : QueueName} {event : Event}
    (hit : b.take? queue = some (event, next)) : next.size < b.size := by
  cases queue <;> simp only [take?, Option.map_eq_some_iff] at hit <;>
    obtain ⟨⟨e, q⟩, popped, same⟩ := hit <;> cases same <;>
    simp only [size, (Queue.items_pop popped).1, List.length_cons] <;> omega

theorem next?_size {b next : Bus} {event : Event} (hit : b.next? = some (event, next)) :
    next.size < b.size := by
  unfold next? at hit
  split at hit
  · next found => exact take?_size (found.trans hit)
  · next found => exact take?_size (found.trans hit)
  · exact take?_size hit

end Bus

end Switchboard
