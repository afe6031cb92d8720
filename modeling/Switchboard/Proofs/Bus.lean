import Switchboard.Bus

/-!
The dispatcher's queues, each as the list of events that wait in it.
-/

namespace Switchboard

namespace Queue

variable {α : Type}

theorem pop?_eq_none {q : Queue α} : q.pop? = none ↔ q.items = [] := by
  unfold pop?
  split
  · next inside => simp [inside]
  · next inside => simp [inside]

theorem push?_eq_none {q : Queue α} {item : α} :
    q.push? item = none ↔ q.items.length = q.capacity := by
  have fits := q.fits
  unfold push?
  split
  · next room =>
    constructor
    · intro none
      cases none
    · intro full
      omega
  · next full =>
    constructor
    · intro _
      omega
    · intro _
      rfl

end Queue

def Event.through (queue : QueueName) (events : List Event) : List Event :=
  events.filter fun event => event.queue = queue

namespace Event

theorem through_append (queue : QueueName) (events more : List Event) :
    through queue (events ++ more) = through queue events ++ through queue more :=
  List.filter_append events more

end Event

namespace Bus

def queued (b : Bus) : QueueName → List Event
  | .admin => b.admin.items.map (.notification .admin)
  | .technician => b.technician.items.map (.notification .technician)
  | .conversation => b.conversation.items.map .conversation

def capacity (b : Bus) : QueueName → Nat
  | .admin => b.admin.capacity
  | .technician => b.technician.capacity
  | .conversation => b.conversation.capacity

variable {b next : Bus} {event : Event} {queue : QueueName}

theorem length_queued (b : Bus) (queue : QueueName) :
    (b.queued queue).length ≤ b.capacity queue := by
  cases queue with
  | admin =>
    rw [queued, List.length_map]
    exact b.admin.fits
  | technician =>
    rw [queued, List.length_map]
    exact b.technician.fits
  | conversation =>
    rw [queued, List.length_map]
    exact b.conversation.fits

@[simp] theorem queued_fresh (capacity : Nat) (queue : QueueName) :
    (fresh capacity).queued queue = [] := by
  cases queue <;> rfl

@[simp] theorem capacity_fresh (capacity : Nat) (queue : QueueName) :
    (fresh capacity).capacity queue = capacity := by
  cases queue <;> rfl

@[simp] theorem queued_shut (b : Bus) (queue : QueueName) : b.shut.queued queue = [] := by
  cases queue <;> rfl

@[simp] theorem capacity_shut (b : Bus) (queue : QueueName) :
    b.shut.capacity queue = b.capacity queue := by
  cases queue <;> rfl

/-! ### Taking in -/

/-- An event has been put at the end of its queue, and nothing else has been done. -/
structure Gains (b : Bus) (event : Event) (next : Bus) : Prop where
  isOpen : next.isOpen = b.isOpen
  capacity : ∀ queue, next.capacity queue = b.capacity queue
  queued : ∀ queue, next.queued queue = b.queued queue ++ Event.through queue [event]

theorem gains_of_push? (hit : b.push? event = some next) : b.Gains event next := by
  cases event with
  | notification audience n =>
    cases audience with
    | admin =>
      obtain ⟨q, pushed, rfl⟩ := Option.map_eq_some_iff.mp hit
      obtain ⟨items, capacity⟩ := Queue.items_push pushed
      constructor
      · rfl
      · intro queue
        cases queue <;> simp [Bus.capacity, capacity]
      · intro queue
        cases queue <;> simp [Bus.queued, items, Event.through, Event.queue]
    | technician =>
      obtain ⟨q, pushed, rfl⟩ := Option.map_eq_some_iff.mp hit
      obtain ⟨items, capacity⟩ := Queue.items_push pushed
      constructor
      · rfl
      · intro queue
        cases queue <;> simp [Bus.capacity, capacity]
      · intro queue
        cases queue <;> simp [Bus.queued, items, Event.through, Event.queue]
  | conversation e =>
    obtain ⟨q, pushed, rfl⟩ := Option.map_eq_some_iff.mp hit
    obtain ⟨items, capacity⟩ := Queue.items_push pushed
    constructor
    · rfl
    · intro queue
      cases queue <;> simp [Bus.capacity, capacity]
    · intro queue
      cases queue <;> simp [Bus.queued, items, Event.through, Event.queue]

theorem push?_eq_none :
    b.push? event = none ↔ (b.queued event.queue).length = b.capacity event.queue := by
  cases event with
  | notification audience n =>
    cases audience <;>
      simp only [push?, Option.map_eq_none_iff, Queue.push?_eq_none, Event.queue, queued, capacity,
        List.length_map]
  | conversation e =>
    simp only [push?, Option.map_eq_none_iff, Queue.push?_eq_none, Event.queue, queued, capacity,
      List.length_map]

theorem enqueue_cases (b : Bus) (event : Event) :
    (b.isOpen = false ∧ b.enqueue event = .error .dispatcherGone) ∨
    (b.isOpen = true ∧ (b.queued event.queue).length = b.capacity event.queue ∧
      b.enqueue event = .error (.queueFull event.queue)) ∨
    (b.isOpen = true ∧ (b.queued event.queue).length < b.capacity event.queue ∧
      ∃ next, b.enqueue event = .ok next ∧ b.Gains event next) := by
  unfold enqueue
  cases isOpen : b.isOpen with
  | false => exact Or.inl ⟨rfl, rfl⟩
  | true =>
    right
    cases pushed : b.push? event with
    | none => exact Or.inl ⟨rfl, push?_eq_none.mp pushed, rfl⟩
    | some next =>
      refine Or.inr ⟨rfl, ?_, next, rfl, gains_of_push? pushed⟩
      apply Nat.lt_of_le_of_ne (length_queued b event.queue)
      intro full
      rw [push?_eq_none.mpr full] at pushed
      cases pushed

/-! ### Taking out -/

structure Loses (b : Bus) (queue : QueueName) (event : Event) (next : Bus) : Prop where
  isOpen : next.isOpen = b.isOpen
  capacity : ∀ queue, next.capacity queue = b.capacity queue
  belongs : event.queue = queue
  queued : ∀ queue, b.queued queue = Event.through queue [event] ++ next.queued queue

theorem loses_of_take? (hit : b.take? queue = some (event, next)) : b.Loses queue event next := by
  cases queue with
  | admin =>
    obtain ⟨⟨n, q⟩, popped, same⟩ := Option.map_eq_some_iff.mp hit
    cases same
    obtain ⟨items, capacity⟩ := Queue.items_pop popped
    refine ⟨rfl, ?_, rfl, ?_⟩
    · intro queue
      cases queue <;> simp [Bus.capacity, capacity]
    · intro queue
      cases queue <;> simp [Bus.queued, items, Event.through, Event.queue]
  | technician =>
    obtain ⟨⟨n, q⟩, popped, same⟩ := Option.map_eq_some_iff.mp hit
    cases same
    obtain ⟨items, capacity⟩ := Queue.items_pop popped
    refine ⟨rfl, ?_, rfl, ?_⟩
    · intro queue
      cases queue <;> simp [Bus.capacity, capacity]
    · intro queue
      cases queue <;> simp [Bus.queued, items, Event.through, Event.queue]
  | conversation =>
    obtain ⟨⟨e, q⟩, popped, same⟩ := Option.map_eq_some_iff.mp hit
    cases same
    obtain ⟨items, capacity⟩ := Queue.items_pop popped
    refine ⟨rfl, ?_, rfl, ?_⟩
    · intro queue
      cases queue <;> simp [Bus.capacity, capacity]
    · intro queue
      cases queue <;> simp [Bus.queued, items, Event.through, Event.queue]

theorem take?_eq_none : b.take? queue = none ↔ b.queued queue = [] := by
  cases queue <;>
    simp only [take?, Option.map_eq_none_iff, Queue.pop?_eq_none, queued, List.map_eq_nil_iff]

theorem take?_of_next? (hit : b.next? = some (event, next)) :
    ∃ queue, b.take? queue = some (event, next) := by
  unfold next? at hit
  split at hit
  · next found => exact ⟨.admin, found.trans hit⟩
  · next found => exact ⟨.technician, found.trans hit⟩
  · exact ⟨.conversation, hit⟩

theorem size_of_next? (idle : b.next? = none) : b.size = 0 := by
  unfold next? at idle
  split at idle
  · cases idle
  · cases idle
  · next admin technician =>
    simp only [take?, Option.map_eq_none_iff, Queue.pop?_eq_none] at admin technician idle
    rw [size, admin, technician, idle]
    rfl

theorem queued_of_size (idle : b.size = 0) (queue : QueueName) : b.queued queue = [] := by
  unfold size at idle
  apply List.eq_nil_of_length_eq_zero
  cases queue <;> simp only [queued, List.length_map] <;> omega

/-- At most one event has been put into the queues. -/
def Grown (b next : Bus) : Prop := next = b ∨ ∃ event, b.enqueue event = .ok next

end Bus

end Switchboard
