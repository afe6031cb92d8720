/-!
Bounded queues, first in first out. A full queue refuses.
-/

namespace Switchboard

structure Queue (α : Type) where
  capacity : Nat
  items : List α
  fits : items.length ≤ capacity

inductive CapacityFault
  | zero
  | tooLarge
  deriving DecidableEq, Repr

namespace Queue

def maxCapacity : Nat := Nat.pow 2 61 - 1

def checkCapacity (capacity : Nat) : Except CapacityFault Unit :=
  if capacity = 0 then .error .zero
  else if maxCapacity < capacity then .error .tooLarge
  else .ok ()

variable {α : Type}

def empty (capacity : Nat) : Queue α := ⟨capacity, [], Nat.zero_le _⟩

def isFull (q : Queue α) : Bool := decide (q.capacity ≤ q.items.length)

def push? (q : Queue α) (item : α) : Option (Queue α) :=
  if room : q.items.length < q.capacity then
    some ⟨q.capacity, q.items ++ [item], by
      simp only [List.length_append, List.length_singleton]
      omega⟩
  else none

def pop? (q : Queue α) : Option (α × Queue α) :=
  match inside : q.items with
  | [] => none
  | item :: items =>
    some (item, ⟨q.capacity, items, by have := q.fits; grind⟩)

def clear (q : Queue α) : Queue α := empty q.capacity

theorem push?_isSome (q : Queue α) (item : α) : (q.push? item).isSome = !q.isFull := by
  unfold push? isFull
  split <;> simp <;> omega

theorem items_push {q next : Queue α} {item : α} (hit : q.push? item = some next) :
    next.items = q.items ++ [item] ∧ next.capacity = q.capacity := by
  unfold push? at hit
  split at hit <;> cases hit
  exact ⟨rfl, rfl⟩

theorem items_pop {q next : Queue α} {item : α} (hit : q.pop? = some (item, next)) :
    q.items = item :: next.items ∧ next.capacity = q.capacity := by
  unfold pop? at hit
  split at hit <;> cases hit
  exact ⟨by assumption, rfl⟩

end Queue

def CapacityFault.message : CapacityFault → String
  | zero => "mpsc bounded channel requires buffer > 0"
  | tooLarge =>
    let most := Queue.maxCapacity
    s!"a semaphore may not have more than MAX_PERMITS permits ({most})"

end Switchboard
