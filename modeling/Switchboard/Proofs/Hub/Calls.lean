import Switchboard.Proofs.Hub.Chatted

/-!
What the dispatching of an event comes to outside of the queues: calls to the store and to the
exchange.
-/

namespace Switchboard

structure World where
  exchange : Exchange
  store : Store

def Hub.world (h : Hub) : World := ⟨h.exchange, h.store⟩

/-- The dispatcher creates notifications and publishes; `elsewhere` is whatever others do. -/
inductive Call
  | create (audience : Audience) (n : Notification)
  | publish (topic : Topic) (frame : Frame)
  | elsewhere (w : World)

namespace Call

def perform (w : World) : Call → World
  | create audience n => { w with store := (w.store.note audience n).2 }
  | publish topic frame => { w with exchange := (w.exchange.publish topic frame).2 }
  | elsewhere w => w

def isDispatchers : Call → Bool
  | elsewhere _ => false
  | _ => true

end Call

namespace Event

def recording : Event → List Call
  | notification audience n => [.create audience n]
  | conversation _ => []

/-- What the store is asked to keep. -/
def noted : Event → List (Audience × Notification)
  | notification audience n => [(audience, n)]
  | conversation _ => []

def publishing (event : Event) : List Call :=
  match event.frame with
  | .ok frame => [.publish event.topic frame]
  | .error _ => []

def calls (event : Event) : List Call := event.recording ++ event.publishing

theorem publishing_cases (event : Event) :
    event.publishing = [] ∨ ∃ frame, event.publishing = [.publish event.topic frame] := by
  unfold publishing
  cases event.frame with
  | error _ => exact Or.inl rfl
  | ok frame => exact Or.inr ⟨frame, rfl⟩

theorem isDispatchers_calls (event : Event) : ∀ call ∈ event.calls, call.isDispatchers = true := by
  have publishing : ∀ call ∈ event.publishing, call.isDispatchers = true := by
    intro call member
    rcases event.publishing_cases with shape | ⟨frame, shape⟩
    · rw [shape] at member
      cases member
    · rw [shape, List.mem_singleton] at member
      rw [member]
      rfl
  cases event with
  | notification audience n =>
    intro call member
    rcases List.mem_cons.mp member with rfl | member
    · rfl
    · exact publishing call member
  | conversation e => exact publishing

end Event

namespace Hub

theorem record_world (h : Hub) (event : Event) :
    (h.record event).world = event.recording.foldl Call.perform h.world := by
  cases event <;> rfl

theorem dispatch_bus (h : Hub) (event : Event) : (h.dispatch event).2.bus = h.bus := by
  obtain ⟨store, -, shape | ⟨frame, -, shape⟩⟩ := h.dispatch_cases event <;> rw [shape]

theorem store_dispatch (h : Hub) (event : Event) :
    (h.dispatch event).2.store = (h.record event).store := by
  unfold dispatch
  dsimp only
  cases event.frame <;> rfl

theorem asked_dispatch (h : Hub) (event : Event) :
    (h.dispatch event).2.store.asked = h.store.asked ++ event.noted := by
  rw [store_dispatch]
  cases event with
  | notification audience n =>
    unfold record Store.note
    dsimp only
    split <;> rfl
  | conversation e => exact (List.append_nil _).symm

theorem dispatch_world (h : Hub) (event : Event) :
    (h.dispatch event).2.world = event.calls.foldl Call.perform h.world := by
  rw [Event.calls, List.foldl_append, ← record_world]
  unfold dispatch Event.publishing
  dsimp only
  cases event.frame <;> rfl

end Hub

end Switchboard
