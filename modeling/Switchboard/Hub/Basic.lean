import Switchboard.Bus
import Switchboard.Config.Basic
import Switchboard.Exchange.Rooms
import Switchboard.Store

/-!
The hub: credentials and limits, the exchange, the store and the dispatcher's queues; and how an
event is dispatched.
-/

namespace Switchboard

structure Hub where
  tokens : List TokenEntry
  limits : Limits
  exchange : Exchange
  store : Store
  bus : Bus

namespace Hub

def fresh (tokens : List TokenEntry) (limits : Limits) : Hub :=
  ⟨tokens, limits, .empty, .empty, .fresh limits.queueCapacity.toNat⟩

def record (h : Hub) : Event → Hub
  | .notification audience n => { h with store := (h.store.note audience n).2 }
  | .conversation _ => h

/-- Stores and publishes an event; publishing does not depend on storing. -/
def dispatch (h : Hub) (event : Event) : Report × Hub :=
  let h := h.record event
  match event.frame with
  | .error _ => (⟨0, 0⟩, h)
  | .ok frame =>
    let (report, x) := h.exchange.publish event.topic frame
    (report, { h with exchange := x })

def dispatchAll (h : Hub) : Hub :=
  match _next : h.bus.next? with
  | none => h
  | some (event, bus) => dispatchAll ({ h with bus := bus }.dispatch event).2
termination_by h.bus.size
decreasing_by
  have less := Bus.next?_size _next
  have kept (h : Hub) : (h.dispatch event).2.bus = h.bus := by
    unfold dispatch record
    grind
  rw [kept]
  exact less

end Hub

end Switchboard
