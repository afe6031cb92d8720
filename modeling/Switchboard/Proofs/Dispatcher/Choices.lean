import Switchboard.Proofs.Dispatcher.Acts
import Switchboard.Proofs.Exchange.Relinked

/-!
The queue that the dispatcher turns to next is anybody's choice. For a connection that is subscribed
to one of its topics only this does not matter: what becomes of it depends on the events of one
queue, and these come in their order.
-/

namespace Switchboard

def QueueName.topic : QueueName → Topic
  | admin => .adminNotifications
  | technician => .technicianNotifications
  | conversation => .adminConversations

theorem Event.topic_eq (event : Event) : event.topic = event.queue.topic := by
  rcases event with ⟨_ | _, _⟩ | _ <;> rfl

/-! ### Turns -/

theorem Hub.outage_dispatch (h : Hub) (event : Event) :
    (h.dispatch event).2.store.outage = h.store.outage := by
  rw [store_dispatch]
  cases event with
  | notification audience n =>
    unfold record Store.note
    dsimp only
    split <;> rfl
  | conversation e => rfl

def Store.failing (s : Store) (fails : Bool) : Store :=
  { s with outage := { s.outage with notifications := fails } }

/-- What things depend on, beside the dispatcher: whether the store fails on the event of a queue
that has so many in it yet, and what the link of a connection is that was offered these frames. -/
structure Milieu where
  fails : QueueName → Nat → Bool
  reacts : ConnId → List Frame → Link → Link

def Milieu.still (down : Bool) : Milieu := ⟨fun _ _ => down, fun _ _ link => link⟩

/-- A hub, and the frames that have been offered to each of its connections, with whether it took
them. -/
structure Draining where
  hub : Hub
  offers : ConnId → List (Frame × Bool)

namespace Draining

variable (m : Milieu) (s : Draining)

def audience (event : Event) : List ConnId :=
  match event.frame with
  | .ok _ => s.hub.exchange.membersOf event.topic
  | .error _ => []

def offered (event : Event) (id : ConnId) : List (Frame × Bool) :=
  match event.frame with
  | .ok frame => if id ∈ s.audience event then [(frame, s.hub.exchange.takes frame id)] else []
  | .error _ => []

def turn (queue : QueueName) : Draining :=
  match s.hub.bus.take? queue with
  | none => s
  | some (event, bus) =>
    let fails := m.fails queue (s.hub.bus.queued queue).length
    let hub := ({ s.hub with bus := bus, store := s.hub.store.failing fails }.dispatch event).2
    let offers := fun id => s.offers id ++ s.offered event id
    let reacts := fun id => m.reacts id ((offers id).map Prod.fst)
    ⟨{ hub with exchange := hub.exchange.changeLinks reacts (s.audience event) }, offers⟩

def run (queues : List QueueName) : Draining := queues.foldl (turn m) s

end Draining

/-! ### What becomes of one connection -/

structure View where
  conn : Option Conn
  member : Topic → Bool
  subscription : Option (List Topic)
  seat : Option ConversationId
  offers : List (Frame × Bool)

namespace View

def takes (v : View) (frame : Frame) : Bool :=
  match v.conn with
  | none => false
  | some c => (c.send frame).isOk

/-- After an event: a member is offered the frame, and with it everything ends for one that does
not take it. For all others nothing changes. -/
def after (m : Milieu) (id : ConnId) (v : View) (event : Event) : View :=
  match event.frame with
  | .error _ => v
  | .ok frame =>
    if v.member event.topic then
      let offers := v.offers ++ [(frame, v.takes frame)]
      let change := m.reacts id (offers.map Prod.fst)
      let conn := (v.conn.map (·.offered frame)).map fun c => { c with link := change c.link }
      if v.takes frame then { v with conn := conn, offers := offers }
      else ⟨conn, fun _ => false, none, none, offers⟩
    else v

theorem after_stranger {m : Milieu} {id : ConnId} {v : View} {event : Event}
    (stranger : v.member event.topic = false) : v.after m id event = v := by
  unfold after
  cases event.frame with
  | error why => rfl
  | ok frame => simp [stranger]

theorem member_after {m : Milieu} {id : ConnId} {v : View} {event : Event} {topic : Topic}
    (stranger : v.member topic = false) : (v.after m id event).member topic = false := by
  unfold after
  cases event.frame with
  | error why => exact stranger
  | ok frame =>
    dsimp only
    split
    · split
      · exact stranger
      · rfl
    · exact stranger

theorem after_member (m : Milieu) (id : ConnId) {v : View} {event : Event} {frame : Frame}
    (written : event.frame = .ok frame) (member : v.member event.topic = true) :
    (v.after m id event).offers = v.offers ++ [(frame, v.takes frame)] ∧
      ∃ change : Link → Link, (v.after m id event).conn =
        (v.conn.map (·.offered frame)).map fun c => { c with link := change c.link } := by
  unfold after
  rw [written]
  simp only [member, if_true]
  split
  · exact ⟨rfl, _, rfl⟩
  · exact ⟨rfl, _, rfl⟩

def closed (v : View) : Bool :=
  match v.conn with
  | none => true
  | some c => c.closed

/-- It is closed if it was at first, and if it has refused a frame. -/
def Told (atFirst : Bool) (v : View) : Prop :=
  v.closed = (atFirst || v.offers.any fun offer => !offer.2)

theorem Told.after {atFirst : Bool} {v : View} (told : v.Told atFirst) (m : Milieu) (id : ConnId)
    (event : Event) : (v.after m id event).Told atFirst := by
  cases member : v.member event.topic with
  | false => rwa [after_stranger member]
  | true =>
    cases written : event.frame with
    | error why =>
      unfold View.after
      rwa [written]
    | ok frame =>
      obtain ⟨offers, change, conn⟩ := after_member m id written member
      unfold Told closed at told ⊢
      rw [offers, conn]
      unfold takes
      cases found : v.conn with
      | none => simp
      | some c =>
        rw [found] at told
        cases sent : c.send frame with
        | ok k =>
          obtain ⟨opened, kept, -⟩ := Conn.send_ok sent
          simpa [Conn.offered, sent, opened, kept, Except.isOk, Except.toBool] using told
        | error why => simp [Conn.offered, sent, Conn.shut, Except.isOk, Except.toBool]

end View

namespace Draining

variable {m : Milieu} {s : Draining} {queue : QueueName} {event : Event} {bus : Bus}

def view (s : Draining) (id : ConnId) : View where
  conn := s.hub.exchange.conns.find? id
  member topic := s.hub.exchange.contains topic id
  subscription := s.hub.exchange.subscriptions.find? id
  seat := s.hub.exchange.seatOf id
  offers := s.offers id

theorem closed_view (s : Draining) (id : ConnId) :
    (s.view id).closed = s.hub.exchange.isClosed id := by
  unfold View.closed view Exchange.isClosed
  cases s.hub.exchange.conns.find? id <;> rfl

theorem bus_turn (found : s.hub.bus.take? queue = some (event, bus)) :
    (s.turn m queue).hub.bus = bus := by
  unfold turn
  rw [found]
  exact Hub.dispatch_bus _ event

theorem turn_nothing (nothing : s.hub.bus.take? queue = none) : s.turn m queue = s := by
  unfold turn
  rw [nothing]

theorem offers_turn (found : s.hub.bus.take? queue = some (event, bus)) (id : ConnId) :
    (s.turn m queue).offers id = s.offers id ++ s.offered event id := by
  unfold turn
  rw [found]

theorem exchange_turn (found : s.hub.bus.take? queue = some (event, bus)) :
    (s.turn m queue).hub.exchange = match event.frame with
      | .error _ => s.hub.exchange
      | .ok frame => s.hub.exchange.deliver event.topic frame
          fun id => m.reacts id ((s.offers id ++ s.offered event id).map Prod.fst) := by
  have recorded : ∀ h : Hub, (h.record event).exchange = h.exchange := by
    intro h
    obtain ⟨store, -, shape⟩ := h.record_eq event
    rw [shape]
  unfold turn audience Hub.dispatch
  rw [found]
  dsimp only
  cases event.frame with
  | error why => exact recorded _
  | ok frame =>
    dsimp only
    rw [recorded]
    rfl

theorem takes_view (s : Draining) (id : ConnId) (frame : Frame) :
    (s.view id).takes frame = s.hub.exchange.takes frame id :=
  (s.hub.exchange.takes_eq frame id).symm

/-- What becomes of a connection in a turn depends on what there is about it, and on the event. -/
theorem view_turn (h : s.hub.exchange.Consistent)
    (found : s.hub.bus.take? queue = some (event, bus)) (id : ConnId) :
    (s.turn m queue).view id = (s.view id).after m id event := by
  have offers := offers_turn (m := m) found id
  have exchange := exchange_turn (m := m) found
  unfold offered audience at offers
  unfold View.after
  cases written : event.frame with
  | error why =>
    rw [written] at offers exchange
    rw [List.append_nil] at offers
    simp only [view, offers, exchange]
  | ok frame =>
    rw [written] at offers exchange
    dsimp only at offers exchange ⊢
    rw [takes_view]
    unfold view
    rw [exchange, offers]
    simp only [Exchange.find?_conns_deliver h, Exchange.contains_deliver h,
      Exchange.find?_subscriptions_deliver h, Exchange.seatOf_deliver h, Exchange.mem_refusers]
    by_cases member : id ∈ s.hub.exchange.membersOf event.topic
    · have inside := Exchange.contains_iff.mpr member
      cases takes : s.hub.exchange.takes frame id with
      | true => simp [member, inside, takes, offered, audience, written]
      | false => simp [member, inside, takes, offered, audience, written]
    · simp [member, Exchange.contains]

theorem consistent_turn (h : s.hub.exchange.Consistent) (queue : QueueName) :
    (s.turn m queue).hub.exchange.Consistent := by
  cases found : s.hub.bus.take? queue with
  | none =>
    rwa [turn_nothing found]
  | some taken =>
    rw [exchange_turn found]
    cases taken.1.frame with
    | error why => exact h
    | ok frame => exact h.deliver _ _ _

/-! ### What is stored -/

def stored (audience : Audience) (fails : Bool) : Event → List Notification
  | .notification other n => if other = audience ∧ fails = false then [n] else []
  | .conversation _ => []

theorem stored_turn (found : s.hub.bus.take? queue = some (event, bus)) (audience : Audience) :
    (s.turn m queue).hub.store.notificationsFor audience =
      s.hub.store.notificationsFor audience ++
        stored audience (m.fails queue (s.hub.bus.queued queue).length) event := by
  unfold turn
  rw [found]
  dsimp only
  rw [Hub.store_dispatch]
  unfold Hub.record Store.note Store.failing
  cases event with
  | conversation e => simp [stored, Store.notificationsFor]
  | notification other n =>
    dsimp only
    cases fails : m.fails queue (s.hub.bus.queued queue).length with
    | true => simp [stored, Store.notificationsFor]
    | false =>
      by_cases self : other = audience <;> simp [stored, Store.notificationsFor, self]

/-! ### Runs -/

theorem queued_take (found : s.hub.bus.take? queue = some (event, bus)) :
    s.hub.bus.queued queue = event :: bus.queued queue ∧
      ∀ other, other ≠ queue → s.hub.bus.queued other = bus.queued other := by
  have loses := Bus.loses_of_take? found
  constructor
  · rw [loses.queued queue, Event.through, List.filter_cons_of_pos (by simp [loses.belongs])]
    rfl
  · intro other different
    rw [loses.queued other, Event.through,
      List.filter_cons_of_neg (by simp [loses.belongs, Ne.symm different])]
    rfl

/-- The queues do not depend on what becomes of the events. -/
theorem bus_run (s : Draining) (queues : List QueueName) :
    (s.run m queues).hub.bus = queues.foldl (fun bus queue =>
      match bus.take? queue with
      | none => bus
      | some (_, next) => next) s.hub.bus := by
  induction queues generalizing s with
  | nil => rfl
  | cons queue queues ih =>
    rw [List.foldl_cons]
    change ((s.turn m queue).run m queues).hub.bus = _
    rw [ih]
    cases found : s.hub.bus.take? queue with
    | none =>
      rw [turn_nothing found]
    | some taken => rw [bus_turn found]

def through {α : Type} (after : α → Event → Nat → α) (start : α) : List Event → α
  | [] => start
  | event :: events => through after (after start event (events.length + 1)) events

/-- Something that only the events of one queue have an effect on, in a run that empties it. -/
theorem run_through {α : Type} (look : Draining → α) (after : α → Event → Nat → α)
    (queue : QueueName) (holds : Draining → Prop)
    (keeps : ∀ s other, holds s → holds (s.turn m other))
    (own : ∀ s event bus, holds s → s.hub.bus.take? queue = some (event, bus) →
      look (s.turn m queue) = after (look s) event (s.hub.bus.queued queue).length)
    (aside : ∀ s other event bus, holds s → other ≠ queue →
      s.hub.bus.take? other = some (event, bus) → look (s.turn m other) = look s)
    (start : holds s) (queues : List QueueName)
    (done : (s.run m queues).hub.bus.queued queue = []) :
    look (s.run m queues) = through after (look s) (s.hub.bus.queued queue) := by
  induction queues generalizing s with
  | nil =>
    change s.hub.bus.queued queue = [] at done
    rw [done]
    rfl
  | cons next queues ih =>
    have rest := ih (keeps s next start) done
    change look ((s.turn m next).run m queues) = _
    rw [rest]
    cases found : s.hub.bus.take? next with
    | none =>
      rw [turn_nothing found]
    | some taken =>
      obtain ⟨event, bus⟩ := taken
      obtain ⟨front, others⟩ := queued_take found
      rw [bus_turn found]
      by_cases self : next = queue
      · subst self
        rw [own s event bus start found, front]
        rfl
      · rw [aside s next event bus start self found, others queue (Ne.symm self)]

def queueOf : Audience → QueueName
  | .admin => .admin
  | .technician => .technician

theorem stored_elsewhere {audience : Audience} (elsewhere : event.queue ≠ queueOf audience)
    (fails : Bool) : stored audience fails event = [] := by
  rcases event with ⟨_ | _, _⟩ | _ <;> cases audience <;> simp_all [stored, queueOf, Event.queue]

theorem stored_run (s : Draining) (audience : Audience) (queues : List QueueName)
    (done : (s.run m queues).hub.bus.queued (queueOf audience) = []) :
    (s.run m queues).hub.store.notificationsFor audience =
      through (fun kept event left =>
          kept ++ stored audience (m.fails (queueOf audience) left) event)
        (s.hub.store.notificationsFor audience) (s.hub.bus.queued (queueOf audience)) := by
  refine run_through (fun s => s.hub.store.notificationsFor audience) _ (queueOf audience)
    (fun _ => True) (fun _ _ _ => trivial) ?_ ?_ trivial queues done
  · intro s event bus _ found
    exact stored_turn found audience
  · intro s other event bus _ different found
    have belongs := (Bus.loses_of_take? found).belongs
    rw [stored_turn found, stored_elsewhere (belongs ▸ different), List.append_nil]

/-- The exchange is consistent, and a connection is a member of no topic but that of one queue. -/
structure Only (queue : QueueName) (id : ConnId) (s : Draining) : Prop where
  consistent : s.hub.exchange.Consistent
  stranger : ∀ other, other ≠ queue → (s.view id).member other.topic = false

theorem Only.turn {id : ConnId} (h : s.Only queue id) (next : QueueName) :
    (s.turn m next).Only queue id where
  consistent := consistent_turn h.consistent next
  stranger := by
    intro other different
    cases found : s.hub.bus.take? next with
    | none =>
      rw [turn_nothing found]
      exact h.stranger other different
    | some taken =>
      rw [view_turn h.consistent found]
      exact View.member_after (h.stranger other different)

theorem view_run {id : ConnId} (h : s.Only queue id) (queues : List QueueName)
    (done : (s.run m queues).hub.bus.queued queue = []) :
    (s.run m queues).view id =
      through (fun v event _ => v.after m id event) (s.view id) (s.hub.bus.queued queue) := by
  refine run_through (fun s => s.view id) _ queue (Only queue id) (fun s other h => h.turn other)
    ?_ ?_ h queues done
  · intro s event bus h found
    exact view_turn h.consistent found id
  · intro s other event bus h different found
    -- an event of another queue goes to a topic that the connection is no member of
    have belongs := (Bus.loses_of_take? found).belongs
    rw [view_turn h.consistent found, View.after_stranger]
    rw [event.topic_eq, belongs]
    exact h.stranger other different

/-! ### The topics -/

theorem keys_turn (s : Draining) (queue : QueueName) :
    (s.turn m queue).hub.exchange.members.keys = s.hub.exchange.members.keys := by
  cases found : s.hub.bus.take? queue with
  | none =>
    rw [turn_nothing found]
  | some taken =>
    rw [exchange_turn found]
    cases taken.1.frame with
    | error why => rfl
    | ok frame => exact Exchange.keys_deliver ..

theorem membersOf_turn (h : s.hub.exchange.Consistent) (queue : QueueName) (topic : Topic) :
    (s.turn m queue).hub.exchange.membersOf topic =
      (s.hub.exchange.membersOf topic).filter fun id =>
        (s.turn m queue).hub.exchange.contains topic id := by
  cases found : s.hub.bus.take? queue with
  | none =>
    rw [turn_nothing found]
    exact (Exchange.filter_contains ..).symm
  | some taken =>
    rw [exchange_turn found]
    cases taken.1.frame with
    | error why => exact (Exchange.filter_contains ..).symm
    | ok frame =>
      dsimp only
      rw [Exchange.membersOf_deliver h]
      apply List.filter_congr
      intro id member
      rw [Exchange.contains_deliver h]
      rw [Exchange.contains_iff.mpr member]
      by_cases refuses : id ∈ s.hub.exchange.refusers taken.1.topic frame <;> simp [refuses]

theorem keys_run (s : Draining) (queues : List QueueName) :
    (s.run m queues).hub.exchange.members.keys = s.hub.exchange.members.keys := by
  induction queues generalizing s with
  | nil => rfl
  | cons queue queues ih => exact (ih (s.turn m queue)).trans (keys_turn s queue)

theorem membersOf_run (h : s.hub.exchange.Consistent) (queues : List QueueName) (topic : Topic) :
    (s.run m queues).hub.exchange.membersOf topic =
      (s.hub.exchange.membersOf topic).filter fun id =>
        (s.run m queues).hub.exchange.contains topic id := by
  induction queues generalizing s with
  | nil =>
    exact (Exchange.filter_contains ..).symm
  | cons queue queues ih =>
    have rest := ih (consistent_turn (m := m) h queue)
    change ((s.turn m queue).run m queues).hub.exchange.membersOf topic = _
    rw [rest, membersOf_turn h queue topic, List.filter_filter]
    apply List.filter_congr
    intro id _
    change (((s.turn m queue).run m queues).hub.exchange.contains topic id && _) =
      ((s.turn m queue).run m queues).hub.exchange.contains topic id
    cases stays : ((s.turn m queue).run m queues).hub.exchange.contains topic id with
    | false => rfl
    | true =>
      have member := Exchange.contains_iff.mp stays
      rw [rest] at member
      exact Exchange.contains_iff.mpr (List.mem_filter.mp member).1

/-! ### The loop -/

theorem turn_still (d : Dispatcher) (offers : ConnId → List (Frame × Bool)) (queue : QueueName) :
    ((⟨d.hub, offers⟩ : Draining).turn (.still d.hub.store.outage.notifications) queue).hub =
      (d.receive queue).hub := by
  unfold turn Dispatcher.receive
  cases d.hub.bus.take? queue with
  | none =>
    dsimp only
    split <;> rfl
  | some taken =>
    dsimp only [Milieu.still]
    rw [Exchange.changeLinks_self]
    rfl

/-- And a run is a run of the loop, as long as there are notifiers. -/
theorem run_still (d : Dispatcher) (running : d.loop = .running) (live : d.live = QueueName.all)
    (shared : d.notifiers ≠ 0) (offers : ConnId → List (Frame × Bool)) (queues : List QueueName) :
    ((⟨d.hub, offers⟩ : Draining).run (.still d.hub.store.outage.notifications) queues).hub =
      (d.run (queues.map fun queue => .turn (some queue))).hub := by
  induction queues generalizing d offers with
  | nil => rfl
  | cons queue queues ih =>
    have received : d.step (.turn (some queue)) = d.receive queue := by
      change d.turn (some queue) = _
      unfold Dispatcher.turn
      rw [if_pos running, live, if_neg QueueName.all_ne_nil]
      exact if_pos (QueueName.mem_all queue)
    have kept : (d.receive queue).loop = d.loop ∧ (d.receive queue).live = d.live ∧
        (d.receive queue).notifiers = d.notifiers ∧
        (d.receive queue).hub.store.outage = d.hub.store.outage := by
      unfold Dispatcher.receive
      cases d.hub.bus.take? queue with
      | none =>
        dsimp only
        rw [if_neg shared]
        exact ⟨rfl, rfl, rfl, rfl⟩
      | some taken => exact ⟨rfl, rfl, rfl, Hub.outage_dispatch _ _⟩
    obtain ⟨loop, lives, notifiers, outage⟩ := kept
    have rest := ih (d.receive queue) (loop.trans running) (lives.trans live)
      (notifiers ▸ shared) ((⟨d.hub, offers⟩ : Draining).turn
        (.still d.hub.store.outage.notifications) queue).offers
    rw [outage, ← turn_still d offers queue] at rest
    rw [List.map_cons, Dispatcher.run_cons, received]
    exact rest

/-! ### Two runs -/

theorem told_run {atFirst : Bool} {id : ConnId} (h : s.hub.exchange.Consistent)
    (told : (s.view id).Told atFirst) (queues : List QueueName) :
    ((s.run m queues).view id).Told atFirst := by
  induction queues generalizing s with
  | nil => exact told
  | cons queue queues ih =>
    refine ih (consistent_turn h queue) ?_
    cases found : s.hub.bus.take? queue with
    | none =>
      rwa [turn_nothing found]
    | some taken =>
      rw [view_turn h found]
      exact told.after m id _

def start (hub : Hub) : Draining := ⟨hub, fun _ => []⟩

theorem exists_only {hub : Hub} {id : ConnId} (consistent : hub.exchange.Consistent)
    (apart : ∀ queue other : QueueName, hub.exchange.contains queue.topic id = true →
      hub.exchange.contains other.topic id = true → queue = other) :
    ∃ queue, (start hub).Only queue id := by
  by_cases member : ∃ queue : QueueName, hub.exchange.contains queue.topic id = true
  · obtain ⟨queue, inside⟩ := member
    refine ⟨queue, consistent, fun other different => ?_⟩
    exact Bool.eq_false_iff.mpr fun there => different (apart other queue there inside)
  · refine ⟨.admin, consistent, fun other _ => ?_⟩
    exact Bool.eq_false_iff.mpr fun there => member ⟨other, there⟩

end Draining

structure Exchange.Indistinct (x y : Exchange) : Prop where
  conns : ∀ id, x.conns.find? id = y.conns.find? id
  known : x.members.keys = y.members.keys
  members : ∀ topic, x.members.find? topic = y.members.find? topic
  subscriptions : ∀ id, x.subscriptions.find? id = y.subscriptions.find? id
  seats : ∀ id, x.seats.find? id = y.seats.find? id

namespace Draining

theorem view_alike {m : Milieu} {hub : Hub} {id : ConnId} {as bs : List QueueName}
    (only : ∃ queue, (start hub).Only queue id)
    (drainedAs : ∀ queue, ((start hub).run m as).hub.bus.queued queue = [])
    (drainedBs : ∀ queue, ((start hub).run m bs).hub.bus.queued queue = []) :
    ((start hub).run m as).view id = ((start hub).run m bs).view id := by
  obtain ⟨queue, only⟩ := only
  rw [view_run only as (drainedAs queue), view_run only bs (drainedBs queue)]

/-- A dispatcher may choose the queue for each of its turns as it likes. If no connection is a
member of topics of two queues, and if the same things fail, then all choices that leave nothing in
the queues come out alike: every connection is offered the same frames, takes the same of them and
is closed if there is one that it does not take; the same notifications are stored for each
audience, and the exchanges cannot be told apart. The exchange they begin with is consistent, as are
all that operations lead to. -/
theorem choices_alike (m : Milieu) (hub : Hub) (as bs : List QueueName)
    (consistent : hub.exchange.Consistent)
    (apart : ∀ (id : ConnId) (queue other : QueueName),
      hub.exchange.contains queue.topic id = true →
      hub.exchange.contains other.topic id = true → queue = other)
    (drainedAs : ∀ queue, ((start hub).run m as).hub.bus.queued queue = [])
    (drainedBs : ∀ queue, ((start hub).run m bs).hub.bus.queued queue = []) :
    let a := (start hub).run m as
    let b := (start hub).run m bs
    (∀ id, a.offers id = b.offers id ∧
      a.hub.exchange.sentTo id = b.hub.exchange.sentTo id ∧
      a.hub.exchange.isClosed id = b.hub.exchange.isClosed id ∧
      a.hub.exchange.isClosed id =
        (hub.exchange.isClosed id || (a.offers id).any fun offer => !offer.2)) ∧
    (∀ audience, a.hub.store.notificationsFor audience = b.hub.store.notificationsFor audience) ∧
    a.hub.exchange.Indistinct b.hub.exchange := by
  intro a b
  have views : ∀ id, a.view id = b.view id := fun id =>
    view_alike (exists_only consistent (apart id)) drainedAs drainedBs
  have conns : ∀ id, a.hub.exchange.conns.find? id = b.hub.exchange.conns.find? id := fun id =>
    congrArg View.conn (views id)
  have known : a.hub.exchange.members.keys = b.hub.exchange.members.keys :=
    (keys_run _ as).trans (keys_run _ bs).symm
  have membersOf : ∀ topic, a.hub.exchange.membersOf topic = b.hub.exchange.membersOf topic := by
    intro topic
    rw [membersOf_run consistent as, membersOf_run consistent bs]
    exact List.filter_congr fun id _ => congrFun (congrArg View.member (views id)) topic
  refine ⟨fun id => ⟨congrArg View.offers (views id), ?_, ?_, ?_⟩, fun audience => ?_, ?_⟩
  · unfold Exchange.sentTo
    rw [conns]
  · unfold Exchange.isClosed
    rw [conns]
  · have told : ((start hub).view id).Told (hub.exchange.isClosed id) := by
      unfold View.Told
      rw [closed_view]
      exact (Bool.or_false _).symm
    rw [← closed_view]
    exact told_run consistent told as
  · rw [stored_run _ audience as (drainedAs _), stored_run _ audience bs (drainedBs _)]
  · exact ⟨conns, known, fun topic => Exchange.find?_members_eq known (membersOf topic),
      fun id => congrArg View.subscription (views id), fun id => congrArg View.seat (views id)⟩

def watched : Hub :=
  let x := Exchange.empty.connect 1 (.peer (.fresh none))
  let x := (x.join .adminNotifications 1).2.connect 2 (.peer (.fresh (some 0)))
  let x := (x.join .technicianNotifications 2).2
  let note : Notification := ⟨7, "disk", "full", .null⟩
  let queue : Queue Notification := ⟨4, [note], by decide⟩
  { Hub.fresh [] .standard with exchange := x, bus := ⟨true, queue, queue, .empty 4⟩ }

theorem watched_consistent : watched.exchange.Consistent := by
  refine Exchange.Consistent.join (Exchange.Consistent.connect ?_ (by decide) _) (by decide) _
  exact (Exchange.empty_consistent.connect (by decide) _).join (by decide) _

theorem choices_alike_watched :
    let m : Milieu := ⟨fun queue _ => queue = .technician, fun _ _ link => link⟩
    let a := (start watched).run m [.admin, .technician]
    let b := (start watched).run m [.technician, .technician, .admin]
    (∀ id, a.offers id = b.offers id ∧
      a.hub.exchange.sentTo id = b.hub.exchange.sentTo id ∧
      a.hub.exchange.isClosed id = b.hub.exchange.isClosed id ∧
      a.hub.exchange.isClosed id =
        (watched.exchange.isClosed id || (a.offers id).any fun offer => !offer.2)) ∧
    (∀ audience, a.hub.store.notificationsFor audience = b.hub.store.notificationsFor audience) ∧
    a.hub.exchange.Indistinct b.hub.exchange := by
  intro m
  apply choices_alike m watched [.admin, .technician] [.technician, .technician, .admin]
    watched_consistent
  · have members : ∀ queue : QueueName, watched.exchange.membersOf queue.topic =
        match queue with
        | .admin => [1]
        | .technician => [2]
        | .conversation => [] := by
      intro queue
      cases queue <;> decide
    intro id queue other inside there
    rw [Exchange.contains_iff, members] at inside there
    cases queue <;> cases other <;> simp_all
  · intro queue
    rw [bus_run]
    cases queue <;> rfl
  · intro queue
    rw [bus_run]
    cases queue <;> rfl

end Draining

end Switchboard
