import Switchboard.Proofs.Dispatcher.Changes

/-!
Every event taken into a queue is dispatched once and in its turn, as long as nobody stops the
dispatcher.
-/

namespace Switchboard.Dispatcher

variable {d next : Dispatcher} {taken sent accepted dispatched : List Event} {made : List Call}
  {capacity : Nat}

/-! ### What every act keeps -/

/-- The books are in order: what was accepted is what has been dispatched and what is still
queued, and the loop gives up only queues that nothing can come out of any more. -/
structure InOrder (d : Dispatcher) (capacity : Nat) (accepted dispatched : List Event) : Prop where
  isOpen : d.hub.bus.isOpen = true ↔ d.Exists
  capacity : ∀ queue, d.hub.bus.capacity queue = capacity
  spent : ∀ queue, queue ∉ d.live → d.notifiers = 0 ∧ d.queued queue = []
  balance : d.Exists → ∀ queue,
    Event.through queue accepted = Event.through queue dispatched ++ d.queued queue
  early : ∀ queue, Event.through queue dispatched <+: Event.through queue accepted
  complete : d.loop = .ended → d.cancelled = false →
    d.notifiers = 0 ∧ ∀ queue, Event.through queue accepted = Event.through queue dispatched

theorem fresh_inOrder (hub : Hub) (capacity : Nat) :
    (fresh hub capacity).InOrder capacity [] [] where
  isOpen := ⟨fun _ => Or.inl rfl, fun _ => rfl⟩
  capacity := Bus.capacity_fresh capacity
  spent := fun queue dead => absurd queue.mem_all dead
  balance := fun _ queue => (Bus.queued_fresh capacity queue).symm
  early := fun _ => List.prefix_rfl
  complete := fun ended => Loop.noConfusion ended

theorem InOrder.drained (h : d.InOrder capacity accepted dispatched) (spent : d.live = []) :
    d.notifiers = 0 ∧ ∀ queue, d.queued queue = [] := by
  have dead : ∀ queue, queue ∉ d.live := by
    intro queue live
    rw [spent] at live
    cases live
  exact ⟨(h.spent .admin (dead _)).1, fun queue => (h.spent queue (dead queue)).2⟩

theorem InOrder.stop (h : d.InOrder capacity accepted dispatched) {loop : Loop} (here : d.Exists)
    (gone : loop ≠ .idle ∧ loop ≠ .running)
    (why : loop = .ended → d.live = [] ∨ d.cancelled = true) :
    (d.stop loop).InOrder capacity accepted dispatched where
  isOpen := by
    constructor
    · intro isOpen
      cases isOpen
    · rintro (idle | running)
      · exact absurd idle gone.1
      · exact absurd running gone.2
  capacity := by
    intro queue
    exact (Bus.capacity_shut d.hub.bus queue).trans (h.capacity queue)
  spent := by
    intro queue dead
    exact ⟨(h.spent queue dead).1, Bus.queued_shut d.hub.bus queue⟩
  balance := by
    rintro (idle | running)
    · exact absurd idle gone.1
    · exact absurd running gone.2
  early := h.early
  complete := by
    intro ended uncancelled
    rcases why ended with spent | cancelled
    · obtain ⟨alone, empty⟩ := h.drained spent
      refine ⟨alone, ?_⟩
      intro queue
      rw [h.balance here queue, empty queue, List.append_nil]
    · rw [show d.cancelled = false from uncancelled] at cancelled
      cases cancelled

theorem InOrder.keeps (h : d.InOrder capacity accepted dispatched)
    (bus : next.hub.bus = d.hub.bus) (live : next.live = d.live)
    (loop : next.loop = d.loop ∨ (d.loop = .idle ∧ next.loop = .running))
    (notifiers : d.notifiers = 0 → next.notifiers = 0)
    (cancelled : next.cancelled = false → d.cancelled = false) :
    next.InOrder capacity accepted dispatched := by
  have here : next.Exists ↔ d.Exists := by
    unfold Exists
    rcases loop with same | ⟨idle, running⟩
    · rw [same]
    · exact ⟨fun _ => Or.inl idle, fun _ => Or.inr running⟩
  have queued : ∀ queue, next.queued queue = d.queued queue :=
    fun queue => congrArg (Bus.queued · queue) bus
  constructor
  · rw [bus, here]
    exact h.isOpen
  · intro queue
    rw [bus]
    exact h.capacity queue
  · intro queue dead
    rw [live] at dead
    rw [queued queue]
    exact (h.spent queue dead).imp_left notifiers
  · intro exists' queue
    rw [queued queue]
    exact h.balance (here.mp exists') queue
  · exact h.early
  · intro ended uncancelled
    have before : d.loop = .ended := by
      rcases loop with same | ⟨-, running⟩
      · rw [← same, ended]
      · rw [ended] at running
        cases running
    exact (h.complete before (cancelled uncancelled)).imp_left notifiers

theorem InOrder.accepts (h : d.InOrder capacity accepted dispatched) {event : Event} {bus : Bus}
    (held : d.notifiers ≠ 0) (isOpen : d.hub.bus.isOpen = true)
    (gains : d.hub.bus.Gains event bus) :
    { d with hub := { d.hub with bus := bus } }.InOrder capacity (accepted ++ [event])
      dispatched := by
  have here := h.isOpen.mp isOpen
  have balance : ∀ queue, Event.through queue (accepted ++ [event]) =
      Event.through queue dispatched ++ bus.queued queue := by
    intro queue
    rw [Event.through_append, h.balance here queue, gains.queued queue, List.append_assoc]
    rfl
  constructor
  · exact ⟨fun _ => here, fun _ => gains.isOpen.trans isOpen⟩
  · intro queue
    exact (gains.capacity queue).trans (h.capacity queue)
  · intro queue dead
    exact absurd (h.spent queue dead).1 held
  · intro _ queue
    exact balance queue
  · intro queue
    exact ⟨bus.queued queue, (balance queue).symm⟩
  · intro ended _
    exact absurd ended here.not_ended

theorem InOrder.dispatches (h : d.InOrder capacity accepted dispatched) {queue : QueueName}
    {event : Event} {hub : Hub} (running : d.loop = .running)
    (loses : d.hub.bus.Loses queue event hub.bus) :
    { d with hub := hub }.InOrder capacity accepted (dispatched ++ [event]) := by
  have here : d.Exists := Or.inr running
  have balance : ∀ queue, Event.through queue accepted =
      Event.through queue (dispatched ++ [event]) ++ hub.bus.queued queue := by
    intro queue
    rw [Event.through_append, List.append_assoc, ← loses.queued queue]
    exact h.balance here queue
  constructor
  · exact ⟨fun _ => here, fun _ => loses.isOpen.trans (h.isOpen.mpr here)⟩
  · intro queue
    exact (loses.capacity queue).trans (h.capacity queue)
  · intro queue dead
    obtain ⟨alone, empty⟩ := h.spent queue dead
    refine ⟨alone, ?_⟩
    have before := loses.queued queue
    rw [show d.hub.bus.queued queue = [] from empty] at before
    exact (List.append_eq_nil_iff.mp before.symm).2
  · intro _ queue
    exact balance queue
  · intro queue
    exact ⟨hub.bus.queued queue, (balance queue).symm⟩
  · intro ended _
    exact absurd ended here.not_ended

theorem InOrder.closes (h : d.InOrder capacity accepted dispatched) {queue : QueueName}
    (alone : d.notifiers = 0) (empty : d.queued queue = []) :
    { d with live := d.live.filter (· ≠ queue) }.InOrder capacity accepted dispatched := by
  refine ⟨h.isOpen, h.capacity, ?_, h.balance, h.early, h.complete⟩
  intro other dead
  refine ⟨alone, ?_⟩
  by_cases same : other = queue
  · rw [same]
    exact empty
  · have before : other ∉ d.live := fun live =>
      dead (List.mem_filter.mpr ⟨live, decide_eq_true same⟩)
    exact (h.spent other before).2

theorem InOrder.change (h : d.InOrder capacity accepted dispatched)
    (change : d.Change taken sent made next) :
    next.InOrder capacity (accepted ++ taken) (dispatched ++ sent) := by
  cases change with
  | keeps hub live loop notifiers cancelled =>
    rw [List.append_nil, List.append_nil]
    exact h.keeps (congrArg Hub.bus hub) live loop notifiers cancelled
  | accepts held isOpen gains =>
    rw [List.append_nil]
    exact h.accepts held isOpen gains
  | dispatches running loses world =>
    rw [List.append_nil]
    exact h.dispatches running loses
  | closes running alone empty =>
    rw [List.append_nil, List.append_nil]
    exact h.closes alone empty
  | ends running why =>
    rw [List.append_nil, List.append_nil]
    exact h.stop (Or.inr running) ended_gone fun _ => why
  | drops here =>
    rw [List.append_nil, List.append_nil]
    exact h.stop here dropped_gone fun ended => Loop.noConfusion ended
  | elsewhere w =>
    rw [List.append_nil, List.append_nil]
    exact h.keeps rfl rfl (Or.inl rfl) id id

theorem InOrder.step (h : d.InOrder capacity accepted dispatched) (a : Act) :
    (d.step a).InOrder capacity (accepted ++ d.accepts a) (dispatched ++ d.dispatches a) :=
  h.change (step_changes d a)

theorem InOrder.run (h : d.InOrder capacity accepted dispatched) (acts : List Act) :
    (d.run acts).InOrder capacity (accepted ++ d.accepted acts)
      (dispatched ++ d.dispatched acts) := by
  induction acts generalizing d accepted dispatched with
  | nil =>
    unfold Dispatcher.accepted Dispatcher.dispatched history
    rw [List.append_nil, List.append_nil]
    exact h
  | cons a acts ih =>
    have later := ih (h.step a)
    rw [List.append_assoc, List.append_assoc] at later
    exact later

/-! ### What follows -/

theorem InOrder.length_queued (h : d.InOrder capacity accepted dispatched) (queue : QueueName) :
    (d.queued queue).length ≤ capacity := by
  rw [← h.capacity queue]
  exact d.hub.bus.length_queued queue

theorem enqueue_answer (d : Dispatcher) (event : Event) :
    (d.enqueue event).1 = (d.hub.bus.enqueue event).map fun _ => () := by
  unfold enqueue
  cases d.hub.bus.enqueue event <;> rfl

theorem InOrder.answers (h : d.InOrder capacity accepted dispatched) (event : Event) :
    ((d.enqueue event).1 = .ok () ↔ d.Exists ∧ (d.queued event.queue).length < capacity) ∧
    ((d.enqueue event).1 = .error (.queueFull event.queue) ↔
      d.Exists ∧ (d.queued event.queue).length = capacity) ∧
    ((d.enqueue event).1 = .error .dispatcherGone ↔ ¬ d.Exists) := by
  rw [enqueue_answer, ← h.isOpen, ← h.capacity event.queue]
  unfold queued
  rcases d.hub.bus.enqueue_cases event with
    ⟨isOpen, answer⟩ | ⟨isOpen, full, answer⟩ | ⟨isOpen, room, bus, answer, -⟩
  · simp [answer, isOpen, Except.map]
  · simp [answer, isOpen, full, Except.map]
  · simp [answer, isOpen, room, Nat.ne_of_lt room, Except.map]

theorem step_of_refused {event : Event} {why : Refusal}
    (refused : (d.enqueue event).1 = .error why) : d.step (.enqueue event) = d := by
  rw [step]
  split
  · rfl
  · unfold enqueue at refused ⊢
    cases answer : d.hub.bus.enqueue event with
    | ok bus =>
      rw [answer] at refused
      cases refused
    | error _ => rfl

/-- Only cancellation ends the loop before everything has been dispatched. -/
theorem InOrder.last_turn (h : d.InOrder capacity accepted dispatched) (running : d.loop = .running)
    {a : Act} (ends : (d.step a).loop = .ended) (uncancelled : d.cancelled = false) :
    d.notifiers = 0 ∧ ∀ queue, d.queued queue = [] := by
  have change := step_changes d a
  generalize d.step a = next at change ends
  generalize d.accepts a = taken at change
  generalize d.dispatches a = sent at change
  generalize d.calls a = made at change
  cases change with
  | keeps _ _ loop _ _ =>
    rcases loop with same | ⟨idle, -⟩
    · rw [same, running] at ends
      cases ends
    · rw [running] at idle
      cases idle
  | ends _ why =>
    rcases why with spent | cancelled
    · exact h.drained spent
    · rw [uncancelled] at cancelled
      cases cancelled
  | drops _ => cases ends
  | _ =>
    rw [show d.loop = .ended from ends] at running
    cases running

/-- For any capacity and every order of acts: what a queue takes in comes out of it once and in
order; a notification is one call to the store, whether that fails or not, and every event is
published once at most; only cancellation ends the loop before all that was accepted has been
dispatched. -/
theorem delivered_once_in_order (hub : Hub) (capacity : Nat) (acts : List Act) :
    let start := fresh hub capacity
    let d := start.run acts
    let accepted := fun queue => Event.through queue (start.accepted acts)
    let dispatched := fun queue => Event.through queue (start.dispatched acts)
    (∀ queue, (d.queued queue).length ≤ capacity) ∧
    (∀ event,
      ((d.enqueue event).1 = .ok () ↔ d.Exists ∧ (d.queued event.queue).length < capacity) ∧
      ((d.enqueue event).1 = .error (.queueFull event.queue) ↔
        d.Exists ∧ (d.queued event.queue).length = capacity) ∧
      ((d.enqueue event).1 = .error .dispatcherGone ↔ ¬ d.Exists)) ∧
    (d.Exists → ∀ queue, accepted queue = dispatched queue ++ d.queued queue) ∧
    (∀ queue, dispatched queue <+: accepted queue) ∧
    (∀ event why, (d.enqueue event).1 = .error why → d.step (.enqueue event) = d) ∧
    d.hub.world = (start.called acts).foldl Call.perform hub.world ∧
    (start.called acts).filter Call.isDispatchers =
      (start.dispatched acts).flatMap Event.calls ∧
    (∀ (h : Hub) event, (h.dispatch event).2.store.asked = h.store.asked ++ event.noted) ∧
    (∀ n, ∃ published,
      (Event.notification .admin n).calls = .create .admin n :: published ∧
      (published = [] ∨ ∃ frame, published = [.publish .adminNotifications frame])) ∧
    (∀ n, ∃ published,
      (Event.notification .technician n).calls = .create .technician n :: published ∧
      (published = [] ∨ ∃ frame, published = [.publish .technicianNotifications frame])) ∧
    (∀ content, (Event.conversation content).calls = [] ∨
      ∃ frame, (Event.conversation content).calls = [.publish .adminConversations frame]) ∧
    (∀ a, d.loop = .running → (d.step a).loop = .ended → d.cancelled = false →
      d.notifiers = 0 ∧ ∀ queue, d.queued queue = []) ∧
    (d.loop = .ended → d.cancelled = false →
      d.notifiers = 0 ∧ ∀ queue, accepted queue = dispatched queue) := by
  intro start d accepted dispatched
  have order := (fresh_inOrder hub capacity).run acts
  refine ⟨order.length_queued, order.answers, order.balance, order.early, ?_, ?_, ?_,
    Hub.asked_dispatch, ?_, ?_, ?_, ?_, order.complete⟩
  · intro event why refused
    exact step_of_refused refused
  · exact run_world start acts
  · exact called_dispatchers start acts
  · intro n
    exact ⟨_, rfl, Event.publishing_cases _⟩
  · intro n
    exact ⟨_, rfl, Event.publishing_cases _⟩
  · intro content
    exact Event.publishing_cases _
  · intro a running ends uncancelled
    exact order.last_turn running ends uncancelled

end Switchboard.Dispatcher
