import Switchboard.Proofs.Dispatcher.Acts

/-!
What an act of the dispatcher may change, and what it calls for from the store and the exchange.
-/

namespace Switchboard.Dispatcher

/-- All that an act may do, with the event that it takes in, the event that it dispatches and the
calls that it makes. -/
inductive Change (d : Dispatcher) : List Event → List Event → List Call → Dispatcher → Prop
  | keeps {next : Dispatcher} (hub : next.hub = d.hub) (live : next.live = d.live)
      (loop : next.loop = d.loop ∨ (d.loop = .idle ∧ next.loop = .running))
      (notifiers : d.notifiers = 0 → next.notifiers = 0)
      (cancelled : next.cancelled = false → d.cancelled = false) : Change d [] [] [] next
  | accepts {event : Event} {bus : Bus} (held : d.notifiers ≠ 0)
      (isOpen : d.hub.bus.isOpen = true) (gains : d.hub.bus.Gains event bus) :
      Change d [event] [] [] { d with hub := { d.hub with bus := bus } }
  | dispatches {queue : QueueName} {event : Event} {hub : Hub} (running : d.loop = .running)
      (loses : d.hub.bus.Loses queue event hub.bus)
      (world : hub.world = event.calls.foldl Call.perform d.hub.world) :
      Change d [] [event] ([event].flatMap Event.calls) { d with hub := hub }
  | closes {queue : QueueName} (running : d.loop = .running) (alone : d.notifiers = 0)
      (empty : d.queued queue = []) :
      Change d [] [] [] { d with live := d.live.filter (· ≠ queue) }
  | ends (running : d.loop = .running) (why : d.live = [] ∨ d.cancelled = true) :
      Change d [] [] [] (d.stop .ended)
  | drops (here : d.Exists) : Change d [] [] [] (d.stop .dropped)
  | elsewhere (w : World) :
      Change d [] [] [.elsewhere w]
        { d with hub := { d.hub with exchange := w.exchange, store := w.store } }

variable {d next : Dispatcher} {taken sent : List Event} {made : List Call}

theorem Change.none (d : Dispatcher) : Change d [] [] [] d :=
  .keeps rfl rfl (Or.inl rfl) id id

theorem enqueue_changes (d : Dispatcher) (event : Event) :
    Change d (d.accepts (.enqueue event)) [] [] (d.step (.enqueue event)) := by
  unfold accepts step enqueue
  dsimp only
  by_cases held : d.notifiers = 0
  · rw [if_pos held, if_pos held]
    exact .none d
  · rw [if_neg held, if_neg held]
    rcases d.hub.bus.enqueue_cases event with
      ⟨-, answer⟩ | ⟨-, -, answer⟩ | ⟨isOpen, -, bus, answer, gains⟩
    · rw [answer]
      exact .none d
    · rw [answer]
      exact .none d
    · rw [answer]
      exact .accepts held isOpen gains

theorem calls_turn (d : Dispatcher) (ready : Option QueueName) :
    d.calls (.turn ready) = (d.dispatches (.turn ready)).flatMap Event.calls := by
  rfl

theorem dispatches_of_idle {queue : QueueName} (idle : ¬ (d.loop = .running ∧ queue ∈ d.live)) :
    d.dispatches (.turn (some queue)) = [] := if_neg idle

theorem receive_changes {queue : QueueName} (running : d.loop = .running) (live : queue ∈ d.live) :
    Change d [] (d.dispatches (.turn (some queue))) (d.calls (.turn (some queue)))
      (d.receive queue) := by
  rw [calls_turn]
  unfold dispatches receive
  dsimp only
  rw [if_pos ⟨running, live⟩]
  cases taken : d.hub.bus.take? queue with
  | none =>
    dsimp only
    split
    · next alone => exact .closes running alone (Bus.take?_eq_none.mp taken)
    · exact .none d
  | some hit =>
    obtain ⟨event, bus⟩ := hit
    have loses : d.hub.bus.Loses queue event ({ d.hub with bus := bus }.dispatch event).2.bus := by
      rw [Hub.dispatch_bus]
      exact Bus.loses_of_take? taken
    exact .dispatches running loses (Hub.dispatch_world _ event)

theorem turn_changes (d : Dispatcher) (ready : Option QueueName) :
    Change d [] (d.dispatches (.turn ready)) (d.calls (.turn ready)) (d.turn ready) := by
  unfold turn
  by_cases running : d.loop = .running
  · rw [if_pos running]
    by_cases spent : d.live = []
    · rw [if_pos spent]
      have nothing : d.dispatches (.turn ready) = [] := by
        cases ready with
        | none => rfl
        | some queue =>
          apply dispatches_of_idle
          rintro ⟨-, live⟩
          rw [spent] at live
          cases live
      rw [calls_turn, nothing]
      exact .ends running (Or.inl spent)
    · rw [if_neg spent]
      cases ready with
      | none =>
        dsimp only
        split
        · next cancelled => exact .ends running (Or.inr cancelled)
        · exact .none d
      | some queue =>
        dsimp only
        split
        · next live => exact receive_changes running live
        · next dead =>
          rw [calls_turn, dispatches_of_idle fun both => dead both.2]
          exact .none d
  · rw [if_neg running]
    have nothing : d.dispatches (.turn ready) = [] := by
      cases ready with
      | none => rfl
      | some queue => exact dispatches_of_idle fun both => running both.1
    rw [calls_turn, nothing]
    exact .none d

theorem step_changes (d : Dispatcher) (a : Act) :
    Change d (d.accepts a) (d.dispatches a) (d.calls a) (d.step a) := by
  cases a with
  | enqueue event => exact enqueue_changes d event
  | clone =>
    rw [step]
    split
    · exact .none d
    · next held => exact .keeps rfl rfl (Or.inl rfl) (fun alone => absurd alone held) id
  | dropNotifier =>
    refine .keeps rfl rfl (Or.inl rfl) ?_ id
    intro alone
    rw [step, alone]
  | start =>
    rw [step]
    split
    · next idle => exact .keeps rfl rfl (Or.inr ⟨idle, rfl⟩) id id
    · exact .none d
  | turn ready => exact turn_changes d ready
  | cancel => exact .keeps rfl rfl (Or.inl rfl) id fun cancelled => nomatch cancelled
  | drop =>
    rw [step]
    split
    · next here => exact .drops here
    · exact .none d
  | elsewhere w => exact .elsewhere w

/-! ### Calls -/

theorem Change.world (change : d.Change taken sent made next) :
    next.hub.world = made.foldl Call.perform d.hub.world := by
  cases change with
  | keeps hub _ _ _ _ => exact congrArg Hub.world hub
  | dispatches _ _ world =>
    rw [List.flatMap_singleton]
    exact world
  | _ => rfl

theorem Change.calls (change : d.Change taken sent made next) :
    made.filter Call.isDispatchers = sent.flatMap Event.calls := by
  cases change with
  | @dispatches queue event _ _ _ _ =>
    rw [List.flatMap_singleton]
    exact List.filter_eq_self.mpr event.isDispatchers_calls
  | _ => rfl

theorem run_world (d : Dispatcher) (acts : List Act) :
    (d.run acts).hub.world = (d.called acts).foldl Call.perform d.hub.world := by
  induction acts generalizing d with
  | nil => rfl
  | cons a acts ih =>
    rw [run_cons, ih (d.step a), (step_changes d a).world]
    exact List.foldl_append.symm

theorem called_dispatchers (d : Dispatcher) (acts : List Act) :
    (d.called acts).filter Call.isDispatchers = (d.dispatched acts).flatMap Event.calls := by
  induction acts generalizing d with
  | nil => rfl
  | cons a acts ih =>
    calc
      _ = (d.calls a ++ (d.step a).called acts).filter Call.isDispatchers := rfl
      _ = (d.dispatches a).flatMap Event.calls ++
          ((d.step a).dispatched acts).flatMap Event.calls := by
        rw [List.filter_append, (step_changes d a).calls, ih (d.step a)]
      _ = _ := List.flatMap_append.symm

end Switchboard.Dispatcher
