import Switchboard.Proofs.Dispatcher.Changes
import Switchboard.Proofs.Station.Steps

/-!
A station runs this dispatcher: whatever a station does, its queues, its store and its connections
are those of a dispatcher after some acts.
-/

namespace Switchboard

namespace Station

variable {st after : Station} {id : ConnId} {s next : Session} {m : Move}

def notifiers (st : Station) : Nat := st.notifier.toNat + st.ownNotifier.toNat

structure SameLoop (st after : Station) : Prop where
  notifier : after.notifier = st.notifier
  ownNotifier : after.ownNotifier = st.ownNotifier
  loop : after.loop = st.loop
  cancelled : after.cancelled = st.cancelled

theorem turned_loop (turned : Turned st id s next after) : SameLoop st after := by
  obtain ⟨hub, inner, rfl, -⟩ := turned_eq turned
  exact ⟨rfl, rfl, rfl, rfl⟩

theorem turned_bus (turned : Turned st id s next after) : st.hub.bus.Grown after.hub.bus := by
  obtain ⟨hub, inner, rfl, -, grown, -⟩ := turned_eq turned
  exact grown

theorem ownNotifier_step (st : Station) (m : Move) : (st.step m).ownNotifier = st.ownNotifier := by
  have stepped := step_stepped st m
  generalize st.step m = after at stepped
  cases stepped with
  | read _ _ turned =>
    have kept := (turned_loop turned).ownNotifier
    exact kept
  | @pinged outer _ _ _ _ _ _ _ | @gaveUp outer _ _ _ _ _ => cases outer <;> rfl
  | _ => rfl

end Station

namespace Dispatcher

open Station (SameLoop)

/-- This is the dispatcher of the station. -/
structure Drives (d : Dispatcher) (st : Station) : Prop where
  bus : d.hub.bus = st.hub.bus
  world : d.hub.world = st.hub.world
  notifiers : d.notifiers = st.notifiers
  loop : d.loop = st.loop
  cancelled : d.cancelled = st.cancelled
  live : d.Exists → d.live = QueueName.all

variable {d : Dispatcher} {st after : Station} {m : Move}

theorem Drives.elsewhere (drives : d.Drives st) (same : SameLoop st after)
    (bus : after.hub.bus = st.hub.bus) : (d.run [.elsewhere after.hub.world]).Drives after where
  bus := drives.bus.trans bus.symm
  world := rfl
  notifiers := by
    unfold Station.notifiers
    rw [same.notifier, same.ownNotifier]
    exact drives.notifiers
  loop := drives.loop.trans same.loop.symm
  cancelled := drives.cancelled.trans same.cancelled.symm
  live := drives.live

theorem Drives.enqueue (drives : d.Drives st) (same : SameLoop st after) (held : st.notifiers ≠ 0)
    {event : Event} (taken : st.hub.bus.enqueue event = .ok after.hub.bus) :
    (d.run [.enqueue event, .elsewhere after.hub.world]).Drives after := by
  have accepted : d.step (.enqueue event) =
      { d with hub := { d.hub with bus := after.hub.bus } } := by
    rw [step, if_neg (drives.notifiers ▸ held), Dispatcher.enqueue, drives.bus, taken]
  have later : (d.step (.enqueue event)).Drives
      (st.withHub { st.hub with bus := after.hub.bus }) := by
    rw [accepted]
    exact ⟨rfl, drives.world, drives.notifiers, drives.loop, drives.cancelled, drives.live⟩
  exact later.elsewhere ⟨same.notifier, same.ownNotifier, same.loop, same.cancelled⟩ rfl

theorem Drives.grown (drives : d.Drives st) (same : SameLoop st after) (held : st.notifiers ≠ 0)
    (grown : st.hub.bus.Grown after.hub.bus) : ∃ acts, (d.run acts).Drives after := by
  rcases grown with bus | ⟨event, taken⟩
  · exact ⟨_, drives.elsewhere same bus⟩
  · exact ⟨_, drives.enqueue same held taken⟩

theorem turn_of_live {queue : QueueName} (running : d.loop = .running) (live : queue ∈ d.live) :
    d.turn (some queue) = d.receive queue := by
  rw [turn, if_pos running, if_neg (List.ne_nil_of_mem live)]
  exact if_pos live

theorem Drives.dispatch (drives : d.Drives st) (running : st.loop = .running) {queue : QueueName}
    {event : Event} {bus : Bus} (taken : st.hub.bus.take? queue = some (event, bus)) :
    (d.run [.turn (some queue)]).Drives
      (st.withHub ({ st.hub with bus := bus }.dispatch event).2) := by
  have running' : d.loop = .running := drives.loop.trans running
  have live : queue ∈ d.live := drives.live (Or.inr running') ▸ queue.mem_all
  have turned : d.run [.turn (some queue)] =
      { d with hub := ({ d.hub with bus := bus }.dispatch event).2 } := by
    rw [run_cons, run_nil, step, turn_of_live running' live, receive, drives.bus, taken]
  have after : ∀ h : Hub, ({ h with bus := bus }.dispatch event).2.bus = bus :=
    fun h => Hub.dispatch_bus { h with bus := bus } event
  have called : ∀ h : Hub, ({ h with bus := bus }.dispatch event).2.world =
      event.calls.foldl Call.perform h.world :=
    fun h => Hub.dispatch_world { h with bus := bus } event
  rw [turned]
  constructor
  · exact (after d.hub).trans (after st.hub).symm
  · calc
      _ = event.calls.foldl Call.perform d.hub.world := called d.hub
      _ = event.calls.foldl Call.perform st.hub.world := by rw [drives.world]
      _ = _ := (called st.hub).symm
  · exact drives.notifiers
  · exact drives.loop
  · exact drives.cancelled
  · exact drives.live

/-! ### The end of the loop -/

theorem Drives.stop (drives : d.Drives st) {loop : Loop} (gone : loop ≠ .idle ∧ loop ≠ .running) :
    (d.stop loop).Drives (st.endLoop loop) where
  bus := congrArg Bus.shut drives.bus
  world := drives.world
  notifiers := drives.notifiers
  loop := rfl
  cancelled := drives.cancelled
  live := by
    rintro (idle | running)
    · exact absurd idle gone.1
    · exact absurd running gone.2

theorem turn_of_spent {queue : QueueName} (running : d.loop = .running) (live : queue ∈ d.live)
    (alone : d.notifiers = 0) (empty : d.queued queue = []) :
    d.turn (some queue) = { d with live := d.live.filter (· ≠ queue) } := by
  rw [turn_of_live running live, receive, Bus.take?_eq_none.mpr empty]
  exact if_pos alone

/-- The four last turns of a loop that nobody can feed any more. -/
theorem run_of_drained (running : d.loop = .running) (live : d.live = QueueName.all)
    (alone : d.notifiers = 0) (empty : ∀ queue, d.queued queue = []) :
    d.run [.turn (some .admin), .turn (some .technician), .turn (some .conversation), .turn none] =
      { d with live := [] }.stop .ended := by
  have first : d.turn (some .admin) = { d with live := [.technician, .conversation] } := by
    rw [turn_of_spent running (live ▸ QueueName.mem_all _) alone (empty _), live]
    rfl
  have second : { d with live := [.technician, .conversation] }.turn (some .technician) =
      { d with live := [.conversation] } := turn_of_spent running List.mem_cons_self alone (empty _)
  have third : { d with live := [.conversation] }.turn (some .conversation) =
      { d with live := [] } := turn_of_spent running List.mem_cons_self alone (empty _)
  have last : { d with live := [] }.turn none = { d with live := [] }.stop .ended := by
    rw [turn, if_pos running, if_pos rfl]
  simp only [run_cons, run_nil, step, first, second, third, last]

theorem Drives.endLoop (drives : d.Drives st) (mayEnd : st.MayEnd) :
    ∃ acts, (d.run acts).Drives (st.endLoop .ended) := by
  obtain ⟨running, why⟩ := mayEnd
  have running' : d.loop = .running := drives.loop.trans running
  have live : d.live = QueueName.all := drives.live (Or.inr running')
  rcases why with cancelled | ⟨without, without', drained⟩
  · refine ⟨[.turn none], ?_⟩
    have stopped : d.run [.turn none] = d.stop .ended := by
      rw [run_cons, run_nil, step, turn, if_pos running', live, if_neg QueueName.all_ne_nil]
      exact if_pos (drives.cancelled.trans cancelled)
    rw [stopped]
    exact drives.stop ended_gone
  · have alone : d.notifiers = 0 := by
      rw [drives.notifiers, Station.notifiers, without, without']
      rfl
    have empty : ∀ queue, d.queued queue = [] := by
      intro queue
      rw [queued, drives.bus]
      exact Bus.queued_of_size drained queue
    have stopped : (d.stop .ended).Drives (st.endLoop .ended) := drives.stop ended_gone
    have last : ({ d with live := [] }.stop .ended).Drives (st.endLoop .ended) :=
      ⟨stopped.bus, stopped.world, stopped.notifiers, rfl, stopped.cancelled,
        fun here => absurd rfl here.not_ended⟩
    exact ⟨_, run_of_drained running' live alone empty ▸ last⟩

/-! ### Moves -/

theorem Drives.step (drives : d.Drives st) (m : Move)
    (own : ∀ id, m = .read id → st.ownNotifier = true) :
    ∃ acts, (d.run acts).Drives (st.step m) := by
  have stepped := Station.step_stepped st m
  generalize st.step m = after at stepped
  cases stepped with
  | still m => exact ⟨[], drives⟩
  | @read id s next after found running turned =>
    have held : st.notifiers ≠ 0 := by
      rw [Station.notifiers, own id rfl]
      exact Nat.succ_ne_zero _
    have same := Station.turned_loop turned
    have grown := Station.turned_bus turned
    exact drives.grown ⟨same.notifier, same.ownNotifier, same.loop, same.cancelled⟩ held grown
  | @enqueued event bus held taken =>
    have held : st.notifiers ≠ 0 := by
      rw [Station.notifiers, held, Bool.toNat_true]
      omega
    exact drives.grown ⟨rfl, rfl, rfl, rfl⟩ held (Or.inr ⟨event, taken⟩)
  | dispatched running taken => exact ⟨_, drives.dispatch running taken⟩
  | looped mayEnd => exact drives.endLoop mayEnd
  | started idle =>
    refine ⟨[.start], ?_⟩
    have started : d.run [.start] = { d with loop := .running } :=
      if_pos (drives.loop.trans idle)
    rw [started]
    exact ⟨drives.bus, drives.world, drives.notifiers, rfl, drives.cancelled,
      fun _ => drives.live (Or.inl (drives.loop.trans idle))⟩
  | cancelled =>
    exact ⟨[.cancel], drives.bus, drives.world, drives.notifiers, drives.loop, rfl, drives.live⟩
  | dropped idle =>
    refine ⟨[.drop], ?_⟩
    have stopped : d.run [.drop] = d.stop .dropped := if_pos (Or.inl (drives.loop.trans idle))
    rw [stopped]
    exact drives.stop dropped_gone
  | deserted =>
    cases held : st.notifier with
    | false =>
      refine ⟨[], drives.bus, drives.world, ?_, drives.loop, drives.cancelled, drives.live⟩
      rw [run_nil, drives.notifiers, Station.notifiers, held]
      rfl
    | true =>
      refine ⟨[.dropNotifier], drives.bus, drives.world, ?_, drives.loop, drives.cancelled,
        drives.live⟩
      change d.notifiers - 1 = 0 + st.ownNotifier.toNat
      rw [drives.notifiers, Station.notifiers, held, Bool.toNat_true]
      omega
  | @pinged outer _ _ _ _ _ _ _ | @gaveUp outer _ _ _ _ _ =>
    cases outer <;> exact ⟨_, drives.elsewhere ⟨rfl, rfl, rfl, rfl⟩ rfl⟩
  | _ => exact ⟨_, drives.elsewhere ⟨rfl, rfl, rfl, rfl⟩ rfl⟩

theorem Drives.run (drives : d.Drives st) (moves : List Move)
    (own : ∀ id, .read id ∈ moves → st.ownNotifier = true) :
    ∃ acts, (d.run acts).Drives (st.run moves) := by
  induction moves generalizing d st with
  | nil => exact ⟨[], drives⟩
  | cons m moves ih =>
    have first : ∀ id, m = .read id → st.ownNotifier = true :=
      fun id shape => own id (shape ▸ List.mem_cons_self)
    obtain ⟨acts, later⟩ := drives.step m first
    have own' : ∀ id, .read id ∈ moves → (st.step m).ownNotifier = true := by
      intro id member
      rw [Station.ownNotifier_step]
      exact own id (List.mem_cons_of_mem m member)
    obtain ⟨more, last⟩ := ih later own'
    refine ⟨acts ++ more, ?_⟩
    rw [run_append]
    exact last

theorem drives_fresh (whole : Bool) (tokens : List TokenEntry) (limits : Limits) :
    ∃ acts, ((fresh (.fresh tokens limits) limits.queueCapacity.toNat).run acts).Drives
      (Station.fresh whole tokens limits) := by
  cases whole with
  | false => exact ⟨[], rfl, rfl, rfl, rfl, rfl, fun _ => rfl⟩
  | true => exact ⟨[.clone], rfl, rfl, rfl, rfl, rfl, fun _ => rfl⟩

/-- Every run of a station is a run of its dispatcher. -/
theorem station_drives (whole : Bool) (tokens : List TokenEntry) (limits : Limits)
    (moves : List Move) (own : ∀ id, .read id ∈ moves → whole = true) :
    ∃ acts, ((fresh (.fresh tokens limits) limits.queueCapacity.toNat).run acts).Drives
      ((Station.fresh whole tokens limits).run moves) := by
  obtain ⟨acts, drives⟩ := drives_fresh whole tokens limits
  obtain ⟨more, later⟩ := drives.run moves own
  refine ⟨acts ++ more, ?_⟩
  rw [run_append]
  exact later

end Dispatcher

end Switchboard
