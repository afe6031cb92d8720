import Switchboard.Proofs.Station.Moves

/-!
All that one move may do to a station, said once; everything about steps is proved from it.
-/

namespace Switchboard.Station

variable {st : Station} {id : ConnId}

def withClient (st : Station) (id : ConnId) (entry : EntryPoint) (link : Link) : Station :=
  { st.withExchange (st.exchange.connect id link) with
    sessions := st.sessions.insert id (.fresh entry) }

def withEnd (st : Station) (id : ConnId) : Station :=
  { st with sessions := st.sessions.modify id fun s => { s with ended := true } }

def withWatch (st : Station) (outer : Bool) (n : Nat) (m : Monitor) : Station :=
  st.setWatches outer ((st.watches outer).set n m)

inductive Stepped (st : Station) : Move → Station → Prop
  | still (m : Move) : Stepped st m st
  | connected {id : ConnId} {entry : EntryPoint} {room : Nat} {stalled : Bool} (link : Link)
    (unknown : ¬ st.exchange.Knows id) :
    Stepped st (.connect id entry room stalled) (st.withClient id entry link)
  | heard (id : ConnId) (arrival : Arrival) : Stepped st (.arrive id arrival) (st.hear id arrival)
  | finished (id : ConnId) : Stepped st (.finish id) (st.finish id)
  | read {id : ConnId} {s next : Session} {after : Station} (found : st.sessions.find? id = some s)
    (running : s.ended = false) (turned : Turned st id s next after) :
    Stepped st (.read id) { after with sessions := after.sessions.insert id next }
  | noticed {id : ConnId} (closed : st.exchange.isClosed id = true) :
    Stepped st (.notice id) (st.withEnd id)
  | relinked (id : ConnId) (change : Link → Link) (link : Link) :
    Stepped st (.relink id change) (st.withExchange (st.exchange.setLink id link))
  | reaped (id : ConnId) : Stepped st (.reap id) (st.withHub (st.hub.close id))
  | pinged {outer : Bool} {n : Nat} {m after : Monitor} {x : Exchange}
    (found : (st.watches outer)[n]? = some m) (accepted : st.exchange.send m.conn .probe = .ok x)
    (same : after.conn = m.conn) :
    Stepped st (.probe outer n) ((st.withExchange x).withWatch outer n after)
  | gaveUp {outer : Bool} {n : Nat} {m after : Monitor} (found : (st.watches outer)[n]? = some m)
    (same : after.conn = m.conn) :
    Stepped st (.probe outer n)
      ((st.withExchange ((st.exchange.leave m.topic m.conn).2.close m.conn)).withWatch outer n after)
  | ticked (time : Nat) : Stepped st (.clock time) { st with now := time }
  | enqueued {event : Event} {bus : Bus} (held : st.notifier = true)
    (taken : st.hub.bus.enqueue event = .ok bus) :
    Stepped st (.enqueue event) (st.withHub { st.hub with bus := bus })
  | dispatched {queue : QueueName} {event : Event} {bus : Bus} (running : st.loop = .running)
    (taken : st.hub.bus.take? queue = some (event, bus)) :
    Stepped st (.dispatch queue) (st.withHub ({ st.hub with bus := bus }.dispatch event).2)
  | looped (mayEnd : st.MayEnd) : Stepped st .endLoop (st.endLoop .ended)
  | started (idle : st.loop = .idle) : Stepped st .runDispatcher { st with loop := .running }
  | cancelled : Stepped st .cancel st.cancelDispatcher
  | dropped (idle : st.loop = .idle) : Stepped st .dropDispatcher (st.endLoop .dropped)
  | deserted : Stepped st .dropNotifier st.dropNotifier
  | downed (outage : Outage) : Stepped st (.down outage)
    (st.withHub { st.hub with store := { st.hub.store with outage := outage } })

theorem connect_stepped (st : Station) (id : ConnId) (entry : EntryPoint) (room : Nat)
    (stalled : Bool) :
    st.Stepped (.connect id entry room stalled) (st.connectClient id entry room stalled) := by
  unfold connectClient
  split
  · exact .still _
  · next unknown =>
    unfold addClient
    dsimp only
    cases Queue.checkCapacity st.hub.limits.outboundCapacity.toNat with
    | error fault => exact .still _
    | ok _ => exact .connected _ unknown

theorem read_stepped (st : Station) (id : ConnId) : st.Stepped (.read id) (st.read id) := by
  rcases read_cases st id with same | ⟨s, next, after, found, running, turned, shape⟩
  · rw [same]
    exact .still _
  · rw [shape]
    exact .read found running turned

theorem relink_stepped (st : Station) (id : ConnId) (change : Link → Link) :
    st.Stepped (.relink id change) (st.mapLink id change) := by
  unfold mapLink
  split
  · exact .still _
  · exact .relinked id change _

theorem reap_stepped (st : Station) (id : ConnId) : st.Stepped (.reap id) (st.reap id) := by
  unfold reap
  split
  · exact .still _
  · split
    · exact .still _
    · split
      · exact .reaped id
      · exact .still _

theorem probe_stepped (st : Station) (outer : Bool) (n : Nat) :
    st.Stepped (.probe outer n) (st.probeOne outer n) := by
  unfold probeOne
  split
  · exact .still _
  · next m found =>
    split
    · exact .still _
    · unfold fire
      split
      · next x accepted =>
        let after := { m with due := m.due + m.every }
        have same : after.conn = m.conn := rfl
        cases outer <;> exact .pinged found accepted same
      · let after := { m with ended := true }
        have same : after.conn = m.conn := rfl
        cases outer <;> exact .gaveUp found same

theorem step_stepped (st : Station) (m : Move) : st.Stepped m (st.step m) := by
  cases m with
  | connect id entry room stalled => exact connect_stepped st id entry room stalled
  | arrive id arrival => exact .heard id arrival
  | finish id => exact .finished id
  | read id => exact read_stepped st id
  | notice id =>
    rw [step, endSessions]
    split
    · next closed => exact .noticed closed
    · exact .still _
  | relink id change => exact relink_stepped st id change
  | reap id => exact reap_stepped st id
  | probe outer n => exact probe_stepped st outer n
  | clock time => exact .ticked time
  | enqueue event =>
    rw [step]
    split
    · next held =>
      unfold enqueue
      split
      · next bus taken => exact .enqueued held taken
      · exact .still _
    · exact .still _
  | dispatch queue =>
    rw [step, dispatchOne]
    split
    · next running =>
      split
      · exact .still _
      · next event bus taken => exact .dispatched running taken
    · exact .still _
  | endLoop =>
    rw [step]
    split
    · next mayEnd => exact .looped mayEnd
    · exact .still _
  | runDispatcher =>
    rw [step, runDispatcher]
    split
    · next idle => exact .started idle
    · exact .still _
  | cancel => exact .cancelled
  | dropDispatcher =>
    rw [step, dropDispatcher]
    split
    · next idle => exact .dropped idle
    · exact .still _
  | dropNotifier => exact .deserted
  | down outage => exact .downed outage

end Switchboard.Station
