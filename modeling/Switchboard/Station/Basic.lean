import Switchboard.Hub.Chat
import Switchboard.Wire.Inbox

/-!
A station runs a hub: a clock, the sessions and monitors of its connections, and the dispatcher's
loop.
-/

namespace Switchboard

inductive Stage
  | waiting
  | chatting (who : Identity)
  | listening
  deriving DecidableEq, Repr

/-- What a connection's far end sends, from the credential to the end; `heard` is all of that,
`inbox` what has not been read. -/
structure Session where
  entry : EntryPoint
  inbox : Inbox
  stage : Stage
  ended : Bool
  heard : Inbox

namespace Session

def fresh (entry : EntryPoint) : Session := ⟨entry, .fresh, .waiting, false, .fresh⟩

def arrive (s : Session) (arrival : Arrival) : Session :=
  { s with inbox := s.inbox.arrive arrival, heard := s.heard.arrive arrival }

def finish (s : Session) : Session := { s with inbox := s.inbox.finish, heard := s.heard.finish }

end Session

structure Monitor where
  conn : ConnId
  topic : Topic
  every : Nat
  due : Nat
  ended : Bool
  deriving DecidableEq, Repr

inductive Loop
  | idle
  | running
  | ended
  | dropped
  deriving DecidableEq, Repr

/-- `now` is what the machine's clock shows, in milliseconds. `inner` are monitors that sessions
started, `monitors` all others, both in order of their start. The hub's own notifier keeps the
dispatcher running, as does the one outside. -/
structure Station where
  hub : Hub
  now : Nat
  ownNotifier : Bool
  notifier : Bool
  loop : Loop
  cancelled : Bool
  sessions : Table ConnId Session
  inner : List Monitor
  monitors : List Monitor

namespace Station

/-- `whole` if the hub has sessions and so a notifier of its own; `now` is how long the machine has
been up. -/
def startAt (now : Nat) (whole : Bool) (tokens : List TokenEntry) (limits : Limits) :
    Except CapacityFault Station := do
  Queue.checkCapacity limits.queueCapacity.toNat
  return ⟨.fresh tokens limits, now, whole, true, .idle, false, .empty, [], []⟩

/-- A start on a machine that has been up for an hour. -/
def start : Bool → List TokenEntry → Limits → Except CapacityFault Station := startAt 3600000

def exchange (st : Station) : Exchange := st.hub.exchange

def withExchange (st : Station) (x : Exchange) : Station :=
  { st with hub := { st.hub with exchange := x } }

def writeTimeout (st : Station) : Nat := st.hub.limits.writeTimeoutMs.toNat

/-! ### Connections and their far ends -/

def addPeer (st : Station) (id : ConnId) (allowance? : Option Nat) : Station :=
  st.withExchange (st.exchange.connect id (.peer (.fresh allowance?)))

def addClient (st : Station) (id : ConnId) (entryPoint? : Option EntryPoint) (room : Nat)
    (stalled : Bool) : Except CapacityFault Station := do
  let capacity := st.hub.limits.outboundCapacity.toNat
  Queue.checkCapacity capacity
  let link := Link.client (.fresh capacity room stalled)
  let st := st.withExchange (st.exchange.connect id link)
  match entryPoint? with
  | none => return st
  | some entry =>
    return { st with sessions := st.sessions.insert id (.fresh entry) }

def mapLink (st : Station) (id : ConnId) (change : Link → Link) : Station :=
  match st.exchange.conns.find? id with
  | none => st
  | some c => st.withExchange (st.exchange.setLink id (change c.link))

def setFailing (st : Station) (id : ConnId) (failing : Bool) : Station :=
  st.mapLink id fun
    | .peer p => .peer { p with failing := failing }
    | link => link

def mapPipe (st : Station) (id : ConnId) (change : Pipe → Pipe) : Station :=
  st.mapLink id fun
    | .client o => .client { o with pipe := change o.pipe }
    | link => link

def setStalled (st : Station) (id : ConnId) (stalled : Bool) : Station :=
  st.mapPipe id fun p => p.setStalled stalled

def finish (st : Station) (id : ConnId) : Station :=
  { st with sessions := st.sessions.modify id .finish }

def drop (st : Station) (id : ConnId) : Station :=
  (st.finish id).mapPipe id fun p => { p with far := .gone, held := [] }

inductive Receipt
  | accepted
  | broken
  | gone
  deriving DecidableEq, Repr

def receive (st : Station) (id : ConnId) (bytes : List UInt8) : Receipt × Station :=
  match st.sessions.find? id with
  | none => (.accepted, st)
  | some s =>
    if s.inbox.finished then (.gone, st)
    else if s.ended then (.broken, st)
    else (.accepted, { st with sessions := st.sessions.insert id (s.arrive (.data bytes)) })

/-- What has reached a far end since the last time: frames at a peer; bytes, and perhaps the end,
out of a pipe. -/
inductive Delivery
  | frames (frames : List Frame)
  | bytes (bytes : List UInt8) (ended : Bool)

def collect (st : Station) (id : ConnId) : Delivery × Station :=
  match st.exchange.conns.find? id with
  | none => (.frames [], st)
  | some c =>
    match c.link with
    | .peer p =>
      let link := Link.peer { p with received := [] }
      (.frames p.received.reverse, st.withExchange (st.exchange.setLink id link))
    | .client o =>
      let ((bytes, ended), pipe) := o.pipe.collect
      let link := Link.client { o with pipe := pipe }
      (.bytes bytes ended, st.withExchange (st.exchange.setLink id link))

/-! ### Monitors -/

/-- The first time that cannot be waited for: the clock counts whole seconds in 63 bits, and who
waits is woken at the end of a millisecond. -/
def horizon : Nat := Nat.pow 2 63 * 1000 - 1

/-- A monitor without a period ends at once, and so does one whose first probe would be due at the
horizon or behind it. -/
def Monitor.begin (now : Nat) (id : ConnId) (topic : Topic) (every : Nat) : Monitor :=
  ⟨id, topic, every, now + every, every = 0 ∨ horizon ≤ now + every⟩

def probePeriod (st : Station) : Nat := st.hub.limits.probeIntervalSecs.toNat * 1000

def monitorFor (st : Station) (id : ConnId) (topic : Topic) : Monitor :=
  Monitor.begin st.now id topic st.probePeriod

def join? (st : Station) (entry : EntryPoint) (id : ConnId) : Option (Monitor × Station) :=
  entry.topic?.map fun topic =>
    (st.monitorFor id topic, st.withExchange (st.exchange.join topic id).2)

def enroll (st : Station) (id : ConnId) (entry : EntryPoint) : Option Nat × Station :=
  match st.join? entry id with
  | none => (none, st)
  | some (monitor, st) =>
    (some st.monitors.length, { st with monitors := st.monitors ++ [monitor] })

def monitor (st : Station) (id : ConnId) (topic : Topic) (every : Nat) : Nat × Station :=
  (st.monitors.length,
    { st with monitors := st.monitors ++ [Monitor.begin st.now id topic every] })

/-! ### The dispatcher -/

def enqueue (st : Station) (event : Event) : Except Refusal Unit × Station :=
  match st.hub.bus.enqueue event with
  | .ok bus => (.ok (), { st with hub := { st.hub with bus := bus } })
  | .error e => (.error e, st)

def endLoop (st : Station) (loop : Loop) : Station :=
  { st with loop := loop, hub := { st.hub with bus := st.hub.bus.shut } }

def runDispatcher (st : Station) : Option Station :=
  if st.loop = .idle then some { st with loop := .running } else none

def cancelDispatcher (st : Station) : Station := { st with cancelled := true }

def dropDispatcher (st : Station) : Station :=
  if st.loop = .idle then st.endLoop .dropped else st

def dropNotifier (st : Station) : Station := { st with notifier := false }

def dispatch? (st : Station) (event : Event) : Option (Report × Station) :=
  if st.loop = .idle then
    let (report, hub) := st.hub.dispatch event
    some (report, { st with hub := hub })
  else none

end Station

end Switchboard
