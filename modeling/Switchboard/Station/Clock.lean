import Switchboard.Station.Session

/-!
Settling and the clock. Between calls everything runs until nothing more can happen: sessions, the
dispatcher, then the writers. When the clock moves, what is due happens in order of time, and
everything settles at each of these times.
-/

namespace Switchboard.Station

def runLoop (st : Station) : Station :=
  if st.loop ≠ .running then st
  else if st.cancelled then st.endLoop .ended
  else
    let st := st.withHub st.hub.dispatchAll
    if st.notifier ∨ st.ownNotifier then st else st.endLoop .ended

def runWriter (st : Station) (id : ConnId) : Station :=
  match st.exchange.conns.find? id with
  | none => st
  | some c =>
    match c.link with
    | .peer _ => st
    | .client o =>
      let o := o.drain st.now st.writeTimeout c.closed
      let st := st.withExchange (st.exchange.setLink id (.client o))
      if o.writer = .stopped then st.withHub (st.hub.close id) else st

def runWriters (st : Station) : List ConnId → Station
  | [] => st
  | id :: ids => runWriters (st.runWriter id) ids

def settle (st : Station) : Station :=
  let st := (st.runSessions st.sessions.keys).runLoop
  let st := st.runWriters st.exchange.conns.keys
  st.endSessions st.sessions.keys

/-! ### Time -/

def fire (st : Station) (m : Monitor) : Monitor × Station :=
  match st.exchange.send m.conn .probe with
  | .ok x => ({ m with due := m.due + m.every }, st.withExchange x)
  | .error _ =>
    let x := (st.exchange.leave m.topic m.conn).2
    ({ m with ended := true }, st.withExchange (x.close m.conn))

def probe (st : Station) (m : Monitor) : Monitor × Station :=
  if m.ended ∨ m.due ≠ st.now then (m, st) else st.fire m

def probeAll (st : Station) (probed : List Monitor) : List Monitor → List Monitor × Station
  | [] => (probed.reverse, st)
  | m :: ms =>
    let (m, st) := st.probe m
    probeAll st (m :: probed) ms

/-- Everything that happens at the time that the clock shows. -/
def tick (st : Station) : Station :=
  let (inner, st) := st.probeAll [] st.inner
  let (monitors, st) := st.probeAll [] st.monitors
  { st with inner := inner, monitors := monitors }.settle

def dueTimes (st : Station) : List Nat :=
  ((st.inner ++ st.monitors).filter fun m => !m.ended).map (·.due) ++
    st.exchange.conns.entries.filterMap fun (_, c) =>
      match c.link with
      | .client o => o.deadline?
      | .peer _ => none

def nextDue? (st : Station) (clock : Nat) : Option Nat := (st.dueTimes.filter (clock < ·)).min?

/-- Lets the time from `clock` to `time` pass. -/
def passTime (st : Station) (clock time : Nat) : Station :=
  match st.nextDue? clock with
  | none => { st with now := time }
  | some due =>
    if clock < due ∧ due ≤ time then passTime { st with now := due }.tick due time
    else { st with now := time }
termination_by time - clock

def advance (st : Station) (ms : Nat) : Station := st.passTime st.now (st.now + ms)

end Switchboard.Station
