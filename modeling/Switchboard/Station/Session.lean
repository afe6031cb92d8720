import Switchboard.Station.Basic

/-!
Sessions: the first envelope is the credential; then chat connections are served frame by frame,
the others only listen. A fault that is fatal ends a session with an error frame.
-/

namespace Switchboard.Station

def withHub (st : Station) (hub : Hub) : Station := { st with hub := hub }

/-- Serves one chat envelope; answers whether the session goes on. -/
def serve (st : Station) (id : ConnId) (who : Identity) (e : Envelope) : Bool × Station :=
  match st.hub.chat who id e with
  | (.ok (), hub) => (true, st.withHub hub)
  | (.error why, hub) =>
    let fault := Fault.refused why
    if fault.isFatal then (false, st.withHub (hub.reject id fault))
    else (true, st.withHub (hub.tell id fault))

def listen (st : Station) (id : ConnId) (entry : EntryPoint) : Station :=
  match st.join? entry id with
  | none => st
  | some (monitor, st) => { st with inner := st.inner ++ [monitor] }

/-- Handles one envelope; answers the next stage, or `none` when the session has ended. -/
def handle (st : Station) (id : ConnId) (entry : EntryPoint) (stage : Stage) (e : Envelope) :
    Option Stage × Station :=
  match stage with
  | .waiting =>
    match authenticate st.hub.tokens entry e with
    | .error why => (none, st.withHub (st.hub.reject id (.refused why)))
    | .ok who =>
      if entry = .chat then
        if e.type?.isNone then (some (.chatting who), st)
        else
          let (going, st) := st.serve id who e
          (if going then some (.chatting who) else none, st)
      else (some .listening, st.listen id entry)
  | .chatting who =>
    let (going, st) := st.serve id who e
    (if going then some stage else none, st)
  | .listening => (some stage, st)

def hangUp (st : Station) (id : ConnId) (stage : Stage) : Station :=
  match stage with
  | .waiting => st.withHub (st.hub.reject id (.refused .closedEarly))
  | _ => st.withHub (st.hub.close id)

def turn (st : Station) (id : ConnId) (s : Session) : Session × Station :=
  match s.inbox.next with
  | .pending inbox => ({ s with inbox := inbox }, st)
  | .ended => ({ s with ended := true }, st.hangUp id s.stage)
  | .got (.error fault) inbox =>
    ({ s with inbox := inbox, ended := true }, st.withHub (st.hub.reject id fault))
  | .got (.ok e) inbox =>
    match st.handle id s.entry s.stage e with
    | (none, st) => ({ s with inbox := inbox, ended := true }, st)
    | (some stage, st) => ({ s with inbox := inbox, stage := stage }, st)

theorem turn_got {st : Station} {id : ConnId} {s : Session} {result : Except Fault Envelope}
    {inbox : Inbox} (next : s.inbox.next = .got result inbox) : (st.turn id s).1.inbox = inbox := by
  unfold turn
  rw [next]
  cases result with
  | error fault => rfl
  | ok e =>
    dsimp only
    split <;> rfl

def runSession (st : Station) (id : ConnId) (s : Session) : Session × Station :=
  if st.exchange.isClosed id then ({ s with ended := true }, st)
  else
    match _next : s.inbox.next with
    | .got _ _ =>
      let after := st.turn id s
      if after.1.ended then after else runSession after.2 id after.1
    | _ => st.turn id s
termination_by s.inbox.size
decreasing_by
  rw [turn_got _next]
  exact Inbox.next_size _next

def runSessions (st : Station) : List ConnId → Station
  | [] => st
  | id :: ids =>
    match st.sessions.find? id with
    | none => runSessions st ids
    | some s =>
      if s.ended then runSessions st ids
      else
        let (s, st) := st.runSession id s
        runSessions { st with sessions := st.sessions.insert id s } ids

def endSessions (st : Station) : List ConnId → Station
  | [] => st
  | id :: ids =>
    if st.exchange.isClosed id then
      let sessions := st.sessions.modify id fun s => { s with ended := true }
      endSessions { st with sessions := sessions } ids
    else endSessions st ids

end Switchboard.Station
