import Switchboard.Proofs.Exchange.Views
import Switchboard.Proofs.Wire.Inbox
import Switchboard.Station.Clock

/-!
Moves: the small steps that the life of a station consists of. They may come in any order, so that
whatever holds after every sequence of them holds for every schedule. A move that is not possible
changes nothing.
-/

namespace Switchboard

/-- Connections here are clients that sessions drive. A `read` is one read of a session, with what
follows from it; `notice` is a session that finds its connection closed; `relink` is whatever a
writer and a far end do with a link, and `reap` what follows when the writer has stopped. A `probe`
is the turn of one monitor, at any time. -/
inductive Move
  | connect (id : ConnId) (entry : EntryPoint) (room : Nat) (stalled : Bool)
  | arrive (id : ConnId) (arrival : Arrival)
  | finish (id : ConnId)
  | read (id : ConnId)
  | notice (id : ConnId)
  | relink (id : ConnId) (change : Link → Link)
  | reap (id : ConnId)
  | probe (outer : Bool) (n : Nat)
  | clock (time : Nat)
  | enqueue (event : Event)
  | dispatch (queue : QueueName)
  | endLoop
  | runDispatcher
  | cancel
  | dropDispatcher
  | dropNotifier
  | down (outage : Outage)

namespace Station

def fresh (whole : Bool) (tokens : List TokenEntry) (limits : Limits) : Station :=
  ⟨.fresh tokens limits, 0, whole, true, .idle, false, .empty, [], []⟩

theorem fresh_of_start {now : Nat} {whole : Bool} {tokens : List TokenEntry} {limits : Limits}
    {st : Station} (started : startAt now whole tokens limits = .ok st) :
    st = { fresh whole tokens limits with now := now } := by
  unfold startAt at started
  cases checked : Queue.checkCapacity limits.queueCapacity.toNat with
  | error fault =>
    rw [checked] at started
    cases started
  | ok _ =>
    rw [checked] at started
    cases started
    rfl

/-! ### One move -/

def connectClient (st : Station) (id : ConnId) (entry : EntryPoint) (room : Nat) (stalled : Bool) :
    Station :=
  if st.exchange.Knows id then st
  else
    match st.addClient id (some entry) room stalled with
    | .ok st => st
    | .error _ => st

def hear (st : Station) (id : ConnId) (arrival : Arrival) : Station :=
  { st with sessions := st.sessions.modify id fun s =>
      if s.inbox.finished then s else s.arrive arrival }

def read (st : Station) (id : ConnId) : Station :=
  match st.sessions.find? id with
  | none => st
  | some s =>
    if s.ended then st
    else
      let after := st.turn id s
      { after.2 with sessions := after.2.sessions.insert id after.1 }

def reap (st : Station) (id : ConnId) : Station :=
  match st.exchange.conns.find? id with
  | none => st
  | some c =>
    match c.link with
    | .peer _ => st
    | .client o => if o.writer = .stopped then st.withHub (st.hub.close id) else st

def watches (st : Station) (outer : Bool) : List Monitor :=
  if outer then st.monitors else st.inner

def setWatches (st : Station) (outer : Bool) (ms : List Monitor) : Station :=
  if outer then { st with monitors := ms } else { st with inner := ms }

def probeOne (st : Station) (outer : Bool) (n : Nat) : Station :=
  match (st.watches outer)[n]? with
  | none => st
  | some m =>
    if m.ended then st
    else
      let after := st.fire m
      after.2.setWatches outer ((st.watches outer).set n after.1)

def dispatchOne (st : Station) (queue : QueueName) : Station :=
  if st.loop = .running then
    match st.hub.bus.take? queue with
    | none => st
    | some (event, bus) => st.withHub ({ st.hub with bus := bus }.dispatch event).2
  else st

def MayEnd (st : Station) : Prop :=
  st.loop = .running ∧
    (st.cancelled = true ∨ (st.notifier = false ∧ st.ownNotifier = false ∧ st.hub.bus.size = 0))

instance (st : Station) : Decidable st.MayEnd := inferInstanceAs (Decidable (_ ∧ _))

def step (st : Station) : Move → Station
  | .connect id entry room stalled => st.connectClient id entry room stalled
  | .arrive id arrival => st.hear id arrival
  | .finish id => st.finish id
  | .read id => st.read id
  | .notice id => st.endSessions [id]
  | .relink id change => st.mapLink id change
  | .reap id => st.reap id
  | .probe outer n => st.probeOne outer n
  | .clock time => { st with now := time }
  | .enqueue event => if st.notifier then (st.enqueue event).2 else st
  | .dispatch queue => st.dispatchOne queue
  | .endLoop => if st.MayEnd then st.endLoop .ended else st
  | .runDispatcher => st.runDispatcher.getD st
  | .cancel => st.cancelDispatcher
  | .dropDispatcher => st.dropDispatcher
  | .dropNotifier => st.dropNotifier
  | .down outage => { st with hub := { st.hub with store := { st.hub.store with outage := outage } } }

def run (st : Station) (moves : List Move) : Station := moves.foldl step st

@[simp] theorem run_cons (st : Station) (m : Move) (ms : List Move) :
    st.run (m :: ms) = (st.step m).run ms := rfl

theorem run_append (st : Station) (ms more : List Move) :
    st.run (ms ++ more) = (st.run ms).run more := List.foldl_append

theorem run_keeps (holds : Station → Prop) (step : ∀ st m, holds st → holds (st.step m))
    {st : Station} (start : holds st) (moves : List Move) : holds (st.run moves) := by
  induction moves generalizing st with
  | nil => exact start
  | cons m ms ih => exact ih (step st m start)

/-! ### What a turn of a session may be -/

end Station

def Session.Speaks (tokens : List TokenEntry) (s : Session) (e : Envelope) (who : Identity) : Prop :=
  s.stage = .chatting who ∨
    (s.stage = .waiting ∧ s.entry = .chat ∧ authenticate tokens .chat e = .ok who)

def Session.Admits (tokens : List TokenEntry) (s : Session) (e : Envelope) (who : Identity) : Prop :=
  s.stage = .waiting ∧ authenticate tokens s.entry e = .ok who

namespace Station

/-- The turns that a session can take: to which session and which station they lead. -/
inductive Turned (st : Station) (id : ConnId) (s : Session) : Session → Station → Prop
  | idle {inbox : Inbox} (next : s.inbox.next = .pending inbox) :
    Turned st id s { s with inbox := inbox } st
  | left (next : s.inbox.next = .ended) (admitted : s.stage ≠ .waiting) :
    Turned st id s { s with ended := true } (st.withHub (st.hub.close id))
  | rejected (fault : Fault) (inbox : Inbox) (kept : inbox.finished = s.inbox.finished)
    (unfit : ∀ e rest who, s.inbox.next = .got (.ok e) rest →
      ¬ s.Admits st.hub.tokens e who ∧ ¬ s.Speaks st.hub.tokens e who) :
    Turned st id s { s with inbox := inbox, ended := true } (st.withHub (st.hub.reject id fault))
  | listening {e : Envelope} {rest : Inbox} {who : Identity} (next : s.inbox.next = .got (.ok e) rest)
    (admits : s.Admits st.hub.tokens e who) (special : s.entry ≠ .chat) :
    Turned st id s { s with inbox := rest, stage := .listening } (st.listen id s.entry)
  | admitted {e : Envelope} {rest : Inbox} {who : Identity} (next : s.inbox.next = .got (.ok e) rest)
    (speaks : s.Speaks st.hub.tokens e who) (bare : e.type? = none) :
    Turned st id s { s with inbox := rest, stage := .chatting who } st
  | served {e : Envelope} {rest : Inbox} {who : Identity} {after : Station}
    (next : s.inbox.next = .got (.ok e) rest) (speaks : s.Speaks st.hub.tokens e who)
    (done : st.serve id who e = (true, after)) :
    Turned st id s { s with inbox := rest, stage := .chatting who } after
  | dismissed {e : Envelope} {rest : Inbox} {who : Identity} {after : Station}
    (next : s.inbox.next = .got (.ok e) rest) (speaks : s.Speaks st.hub.tokens e who)
    (done : st.serve id who e = (false, after)) :
    Turned st id s { s with inbox := rest, ended := true } after
  | ignored {e : Envelope} {rest : Inbox} (next : s.inbox.next = .got (.ok e) rest)
    (listens : s.stage = .listening) : Turned st id s { s with inbox := rest } st

theorem turned_of_hangUp (st : Station) (id : ConnId) {s : Session} (next : s.inbox.next = .ended) :
    Turned st id s { s with ended := true } (st.hangUp id s.stage) := by
  have unfit : ∀ e rest who, s.inbox.next = .got (.ok e) rest →
      ¬ s.Admits st.hub.tokens e who ∧ ¬ s.Speaks st.hub.tokens e who := by
    intro e rest who got
    rw [next] at got
    cases got
  obtain ⟨entry, inbox, stage, ended, heard⟩ := s
  cases stage with
  | waiting => exact .rejected _ inbox rfl unfit
  | chatting who => exact .left next Stage.noConfusion
  | listening => exact .left next Stage.noConfusion

theorem turned_of_serve {st : Station} (id : ConnId) {s : Session} {e : Envelope} {rest : Inbox}
    {who : Identity} (next : s.inbox.next = .got (.ok e) rest)
    (speaks : s.Speaks st.hub.tokens e who) :
    Turned st id s
      (if (st.serve id who e).1 then { s with inbox := rest, stage := .chatting who }
        else { s with inbox := rest, ended := true }) (st.serve id who e).2 := by
  cases served : st.serve id who e with
  | mk going after =>
    cases going with
    | true => exact .served next speaks served
    | false => exact .dismissed next speaks served

theorem turn_waiting {st : Station} {id : ConnId} {s : Session} {e : Envelope} {rest : Inbox}
    (next : s.inbox.next = .got (.ok e) rest) (waiting : s.stage = .waiting) :
    Turned st id s (st.turn id s).1 (st.turn id s).2 := by
  obtain ⟨entry, inbox, stage, ended, heard⟩ := s
  change stage = .waiting at waiting
  subst waiting
  unfold turn handle
  rw [next]
  dsimp only
  cases accepted : authenticate st.hub.tokens entry e with
  | error why =>
    apply Turned.rejected (.refused why) rest (Inbox.finished_of_got next)
    intro e' rest' who got
    rw [next] at got
    cases got
    refine ⟨?_, ?_⟩
    · intro admits
      rw [admits.2] at accepted
      cases accepted
    · rintro (stage | ⟨-, chat, accepted'⟩)
      · cases stage
      · subst chat
        rw [accepted'] at accepted
        cases accepted
  | ok who =>
    dsimp only
    by_cases chat : entry = .chat
    · have speaks : Session.Speaks st.hub.tokens ⟨entry, inbox, .waiting, ended, heard⟩ e who :=
        Or.inr ⟨rfl, chat, chat ▸ accepted⟩
      rw [if_pos chat]
      by_cases bare : e.type?.isNone = true
      · rw [if_pos bare]
        exact .admitted next speaks (Option.isNone_iff_eq_none.mp bare)
      · rw [if_neg bare]
        have turned := turned_of_serve id next speaks
        cases going : (st.serve id who e).1 <;> simpa [going] using turned
    · rw [if_neg chat]
      exact .listening next ⟨rfl, accepted⟩ chat

theorem turn_cases (st : Station) (id : ConnId) (s : Session) :
    Turned st id s (st.turn id s).1 (st.turn id s).2 := by
  cases next : s.inbox.next with
  | pending inbox =>
    unfold turn
    rw [next]
    exact .idle next
  | ended =>
    unfold turn
    rw [next]
    exact turned_of_hangUp st id next
  | got result inbox =>
    cases result with
    | error fault =>
      unfold turn
      rw [next]
      apply Turned.rejected fault inbox (Inbox.finished_of_got next)
      intro e rest who got
      rw [next] at got
      cases got
    | ok e =>
      cases stage : s.stage with
      | waiting => exact turn_waiting next stage
      | chatting who =>
        have speaks : s.Speaks st.hub.tokens e who := Or.inl stage
        have turned := turned_of_serve id next speaks
        unfold turn handle
        rw [next, stage]
        cases going : (st.serve id who e).1 <;> simpa [going, stage] using turned
      | listening =>
        unfold turn handle
        rw [next, stage]
        have turned : Turned st id s { s with inbox := inbox } st := .ignored next stage
        rwa [stage] at turned

theorem read_running {st : Station} {id : ConnId} {s : Session}
    (found : st.sessions.find? id = some s) (running : s.ended = false) :
    ∃ next after, Turned st id s next after ∧
      st.step (.read id) = { after with sessions := after.sessions.insert id next } := by
  refine ⟨_, _, turn_cases st id s, ?_⟩
  rw [step, read, found]
  dsimp only
  rw [running]
  rfl

theorem read_cases (st : Station) (id : ConnId) :
    st.read id = st ∨ ∃ s after st', st.sessions.find? id = some s ∧ s.ended = false ∧
      Turned st id s after st' ∧
      st.read id = { st' with sessions := st'.sessions.insert id after } := by
  unfold read
  split
  · exact Or.inl rfl
  · next s found =>
    split
    · exact Or.inl rfl
    · next running =>
      exact Or.inr ⟨s, _, _, found, by simpa using running, turn_cases st id s, rfl⟩

end Station

end Switchboard
