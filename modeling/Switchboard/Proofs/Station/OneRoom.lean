import Switchboard.Proofs.Exchange.OneRoom
import Switchboard.Proofs.Station.Requests

/-!
Every connection is in one room at a time, whatever is done to a station, as long as rooms are
joined and left in no other way than by taking and giving up seats.
-/

namespace Switchboard

open Exchange (OneRoom)

variable {attached : ConnId → Prop}

namespace Hub

variable {h : Hub} {who : Identity} {id : ConnId} {e : Envelope}

theorem oneRoom_chat (rooms : h.exchange.OneRoom attached) (known : h.exchange.Knows id)
    (allowed : e.type? = some .adminJoin → who.role = .admin → attached id) :
    (h.chat who id e).2.exchange.OneRoom attached := by
  have chatted := h.chat_chatted who id e
  generalize h.chat who id e = answered at chatted ⊢
  -- a newcomer has been told of its conversation before it moves there
  have moved : ∀ {room frame x y answer}, h.exchange.send id frame = .ok x →
      x.joinRoom room id = (answer, y) → y.OneRoom attached := by
    intro room frame x y answer accepted greeted
    have joined := (rooms.send accepted).joinRoom ((Exchange.knows_send accepted id).mpr known) room
    rwa [greeted] at joined
  cases chatted with
  | refused _ _ => exact rooms
  | attached type admin => exact rooms.joinAllRooms known (allowed type admin)
  | untold _ _ _ _ => exact rooms
  | ungreeted _ _ _ _ accepted greeted => exact moved accepted greeted
  | opened _ _ _ accepted greeted =>
    obtain ⟨bus, -, shape⟩ := announce_eq _ _
    rw [shape]
    exact moved accepted greeted
  | talked _ _ _ _ _ => exact rooms.publish _ _

theorem oneRoom_tell (rooms : h.exchange.OneRoom attached) (id : ConnId) (fault : Fault) :
    (h.tell id fault).exchange.OneRoom attached := by
  unfold tell
  split
  · exact rooms
  · split
    · next accepted => exact rooms.send accepted
    · exact rooms

theorem oneRoom_reject (rooms : h.exchange.OneRoom attached) (id : ConnId) (fault : Fault) :
    (h.reject id fault).exchange.OneRoom attached :=
  (oneRoom_tell rooms id fault).close id

theorem oneRoom_dispatch (rooms : h.exchange.OneRoom attached) (event : Event) :
    (h.dispatch event).2.exchange.OneRoom attached := by
  obtain ⟨store, -, shape | ⟨frame, -, shape⟩⟩ := h.dispatch_cases event
  · rw [shape]
    exact rooms
  · rw [shape]
    exact rooms.publish event.topic frame

end Hub

namespace Station

variable {st after : Station} {id : ConnId} {s next : Session}

/-! ### Sessions -/

theorem oneRoom_serve {who : Identity} {e : Envelope} {going : Bool}
    (rooms : st.exchange.OneRoom attached) (known : st.exchange.Knows id)
    (allowed : e.type? = some .adminJoin → who.role = .admin → attached id)
    (done : st.serve id who e = (going, after)) : after.exchange.OneRoom attached := by
  have chatted := Hub.oneRoom_chat rooms known allowed
  rcases serve_cases st id who e with ⟨hub, chat, shape⟩ | ⟨why, hub, chat, shape | shape⟩
  · rw [shape] at done
    cases done
    rwa [chat] at chatted
  · rw [shape] at done
    cases done
    rw [chat] at chatted
    exact Hub.oneRoom_reject chatted id _
  · rw [shape] at done
    cases done
    rw [chat] at chatted
    exact Hub.oneRoom_tell chatted id _

theorem oneRoom_special (rooms : st.exchange.OneRoom attached) (known : st.exchange.Knows id)
    {entry : EntryPoint} {topic : Topic} (serves : entry.topic? = some topic) :
    (st.exchange.join topic id).2.OneRoom attached := by
  apply rooms.join known topic
  rintro room rfl
  cases entry <;> cases serves

theorem oneRoom_turned (rooms : st.exchange.OneRoom attached) (known : st.exchange.Knows id)
    (allowed : ∀ e rest who, s.inbox.next = .got (.ok e) rest → s.Speaks st.hub.tokens e who →
      e.type? = some .adminJoin → who.role = .admin → attached id)
    (turned : Turned st id s next after) : after.exchange.OneRoom attached := by
  cases turned with
  | idle _ => exact rooms
  | left _ _ => exact rooms.close id
  | rejected fault _ _ _ => exact Hub.oneRoom_reject rooms id fault
  | listening _ _ _ =>
    unfold listen join?
    cases serves : s.entry.topic? with
    | none => exact rooms
    | some topic => exact oneRoom_special rooms known serves
  | admitted _ _ _ => exact rooms
  | served got speaks done => exact oneRoom_serve rooms known (allowed _ _ _ got speaks) done
  | dismissed got speaks done => exact oneRoom_serve rooms known (allowed _ _ _ got speaks) done
  | ignored _ _ => exact rooms

/-! ### Acts -/

inductive Attaches (st : Station) : Act → ConnId → Prop
  | called (id : ConnId) : Attaches st (.joinAllRooms id) id
  | asked {who : Identity} {id : ConnId} {e : Envelope} (type : e.type? = some .adminJoin)
    (admin : who.role = .admin) : Attaches st (.chat who id e) id
  | heard {who : Identity} {id : ConnId} {e : Envelope} (spoken : st.spoken? id = some (who, e))
    (type : e.type? = some .adminJoin) (admin : who.role = .admin) :
    Attaches st (.move (.read id)) id

/-- On the run the connection is joined to all rooms. -/
def Attached (st : Station) : List Act → ConnId → Prop
  | [], _ => False
  | a :: acts, id => st.Attaches a id ∨ (st.act a).Attached acts id

end Station

/-- Rooms are joined and left by taking and giving up seats, not as topics. -/
def Act.BypassesSeats : Act → Prop
  | .join (.room _) _ | .leave (.room _) _ => True
  | _ => False

namespace Station

variable {st : Station} {id : ConnId}

theorem oneRoom_step (sound : st.Sound) (rooms : st.exchange.OneRoom attached) (m : Move)
    (allowed : ∀ id, st.Attaches (.move m) id → attached id) :
    (st.step m).exchange.OneRoom attached := by
  have stepped := step_stepped st m
  generalize st.step m = after at stepped
  cases stepped with
  | connected link unknown => exact rooms.connect unknown link
  | @read id s next after found running turned =>
    apply oneRoom_turned rooms (sound.known id s found) ?_ turned
    intro e rest who got speaks type admin
    have hears : st.Hears id e who := ⟨s, rest, found, running, got, speaks⟩
    have typed : e.type? ≠ none := by
      rw [type]
      exact Option.some_ne_none _
    exact allowed id (.heard (hears.spoken typed) type admin)
  | relinked id change link => exact rooms.setLink id link
  | reaped id => exact rooms.close id
  | @pinged outer n m later x found accepted same =>
    rw [exchange_withWatch]
    exact rooms.send accepted
  | @gaveUp outer n m later found same =>
    rw [exchange_withWatch]
    exact rooms.drop m.topic m.conn
  | @dispatched queue event bus _ _ =>
    exact Hub.oneRoom_dispatch (h := { st.hub with bus := bus }) rooms event
  | _ => exact rooms

theorem oneRoom_given {after : Station} (rooms : st.exchange.OneRoom attached)
    (next : st.exchange.Knows id → after.exchange.OneRoom attached) :
    (st.given id after).exchange.OneRoom attached := by
  unfold given
  split
  · next known => exact next known
  · exact rooms

theorem oneRoom_unlessKnown {after : Station} (rooms : st.exchange.OneRoom attached)
    (next : ¬ st.exchange.Knows id → after.exchange.OneRoom attached) :
    (st.unlessKnown id after).exchange.OneRoom attached := by
  unfold unlessKnown
  split
  · exact rooms
  · next unknown => exact next unknown

theorem oneRoom_act (sound : st.Sound) (rooms : st.exchange.OneRoom attached) (a : Act)
    (seated : ¬ a.BypassesSeats) (allowed : ∀ id, st.Attaches a id → attached id) :
    (st.act a).exchange.OneRoom attached := by
  cases a with
  | move m => exact oneRoom_step sound rooms m allowed
  | addPeer id allowance? => exact oneRoom_unlessKnown rooms fun unknown => rooms.connect unknown _
  | addClient id room stalled =>
    apply oneRoom_unlessKnown rooms
    intro unknown
    rcases st.client_cases id room stalled with shape | ⟨link, shape⟩ <;> rw [shape]
    · exact rooms
    · exact rooms.connect unknown link
  | join topic id =>
    apply oneRoom_given rooms
    intro known
    apply rooms.join known topic
    rintro room rfl
    exact absurd trivial seated
  | leave topic id =>
    apply rooms.leave id
    rintro room rfl
    exact absurd trivial seated
  | publish topic frame => exact rooms.publish topic frame
  | send id frame => exact rooms.attempt id frame
  | joinRoom room id => exact oneRoom_given rooms fun known => rooms.joinRoom known room
  | leaveRoom id => exact rooms.leaveRoom id
  | joinAllRooms id =>
    exact oneRoom_given rooms fun known => rooms.joinAllRooms known (allowed id (.called id))
  | broadcast room content => exact rooms.broadcast room content
  | chat who id e =>
    apply oneRoom_given rooms
    intro known
    exact Hub.oneRoom_chat rooms known fun type admin => allowed id (.asked type admin)
  | enroll id entry =>
    apply oneRoom_given rooms
    intro known
    unfold enroll join?
    cases serves : entry.topic? with
    | none => exact rooms
    | some topic => exact oneRoom_special rooms known serves
  | monitor id topic every => exact rooms
  | close id => exact rooms.close id
  | dispatch event => exact Hub.oneRoom_dispatch rooms event
  | store store => exact rooms

theorem oneRoom_actAll (sound : st.Sound) (rooms : st.exchange.OneRoom attached) (acts : List Act)
    (seated : ∀ a ∈ acts, ¬ a.BypassesSeats) :
    (st.actAll acts).exchange.OneRoom fun id => attached id ∨ st.Attached acts id := by
  induction acts generalizing st attached with
  | nil => exact rooms.mono fun id => Or.inl
  | cons a acts ih =>
    have first : (st.act a).exchange.OneRoom fun id => attached id ∨ st.Attaches a id :=
      oneRoom_act sound (rooms.mono fun id => Or.inl) a (seated a List.mem_cons_self)
        fun id => Or.inr
    have rest := ih (sound.act a) first fun b later => seated b (List.mem_cons_of_mem a later)
    exact rest.mono fun id => or_assoc.mp

/-- Whoever sits in a room is a member of it; whoever was never joined to all rooms is a member of
that room alone. -/
theorem one_room_at_a_time (whole : Bool) (tokens : List TokenEntry) (limits : Limits)
    (acts : List Act) (seated : ∀ a ∈ acts, ¬ a.BypassesSeats) :
    let start := fresh whole tokens limits
    let x := (start.actAll acts).exchange
    (∀ id room, x.seatOf id = some room → id ∈ x.membersOf (.room room)) ∧
      ∀ id, ¬ start.Attached acts id →
        (∀ room, id ∈ x.membersOf (.room room) ↔ x.seatOf id = some room) ∧
          ∀ room other, id ∈ x.membersOf (.room room) → id ∈ x.membersOf (.room other) →
            room = other := by
  intro start x
  have rooms : x.OneRoom fun id => False ∨ start.Attached acts id :=
    oneRoom_actAll (fresh_sound whole tokens limits) OneRoom.empty acts seated
  refine ⟨rooms.placed, ?_⟩
  intro id free
  have exact_room : ∀ room, id ∈ x.membersOf (.room room) ↔ x.seatOf id = some room :=
    fun room => rooms.member_iff fun either => free (either.resolve_left not_false)
  refine ⟨exact_room, ?_⟩
  intro room other member member'
  have sits := (exact_room room).mp member
  have sits' := (exact_room other).mp member'
  rw [sits] at sits'
  exact Option.some_inj.mp sits'

def moving : List Act :=
  [.addPeer 1 none, .addPeer 2 none, .joinRoom 5 1, .joinAllRooms 2, .joinRoom 6 1]

theorem one_room_at_a_time_moving :
    let start := fresh true [] .standard
    let x := (start.actAll moving).exchange
    (∀ a ∈ moving, ¬ a.BypassesSeats) ∧ ¬ start.Attached moving 1 ∧
      (∀ id room, x.seatOf id = some room → id ∈ x.membersOf (.room room)) ∧
      ∀ room, 1 ∈ x.membersOf (.room room) ↔ x.seatOf 1 = some room := by
  intro start x
  have seated : ∀ a ∈ moving, ¬ a.BypassesSeats := by
    simp [moving, Act.BypassesSeats]
  have free : ¬ start.Attached moving 1 := by
    simp only [moving, Attached, or_false]
    rintro (h | h | h | h | h) <;> cases h
  obtain ⟨placed, alone⟩ := one_room_at_a_time true [] .standard moving seated
  exact ⟨seated, free, placed, (alone 1 free).1⟩

end Station

end Switchboard
