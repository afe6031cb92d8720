import Switchboard.Proofs.Hub.Newcomers
import Switchboard.Proofs.Station.Talk

/-!
What becomes of a user that opens a conversation. Its queue has to hold two frames, the number of
the conversation and the greeting; the limits may allow for one only.
-/

namespace Switchboard

theorem Limits.check_outbound {l : Limits} (valid : l.check = .ok ()) :
    0 < l.outboundCapacity.toNat := by
  unfold check at valid
  split at valid
  · cases valid
  · next capacities =>
    apply Nat.pos_of_ne_zero
    intro zero
    exact capacities (Or.inr (UInt64.toNat.inj zero))

namespace Exchange

variable {x : Exchange} {id : ConnId} {room : ConversationId} {capacity : Nat}

def Idle (x : Exchange) (id : ConnId) (capacity : Nat) : Prop :=
  ∃ c, x.conns.find? id = some c ∧ c.Holds capacity []

def queued (x : Exchange) (id : ConnId) : List Frame := ((x.conns.find? id).map (·.queued)).getD []

theorem queued_of_find? {c : Conn} {frames : List Frame} (found : x.conns.find? id = some c)
    (holds : c.queued = frames) : x.queued id = frames := by
  rw [queued, found]
  exact holds

/-- An idle client that is sent a frame and then moves into a room where nobody is: it is alone
there if it has room for the greeting, and otherwise it is thrown out. -/
theorem Idle.joins (h : x.Consistent) (idle : x.Idle id capacity) (some : 0 < capacity)
    (nobody : x.membersOf (.room room) = []) (elsewhere : x.seatOf id ≠ Option.some room)
    (response : Frame) :
    ∃ y greeted, x.send id response = .ok y ∧
      Frame.ofEnvelope (.texting room greeting) = .ok greeted ∧
      if 1 < capacity then
        x.Alone (y.joinRoom room id).2 id room ∧
          (y.joinRoom room id).2.queued id = [response, greeted]
      else
        (y.joinRoom room id).2.Ousted id room ∧ (y.joinRoom room id).2.queued id = [response] := by
  obtain ⟨c, found, holds⟩ := idle
  obtain ⟨k, sent, holds'⟩ := holds.send some response
  have accepted : x.send id response = .ok (x.withConn id k) := by
    rw [send, found]
    dsimp only
    rw [sent]
    rfl
  have consistent := h.send accepted
  have opened : (x.withConn id k).isClosed id = false := by
    rw [isClosed_withConn, if_pos rfl]
    exact (Conn.send_ok sent).2.1
  have known : (x.withConn id k).Knows id := (x.knows_withConn id id k).mpr (Or.inl rfl)
  have alone : (x.withConn id k).Alone ((x.withConn id k).perform (.move room id)) id room :=
    consistent.moved_alone opened nobody elsewhere
  have moved := consistent.perform (d := .move room id) known
  obtain ⟨hooks, there⟩ := find?_conns_move
    ((x.find?_conns_withConn id id k).trans (if_pos rfl)) room
  obtain ⟨greeted, written, joined⟩ := (x.withConn id k).joinRoom_greets room id
  refine ⟨x.withConn id k, greeted, accepted, written, ?_⟩
  rw [joined]
  split
  · next room =>
    obtain ⟨stays, l, found', holds''⟩ := alone.greeted moved there holds' room greeted
    exact ⟨⟨stays.opened, stays.members, stays.seat, stays.left⟩,
      queued_of_find? found' holds''.queued⟩
  · next full =>
    obtain ⟨ousted, l, found', queued⟩ := alone.ungreeted moved there holds' (by simpa using full)
      greeted
    exact ⟨ousted, queued_of_find? found' queued⟩

end Exchange

namespace Hub

/-- What an idle user that opens a conversation is answered, what is queued for it, and whether it
is in the room of the conversation afterwards. -/
theorem userJoin_arrives {h : Hub} {id : ConnId} {room : ConversationId} {store : Store}
    {capacity : Nat} {e : Envelope} (consistent : h.exchange.Consistent) (who : Identity)
    (type : e.type? = some .userJoin) (idle : h.exchange.Idle id capacity)
    (positive : 0 < capacity) (created : h.store.createConversation = .ok (room, store))
    (nobody : h.exchange.membersOf (.room room) = [])
    (elsewhere : h.exchange.seatOf id ≠ some room) :
    (h.chat who id e).1 = .ok () ∧
      (h.chat who id e).2.bus = h.offered (.conversation (.opened room who.account)) ∧
      ∃ response greeted, Frame.ofEnvelope (.joinResponse room) = .ok response ∧
        Frame.ofEnvelope (.texting room greeting) = .ok greeted ∧
        if 1 < capacity then
          h.exchange.Alone (h.chat who id e).2.exchange id room ∧
            (h.chat who id e).2.exchange.queued id = [response, greeted]
        else
          (h.chat who id e).2.exchange.Ousted id room ∧
            (h.chat who id e).2.exchange.queued id = [response] := by
  obtain ⟨response, written⟩ := Frame.joinResponse_written room
  obtain ⟨y, greeted, sent, written', arrives⟩ :=
    idle.joins consistent positive nobody elsewhere response
  rw [userJoin_told type created written sent]
  exact ⟨rfl, rfl, response, greeted, written, written', arrives⟩

end Hub

namespace Station

variable {st : Station}

/-! ### Rooms that have been joined -/

theorem placed_act (sound : st.Sound) (placed : st.exchange.Placed) (a : Act) :
    (st.act a).exchange.Placed := by
  rcases act_ensues sound a with leads | ⟨id, link, -, shape⟩
  · exact leads.placed sound.consistent (fun d may => may.1) placed
  · rw [shape]
    exact placed

theorem placed_requestAll (sound : st.Sound) (placed : st.exchange.Placed)
    (requests : List Request) : (st.requestAll requests).exchange.Placed := by
  induction requests generalizing st with
  | nil => exact placed
  | cons r requests ih =>
    apply ih (sound.request r)
    cases r with
    | act a => exact placed_act sound placed a
    | store call => exact placed

/-! ### Users that open a conversation -/

/-- An idle user whose conversation is new is answered that it has joined, and the event of that is
offered. With room for the greeting it is then alone in the new room; with limits that let a client
have one frame only, it is closed and in no room. -/
theorem user_joins (whole : Bool) (tokens : List TokenEntry) (limits : Limits)
    (requests : List Request) (who : Identity) (id : ConnId) (e : Envelope) (room : ConversationId)
    (store : Store) (valid : limits.check = .ok ()) (type : e.type? = some .userJoin)
    (idle : ((fresh whole tokens limits).requestAll requests).exchange.Idle id
      limits.outboundCapacity.toNat)
    (created : ((fresh whole tokens limits).requestAll requests).hub.store.createConversation =
      .ok (room, store))
    (unjoined : ((fresh whole tokens limits).requestAll requests).exchange.isKnown (.room room) =
      false) :
    let st := (fresh whole tokens limits).requestAll requests
    let next := (st.hub.chat who id e).2
    (st.hub.chat who id e).1 = .ok () ∧
      next.bus = st.hub.offered (.conversation (.opened room who.account)) ∧
      ∃ response greeted, Frame.ofEnvelope (.joinResponse room) = .ok response ∧
        Frame.ofEnvelope (.texting room greeting) = .ok greeted ∧
        if 1 < limits.outboundCapacity.toNat then
          st.exchange.Alone next.exchange id room ∧ next.exchange.queued id = [response, greeted]
        else
          next.exchange.Ousted id room ∧ next.exchange.queued id = [response] := by
  intro st next
  have fresh_placed : (fresh whole tokens limits).exchange.Placed := fun _ _ seat => nomatch seat
  have sound : st.Sound := (fresh_sound whole tokens limits).requestAll requests
  have placed : st.exchange.Placed :=
    placed_requestAll (fresh_sound whole tokens limits) fresh_placed requests
  have unknown : Topic.room room ∉ st.exchange.members.keys := by
    rw [← Exchange.isKnown_iff]
    exact Bool.eq_false_iff.mp unjoined
  have elsewhere : st.exchange.seatOf id ≠ some room := fun sits => unknown (placed id room sits)
  exact Hub.userJoin_arrives sound.consistent who type idle (Limits.check_outbound valid) created
    (Exchange.membersOf_unknown unknown) elsewhere

def visited : List Request := [.act (.addClient 1 4096 false)]

theorem user_joins_visited :
    let st := (fresh true [] .standard).requestAll visited
    let next := (st.hub.chat ⟨7, .user⟩ 1 (.ofType .userJoin)).2
    (st.hub.chat ⟨7, .user⟩ 1 (.ofType .userJoin)).1 = .ok () ∧
      st.exchange.Alone next.exchange 1 1 := by
  have idle : ((fresh true [] .standard).requestAll visited).exchange.Idle 1 64 :=
    ⟨_, rfl, _, rfl, rfl, Writer.noConfusion, rfl, rfl⟩
  obtain ⟨answered, -, response, greeted, -, -, arrived⟩ := user_joins true [] .standard visited
    ⟨7, .user⟩ 1 (.ofType .userJoin) 1 _ rfl rfl idle rfl rfl
  exact ⟨answered, arrived.1⟩

def narrow : Limits := { Limits.standard with outboundCapacity := 1 }

/-- The user is told that it has joined, and is closed and in no room. -/
theorem user_joins_narrow :
    let st := (fresh true [] narrow).requestAll visited
    let answered := st.hub.chat ⟨7, .user⟩ 1 (.ofType .userJoin)
    narrow.check = .ok () ∧ st.exchange.Idle 1 1 ∧
      (∃ store, st.hub.store.createConversation = .ok (1, store)) ∧
      st.exchange.isKnown (.room 1) = false ∧
      answered.1 = .ok () ∧ answered.2.exchange.isClosed 1 = true ∧
      answered.2.exchange.membersOf (.room 1) = [] ∧ answered.2.exchange.seatOf 1 = none := by
  intro st answered
  have sound : st.Sound := (fresh_sound true [] narrow).requestAll visited
  have idle : st.exchange.Idle 1 1 := ⟨_, rfl, _, rfl, rfl, Writer.noConfusion, rfl, rfl⟩
  obtain ⟨accepted, -, response, greeted, -, -, ousted, -⟩ := Hub.userJoin_arrives sound.consistent
    ⟨7, .user⟩ (e := .ofType .userJoin) rfl idle Nat.one_pos rfl rfl (Option.some_ne_none _).symm
  exact ⟨rfl, idle, ⟨_, rfl⟩, rfl, accepted, ousted.closed, ousted.members, ousted.seat⟩

end Station

end Switchboard
