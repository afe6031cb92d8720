import Switchboard.Proofs.Exchange.Entered
import Switchboard.Proofs.Station.Requests

/-!
Rooms that are known, and joining all of them. A room is known from the first join on; whoever joins
all rooms is in those known then, and gets into no other unless it is joined to it.
-/

namespace Switchboard

open Exchange (Joined)

namespace Hub

variable {h : Hub} {who : Identity} {id : ConnId} {e : Envelope}

/-- The joins that a chat frame comes to. A user is joined to the room of its conversation when it
has been told the number. -/
def joins (h : Hub) (who : Identity) (id : ConnId) (e : Envelope) : List (Topic × ConnId) :=
  match e.type? with
  | some .adminJoin =>
    if who.role = .admin then h.exchange.rooms.map fun room => (.room room, id) else []
  | some .userJoin =>
    match h.store.createConversation with
    | .error _ => []
    | .ok (room, store) =>
      if ({ h with store := store }.sendJoinResponse room id).isOk then [(.room room, id)] else []
  | _ => []

theorem adminJoin_joined (consistent : h.exchange.Consistent) (known : h.exchange.Knows id)
    (type : e.type? = some .adminJoin) :
    h.exchange.Joined (h.joins who id e) (h.adminJoin who id).2.exchange := by
  unfold joins adminJoin
  rw [type]
  dsimp only
  split
  · exact .joinEach consistent known h.exchange.rooms
  · exact .refl _

theorem userJoin_joined (consistent : h.exchange.Consistent) (known : h.exchange.Knows id)
    (type : e.type? = some .userJoin) :
    h.exchange.Joined (h.joins who id e) (h.userJoin who id).2.exchange := by
  unfold joins userJoin
  rw [type]
  rcases h.store.openNext_cases with ⟨shape, failed⟩ | ⟨room, store, shape, created⟩
  · rw [shape, failed]
    exact .refl _
  · rw [shape, created]
    dsimp only
    cases answer : { h with store := store }.sendJoinResponse room id with
    | error why => exact .refl _
    | ok told =>
      obtain ⟨frame, x, -, accepted, rfl⟩ := sendJoinResponse_ok answer
      have sent : h.exchange.Joined [] x := by
        have performed := consistent.joined (d := .send id frame) trivial
        rwa [Exchange.perform_send accepted] at performed
      have greeted : h.exchange.Joined [(.room room, id)] (x.joinRoom room id).2 :=
        sent.trans (.joinRoom (consistent.send accepted)
          ((Exchange.knows_send accepted id).mpr known) room)
      change h.exchange.Joined [(.room room, id)] _
      dsimp only
      split
      · exact greeted
      · obtain ⟨bus, -, shape⟩ := announce_eq _ _
        rw [shape]
        exact greeted

theorem texting_joined (consistent : h.exchange.Consistent) (type : e.type? = some .texting) :
    h.exchange.Joined (h.joins who id e) (h.texting who id e).2.exchange := by
  have none : h.joins who id e = [] := by
    unfold joins
    rw [type]
  rw [none]
  have chatted : h.Chatted who id e (h.texting who id e) := texting_chatted type
  generalize h.texting who id e = answered at chatted ⊢
  cases chatted with
  | refused _ _ => exact .refl _
  | @talked room _ frame _ _ _ _ _ => exact .publish consistent (.room room) frame
  | attached other _ | untold _ other _ _ | ungreeted _ other _ _ _ _ | opened other _ _ _ _ =>
    rw [type] at other
    cases other

theorem chat_joined (consistent : h.exchange.Consistent) (known : h.exchange.Knows id)
    (who : Identity) (e : Envelope) :
    h.exchange.Joined (h.joins who id e) (h.chat who id e).2.exchange := by
  unfold chat Envelope.requireType
  cases type : e.type? with
  | none =>
    have none : h.joins who id e = [] := by
      unfold joins
      rw [type]
    rw [none]
    exact .refl _
  | some kind =>
    cases kind with
    | adminJoin => exact adminJoin_joined consistent known type
    | userJoin => exact userJoin_joined consistent known type
    | texting => exact texting_joined consistent type
    | joinResponse =>
      have none : h.joins who id e = [] := by
        unfold joins
        rw [type]
      rw [none]
      exact .refl _

end Hub

namespace Station

variable {st after : Station} {id : ConnId} {s next : Session} {who : Identity} {e : Envelope}
  {rest : Inbox}

/-! ### Joins of sessions -/

def turnJoins (st : Station) (id : ConnId) (s : Session) : List (Topic × ConnId) :=
  match s.inbox.next with
  | .got (.ok e) _ =>
    match s.stage with
    | .waiting =>
      match authenticate st.hub.tokens s.entry e with
      | .error _ => []
      | .ok who =>
        if s.entry = .chat then st.hub.joins who id e
        else s.entry.topic?.toList.map fun topic => (topic, id)
    | .chatting who => st.hub.joins who id e
    | .listening => []
  | _ => []

theorem turnJoins_speaks (got : s.inbox.next = .got (.ok e) rest)
    (speaks : s.Speaks st.hub.tokens e who) : st.turnJoins id s = st.hub.joins who id e := by
  unfold turnJoins
  rw [got]
  rcases speaks with stage | ⟨waiting, chat, accepted⟩
  · simp only [stage]
  · simp only [waiting, chat, accepted, if_pos]

theorem turnJoins_admits (got : s.inbox.next = .got (.ok e) rest)
    (admits : s.Admits st.hub.tokens e who) (special : s.entry ≠ .chat) :
    st.turnJoins id s = s.entry.topic?.toList.map fun topic => (topic, id) := by
  unfold turnJoins
  simp only [got, admits.1, admits.2, if_neg special]

theorem turnJoins_unfit (unfit : ∀ e rest who, s.inbox.next = .got (.ok e) rest →
    ¬ s.Admits st.hub.tokens e who ∧ ¬ s.Speaks st.hub.tokens e who) :
    st.turnJoins id s = [] := by
  unfold turnJoins
  split
  · next e rest got =>
    split
    · next waiting =>
      split
      · rfl
      · next who accepted => exact absurd ⟨waiting, accepted⟩ (unfit e rest who got).1
    · next who stage => exact absurd (Or.inl stage) (unfit e rest who got).2
    · rfl
  · rfl

theorem reject_joined {hub : Hub} (consistent : hub.exchange.Consistent) (id : ConnId)
    (fault : Fault) : hub.exchange.Joined [] (hub.reject id fault).exchange := by
  apply (Hub.reject_leads hub id fault).joined consistent
  · rintro d (⟨frame, -, rfl⟩ | rfl) <;> trivial
  · rintro d (⟨frame, -, rfl⟩ | rfl) <;> rfl

theorem tell_joined {hub : Hub} (consistent : hub.exchange.Consistent) (id : ConnId)
    (fault : Fault) : hub.exchange.Joined [] (hub.tell id fault).exchange := by
  apply (Hub.tell_leads hub id fault).joined consistent
  · rintro d ⟨frame, -, rfl⟩
    trivial
  · rintro d ⟨frame, -, rfl⟩
    rfl

theorem serve_joined {going : Bool} (consistent : st.exchange.Consistent)
    (known : st.exchange.Knows id) (done : st.serve id who e = (going, after)) :
    st.exchange.Joined (st.hub.joins who id e) after.exchange := by
  have chatted := Hub.chat_joined consistent known who e
  have kept := ((Hub.chat_leads consistent known who e).consistent consistent
    fun d deed => deed.possible known).1
  rcases serve_cases st id who e with ⟨hub, chat, shape⟩ | ⟨why, hub, chat, shape | shape⟩
  · rw [shape] at done
    cases done
    rwa [chat] at chatted
  · rw [shape] at done
    cases done
    rw [chat] at chatted kept
    exact chatted.trans_nothing (reject_joined kept id _)
  · rw [shape] at done
    cases done
    rw [chat] at chatted kept
    exact chatted.trans_nothing (tell_joined kept id _)

theorem turned_joined (consistent : st.exchange.Consistent) (known : st.exchange.Knows id)
    (turned : Turned st id s next after) :
    st.exchange.Joined (st.turnJoins id s) after.exchange := by
  cases turned with
  | idle pending =>
    rw [turnJoins_unfit fun e rest who got => by rw [pending] at got; cases got]
    exact .refl _
  | left ended _ =>
    rw [turnJoins_unfit fun e rest who got => by rw [ended] at got; cases got]
    exact consistent.joined (d := .close id) trivial
  | rejected fault _ _ unfit =>
    rw [turnJoins_unfit unfit]
    exact reject_joined consistent id fault
  | listening got admits special =>
    rw [turnJoins_admits got admits special]
    unfold listen join?
    cases s.entry.topic? with
    | none => exact .refl _
    | some topic => exact consistent.joined (d := .join topic id) known
  | @admitted e rest who got speaks bare =>
    have none : st.hub.joins who id e = [] := by
      unfold Hub.joins
      rw [bare]
    rw [turnJoins_speaks got speaks, none]
    exact .refl _
  | served got speaks done =>
    rw [turnJoins_speaks got speaks]
    exact serve_joined consistent known done
  | dismissed got speaks done =>
    rw [turnJoins_speaks got speaks]
    exact serve_joined consistent known done
  | ignored got listens =>
    have none : st.turnJoins id s = [] := by
      unfold turnJoins
      simp only [got, listens]
    rw [none]
    exact .refl _

/-! ### Joins of a run -/

def readJoins (st : Station) (id : ConnId) : List (Topic × ConnId) :=
  match st.sessions.find? id with
  | some s => if s.ended then [] else st.turnJoins id s
  | none => []

def joins (st : Station) (a : Act) : List (Topic × ConnId) :=
  match a with
  | .move (.read id) => st.readJoins id
  | .join topic id => if st.exchange.Knows id then [(topic, id)] else []
  | .joinRoom room id => if st.exchange.Knows id then [(.room room, id)] else []
  | .joinAllRooms id =>
    if st.exchange.Knows id then st.exchange.rooms.map fun room => (.room room, id) else []
  | .enroll id entry =>
    if st.exchange.Knows id then entry.topic?.toList.map fun topic => (topic, id) else []
  | .chat who id e => if st.exchange.Knows id then st.hub.joins who id e else []
  | _ => []

/-- All joins of a run, in order. -/
def joinsAll (st : Station) : List Act → List (Topic × ConnId)
  | [] => []
  | a :: acts => st.joins a ++ (st.act a).joinsAll acts

theorem read_joined (sound : st.Sound) (id : ConnId) :
    st.exchange.Joined (st.readJoins id) (st.step (.read id)).exchange := by
  unfold readJoins
  cases found : st.sessions.find? id with
  | none =>
    rw [step, read, found]
    exact .refl _
  | some s =>
    cases state : s.ended with
    | true =>
      rw [step, read, found]
      simp only [state, if_true]
      exact .refl _
    | false =>
      obtain ⟨next, after, turned, shape⟩ := read_running found state
      have joined := turned_joined sound.consistent (sound.known id s found) turned
      rw [shape]
      simp only [state]
      exact joined

theorem Does.joins_nobody {m : Move} {d : Deed} (does : st.Does m d)
    (calls : ∀ id, m ≠ .read id) : d.entry? = none := by
  cases does with
  | read _ _ _ => exact absurd rfl (calls _)
  | publish _ _ publishes => exact publishes.joins_nobody
  | _ => rfl

theorem step_joined (sound : st.Sound) {m : Move} (calls : ∀ id, m ≠ .read id) :
    st.exchange.Joined [] (st.step m).exchange := by
  rcases exchange_step sound.consistent sound.known m with
    leads | ⟨id, entry, room, stalled, link, -, -, shape⟩
  · exact leads.joined sound.consistent (fun d does => does.possible sound)
      fun d does => does.joins_nobody calls
  · rw [shape]
    exact .of_members rfl

theorem given_joined {joins : List (Topic × ConnId)}
    (next : st.exchange.Knows id → st.exchange.Joined joins after.exchange) :
    st.exchange.Joined (if st.exchange.Knows id then joins else [])
      (st.given id after).exchange := by
  unfold given
  split
  · next known => exact next known
  · exact .refl _

theorem act_joined (sound : st.Sound) (a : Act) :
    st.exchange.Joined (st.joins a) (st.act a).exchange := by
  have consistent := sound.consistent
  cases a with
  | move m =>
    cases m with
    | read id => exact read_joined sound id
    | _ => exact step_joined sound nofun
  | join topic id => exact given_joined fun known => consistent.joined (d := .join topic id) known
  | joinRoom room id => exact given_joined fun known => .joinRoom consistent known room
  | joinAllRooms id =>
    exact given_joined fun known => .joinEach consistent known st.exchange.rooms
  | enroll id entry =>
    apply given_joined
    intro known
    unfold enroll join?
    cases entry.topic? with
    | none => exact .refl _
    | some topic => exact consistent.joined (d := .join topic id) known
  | chat who id e => exact given_joined fun known => Hub.chat_joined consistent known who e
  | addPeer id allowance? =>
    rw [act, unlessKnown]
    split <;> exact .of_members rfl
  | addClient id room stalled =>
    rw [act, unlessKnown]
    split
    · exact .refl _
    · rcases st.client_cases id room stalled with shape | ⟨link, shape⟩ <;> rw [shape]
      · exact .refl _
      · exact .of_members rfl
  | leave topic id => exact consistent.joined (d := .leave topic id) trivial
  | publish topic frame => exact .publish consistent topic frame
  | send id frame => exact consistent.joined (d := .send id frame) trivial
  | leaveRoom id =>
    apply (Exchange.leaveRoom_leads st.exchange id).joined consistent
    · rintro d (rfl | ⟨room, rfl⟩) <;> trivial
    · rintro d (rfl | ⟨room, rfl⟩) <;> rfl
  | broadcast room content => exact .broadcast consistent room content
  | monitor id topic every => exact .refl _
  | close id => exact consistent.joined (d := .close id) trivial
  | dispatch event =>
    obtain ⟨store, -, shape | ⟨frame, -, shape⟩⟩ := st.hub.dispatch_cases event
    · rw [act, withHub, exchange, shape]
      exact .refl _
    · rw [act, withHub, exchange, shape]
      exact .publish consistent event.topic frame
  | store store => exact .refl _

theorem actAll_joined (sound : st.Sound) (acts : List Act) :
    st.exchange.Joined (st.joinsAll acts) (st.actAll acts).exchange := by
  induction acts generalizing st with
  | nil => exact .refl _
  | cons a acts ih => exact (act_joined sound a).trans (ih (sound.act a))

/-! ### Joining all rooms -/

/-- The rooms that are known are those that have been joined on the run. -/
theorem mem_rooms_actAll (whole : Bool) (tokens : List TokenEntry) (limits : Limits)
    (acts : List Act) (room : ConversationId) :
    room ∈ ((fresh whole tokens limits).actAll acts).exchange.rooms ↔
      ∃ id, (Topic.room room, id) ∈ (fresh whole tokens limits).joinsAll acts := by
  have joined := actAll_joined (fresh_sound whole tokens limits) acts
  have unknown : Topic.room room ∉ (fresh whole tokens limits).exchange.members.keys :=
    List.not_mem_nil
  rw [Exchange.mem_rooms, joined.known, or_iff_right unknown, List.mem_map]
  constructor
  · rintro ⟨⟨topic, id⟩, made, rfl⟩
    exact ⟨id, made⟩
  · rintro ⟨id, made⟩
    exact ⟨(.room room, id), made, rfl⟩

/-- Joining all rooms makes an open connection a member of those known, and changes nothing else
that members, seats and frames show. -/
theorem joinAllRooms_snapshot (sound : st.Sound) (id : ConnId) :
    let next := st.act (.joinAllRooms id)
    (∀ one topic, topic ∈ next.exchange.topicsOf one ↔ topic ∈ st.exchange.topicsOf one ∨
      (one = id ∧ st.exchange.isClosed id = false ∧
        ∃ room ∈ st.exchange.rooms, topic = .room room)) ∧
      ∀ one, next.exchange.seatOf one = st.exchange.seatOf one ∧
        next.exchange.sentTo one = st.exchange.sentTo one ∧
        next.exchange.isClosed one = st.exchange.isClosed one := by
  intro next
  have consistent := sound.consistent
  have same : next.exchange.Consistent := (sound.act (.joinAllRooms id)).consistent
  by_cases known : st.exchange.Knows id
  · have shape : next.exchange = st.exchange.joinEach id st.exchange.rooms := by
      change (st.given id _).exchange = _
      rw [given, if_pos known]
      rfl
    have conns := Exchange.SameConns.joinEach st.exchange id st.exchange.rooms
    refine ⟨fun one topic => ?_, fun one => ?_⟩
    · rw [← same.same, ← consistent.same, shape, Exchange.mem_membersOf_joinEach consistent known]
    · rw [shape]
      exact ⟨Exchange.seatOf_joinEach _ id one _, conns.sent one, conns.closed one⟩
  · have shape : next = st := by
      change st.given id _ = _
      rw [given, if_neg known]
    rw [shape, Exchange.isClosed_unknown known]
    simp

/-- After any run the known rooms are those that were ever joined. Joining all of them adds these
rooms to the topics of an open connection, and changes nothing for others; later on, whatever
happens, the connection gets into no other room that it is not joined to. -/
theorem rooms_joined_at_once (whole : Bool) (tokens : List TokenEntry) (limits : Limits)
    (acts : List Act) (id : ConnId) :
    let start := fresh whole tokens limits
    let st := start.actAll acts
    let next := st.act (.joinAllRooms id)
    (∀ room, room ∈ st.exchange.rooms ↔ ∃ one, (Topic.room room, one) ∈ start.joinsAll acts) ∧
      st.exchange.rooms.Nodup ∧
      st.answerAct (.joinAllRooms id) = st.exchange.rooms.length ∧
      (st.exchange.isClosed id = false → ∀ topic, topic ∈ next.exchange.topicsOf id ↔
        topic ∈ st.exchange.topicsOf id ∨ ∃ room ∈ st.exchange.rooms, topic = .room room) ∧
      (st.exchange.isClosed id = true → next.exchange.Forgotten id) ∧
      (∀ one, next.exchange.sentTo one = st.exchange.sentTo one ∧
        next.exchange.seatOf one = st.exchange.seatOf one) ∧
      (∀ one, one ≠ id → ∀ topic,
        topic ∈ next.exchange.topicsOf one ↔ topic ∈ st.exchange.topicsOf one) ∧
      ∀ later room, room ∉ st.exchange.rooms → (Topic.room room, id) ∉ next.joinsAll later →
        id ∉ (next.actAll later).exchange.membersOf (.room room) := by
  intro start st next
  have sound : st.Sound := (fresh_sound whole tokens limits).actAll acts
  have sound' : next.Sound := sound.act (.joinAllRooms id)
  obtain ⟨topics, rest⟩ := joinAllRooms_snapshot sound id
  refine ⟨mem_rooms_actAll whole tokens limits acts, st.exchange.rooms_nodup, rfl, ?_, ?_, ?_, ?_,
    ?_⟩
  · intro opened topic
    rw [topics id topic]
    simp [opened]
  · intro closed
    exact sound'.consistent.forgotten ((rest id).2.2.trans closed)
  · exact fun one => ⟨(rest one).2.1, (rest one).1⟩
  · intro one different topic
    rw [topics one topic]
    simp [different]
  · intro later room unknown unmade member
    have joined := actAll_joined sound' later
    rcases joined.entered _ _ member with before | made
    · rcases (topics id (.room room)).mp ((sound'.consistent.same _ _).mp before) with
        before | ⟨-, -, other, known, there⟩
      · have member := (sound.consistent.same _ _).mpr before
        exact unknown ((Exchange.mem_rooms _ room).mpr (Exchange.known_of_member member))
      · cases there
        exact unknown known
    · exact unmade made

end Station

end Switchboard
