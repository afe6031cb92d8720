import Switchboard.Proofs.Exchange.Ledger

/-!
A newcomer alone in a room. It leaves the room of its seat before, and whether it stays depends on
whether it takes the greeting, which goes to itself alone.
-/

namespace Switchboard

namespace Conn

def queued (c : Conn) : List Frame :=
  match c.link with
  | .client o => o.queue.items
  | .peer _ => []

/-- An open client with a writer at work, and what its queue holds. -/
def Holds (c : Conn) (capacity : Nat) (frames : List Frame) : Prop :=
  ∃ o, c.link = .client o ∧ c.closed = false ∧ o.writer ≠ .stopped ∧ o.queue.items = frames ∧
    o.queue.capacity = capacity

variable {c : Conn} {capacity : Nat} {frames : List Frame}

theorem Holds.queued (holds : c.Holds capacity frames) : c.queued = frames := by
  obtain ⟨o, link, -, -, items, -⟩ := holds
  rw [Conn.queued, link]
  exact items

theorem Holds.send (holds : c.Holds capacity frames) (free : frames.length < capacity)
    (frame : Frame) : ∃ k, c.send frame = .ok k ∧ k.Holds capacity (frames ++ [frame]) := by
  obtain ⟨o, link, opened, running, items, size⟩ := holds
  have pushes : (o.queue.push? frame).isSome = true := by
    rw [Queue.push?_isSome, Queue.isFull, items, size]
    simpa using free
  obtain ⟨queue, pushed⟩ := Option.isSome_iff_exists.mp pushes
  obtain ⟨longer, same⟩ := Queue.items_push pushed
  have sent := send_client link opened running frame
  rw [pushed] at sent
  exact ⟨_, sent, { o with queue := queue }, rfl, opened, running, by rw [longer, items],
    same.trans size⟩

theorem Holds.refuses (holds : c.Holds capacity frames) (full : capacity ≤ frames.length)
    (frame : Frame) : c.send frame = .error .outboundFull := by
  obtain ⟨o, link, opened, running, items, size⟩ := holds
  have refused : o.queue.push? frame = none := by
    rw [← Option.not_isSome_iff_eq_none, Queue.push?_isSome, Queue.isFull, items, size]
    simpa using full
  rw [send_client link opened running, refused]

end Conn

namespace Exchange

variable {x next : Exchange} {topic : Topic} {id one : ConnId} {room : ConversationId} {c : Conn}

/-! ### Rooms that have been joined -/

/-- Whoever has a seat has it in a room that has been joined. -/
def Placed (x : Exchange) : Prop :=
  ∀ id room, x.seatOf id = some room → Topic.room room ∈ x.members.keys

theorem keys_move (x : Exchange) (room : ConversationId) (id : ConnId) :
    topic ∈ (x.perform (.move room id)).members.keys ↔
      topic = .room room ∨ topic ∈ x.members.keys := by
  change topic ∈ ((x.sit room id).join (.room room) id).2.members.keys ↔ _
  rw [mem_keys_join, (AgreeBut.sit_self x room id).known]

theorem mem_keys_perform (x : Exchange) (d : Deed) :
    topic ∈ (x.perform d).members.keys ↔
      topic ∈ x.members.keys ∨ topic ∈ d.entry?.toList.map Prod.fst := by
  cases d with
  | join other id =>
    rw [perform, mem_keys_join, or_comm]
    simp [Deed.entry?]
  | move room id =>
    rw [keys_move, or_comm]
    simp [Deed.entry?]
  | leave other id =>
    rw [perform, keys_leave]
    simp [Deed.entry?]
  | close id =>
    rw [perform, keys_close]
    simp [Deed.entry?]
  | send id frame =>
    rw [perform, (attempt_keeps x id frame).1]
    simp [Deed.entry?]
  | vacate id => simp [perform, vacate, Deed.entry?]
  | relink id link => simp [perform, setLink, Deed.entry?]

theorem keys_perform (x : Exchange) (d : Deed) (known : topic ∈ x.members.keys) :
    topic ∈ (x.perform d).members.keys := (mem_keys_perform x d).mpr (Or.inl known)

theorem Placed.perform (h : x.Consistent) {d : Deed} (possible : x.Possible d)
    (placed : x.Placed) : (x.perform d).Placed := by
  intro id room seat
  rcases seatOf_perform h possible seat with before | rfl
  · exact keys_perform x d (placed id room before)
  · exact (keys_move x room id).mpr (Or.inl rfl)

theorem Leads.placed {kind : Deed → Prop} (leads : Leads kind x next) (h : x.Consistent)
    (possible : ∀ d, kind d → x.Possible d) (placed : x.Placed) : next.Placed :=
  (leads.keeps_consistent h possible Placed placed fun _ _ consistent now placed _ =>
    placed.perform consistent now).2.2

theorem membersOf_unknown (unknown : topic ∉ x.members.keys) : x.membersOf topic = [] := by
  rw [Table.mem_keys, Option.not_isSome_iff_eq_none] at unknown
  rw [membersOf, unknown]
  rfl

/-! ### Moving in -/

theorem find?_conns_join (found : x.conns.find? id = some c) (topic : Topic) :
    ∃ hooks, (x.join topic id).2.conns.find? id = some { c with hooks := hooks } := by
  have enlisted : (x.enlist topic id).2.conns.find? id = some c := by rw [conns_enlist, found]
  unfold Exchange.join
  split
  · next shape => exact ⟨c.hooks, by rw [shape] at enlisted; exact enlisted⟩
  · next shape => exact ⟨c.hooks, by rw [shape] at enlisted; exact enlisted⟩
  · next shape =>
    rw [shape] at enlisted
    exact find?_conns_attach enlisted .forgetTopics

theorem find?_conns_sit (found : x.conns.find? id = some c) (room : ConversationId) :
    ∃ hooks, (x.sit room id).conns.find? id = some { c with hooks := hooks } := by
  unfold Exchange.sit
  dsimp only
  split
  · split
    · exact ⟨c.hooks, found⟩
    · refine ⟨c.hooks, ?_⟩
      rw [conns_leave]
      exact found
  · exact find?_conns_attach (x := x.seated id room) found .vacateRoom

theorem find?_conns_move (found : x.conns.find? id = some c) (room : ConversationId) :
    ∃ hooks, (x.perform (.move room id)).conns.find? id = some { c with hooks := hooks } := by
  obtain ⟨hooks, sat⟩ := find?_conns_sit found room
  exact find?_conns_join sat (.room room)

theorem mem_membersOf_moved (h : x.Consistent) (known : x.Knows id) (room : ConversationId) :
    one ∈ (x.perform (.move room id)).membersOf topic ↔
      (one ∈ x.membersOf topic ∧
        ¬ (one = id ∧ ∃ previous, x.seatOf id = some previous ∧ previous ≠ room ∧
          topic = .room previous)) ∨
      (topic = .room room ∧ one = id ∧ x.isClosed id = false) := by
  have conns := SameConns.sit x room id
  change one ∈ ((x.sit room id).join (.room room) id).2.membersOf topic ↔ _
  rw [mem_membersOf_join (h.sit known room) ((conns.knows id).mpr known), mem_membersOf_sit h,
    conns.closed]

/-- The state after a connection has moved alone into a room: it is the only member there, sits
there, and has left the room where it sat before. -/
structure Alone (x next : Exchange) (id : ConnId) (room : ConversationId) : Prop where
  opened : next.isClosed id = false
  members : next.membersOf (.room room) = [id]
  seat : next.seatOf id = some room
  left : ∀ previous, x.seatOf id = some previous → id ∉ next.membersOf (.room previous)

theorem Consistent.moved_alone (h : x.Consistent) (opened : x.isClosed id = false)
    (nobody : x.membersOf (.room room) = []) (elsewhere : x.seatOf id ≠ some room) :
    x.Alone (x.perform (.move room id)) id room := by
  have known : x.Knows id := by
    by_contra unknown
    rw [isClosed_unknown unknown] at opened
    cases opened
  have moved : (x.perform (.move room id)).Consistent := h.perform known
  refine ⟨?_, ?_, ?_, ?_⟩
  · exact (((SameConns.sit x room id).trans (.join _ _ id)).closed id).trans opened
  · apply List.perm_singleton.mp
    apply (List.perm_ext_iff_of_nodup (moved.members _) (List.nodup_singleton id)).mpr
    intro one
    rw [mem_membersOf_moved h known, nobody, List.mem_singleton]
    simp [opened]
  · change ((x.sit room id).join (.room room) id).2.seatOf id = some room
    rw [seatOf_join, seatOf_sit h known, if_pos rfl, opened]
    rfl
  · intro previous sits member
    have different : previous ≠ room := by
      rintro rfl
      exact elsewhere sits
    rcases (mem_membersOf_moved h known room).mp member with ⟨-, stays⟩ | ⟨there, -⟩
    · exact stays ⟨rfl, previous, sits, different, rfl⟩
    · cases there
      exact different rfl

/-! ### A frame for nobody else -/

theorem refusers_alone (members : x.membersOf topic = [id]) (frame : Frame) :
    x.refusers topic frame = if x.takes frame id then [] else [id] := by
  rw [refusers, members]
  cases taken : x.takes frame id <;> simp [taken]

variable {y : Exchange} {frame : Frame}

theorem Alone.published (h : y.Consistent) (alone : x.Alone y id room)
    (taken : y.takes frame id = true) : x.Alone (y.publish (.room room) frame).2 id room := by
  have nobody : y.refusers (.room room) frame = [] := by
    rw [refusers_alone alone.members, if_pos taken]
  refine ⟨?_, ?_, ?_, ?_⟩
  · rw [isClosed_published h, nobody, alone.opened]
    rfl
  · rw [membersOf_publish h, nobody, alone.members]
    rfl
  · rw [seatOf_publish h, nobody]
    exact alone.seat
  · intro previous sits
    rw [membersOf_publish h, nobody]
    intro member
    exact alone.left previous sits (List.mem_filter.mp member).1

/-- The state in which nothing is left of a connection, nor of anybody else, in a room. -/
structure Ousted (next : Exchange) (id : ConnId) (room : ConversationId) : Prop where
  closed : next.isClosed id = true
  members : next.membersOf (.room room) = []
  seat : next.seatOf id = none

theorem Alone.ousted (h : y.Consistent) (alone : x.Alone y id room)
    (refused : y.takes frame id = false) : (y.publish (.room room) frame).2.Ousted id room := by
  have itself : y.refusers (.room room) frame = [id] := by
    rw [refusers_alone alone.members, if_neg (by simp [refused])]
  refine ⟨?_, ?_, ?_⟩
  · rw [isClosed_published h, itself]
    simp
  · rw [membersOf_publish h, itself, alone.members]
    simp
  · rw [seatOf_publish h, itself]
    simp

/-! ### What is queued for a newcomer -/

section queues

variable {k : Conn} {capacity : Nat} {frames : List Frame}

theorem takes_of_find? (found : x.conns.find? id = some c) (frame : Frame) :
    x.takes frame id = (c.send frame).isOk := by
  rw [takes_eq, found]

theorem Alone.greeted (h : y.Consistent) (alone : x.Alone y id room)
    (found : y.conns.find? id = some c) (holds : c.Holds capacity frames)
    (free : frames.length < capacity) (frame : Frame) :
    x.Alone (y.publish (.room room) frame).2 id room ∧
      ∃ k, (y.publish (.room room) frame).2.conns.find? id = some k ∧
        k.Holds capacity (frames ++ [frame]) := by
  obtain ⟨k, sent, holds'⟩ := holds.send free frame
  have taken : y.takes frame id = true := by
    rw [takes_of_find? found, sent]
    rfl
  refine ⟨alone.published h taken, k, ?_, holds'⟩
  rw [find?_conns_publish h, alone.members, if_pos (List.mem_singleton.mpr rfl), found,
    Option.map_some, Conn.offered, sent]

/-- With a full queue the newcomer is thrown out by its own greeting. -/
theorem Alone.ungreeted (h : y.Consistent) (alone : x.Alone y id room)
    (found : y.conns.find? id = some c) (holds : c.Holds capacity frames)
    (full : capacity ≤ frames.length) (frame : Frame) :
    (y.publish (.room room) frame).2.Ousted id room ∧
      ∃ k, (y.publish (.room room) frame).2.conns.find? id = some k ∧ k.queued = frames := by
  have refused := holds.refuses full frame
  have untaken : y.takes frame id = false := by
    rw [takes_of_find? found, refused]
    rfl
  refine ⟨alone.ousted h untaken, c.shut, ?_, holds.queued⟩
  rw [find?_conns_publish h, alone.members, if_pos (List.mem_singleton.mpr rfl), found,
    Option.map_some, Conn.offered, refused]

end queues

end Exchange

end Switchboard
