import Switchboard.Proofs.Exchange.Operations
import Switchboard.Proofs.Exchange.Seating

/-!
One room at a time: whoever has a seat is a member of its room, and whoever was never attached to
rooms is a member of no other. Leaving a room and evicting a member take two calls each, between
which this does not hold.
-/

namespace Switchboard.Exchange

structure OneRoom (attached : ConnId → Prop) (x : Exchange) : Prop extends x.Consistent where
  placed : ∀ id room, x.seatOf id = some room → id ∈ x.membersOf (.room room)
  seated : x.Seated attached

namespace OneRoom

variable {attached more : ConnId → Prop} {x next : Exchange} {topic : Topic} {id one : ConnId}
  {room : ConversationId} {frame : Frame}

theorem mono (h : x.OneRoom attached) (wider : ∀ one, attached one → more one) :
    x.OneRoom more := by
  refine ⟨h.toConsistent, h.placed, ?_⟩
  intro id room member
  exact (h.seated id room member).imp_left (wider id)

theorem empty : empty.OneRoom attached where
  toConsistent := empty_consistent
  placed := fun _ _ seat => nomatch seat
  seated := fun _ _ member => nomatch member

/-- What a connection that was never attached can tell from its seat. -/
theorem member_iff (h : x.OneRoom attached) (free : ¬ attached id) :
    id ∈ x.membersOf (.room room) ↔ x.seatOf id = some room := by
  constructor
  · intro member
    exact (h.seated id room member).resolve_left free
  · exact h.placed id room

/-! ### Calls that change nobody's room -/

theorem connect (h : x.OneRoom attached) (unknown : ¬ x.Knows id) (link : Link) :
    (x.connect id link).OneRoom attached :=
  ⟨h.toConsistent.connect unknown link, h.placed, h.seated⟩

theorem setLink (h : x.OneRoom attached) (id : ConnId) (link : Link) :
    (x.setLink id link).OneRoom attached :=
  ⟨h.toConsistent.setLink id link, h.placed, h.seated⟩

theorem attempt (h : x.OneRoom attached) (id : ConnId) (frame : Frame) :
    (x.attempt id frame).OneRoom attached where
  toConsistent := h.toConsistent.perform (d := .send id frame) trivial
  placed := by
    intro one room seat
    rw [seatOf_attempt] at seat
    rw [membersOf_attempt]
    exact h.placed one room seat
  seated := h.seated.perform h.toConsistent (d := .send id frame) trivial trivial

theorem send (h : x.OneRoom attached) (sent : x.send id frame = .ok next) :
    next.OneRoom attached := by
  have attempted := h.attempt id frame
  rwa [show x.attempt id frame = next from perform_send sent] at attempted

theorem leave (h : x.OneRoom attached) (id : ConnId) (special : ∀ room, topic ≠ .room room) :
    (x.leave topic id).2.OneRoom attached where
  toConsistent := h.toConsistent.leave topic id
  placed := by
    intro one room seat
    rw [seatOf, seats_leave] at seat
    rw [membersOf_leave, if_neg (special room)]
    exact h.placed one room seat
  seated := h.seated.perform h.toConsistent (d := .leave topic id) trivial trivial

theorem join (h : x.OneRoom attached) (known : x.Knows id) (topic : Topic)
    (allowed : ∀ room, topic = .room room → attached id) :
    (x.join topic id).2.OneRoom attached where
  toConsistent := h.toConsistent.join known topic
  placed := by
    intro one room seat
    rw [seatOf_join] at seat
    rw [mem_membersOf_join h.toConsistent known]
    exact Or.inl (h.placed one room seat)
  seated := by
    apply h.seated.perform h.toConsistent (d := .join topic id) known
    cases topic with
    | room room => exact allowed room rfl
    | _ => trivial

theorem joinEach (h : x.OneRoom attached) (known : x.Knows id) (allowed : attached id)
    (rooms : List ConversationId) : (x.joinEach id rooms).OneRoom attached := by
  induction rooms generalizing x with
  | nil => exact h
  | cons room rooms ih =>
    apply ih (h.join known (.room room) fun _ _ => allowed)
    exact ((SameConns.join x (.room room) id).knows id).mpr known

theorem joinAllRooms (h : x.OneRoom attached) (known : x.Knows id) (allowed : attached id) :
    (x.joinAllRooms id).2.OneRoom attached :=
  h.joinEach known allowed x.rooms

/-! ### Calls that take seats away -/

theorem close (h : x.OneRoom attached) (id : ConnId) : (x.close id).OneRoom attached where
  toConsistent := h.toConsistent.close id
  placed := by
    intro one room seat
    rw [seatOf_close h.toConsistent] at seat
    split at seat
    · cases seat
    · next different =>
      rw [membersOf_close h.toConsistent, (h.members _).mem_erase_iff]
      exact ⟨Ne.symm different, h.placed one room seat⟩
  seated := h.seated.perform h.toConsistent (d := .close id) trivial trivial

theorem drop (h : x.OneRoom attached) (topic : Topic) (id : ConnId) :
    ((x.leave topic id).2.close id).OneRoom attached := by
  have left := h.toConsistent.leave topic id
  have seated : (x.leave topic id).2.Seated attached :=
    h.seated.perform h.toConsistent (d := .leave topic id) trivial trivial
  refine ⟨left.close id, ?_, seated.perform left (d := .close id) trivial trivial⟩
  intro one room seat
  rw [seatOf_close left, seatOf, seats_leave] at seat
  split at seat
  · cases seat
  · next different =>
    have placed := h.placed one room seat
    rw [membersOf_close left, (left.members _).mem_erase_iff, membersOf_leave]
    refine ⟨Ne.symm different, ?_⟩
    split
    · exact (List.mem_erase_of_ne (Ne.symm different)).mpr placed
    · exact placed

theorem leaveRoom (h : x.OneRoom attached) (id : ConnId) :
    (x.leaveRoom id).2.OneRoom attached := by
  unfold Exchange.leaveRoom
  split
  case h_2 => exact h
  case h_1 room sits =>
    have seat : ∀ one, ((x.vacate id).leave (.room room) id).2.seatOf one =
        if id = one then none else x.seatOf one := by
      intro one
      rw [seatOf, seats_leave, Exchange.vacate, Table.find?_erase, seatOf]
    have members : ∀ one other,
        one ∈ ((x.vacate id).leave (.room room) id).2.membersOf (.room other) ↔
          one ∈ x.membersOf (.room other) ∧ ¬ (one = id ∧ other = room) := by
      intro one other
      rw [membersOf_leave]
      change one ∈ (if Topic.room room = .room other then (x.membersOf _).erase id
        else x.membersOf _) ↔ _
      by_cases here : room = other
      · subst here
        simp [(h.members _).mem_erase_iff, and_comm]
      · simp [here, Ne.symm here]
    refine ⟨(h.toConsistent.vacate id).leave _ id, ?_, ?_⟩
    · intro one other found
      rw [seat] at found
      split at found
      · cases found
      · next different =>
        rw [members]
        exact ⟨h.placed one other found, fun both => different both.1.symm⟩
    · intro one other member
      rw [members] at member
      obtain ⟨inside, elsewhere⟩ := member
      rcases h.seated one other inside with allowed | sits'
      · exact Or.inl allowed
      · right
        rw [seat, if_neg]
        · exact sits'
        · rintro rfl
          rw [sits] at sits'
          cases sits'
          exact elsewhere ⟨rfl, rfl⟩

/-! ### Publishing -/

theorem offer (h : x.OneRoom attached) (frame : Frame) (delivered : Nat)
    (failed ids : List ConnId) : (x.offer frame delivered failed ids).2.2.OneRoom attached := by
  induction ids generalizing x delivered failed with
  | nil => exact h
  | cons id ids ih =>
    unfold Exchange.offer
    split
    · next sent => exact ih (h.send sent) _ _
    · exact ih h _ _

theorem evict (h : x.OneRoom attached) (topic : Topic) (evicted : Nat) (ids : List ConnId) :
    (x.evict topic evicted ids).2.OneRoom attached := by
  induction ids generalizing x evicted with
  | nil => exact h
  | cons id ids ih => exact ih (h.drop topic id) _

theorem publish (h : x.OneRoom attached) (topic : Topic) (frame : Frame) :
    (x.publish topic frame).2.OneRoom attached :=
  (h.offer frame 0 [] (x.membersOf topic)).evict topic 0 _

theorem broadcast (h : x.OneRoom attached) (room : ConversationId) (content : String) :
    (x.broadcast room content).2.OneRoom attached := by
  unfold Exchange.broadcast
  split
  · exact h
  · exact h.publish (.room room) _

/-! ### Joining a room -/

/-- An open connection is a member of the room that it takes its seat in; a closed one gets
neither. -/
theorem move (h : x.OneRoom attached) (known : x.Knows id) (room : ConversationId) :
    (x.perform (.move room id)).OneRoom attached where
  toConsistent := h.toConsistent.perform (d := .move room id) known
  placed := by
    have sat := h.toConsistent.sit known room
    have known' : (x.sit room id).Knows id := ((SameConns.sit x room id).knows id).mpr known
    intro one other seat
    change ((x.sit room id).join (.room room) id).2.seatOf one = some other at seat
    change one ∈ ((x.sit room id).join (.room room) id).2.membersOf (.room other)
    rw [seatOf_join, seatOf_sit h.toConsistent known] at seat
    rw [mem_membersOf_join sat known']
    split at seat
    · next self =>
      subst self
      split at seat
      · cases seat
      · next opened =>
        cases seat
        right
        refine ⟨rfl, rfl, ?_⟩
        rw [(SameConns.sit x room id).closed]
        simpa using opened
    · next different =>
      left
      rw [mem_membersOf_sit h.toConsistent]
      exact ⟨h.placed one other seat, fun both => different both.1.symm⟩
  seated := h.seated.move h.toConsistent known room

theorem joinRoom (h : x.OneRoom attached) (known : x.Knows id) (room : ConversationId) :
    (x.joinRoom room id).2.OneRoom attached :=
  (h.move known room).broadcast room greeting

end OneRoom

end Switchboard.Exchange
