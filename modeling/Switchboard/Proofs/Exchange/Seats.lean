import Switchboard.Proofs.Exchange.Joining

/-!
Taking a seat: the room of the seat before is left, and the first seat leaves a hook.
-/

namespace Switchboard.Exchange

variable {x : Exchange} {id one : ConnId} {room : ConversationId}

def seated (x : Exchange) (id : ConnId) (room : ConversationId) : Exchange :=
  { x with seats := x.seats.insert id room }

theorem seatOf_seated (x : Exchange) (id one : ConnId) (room : ConversationId) :
    (x.seated id room).seatOf one = if id = one then some room else x.seatOf one := by
  rw [seatOf, seated, Table.find?_insert, seatOf]

theorem sit_first (none : x.seatOf id = .none) :
    x.sit room id = (x.seated id room).attach id .vacateRoom := by
  rw [sit, none]
  rfl

theorem sit_again (found : x.seatOf id = some room) : x.sit room id = x.seated id room := by
  rw [sit, found]
  exact if_pos rfl

theorem sit_elsewhere {previous : ConversationId} (found : x.seatOf id = some previous)
    (different : previous ≠ room) :
    x.sit room id = ((x.seated id room).leave (.room previous) id).2 := by
  rw [sit, found]
  exact if_neg different

theorem Consistent.open_of_seat (h : x.Consistent) (found : x.seatOf id = some room) :
    x.isClosed id = false := by
  cases closed : x.isClosed id with
  | false => rfl
  | true => rw [(h.gone id closed).2] at found; cases found

theorem Consistent.seated_first (h : x.Consistent) (id : ConnId) (room : ConversationId) :
    (x.seated id room).Owing id .vacateRoom where
  toMirrored := ⟨h.same, h.members, h.topics⟩
  hooked := by
    intro one c found opened
    obtain ⟨acts, hooked⟩ := h.hooked one c found opened
    refine ⟨acts, hooked.waiting, fun some => Or.inl (hooked.forgets some), ?_⟩
    rw [seatOf_seated]
    intro some
    by_cases self : id = one
    · exact Or.inr ⟨self.symm, rfl⟩
    · exact Or.inl (hooked.vacates (by simpa [self] using some))
  fired := h.fired
  gone := by
    intro one closed
    obtain ⟨subscription, seat⟩ := h.gone one closed
    refine ⟨Or.inl subscription, ?_⟩
    by_cases self : id = one
    · exact Or.inr ⟨self.symm, rfl⟩
    · rw [seatOf_seated, if_neg self]
      exact Or.inl seat

theorem Consistent.seated_again (h : x.Consistent) {previous : ConversationId}
    (found : x.seatOf id = some previous) (room : ConversationId) :
    (x.seated id room).Consistent := by
  have opened := h.open_of_seat found
  apply (h.seated_first id room).paid opened
  intro c acts present waiting
  exact (h.waits present opened waiting).vacates (by rw [found]; rfl)

theorem Consistent.sit (h : x.Consistent) (known : x.Knows id) (room : ConversationId) :
    (x.sit room id).Consistent := by
  cases found : x.seatOf id with
  | none =>
    rw [sit_first found]
    exact (h.seated_first id room).attach known
  | some previous =>
    by_cases same : previous = room
    · rw [sit_again (same ▸ found)]
      exact h.seated_again found room
    · rw [sit_elsewhere found same]
      exact (h.seated_again found room).leave _ id

/-- An open connection has the seat that it took; a closed one has none. -/
theorem seatOf_sit (h : x.Consistent) (known : x.Knows id) (room : ConversationId) (one : ConnId) :
    (x.sit room id).seatOf one =
      if id = one then (if x.isClosed id then none else some room) else x.seatOf one := by
  cases found : x.seatOf id with
  | none =>
    obtain ⟨c, present⟩ := Option.isSome_iff_exists.mp known
    have present' : (x.seated id room).conns.find? id = some c := present
    rw [sit_first found, attach_eq present', isClosed_of_find? present]
    cases state : c.closed with
    | false =>
      obtain ⟨acts, hooked⟩ := h.hooked id c present state
      rw [hooked.waiting]
      exact seatOf_seated x id one room
    | true =>
      rw [h.fired id c present state]
      change ((x.seated id room).vacate id).seatOf one = _
      rw [seatOf, Exchange.vacate, Table.find?_erase]
      by_cases self : id = one
      · simp [self]
      · simpa [self, seatOf] using seatOf_seated x id one room
  | some previous =>
    have opened := h.open_of_seat found
    by_cases same : previous = room
    · rw [sit_again (same ▸ found), seatOf_seated, opened]
      rfl
    · rw [sit_elsewhere found same, seatOf, seats_leave, opened]
      exact seatOf_seated x id one room

/-- Whoever takes a seat leaves the room of the seat before. -/
theorem mem_membersOf_sit (h : x.Consistent) (room : ConversationId) (id one : ConnId)
    (topic : Topic) :
    one ∈ (x.sit room id).membersOf topic ↔
      one ∈ x.membersOf topic ∧
        ¬ (one = id ∧ ∃ previous, x.seatOf id = some previous ∧ previous ≠ room ∧
          topic = .room previous) := by
  cases found : x.seatOf id with
  | none =>
    rw [sit_first found]
    have same : ((x.seated id room).attach id .vacateRoom).membersOf topic = x.membersOf topic := by
      cases present : (x.seated id room).conns.find? id with
      | none => rw [attach_unknown present]; rfl
      | some c =>
        rw [attach_eq present]
        split <;> rfl
    simp [same]
  | some previous =>
    by_cases same : previous = room
    · rw [sit_again (same ▸ found),
        show (x.seated id room).membersOf topic = x.membersOf topic from rfl]
      simp [same]
    · rw [sit_elsewhere found same, membersOf_leave,
        show (x.seated id room).membersOf topic = x.membersOf topic from rfl]
      by_cases there : Topic.room previous = topic
      · subst there
        simp [(h.members _).mem_erase_iff, same, and_comm]
      · simp [there, Ne.symm there]

end Switchboard.Exchange
