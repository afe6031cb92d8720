import Switchboard.Proofs.Exchange.Leads

/-!
Rooms and seats: apart from administrators, whoever is a member of a room sits in it, and so is a
member of one room at most.
-/

namespace Switchboard.Exchange

/-- Members of rooms that are no administrators have their seat there. -/
def Seated (admin : ConnId → Prop) (x : Exchange) : Prop :=
  ∀ id room, id ∈ x.membersOf (.room room) → admin id ∨ x.seatOf id = some room

/-- Deeds that do not part members from their seats: only administrators are joined to rooms, and
nobody gives up a seat alone. -/
def KeepsSeats (admin : ConnId → Prop) : Deed → Prop
  | .join (.room _) id => admin id
  | .vacate _ => False
  | _ => True

variable {x next : Exchange} {admin : ConnId → Prop} {id : ConnId} {room : ConversationId}

theorem Seated.move (h : x.Consistent) (known : x.Knows id) (seated : x.Seated admin)
    (room : ConversationId) : (x.perform (.move room id)).Seated admin := by
  have conns := SameConns.sit x room id
  intro one other member
  have seat : (x.perform (.move room id)).seatOf one =
      if id = one then (if x.isClosed id then none else some room) else x.seatOf one :=
    (seatOf_join _ _ id one).trans (seatOf_sit h known room one)
  rw [seat]
  rcases (mem_membersOf_join (h.sit known room) ((conns.knows id).mpr known) _ _ one).mp member with
    before | ⟨there, rfl, opened⟩
  · obtain ⟨inside, kept⟩ := (mem_membersOf_sit h room id one _).mp before
    rcases seated one other inside with allowed | sits
    · exact Or.inl allowed
    · right
      split
      · next self =>
        subst self
        -- the room of the seat before has been left, unless it is this one
        have same : other = room := by
          by_contra different
          exact kept ⟨rfl, other, sits, different, rfl⟩
        rw [if_neg (by rw [h.open_of_seat sits]; exact Bool.noConfusion), same]
      · exact sits
  · cases there
    rw [conns.closed] at opened
    exact Or.inr (by rw [if_pos rfl, opened]; rfl)

theorem Seated.perform (h : x.Consistent) {d : Deed} (possible : x.Possible d)
    (seated : x.Seated admin) (keeps : KeepsSeats admin d) : (x.perform d).Seated admin := by
  cases d with
  | join topic id =>
    intro one other member
    have seat : (x.perform (.join topic id)).seatOf one = x.seatOf one := seatOf_join x topic id one
    rw [seat]
    rcases (mem_membersOf_join h possible topic _ one).mp member with before | ⟨rfl, rfl, -⟩
    · exact seated one other before
    · exact Or.inl keeps
  | leave topic id =>
    intro one other member
    have seat : (x.perform (.leave topic id)).seatOf one = x.seatOf one :=
      congrArg (Table.find? · one) (seats_leave x topic id)
    rw [seat]
    unfold Exchange.perform at member
    rw [membersOf_leave] at member
    split at member
    · exact seated one other (List.mem_of_mem_erase member)
    · exact seated one other member
  | move room id => exact seated.move h possible room
  | vacate id => exact keeps.elim
  | close id =>
    intro one other member
    unfold Exchange.perform at member ⊢
    rw [membersOf_close h, (h.members _).mem_erase_iff] at member
    rw [seatOf_close h, if_neg (Ne.symm member.1)]
    exact seated one other member.2
  | send id frame =>
    intro one other member
    have seat : (x.perform (.send id frame)).seatOf one = x.seatOf one :=
      seatOf_attempt x id one frame
    rw [seat]
    exact seated one other (membersOf_attempt x id frame _ ▸ member)
  | relink id link => exact seated

theorem Leads.seated {kind : Deed → Prop} (leads : Leads kind x next) (h : x.Consistent)
    (possible : ∀ d, kind d → x.Possible d) (seated : x.Seated admin)
    (keeps : ∀ d, kind d → KeepsSeats admin d) : next.Seated admin :=
  (leads.keeps_consistent h possible (·.Seated admin) seated fun _ d consistent now seated allowed =>
    seated.perform consistent now (keeps d allowed)).2.2

end Switchboard.Exchange
