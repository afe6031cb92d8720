import Mathlib.Data.List.Basic
import Switchboard.Exchange.Rooms

/-!
What the indivisible steps of the exchange do to its views: members, topics, seats, connections and
the frames that these have taken.
-/

namespace Switchboard.Exchange

def Knows (x : Exchange) (id : ConnId) : Prop := (x.conns.find? id).isSome

instance (x : Exchange) (id : ConnId) : Decidable (x.Knows id) := inferInstanceAs (Decidable (_ = true))

/-- The frames that a connection took for sending, in order. -/
def sentTo (x : Exchange) (id : ConnId) : List Frame :=
  match x.conns.find? id with
  | some c => c.taken.reverse
  | none => []

def linkOf? (x : Exchange) (id : ConnId) : Option Link := (x.conns.find? id).map Conn.link

def withConn (x : Exchange) (id : ConnId) (c : Conn) : Exchange :=
  { x with conns := x.conns.insert id c }

variable (x : Exchange) (topic other : Topic) (id one : ConnId)

/-! ### One connection -/

theorem find?_conns_withConn (c : Conn) :
    (x.withConn id c).conns.find? one = if id = one then some c else x.conns.find? one := by
  rw [withConn, Table.find?_insert]

theorem isClosed_withConn (c : Conn) :
    (x.withConn id c).isClosed one = if id = one then c.closed else x.isClosed one := by
  simp only [isClosed, find?_conns_withConn]
  by_cases self : id = one <;> simp [self]

theorem sentTo_withConn (c : Conn) :
    (x.withConn id c).sentTo one = if id = one then c.taken.reverse else x.sentTo one := by
  simp only [sentTo, find?_conns_withConn]
  by_cases self : id = one <;> simp [self]

theorem linkOf?_withConn (c : Conn) :
    (x.withConn id c).linkOf? one = if id = one then some c.link else x.linkOf? one := by
  simp only [linkOf?, find?_conns_withConn]
  by_cases self : id = one <;> simp [self]

theorem knows_withConn (c : Conn) : (x.withConn id c).Knows one ↔ id = one ∨ x.Knows one := by
  simp only [Knows, find?_conns_withConn]
  by_cases self : id = one <;> simp [self]

variable {x id} in
theorem send_conn {next : Exchange} {frame : Frame} (sent : x.send id frame = .ok next) :
    ∃ c k, x.conns.find? id = some c ∧ c.send frame = .ok k ∧ next = x.withConn id k := by
  unfold send at sent
  split at sent
  · cases sent
  · next c found =>
    split at sent
    · cases sent
    · next k accepted =>
      cases sent
      exact ⟨c, k, found, accepted, rfl⟩

/-! ### Leaving one topic -/

@[simp] theorem conns_leave : (x.leave topic id).2.conns = x.conns := by
  unfold leave
  dsimp only
  split <;> rfl

@[simp] theorem seats_leave : (x.leave topic id).2.seats = x.seats := by
  unfold leave
  dsimp only
  split <;> rfl

theorem membersOf_leave :
    (x.leave topic id).2.membersOf other =
      if topic = other then (x.membersOf other).erase id else x.membersOf other := by
  unfold leave
  dsimp only
  split
  · next member =>
    by_cases same : topic = other
    · subst same
      simp [membersOf]
    · simp [membersOf, same]
  · next stranger =>
    split
    · next same =>
      subst same
      rw [List.erase_of_not_mem (by simpa using stranger)]
    · rfl

theorem find?_subscriptions_leave :
    (x.leave topic id).2.subscriptions.find? one =
      if id ∈ x.membersOf topic ∧ id = one then
        (x.subscriptions.find? one).map (·.erase topic)
      else x.subscriptions.find? one := by
  unfold leave
  dsimp only
  split
  · next member =>
    have inside : id ∈ x.membersOf topic := by simpa using member
    simp [Table.find?_modify, inside]
  · next stranger =>
    have outside : id ∉ x.membersOf topic := by simpa using stranger
    simp [outside]

theorem topicsOf_leave :
    (x.leave topic id).2.topicsOf one =
      if id ∈ x.membersOf topic ∧ id = one then (x.topicsOf one).erase topic
      else x.topicsOf one := by
  unfold topicsOf
  rw [find?_subscriptions_leave]
  split
  · cases x.subscriptions.find? one <;> rfl
  · rfl

/-! ### Leaving many topics -/

@[simp] theorem conns_leaveAll (topics : List Topic) : (x.leaveAll id topics).conns = x.conns := by
  induction topics generalizing x with
  | nil => rfl
  | cons topic topics ih => rw [leaveAll, ih, conns_leave]

@[simp] theorem seats_leaveAll (topics : List Topic) : (x.leaveAll id topics).seats = x.seats := by
  induction topics generalizing x with
  | nil => rfl
  | cons topic topics ih => rw [leaveAll, ih, seats_leave]

variable {x} in
theorem membersOf_leaveAll (nodup : ∀ t, (x.membersOf t).Nodup) (topics : List Topic) :
    (x.leaveAll id topics).membersOf other =
      if other ∈ topics then (x.membersOf other).erase id else x.membersOf other := by
  induction topics generalizing x with
  | nil => rfl
  | cons topic topics ih =>
    have kept : ∀ t, ((x.leave topic id).2.membersOf t).Nodup := by
      intro t
      rw [membersOf_leave]
      split
      · exact (nodup t).erase id
      · exact nodup t
    have gone : id ∉ (x.membersOf other).erase id := (nodup other).not_mem_erase
    rw [leaveAll, ih kept, membersOf_leave]
    by_cases same : topic = other
    · subst same
      by_cases more : topic ∈ topics <;> simp [more, List.erase_of_not_mem gone]
    · simp [same, Ne.symm same]

variable {x id} in
theorem find?_subscriptions_leaveAll (none : x.subscriptions.find? id = .none)
    (topics : List Topic) :
    (x.leaveAll id topics).subscriptions.find? one = x.subscriptions.find? one := by
  induction topics generalizing x with
  | nil => rfl
  | cons topic topics ih =>
    have same : ∀ c, (x.leave topic id).2.subscriptions.find? c = x.subscriptions.find? c := by
      intro c
      rw [find?_subscriptions_leave]
      split
      · next h => rw [← h.2, none, Option.map_none]
      · rfl
    rw [leaveAll, ih (by rw [same, none]), same]

/-! ### Becoming a member -/

@[simp] theorem conns_enlist : (x.enlist topic id).2.conns = x.conns := by
  unfold enlist
  dsimp only
  split
  · rfl
  · split <;> rfl

@[simp] theorem seats_enlist : (x.enlist topic id).2.seats = x.seats := by
  unfold enlist
  dsimp only
  split
  · rfl
  · split <;> rfl

theorem membersOf_enlist :
    (x.enlist topic id).2.membersOf other =
      if topic = other ∧ id ∉ x.membersOf topic then x.membersOf other ++ [id]
      else x.membersOf other := by
  unfold enlist
  dsimp only
  split
  · next member =>
    have inside : id ∈ x.membersOf topic := by simpa using member
    simp [inside]
  · next stranger =>
    have outside : id ∉ x.membersOf topic := by simpa using stranger
    by_cases same : topic = other
    · subst same
      have absent : id ∉ (x.members.find? topic).getD [] := outside
      split <;> simp [membersOf, absent]
    · split <;> simp [same, membersOf]

theorem find?_subscriptions_enlist :
    (x.enlist topic id).2.subscriptions.find? one =
      if id = one ∧ id ∉ x.membersOf topic then some ((x.topicsOf one).insert topic)
      else x.subscriptions.find? one := by
  unfold enlist
  dsimp only
  split
  · next member =>
    have inside : id ∈ x.membersOf topic := by simpa using member
    simp [inside]
  · next stranger =>
    have outside : id ∉ x.membersOf topic := by simpa using stranger
    split
    · next fresh =>
      by_cases same : id = one
      · subst same
        simp [outside, topicsOf, fresh]
      · simp [same]
    · next topics found =>
      by_cases same : id = one
      · subst same
        simp [outside, topicsOf, found]
      · simp [same]

theorem topicsOf_enlist :
    (x.enlist topic id).2.topicsOf one =
      if id = one ∧ id ∉ x.membersOf topic then (x.topicsOf one).insert topic
      else x.topicsOf one := by
  rw [topicsOf, find?_subscriptions_enlist]
  split <;> rfl

end Switchboard.Exchange
