import Switchboard.Proofs.Exchange.Seats

/-!
Deeds: the few complete calls that everything done to an exchange comes down to. What an operation
may do is said by what its deeds may be, and an invariant that every deed keeps is kept by all
operations.
-/

namespace Switchboard

inductive Deed
  | join (topic : Topic) (id : ConnId)
  | leave (topic : Topic) (id : ConnId)
  | move (room : ConversationId) (id : ConnId)
  | vacate (id : ConnId)
  | close (id : ConnId)
  | send (id : ConnId) (frame : Frame)
  | relink (id : ConnId) (link : Link)

def Deed.entry? : Deed → Option (Topic × ConnId)
  | .join topic id => some (topic, id)
  | .move room id => some (.room room, id)
  | _ => none

namespace Exchange

def attempt (x : Exchange) (id : ConnId) (frame : Frame) : Exchange :=
  match x.send id frame with
  | .ok x => x
  | .error _ => x

def perform (x : Exchange) : Deed → Exchange
  | .join topic id => (x.join topic id).2
  | .leave topic id => (x.leave topic id).2
  | .move room id => ((x.sit room id).join (.room room) id).2
  | .vacate id => x.vacate id
  | .close id => x.close id
  | .send id frame => x.attempt id frame
  | .relink id link => x.setLink id link

def performAll (x : Exchange) (deeds : List Deed) : Exchange := deeds.foldl perform x

def Possible (x : Exchange) : Deed → Prop
  | .join _ id | .move _ id => x.Knows id
  | _ => True

variable {x y next : Exchange} {topic other : Topic} {id one : ConnId} {room : ConversationId}
  {frame : Frame}

/-! ### Sending -/

theorem send_ok (sent : x.send id frame = .ok next) :
    ∃ c k, x.conns.find? id = some c ∧ c.closed = false ∧ k.closed = false ∧ k.hooks = c.hooks ∧
      k.taken = frame :: c.taken ∧ next = x.withConn id k := by
  obtain ⟨c, k, found, accepted, shape⟩ := send_conn sent
  obtain ⟨opened, kept, hooks, taken⟩ := Conn.send_ok accepted
  exact ⟨c, k, found, opened, kept, hooks, taken, shape⟩

theorem isClosed_send (sent : x.send id frame = .ok next) (one : ConnId) :
    next.isClosed one = x.isClosed one := by
  obtain ⟨c, k, found, opened, kept, -, -, rfl⟩ := send_ok sent
  exact isClosed_withConn_same found (kept.trans opened.symm) one

theorem knows_send (sent : x.send id frame = .ok next) (one : ConnId) :
    next.Knows one ↔ x.Knows one := by
  obtain ⟨c, k, found, -, -, -, -, rfl⟩ := send_ok sent
  exact knows_withConn_same found k one

theorem sentTo_send (sent : x.send id frame = .ok next) (one : ConnId) :
    next.sentTo one = if id = one then x.sentTo one ++ [frame] else x.sentTo one := by
  obtain ⟨c, k, found, -, -, -, taken, rfl⟩ := send_ok sent
  rw [sentTo_withConn]
  split
  · next self =>
    subst self
    rw [taken, List.reverse_cons, sentTo, found]
  · rfl

theorem Consistent.send (h : x.Consistent) (sent : x.send id frame = .ok next) :
    next.Consistent := by
  obtain ⟨c, k, found, opened, kept, hooks, -, rfl⟩ := send_ok sent
  exact h.withConn found (kept.trans opened.symm) hooks

theorem perform_send (sent : x.send id frame = .ok next) :
    x.perform (.send id frame) = next := by
  unfold perform attempt
  simp only [sent]

theorem attempt_cases (x : Exchange) (id : ConnId) (frame : Frame) :
    x.send id frame = .ok (x.attempt id frame) ∨ x.attempt id frame = x := by
  unfold attempt
  cases x.send id frame with
  | ok next => exact Or.inl rfl
  | error e => exact Or.inr rfl

theorem membersOf_attempt (x : Exchange) (id : ConnId) (frame : Frame) (topic : Topic) :
    (x.attempt id frame).membersOf topic = x.membersOf topic := by
  rcases attempt_cases x id frame with accepted | same
  · obtain ⟨c, k, -, -, -, -, -, shape⟩ := send_ok accepted
    rw [shape]
    rfl
  · rw [same]

theorem seatOf_attempt (x : Exchange) (id one : ConnId) (frame : Frame) :
    (x.attempt id frame).seatOf one = x.seatOf one := by
  rcases attempt_cases x id frame with accepted | same
  · obtain ⟨c, k, -, -, -, -, -, shape⟩ := send_ok accepted
    rw [shape]
    rfl
  · rw [same]

/-! ### The link -/

theorem setLink_unknown (unknown : x.conns.find? id = none) (link : Link) :
    x.setLink id link = x := by
  rw [setLink, Table.modify, unknown]

theorem setLink_eq {c : Conn} (found : x.conns.find? id = some c) (link : Link) :
    x.setLink id link = x.withConn id { c with link := link } := by
  rw [setLink, Table.modify, found]
  rfl

theorem isClosed_setLink (x : Exchange) (id one : ConnId) (link : Link) :
    (x.setLink id link).isClosed one = x.isClosed one := by
  cases found : x.conns.find? id with
  | none => rw [setLink_unknown found]
  | some c =>
    rw [setLink_eq found]
    refine isClosed_withConn_same found ?_ one
    rfl

theorem sentTo_setLink (x : Exchange) (id one : ConnId) (link : Link) :
    (x.setLink id link).sentTo one = x.sentTo one := by
  cases found : x.conns.find? id with
  | none => rw [setLink_unknown found]
  | some c =>
    rw [setLink_eq found]
    refine sentTo_withConn_same found ?_ one
    rfl

theorem knows_setLink (x : Exchange) (id one : ConnId) (link : Link) :
    (x.setLink id link).Knows one ↔ x.Knows one := by
  cases found : x.conns.find? id with
  | none => rw [setLink_unknown found]
  | some c =>
    rw [setLink_eq found]
    exact knows_withConn_same found _ one

theorem Consistent.setLink (h : x.Consistent) (id : ConnId) (link : Link) :
    (x.setLink id link).Consistent := by
  cases found : x.conns.find? id with
  | none =>
    rw [setLink_unknown found]
    exact h
  | some c =>
    rw [setLink_eq found]
    exact h.withConn found rfl rfl

/-! ### One deed -/

theorem Consistent.perform (h : x.Consistent) {d : Deed} (possible : x.Possible d) :
    (x.perform d).Consistent := by
  cases d with
  | join topic id => exact h.join possible topic
  | leave topic id => exact h.leave topic id
  | move room id =>
    apply (h.sit possible room).join
    exact ((SameConns.sit x room id).knows id).mpr possible
  | vacate id => exact h.vacate id
  | close id => exact h.close id
  | send id frame =>
    rcases attempt_cases x id frame with accepted | same
    · exact h.send accepted
    · rw [Exchange.perform, same]
      exact h
  | relink id link => exact h.setLink id link

theorem knows_perform (h : x.Consistent) (d : Deed) (one : ConnId) :
    (x.perform d).Knows one ↔ x.Knows one := by
  cases d with
  | join topic id => exact (SameConns.join x topic id).knows one
  | leave topic id => exact (SameConns.leave x topic id).knows one
  | move room id => exact ((SameConns.sit x room id).trans (.join _ _ id)).knows one
  | vacate id => rfl
  | close id =>
    unfold Exchange.perform Knows
    rw [find?_conns_close h]
    by_cases self : id = one <;> simp [self]
  | send id frame =>
    rcases attempt_cases x id frame with accepted | same
    · exact knows_send accepted one
    · rw [Exchange.perform, same]
  | relink id link => exact knows_setLink x id one link

theorem isClosed_perform (h : x.Consistent) (d : Deed) (closed : x.isClosed one = true) :
    (x.perform d).isClosed one = true := by
  cases d with
  | join topic id => exact ((SameConns.join x topic id).closed one).trans closed
  | leave topic id => exact ((SameConns.leave x topic id).closed one).trans closed
  | move room id => exact (((SameConns.sit x room id).trans (.join _ _ id)).closed one).trans closed
  | vacate id => exact closed
  | close id =>
    unfold Exchange.perform
    rw [isClosed_close h, closed, Bool.or_true]
  | send id frame =>
    rcases attempt_cases x id frame with accepted | same
    · exact (isClosed_send accepted one).trans closed
    · rw [Exchange.perform, same, closed]
  | relink id link => exact (isClosed_setLink x id one link).trans closed

theorem sentTo_perform (h : x.Consistent) (d : Deed) (one : ConnId) :
    (x.perform d).sentTo one = x.sentTo one ∨
      ∃ frame, d = .send one frame ∧ (x.perform d).sentTo one = x.sentTo one ++ [frame] := by
  cases d with
  | join topic id => exact Or.inl ((SameConns.join x topic id).sent one)
  | leave topic id => exact Or.inl ((SameConns.leave x topic id).sent one)
  | move room id => exact Or.inl (((SameConns.sit x room id).trans (.join _ _ id)).sent one)
  | vacate id => exact Or.inl rfl
  | close id => exact Or.inl (sentTo_close h id one)
  | send id frame =>
    rcases attempt_cases x id frame with accepted | same
    · have shape := sentTo_send accepted one
      split at shape
      · next self => exact Or.inr ⟨frame, by rw [self], shape⟩
      · exact Or.inl shape
    · exact Or.inl (by rw [Exchange.perform, same])
  | relink id link => exact Or.inl (sentTo_setLink x id one link)

theorem mem_membersOf_perform (h : x.Consistent) {d : Deed} (possible : x.Possible d)
    (member : one ∈ (x.perform d).membersOf topic) :
    one ∈ x.membersOf topic ∨ d = .join topic one ∨
      ∃ room, topic = .room room ∧ d = .move room one := by
  cases d with
  | join other id =>
    rcases (mem_membersOf_join h possible other topic one).mp member with before | ⟨rfl, rfl, -⟩
    · exact Or.inl before
    · exact Or.inr (Or.inl rfl)
  | leave other id =>
    unfold perform at member
    rw [membersOf_leave] at member
    split at member
    · exact Or.inl (List.mem_of_mem_erase member)
    · exact Or.inl member
  | move room id =>
    have known : (x.sit room id).Knows id := ((SameConns.sit x room id).knows id).mpr possible
    rcases (mem_membersOf_join (h.sit possible room) known _ topic one).mp member with
      before | ⟨rfl, rfl, -⟩
    · exact Or.inl ((mem_membersOf_sit h room id one topic).mp before).1
    · exact Or.inr (Or.inr ⟨room, rfl, rfl⟩)
  | vacate id => exact Or.inl member
  | close id =>
    unfold perform at member
    rw [membersOf_close h] at member
    exact Or.inl (List.mem_of_mem_erase member)
  | send id frame => exact Or.inl (membersOf_attempt x id frame topic ▸ member)
  | relink id link => exact Or.inl member

theorem seatOf_perform (h : x.Consistent) {d : Deed} (possible : x.Possible d)
    (seat : (x.perform d).seatOf one = some room) :
    x.seatOf one = some room ∨ d = .move room one := by
  cases d with
  | join other id =>
    unfold perform at seat
    rw [seatOf_join] at seat
    exact Or.inl seat
  | leave other id =>
    unfold perform seatOf at seat
    rw [seats_leave] at seat
    exact Or.inl seat
  | move other id =>
    unfold perform at seat
    rw [seatOf_join, seatOf_sit h possible] at seat
    split at seat
    · next self =>
      split at seat
      · cases seat
      · cases seat
        exact Or.inr (by rw [self])
    · exact Or.inl seat
  | vacate id =>
    unfold perform seatOf vacate at seat
    rw [Table.find?_erase] at seat
    split at seat
    · cases seat
    · exact Or.inl seat
  | close id =>
    unfold perform at seat
    rw [seatOf_close h] at seat
    split at seat
    · cases seat
    · exact Or.inl seat
  | send id frame => exact Or.inl ((seatOf_attempt x id one frame).symm.trans seat)
  | relink id link => exact Or.inl seat

theorem isClosed_of_send (sent : x.send id frame = .ok next) : x.isClosed id = false := by
  obtain ⟨c, k, found, opened, -⟩ := send_ok sent
  rw [isClosed_of_find? found, opened]

theorem sentTo_closed (h : x.Consistent) (d : Deed) (closed : x.isClosed one = true) :
    (x.perform d).sentTo one = x.sentTo one := by
  rcases sentTo_perform h d one with same | ⟨frame, rfl, longer⟩
  · exact same
  · rcases attempt_cases x one frame with accepted | same
    · rw [isClosed_of_send accepted] at closed
      cases closed
    · rw [perform, same]

end Exchange

end Switchboard
