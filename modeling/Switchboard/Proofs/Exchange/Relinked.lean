import Switchboard.Proofs.Exchange.Evicting

/-!
A publish after which the links of the members change, as these take in what they were sent, or lose
what they are connected to.
-/

namespace Switchboard

namespace Exchange

variable {x : Exchange} {id one : ConnId}

theorem filter_contains (x : Exchange) (topic : Topic) :
    (x.membersOf topic).filter (x.contains topic) = x.membersOf topic :=
  List.filter_eq_self.mpr fun _ => contains_iff.mpr

theorem find?_members_eq {x y : Exchange} (known : x.members.keys = y.members.keys) {topic : Topic}
    (same : x.membersOf topic = y.membersOf topic) :
    x.members.find? topic = y.members.find? topic := by
  have both : (x.members.find? topic).isSome ↔ (y.members.find? topic).isSome := by
    rw [← Table.mem_keys, ← Table.mem_keys, known]
  unfold membersOf at same
  cases found : x.members.find? topic <;> cases found' : y.members.find? topic <;>
    simp_all

def changeLink (x : Exchange) (id : ConnId) (change : Link → Link) : Exchange :=
  { x with conns := x.conns.modify id fun c => { c with link := change c.link } }

def changeLinks (x : Exchange) (change : ConnId → Link → Link) (ids : List ConnId) : Exchange :=
  ids.foldl (fun x id => x.changeLink id (change id)) x

theorem changeLink_eq (x : Exchange) (id : ConnId) (change : Link → Link) :
    x.changeLink id change = match x.conns.find? id with
      | some c => x.setLink id (change c.link)
      | none => x := by
  unfold changeLink setLink
  cases found : x.conns.find? id with
  | none => simp only [Table.modify, found]
  | some c => simp only [Table.modify, found]

theorem Consistent.changeLinks (h : x.Consistent) (change : ConnId → Link → Link)
    (ids : List ConnId) : (x.changeLinks change ids).Consistent := by
  induction ids generalizing x with
  | nil => exact h
  | cons id ids ih =>
    apply ih
    dsimp only
    rw [changeLink_eq]
    cases x.conns.find? id with
    | none => exact h
    | some c => exact h.setLink id _

theorem changeLinks_keeps (x : Exchange) (change : ConnId → Link → Link) (ids : List ConnId) :
    (x.changeLinks change ids).members = x.members ∧
      (x.changeLinks change ids).subscriptions = x.subscriptions ∧
      (x.changeLinks change ids).seats = x.seats := by
  induction ids generalizing x with
  | nil => exact ⟨rfl, rfl, rfl⟩
  | cons id ids ih => exact ih (x.changeLink id (change id))

theorem changeLinks_self (x : Exchange) (ids : List ConnId) :
    x.changeLinks (fun _ link => link) ids = x := by
  induction ids with
  | nil => rfl
  | cons id ids ih =>
    have same : x.changeLink id (fun link => link) = x := by
      unfold changeLink Table.modify
      cases found : x.conns.find? id with
      | none => rfl
      | some c =>
        dsimp only
        rw [Table.insert_of_find? found]
    change (x.changeLink id fun link => link).changeLinks (fun _ link => link) ids = x
    rw [same, ih]

theorem find?_conns_changeLinks (x : Exchange) (change : ConnId → Link → Link) {ids : List ConnId}
    (nodup : ids.Nodup) (one : ConnId) :
    (x.changeLinks change ids).conns.find? one =
      if one ∈ ids then (x.conns.find? one).map fun c => { c with link := change one c.link }
      else x.conns.find? one := by
  induction ids generalizing x with
  | nil => rfl
  | cons id ids ih =>
    obtain ⟨absent, nodup⟩ := List.nodup_cons.mp nodup
    have changed : (x.changeLink id (change id)).conns.find? one =
        if id = one then (x.conns.find? one).map fun c => { c with link := change id c.link }
        else x.conns.find? one :=
      Table.find?_modify x.conns id one _
    change ((x.changeLink id (change id)).changeLinks change ids).conns.find? one = _
    rw [ih _ nodup, changed]
    by_cases self : id = one
    · subst self
      simp [absent]
    · simp [self, Ne.symm self]

/-- Publishes; then the links of all members change. -/
def deliver (x : Exchange) (topic : Topic) (frame : Frame) (change : ConnId → Link → Link) :
    Exchange :=
  (x.publish topic frame).2.changeLinks change (x.membersOf topic)

section deliver

variable (h : x.Consistent) (topic : Topic) (frame : Frame) (change : ConnId → Link → Link)
include h

theorem Consistent.deliver : (x.deliver topic frame change).Consistent :=
  (h.publish topic frame).changeLinks change _

theorem find?_conns_deliver (id : ConnId) :
    (x.deliver topic frame change).conns.find? id =
      if id ∈ x.membersOf topic then
        ((x.conns.find? id).map (·.offered frame)).map fun c => { c with link := change id c.link }
      else x.conns.find? id := by
  rw [deliver, find?_conns_changeLinks _ _ (h.members topic), find?_conns_publish h]
  split <;> rfl

theorem membersOf_deliver (other : Topic) :
    (x.deliver topic frame change).membersOf other =
      (x.membersOf other).filter fun id => decide (id ∉ x.refusers topic frame) := by
  rw [deliver, membersOf, (changeLinks_keeps ..).1, ← membersOf, membersOf_publish h]

theorem contains_deliver (other : Topic) (id : ConnId) :
    (x.deliver topic frame change).contains other id =
      if id ∈ x.refusers topic frame then false else x.contains other id := by
  rw [contains, membersOf_deliver h, contains]
  by_cases refuses : id ∈ x.refusers topic frame <;> simp [refuses]

theorem find?_subscriptions_deliver (id : ConnId) :
    (x.deliver topic frame change).subscriptions.find? id =
      if id ∈ x.refusers topic frame then none else x.subscriptions.find? id := by
  rw [deliver, (changeLinks_keeps ..).2.1, find?_subscriptions_publish h]

theorem seatOf_deliver (id : ConnId) :
    (x.deliver topic frame change).seatOf id =
      if id ∈ x.refusers topic frame then none else x.seatOf id := by
  rw [deliver, seatOf, (changeLinks_keeps ..).2.2, ← seatOf, seatOf_publish h]

omit h in
theorem keys_deliver : (x.deliver topic frame change).members.keys = x.members.keys := by
  rw [deliver, (changeLinks_keeps ..).1, keys_publish]

end deliver

end Exchange

end Switchboard
