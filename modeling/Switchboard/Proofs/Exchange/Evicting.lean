import Switchboard.Proofs.Exchange.Apart
import Switchboard.Proofs.Exchange.Published

/-!
What a publish leaves behind: those that did not take the frame are closed and members of nothing,
everybody else is a member of the same topics as before. The report counts the ones and the others.
-/

namespace Switchboard

namespace Conn

def shut (c : Conn) : Conn := { c with closed := true, hooks := ⟨none⟩ }

def attempt (c : Conn) (frame : Frame) : Conn :=
  match c.send frame with
  | .ok c => c
  | .error _ => c

/-- What becomes of a member when a frame is published: it takes the frame, or it is closed. -/
def offered (c : Conn) (frame : Frame) : Conn :=
  match c.send frame with
  | .ok c => c
  | .error _ => c.shut

end Conn

namespace Exchange

variable {x : Exchange} {topic other : Topic} {id one : ConnId} {frame : Frame}

theorem contains_iff : x.contains topic id = true ↔ id ∈ x.membersOf topic := by
  rw [contains, List.contains_iff_mem]

def refusers (x : Exchange) (topic : Topic) (frame : Frame) : List ConnId :=
  (x.membersOf topic).filter fun id => !x.takes frame id

theorem mem_refusers : id ∈ x.refusers topic frame ↔
    id ∈ x.membersOf topic ∧ x.takes frame id = false := by
  simp [refusers]

/-! ### Leaving and closing -/

theorem keys_close (x : Exchange) (id : ConnId) : (x.close id).members.keys = x.members.keys :=
  (AgreeBut.close_self x id).known.symm

/-- Closing takes a connection out of every topic, so that it does not matter which one it left. -/
theorem membersOf_expelled (h : x.Consistent) (topic : Topic) (id : ConnId) (other : Topic) :
    ((x.leave topic id).2.close id).membersOf other = (x.membersOf other).erase id := by
  have gone : id ∉ (x.membersOf other).erase id := (h.members other).not_mem_erase
  rw [membersOf_close (h.leave topic id), membersOf_leave]
  split
  · exact List.erase_of_not_mem gone
  · rfl

theorem find?_subscriptions_expelled (h : x.Consistent) (topic : Topic) (id one : ConnId) :
    ((x.leave topic id).2.close id).subscriptions.find? one =
      if id = one then none else x.subscriptions.find? one := by
  rw [find?_subscriptions_close (h.leave topic id)]
  split
  · rfl
  · next different => rw [find?_subscriptions_leave, if_neg fun both => different both.2]

theorem seatOf_expelled (h : x.Consistent) (topic : Topic) (id one : ConnId) :
    ((x.leave topic id).2.close id).seatOf one = if id = one then none else x.seatOf one := by
  rw [seatOf_close (h.leave topic id), seatOf, seats_leave, seatOf]

theorem find?_conns_expelled (h : x.Consistent) (topic : Topic) (id one : ConnId) :
    ((x.leave topic id).2.close id).conns.find? one =
      if id = one then (x.conns.find? one).map Conn.shut else x.conns.find? one := by
  rw [find?_conns_close (h.leave topic id), conns_leave]
  rfl

/-! ### Evicting -/

theorem Consistent.evict (h : x.Consistent) (topic : Topic) (evicted : Nat) (ids : List ConnId) :
    (x.evict topic evicted ids).2.Consistent := by
  induction ids generalizing x evicted with
  | nil => exact h
  | cons id ids ih => exact ih ((h.leave topic id).close id) _

theorem keys_evict (x : Exchange) (topic : Topic) (evicted : Nat) (ids : List ConnId) :
    (x.evict topic evicted ids).2.members.keys = x.members.keys := by
  induction ids generalizing x evicted with
  | nil => rfl
  | cons id ids ih => rw [evict, ih, keys_close, keys_leave]

theorem membersOf_evict (h : x.Consistent) (topic : Topic) (evicted : Nat) (ids : List ConnId)
    (other : Topic) :
    (x.evict topic evicted ids).2.membersOf other =
      (x.membersOf other).filter fun one => decide (one ∉ ids) := by
  induction ids generalizing x evicted with
  | nil => simp [evict]
  | cons id ids ih =>
    rw [evict, ih ((h.leave topic id).close id), membersOf_expelled h,
      (h.members other).erase_eq_filter, List.filter_filter]
    apply List.filter_congr
    intro one _
    by_cases self : one = id <;> simp [self]

theorem find?_subscriptions_evict (h : x.Consistent) (topic : Topic) (evicted : Nat)
    (ids : List ConnId) (one : ConnId) :
    (x.evict topic evicted ids).2.subscriptions.find? one =
      if one ∈ ids then none else x.subscriptions.find? one := by
  induction ids generalizing x evicted with
  | nil => simp [evict]
  | cons id ids ih =>
    rw [evict, ih ((h.leave topic id).close id), find?_subscriptions_expelled h]
    by_cases self : one = id <;> simp [self, eq_comm]

theorem seatOf_evict (h : x.Consistent) (topic : Topic) (evicted : Nat) (ids : List ConnId)
    (one : ConnId) :
    (x.evict topic evicted ids).2.seatOf one = if one ∈ ids then none else x.seatOf one := by
  induction ids generalizing x evicted with
  | nil => simp [evict]
  | cons id ids ih =>
    rw [evict, ih ((h.leave topic id).close id), seatOf_expelled h]
    by_cases self : one = id <;> simp [self, eq_comm]

theorem find?_conns_evict (h : x.Consistent) (topic : Topic) (evicted : Nat) (ids : List ConnId)
    (one : ConnId) :
    (x.evict topic evicted ids).2.conns.find? one =
      if one ∈ ids then (x.conns.find? one).map Conn.shut else x.conns.find? one := by
  induction ids generalizing x evicted with
  | nil => simp [evict]
  | cons id ids ih =>
    rw [evict, ih ((h.leave topic id).close id), find?_conns_expelled h]
    by_cases self : id = one
    · subst self
      cases x.conns.find? id <;> simp [Conn.shut]
    · simp [self, Ne.symm self]

theorem evicted_evict (h : x.Consistent) (topic : Topic) (evicted : Nat) (ids : List ConnId)
    (nodup : ids.Nodup) (members : ∀ one ∈ ids, one ∈ x.membersOf topic) :
    (x.evict topic evicted ids).1 = evicted + ids.length := by
  induction ids generalizing x evicted with
  | nil => rfl
  | cons id ids ih =>
    obtain ⟨absent, nodup⟩ := List.nodup_cons.mp nodup
    have member : (x.membersOf topic).contains id = true := by
      simpa using members id List.mem_cons_self
    have left : (x.leave topic id).1 = true := by
      unfold leave
      simp only [member, if_true]
    have still : ∀ one ∈ ids, one ∈ ((x.leave topic id).2.close id).membersOf topic := by
      intro one later
      have different : one ≠ id := fun same => absent (same ▸ later)
      rw [membersOf_expelled h]
      exact (List.mem_erase_of_ne different).mpr (members one (List.mem_cons_of_mem id later))
    calc (x.evict topic evicted (id :: ids)).1
      _ = (((x.leave topic id).2.close id).evict topic
            (if (x.leave topic id).1 then evicted + 1 else evicted) ids).1 := rfl
      _ = evicted + 1 + ids.length := by
        rw [left, if_pos rfl, ih ((h.leave topic id).close id) _ nodup still]
      _ = evicted + (id :: ids).length := by
        rw [List.length_cons]
        omega

/-! ### Offering -/

theorem takes_eq (x : Exchange) (frame : Frame) (id : ConnId) :
    x.takes frame id = match x.conns.find? id with
      | none => false
      | some c => (c.send frame).isOk := by
  unfold takes send
  cases x.conns.find? id with
  | none => rfl
  | some c =>
    dsimp only
    cases c.send frame <;> rfl

theorem find?_conns_attempt (x : Exchange) (id : ConnId) (frame : Frame) (one : ConnId) :
    (x.attempt id frame).conns.find? one =
      if id = one then (x.conns.find? one).map (·.attempt frame) else x.conns.find? one := by
  unfold attempt send
  cases found : x.conns.find? id with
  | none =>
    by_cases self : id = one
    · simp [← self, found]
    · simp [self]
  | some c =>
    cases sent : c.send frame with
    | ok k =>
      by_cases self : id = one
      · simp [← self, found, Conn.attempt, sent]
      · simp [self, sent]
    | error why =>
      by_cases self : id = one
      · simp [← self, found, Conn.attempt, sent]
      · simp [self, sent]

theorem attempt_keeps (x : Exchange) (id : ConnId) (frame : Frame) :
    (x.attempt id frame).members = x.members ∧
      (x.attempt id frame).subscriptions = x.subscriptions ∧
      (x.attempt id frame).seats = x.seats := by
  rcases attempt_cases x id frame with accepted | same
  · obtain ⟨c, k, -, -, -, -, -, shape⟩ := send_ok accepted
    rw [shape]
    exact ⟨rfl, rfl, rfl⟩
  · rw [same]
    exact ⟨rfl, rfl, rfl⟩

theorem offer_eq (x : Exchange) (frame : Frame) (delivered : Nat) (failed ids : List ConnId) :
    (x.offer frame delivered failed ids).2.2 = ids.foldl (fun x id => x.attempt id frame) x := by
  induction ids generalizing x delivered failed with
  | nil => rfl
  | cons id ids ih =>
    rw [offer, List.foldl_cons, attempt]
    cases x.send id frame <;> exact ih _ _ _

theorem offer_keeps (x : Exchange) (frame : Frame) (delivered : Nat) (failed ids : List ConnId) :
    (x.offer frame delivered failed ids).2.2.members = x.members ∧
      (x.offer frame delivered failed ids).2.2.subscriptions = x.subscriptions ∧
      (x.offer frame delivered failed ids).2.2.seats = x.seats := by
  rw [offer_eq]
  induction ids generalizing x with
  | nil => exact ⟨rfl, rfl, rfl⟩
  | cons id ids ih =>
    obtain ⟨members, subscriptions, seats⟩ := ih (x.attempt id frame)
    obtain ⟨members', subscriptions', seats'⟩ := attempt_keeps x id frame
    exact ⟨members.trans members', subscriptions.trans subscriptions', seats.trans seats'⟩

theorem find?_conns_offer (x : Exchange) (frame : Frame) (delivered : Nat) (failed : List ConnId)
    {ids : List ConnId} (nodup : ids.Nodup) (one : ConnId) :
    (x.offer frame delivered failed ids).2.2.conns.find? one =
      if one ∈ ids then (x.conns.find? one).map (·.attempt frame) else x.conns.find? one := by
  rw [offer_eq]
  induction ids generalizing x with
  | nil => rfl
  | cons id ids ih =>
    obtain ⟨absent, nodup⟩ := List.nodup_cons.mp nodup
    rw [List.foldl_cons, ih _ nodup, find?_conns_attempt]
    by_cases self : id = one
    · subst self
      simp [absent]
    · simp [self, Ne.symm self]

theorem answer_offer (x : Exchange) (frame : Frame) (delivered : Nat) (failed : List ConnId)
    {ids : List ConnId} (nodup : ids.Nodup) :
    (x.offer frame delivered failed ids).1 = delivered + (ids.filter (x.takes frame)).length ∧
      (x.offer frame delivered failed ids).2.1 =
        failed.reverse ++ ids.filter fun id => !x.takes frame id := by
  induction ids generalizing x delivered failed with
  | nil => simp [offer]
  | cons id ids ih =>
    obtain ⟨absent, nodup⟩ := List.nodup_cons.mp nodup
    rw [offer]
    cases answer : x.send id frame with
    | ok next =>
      have taken := takes_of_ok answer
      have same : ∀ one ∈ ids, next.takes frame one = x.takes frame one := fun one later =>
        takes_send answer (fun self => absent (self ▸ later)) frame
      have refusing : ∀ one ∈ ids, (!next.takes frame one) = !x.takes frame one :=
        fun one later => congrArg _ (same one later)
      dsimp only
      rw [(ih next _ _ nodup).1, (ih next _ _ nodup).2, List.filter_congr same,
        List.filter_congr refusing]
      constructor
      · rw [List.filter_cons_of_pos taken, List.length_cons]
        omega
      · rw [List.filter_cons_of_neg (by simp [taken])]
    | error why =>
      have refused := takes_of_error answer
      dsimp only
      rw [(ih x _ _ nodup).1, (ih x _ _ nodup).2]
      simp [refused]

/-! ### Publishing -/

section publish

variable (h : x.Consistent) (topic : Topic) (frame : Frame)
include h

theorem failed_offer :
    (x.offer frame 0 [] (x.membersOf topic)).2.1 = x.refusers topic frame :=
  (answer_offer x frame 0 [] (h.members topic)).2

/-- A publish is the offer of the frame, and the eviction of those that have refused it. -/
theorem publish_eq :
    (x.publish topic frame).2 =
      ((x.offer frame 0 [] (x.membersOf topic)).2.2.evict topic 0 (x.refusers topic frame)).2 := by
  rw [← failed_offer h]
  rfl

theorem report_publish :
    (x.publish topic frame).1 =
      ⟨((x.membersOf topic).filter (x.takes frame)).length, (x.refusers topic frame).length⟩ := by
  have offered := h.offer frame 0 [] (x.membersOf topic)
  have delivered := (answer_offer x frame 0 [] (h.members topic)).1
  have evicted := evicted_evict offered topic 0 (x.refusers topic frame)
    ((h.members topic).filter _) (by
      intro one refuses
      rw [membersOf, (offer_keeps ..).1]
      exact (mem_refusers.mp refuses).1)
  rw [Nat.zero_add] at delivered evicted
  rw [← delivered, ← evicted, ← failed_offer h]
  rfl

theorem Consistent.publish : (x.publish topic frame).2.Consistent := by
  rw [publish_eq h]
  exact (h.offer frame 0 [] _).evict topic 0 _

theorem membersOf_publish (other : Topic) :
    (x.publish topic frame).2.membersOf other =
      (x.membersOf other).filter fun one => decide (one ∉ x.refusers topic frame) := by
  rw [publish_eq h, membersOf_evict (h.offer frame 0 [] _), membersOf, (offer_keeps ..).1,
    membersOf]

theorem find?_subscriptions_publish (one : ConnId) :
    (x.publish topic frame).2.subscriptions.find? one =
      if one ∈ x.refusers topic frame then none else x.subscriptions.find? one := by
  rw [publish_eq h, find?_subscriptions_evict (h.offer frame 0 [] _), (offer_keeps ..).2.1]

theorem seatOf_publish (one : ConnId) :
    (x.publish topic frame).2.seatOf one =
      if one ∈ x.refusers topic frame then none else x.seatOf one := by
  rw [publish_eq h, seatOf_evict (h.offer frame 0 [] _), seatOf, (offer_keeps ..).2.2, seatOf]

theorem find?_conns_publish (one : ConnId) :
    (x.publish topic frame).2.conns.find? one =
      if one ∈ x.membersOf topic then (x.conns.find? one).map (·.offered frame)
      else x.conns.find? one := by
  rw [publish_eq h, find?_conns_evict (h.offer frame 0 [] _),
    find?_conns_offer x frame 0 [] (h.members topic)]
  simp only [mem_refusers, takes_eq]
  by_cases member : one ∈ x.membersOf topic
  · cases found : x.conns.find? one with
    | none => simp [member]
    | some c => cases sent : c.send frame <;> simp [member, sent, Conn.attempt, Conn.offered,
        Except.isOk, Except.toBool]
  · simp [member]

omit h in
theorem keys_publish (x : Exchange) (topic : Topic) (frame : Frame) :
    (x.publish topic frame).2.members.keys = x.members.keys := by
  have evicted := keys_evict (x.offer frame 0 [] (x.membersOf topic)).2.2 topic 0
    (x.offer frame 0 [] (x.membersOf topic)).2.1
  rw [(offer_keeps ..).1] at evicted
  exact evicted

theorem knows_publish (one : ConnId) : (x.publish topic frame).2.Knows one ↔ x.Knows one := by
  unfold Knows
  rw [find?_conns_publish h]
  split
  · rw [Option.isSome_map]
  · rfl

theorem isClosed_published (one : ConnId) :
    (x.publish topic frame).2.isClosed one =
      (decide (one ∈ x.refusers topic frame) || x.isClosed one) := by
  unfold isClosed
  rw [find?_conns_publish h]
  simp only [mem_refusers, takes_eq]
  by_cases member : one ∈ x.membersOf topic
  · cases found : x.conns.find? one with
    | none => simp [member]
    | some c =>
      cases sent : c.send frame with
      | ok k =>
        obtain ⟨opened, kept, -⟩ := Conn.send_ok sent
        simp [member, Conn.offered, sent, opened, kept, Except.isOk, Except.toBool]
      | error why => simp [member, Conn.offered, sent, Conn.shut, Except.isOk, Except.toBool]
  · simp [member]

end publish

end Exchange

end Switchboard
