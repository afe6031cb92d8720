import Switchboard.Proofs.Exchange.Operations

/-!
What a publish delivers: its frame once to every member that can take it, nothing to anyone else.
Members that cannot take it are closed.
-/

namespace Switchboard.Exchange

variable {x next : Exchange} {topic : Topic} {id one : ConnId} {frame : Frame}

def takes (x : Exchange) (frame : Frame) (id : ConnId) : Bool := (x.send id frame).isOk

theorem takes_of_ok (sent : x.send id frame = .ok next) : x.takes frame id = true := by
  rw [takes, sent]
  rfl

theorem takes_of_error {why : Refusal} (failed : x.send id frame = .error why) :
    x.takes frame id = false := by
  rw [takes, failed]
  rfl

theorem takes_closed (closed : x.isClosed id = true) (frame : Frame) :
    x.takes frame id = false := by
  cases sent : x.send id frame with
  | error why => exact takes_of_error sent
  | ok next =>
    rw [isClosed_of_send sent] at closed
    cases closed

/-! ### Offering -/

theorem takes_send (sent : x.send id frame = .ok next) (different : one ≠ id) (other : Frame) :
    next.takes other one = x.takes other one := by
  obtain ⟨c, k, -, -, -, -, -, rfl⟩ := send_ok sent
  unfold takes send
  rw [find?_conns_withConn, if_neg (Ne.symm different)]
  cases x.conns.find? one with
  | none => rfl
  | some c =>
    dsimp only
    cases c.send other <;> rfl

theorem Consistent.offer (h : x.Consistent) (frame : Frame) (delivered : Nat)
    (failed ids : List ConnId) : (x.offer frame delivered failed ids).2.2.Consistent := by
  apply ((offer_leads x frame delivered failed ids).consistent h ?_).1
  rintro d ⟨id, -, rfl⟩
  trivial

theorem sentTo_offer (x : Exchange) (frame : Frame) (delivered : Nat) (failed : List ConnId)
    {ids : List ConnId} (nodup : ids.Nodup) (one : ConnId) :
    (x.offer frame delivered failed ids).2.2.sentTo one =
      if one ∈ ids ∧ x.takes frame one then x.sentTo one ++ [frame] else x.sentTo one := by
  induction ids generalizing x delivered failed with
  | nil => simp [offer]
  | cons id ids ih =>
    obtain ⟨absent, nodup⟩ := List.nodup_cons.mp nodup
    rw [offer]
    cases answer : x.send id frame with
    | ok next =>
      have taken := takes_of_ok answer
      dsimp only
      rw [ih next _ _ nodup, sentTo_send answer]
      by_cases self : id = one
      · subst self
        simp [absent, taken]
      · simp [self, Ne.symm self, takes_send answer (Ne.symm self)]
    | error why =>
      have refused := takes_of_error answer
      dsimp only
      rw [ih x _ _ nodup]
      by_cases self : one = id
      · subst self
        simp [absent, refused]
      · simp [self]

theorem mem_failed_offer (x : Exchange) (frame : Frame) (delivered : Nat) (failed : List ConnId)
    {ids : List ConnId} (nodup : ids.Nodup) (one : ConnId) :
    one ∈ (x.offer frame delivered failed ids).2.1 ↔
      one ∈ failed ∨ (one ∈ ids ∧ ¬ x.takes frame one) := by
  induction ids generalizing x delivered failed with
  | nil => simp [offer]
  | cons id ids ih =>
    obtain ⟨absent, nodup⟩ := List.nodup_cons.mp nodup
    rw [offer]
    cases answer : x.send id frame with
    | ok next =>
      have taken := takes_of_ok answer
      dsimp only
      rw [ih next _ _ nodup]
      by_cases self : one = id
      · subst self
        simp [absent, taken]
      · simp [self, takes_send answer self]
    | error why =>
      have refused := takes_of_error answer
      dsimp only
      rw [ih x _ _ nodup]
      by_cases self : one = id
      · subst self
        simp [refused]
      · simp [self]

/-! ### Evicting -/

theorem sentTo_evict (h : x.Consistent) (topic : Topic) (evicted : Nat) (ids : List ConnId)
    (one : ConnId) : (x.evict topic evicted ids).2.sentTo one = x.sentTo one := by
  induction ids generalizing x evicted with
  | nil => rfl
  | cons id ids ih =>
    have left := h.leave topic id
    calc (x.evict topic evicted (id :: ids)).2.sentTo one
      _ = ((x.leave topic id).2.close id).sentTo one := ih (left.close id) _
      _ = (x.leave topic id).2.sentTo one := sentTo_close left id one
      _ = x.sentTo one := (SameConns.leave x topic id).sent one

theorem isClosed_evict (h : x.Consistent) (topic : Topic) (evicted : Nat) {ids : List ConnId}
    (failed : one ∈ ids ∨ x.isClosed one = true) :
    (x.evict topic evicted ids).2.isClosed one = true := by
  induction ids generalizing x evicted with
  | nil => exact failed.resolve_left List.not_mem_nil
  | cons id ids ih =>
    have left := h.leave topic id
    have closed : ((x.leave topic id).2.close id).isClosed one =
        (decide (id = one) || x.isClosed one) := by
      rw [isClosed_close left, (SameConns.leave x topic id).closed]
    apply ih (left.close id)
    rw [closed]
    rcases failed with member | before
    · rcases List.mem_cons.mp member with rfl | later
      · simp
      · exact Or.inl later
    · simp [before]

/-! ### Publishing -/

/-- Between the two exchanges a frame has been published once to a topic. -/
structure Published (x next : Exchange) (topic : Topic) (frame : Frame) : Prop where
  taken : ∀ one ∈ x.membersOf topic, x.takes frame one → next.sentTo one = x.sentTo one ++ [frame]
  refused : ∀ one ∈ x.membersOf topic, ¬ x.takes frame one →
    next.sentTo one = x.sentTo one ∧ next.isClosed one = true
  others : ∀ one, one ∉ x.membersOf topic → next.sentTo one = x.sentTo one

theorem publish_published (h : x.Consistent) (topic : Topic) (frame : Frame) :
    x.Published (x.publish topic frame).2 topic frame := by
  have nodup := h.members topic
  have offered := h.offer frame 0 [] (x.membersOf topic)
  have sent : ∀ one, (x.publish topic frame).2.sentTo one =
      if one ∈ x.membersOf topic ∧ x.takes frame one then x.sentTo one ++ [frame]
      else x.sentTo one := by
    intro one
    calc (x.publish topic frame).2.sentTo one
      _ = (x.offer frame 0 [] (x.membersOf topic)).2.2.sentTo one :=
        sentTo_evict offered topic 0 _ one
      _ = _ := sentTo_offer x frame 0 [] nodup one
  constructor
  · intro one member taken
    rw [sent, if_pos ⟨member, taken⟩]
  · intro one member refused
    constructor
    · rw [sent, if_neg fun both => refused both.2]
    · apply isClosed_evict offered topic 0
      exact Or.inl ((mem_failed_offer x frame 0 [] nodup one).mpr (Or.inr ⟨member, refused⟩))
  · intro one outside
    rw [sent, if_neg fun both => outside both.1]

end Switchboard.Exchange
