import Switchboard.Proofs.Exchange.Newcomers
import Switchboard.Proofs.Hub.Delivered

/-!
The joins that have been made. A topic is known if it has been joined, whatever has become of its
members since, and whoever is a member has been joined to the topic.
-/

namespace Switchboard

theorem Deed.Publishes.joins_nobody {members : List ConnId} {topic : Topic} {frame : Frame}
    {d : Deed} (publishes : d.Publishes members topic frame) : d.entry? = none := by
  cases d with
  | join other id => exact publishes.elim
  | move room id => exact publishes.elim
  | _ => rfl

namespace Exchange

variable {x y next : Exchange} {topic : Topic} {id one : ConnId} {room : ConversationId}
  {joins more : List (Topic × ConnId)}

structure Joined (x : Exchange) (joins : List (Topic × ConnId)) (next : Exchange) : Prop where
  known : ∀ topic, topic ∈ next.members.keys ↔ topic ∈ x.members.keys ∨ topic ∈ joins.map Prod.fst
  entered : ∀ topic id, id ∈ next.membersOf topic → id ∈ x.membersOf topic ∨ (topic, id) ∈ joins

theorem Joined.of_members (same : next.members = x.members) : x.Joined [] next := by
  refine ⟨fun topic => ?_, fun topic id member => Or.inl ?_⟩
  · rw [same, List.map_nil, List.mem_nil_iff, or_false]
  · rwa [membersOf, same] at member

theorem Joined.refl (x : Exchange) : x.Joined [] x := .of_members rfl

theorem Joined.trans (first : x.Joined joins y) (second : y.Joined more next) :
    x.Joined (joins ++ more) next := by
  refine ⟨fun topic => ?_, fun topic id member => ?_⟩
  · rw [second.known, first.known, List.map_append, List.mem_append, or_assoc]
  · rcases second.entered topic id member with member | later
    · exact (first.entered topic id member).imp_right (List.mem_append_left more)
    · exact Or.inr (List.mem_append_right joins later)

theorem Joined.trans_nothing (first : x.Joined joins y) (second : y.Joined [] next) :
    x.Joined joins next := by
  have both := first.trans second
  rwa [List.append_nil] at both

theorem Consistent.joined (h : x.Consistent) {d : Deed} (possible : x.Possible d) :
    x.Joined d.entry?.toList (x.perform d) where
  known := fun topic => mem_keys_perform x d
  entered := by
    intro topic one member
    rcases mem_membersOf_perform h possible member with before | rfl | ⟨room, rfl, rfl⟩
    · exact Or.inl before
    · exact Or.inr (List.mem_singleton_self _)
    · exact Or.inr (List.mem_singleton_self _)

theorem Leads.joined {kind : Deed → Prop} (leads : Leads kind x next) (h : x.Consistent)
    (possible : ∀ d, kind d → x.Possible d) (none : ∀ d, kind d → d.entry? = none) :
    x.Joined [] next := by
  refine (leads.keeps_consistent h possible (x.Joined []) (.refl x) ?_).2.2
  intro y d consistent now before allowed
  have after := consistent.joined now
  rw [none d allowed] at after
  exact before.trans after

theorem Joined.publish (h : x.Consistent) (topic : Topic) (frame : Frame) :
    x.Joined [] (x.publish topic frame).2 := by
  apply (publish_leads x topic frame).joined h
  · intro d publishes
    cases d <;> trivial
  · exact fun d publishes => publishes.joins_nobody

theorem Joined.broadcast (h : x.Consistent) (room : ConversationId) (content : String) :
    x.Joined [] (x.broadcast room content).2 := by
  unfold Exchange.broadcast
  split
  · exact .refl x
  · exact .publish h (.room room) _

theorem Joined.joinRoom (h : x.Consistent) (known : x.Knows id) (room : ConversationId) :
    x.Joined [(.room room, id)] (x.joinRoom room id).2 :=
  (h.joined (d := .move room id) known).trans
    (.broadcast (h.perform (d := .move room id) known) room greeting)

/-! ### Joining many rooms -/

theorem Joined.joinEach (h : x.Consistent) (known : x.Knows id) (rooms : List ConversationId) :
    x.Joined (rooms.map fun room => (.room room, id)) (x.joinEach id rooms) := by
  induction rooms generalizing x with
  | nil => exact .refl x
  | cons room rooms ih =>
    have known' := ((SameConns.join x (.room room) id).knows id).mpr known
    exact (h.joined (d := .join (.room room) id) known).trans (ih (h.join known _) known')

theorem mem_membersOf_joinEach (h : x.Consistent) (known : x.Knows id)
    (rooms : List ConversationId) (topic : Topic) (one : ConnId) :
    one ∈ (x.joinEach id rooms).membersOf topic ↔ one ∈ x.membersOf topic ∨
      (one = id ∧ x.isClosed id = false ∧ ∃ room ∈ rooms, topic = .room room) := by
  induction rooms generalizing x with
  | nil =>
    rw [Exchange.joinEach]
    simp
  | cons room rooms ih =>
    have conns := SameConns.join x (.room room) id
    rw [Exchange.joinEach, ih (h.join known _) ((conns.knows id).mpr known),
      mem_membersOf_join h known, conns.closed]
    constructor
    · rintro ((before | ⟨there, self, opened⟩) | ⟨self, opened, other, member, there⟩)
      · exact Or.inl before
      · exact Or.inr ⟨self, opened, room, List.mem_cons_self, there⟩
      · exact Or.inr ⟨self, opened, other, List.mem_cons_of_mem room member, there⟩
    · rintro (before | ⟨self, opened, other, member, there⟩)
      · exact Or.inl (Or.inl before)
      · rcases List.mem_cons.mp member with rfl | later
        · exact Or.inl (Or.inr ⟨there, self, opened⟩)
        · exact Or.inr ⟨self, opened, other, later, there⟩

theorem seatOf_joinEach (x : Exchange) (id one : ConnId) (rooms : List ConversationId) :
    (x.joinEach id rooms).seatOf one = x.seatOf one := by
  induction rooms generalizing x with
  | nil => rfl
  | cons room rooms ih => rw [Exchange.joinEach, ih, seatOf_join]

theorem rooms_nodup (x : Exchange) : x.rooms.Nodup := by
  apply x.members.nodup.filterMap
  intro topic other room first second
  cases topic <;> cases other <;> cases first <;> cases second
  rfl

end Exchange

end Switchboard
