import Switchboard.Proofs.Exchange.Leads

/-!
The operations of the exchange by their deeds: whom a publish touches, what joining rooms comes to.
-/

namespace Switchboard

/-- What a publish may do: send its frame to the members, and evict them. -/
def Deed.Publishes (members : List ConnId) (topic : Topic) (frame : Frame) : Deed → Prop
  | .send id sent => id ∈ members ∧ sent = frame
  | .leave left id => left = topic ∧ id ∈ members
  | .close id => id ∈ members
  | _ => False

theorem Deed.Publishes.mono {members more : List ConnId} {topic : Topic} {frame : Frame} {d : Deed}
    (publishes : d.Publishes members topic frame) (subset : members ⊆ more) :
    d.Publishes more topic frame := by
  cases d with
  | send id sent => exact ⟨subset publishes.1, publishes.2⟩
  | leave left id => exact ⟨publishes.1, subset publishes.2⟩
  | close id => exact subset publishes
  | _ => exact publishes

namespace Exchange

variable {x next : Exchange} {topic : Topic} {id one : ConnId} {room : ConversationId}
  {frame : Frame}

/-! ### Publishing -/

theorem offer_leads (x : Exchange) (frame : Frame) (delivered : Nat) (failed ids : List ConnId) :
    Leads (fun d => ∃ id ∈ ids, d = .send id frame) x (x.offer frame delivered failed ids).2.2 := by
  induction ids generalizing x delivered failed with
  | nil => exact .refl x
  | cons id ids ih =>
    have first : Leads (fun d => ∃ i ∈ id :: ids, d = .send i frame) x
        (x.perform (.send id frame)) := .single ⟨id, List.mem_cons_self, rfl⟩ x
    have widen : ∀ d, (∃ i ∈ ids, d = Deed.send i frame) → ∃ i ∈ id :: ids, d = .send i frame := by
      rintro d ⟨i, member, shape⟩
      exact ⟨i, List.mem_cons_of_mem id member, shape⟩
    unfold offer
    split
    · next accepted =>
      rw [perform_send accepted] at first
      exact first.trans ((ih _ _ _).mono widen)
    · exact (ih _ _ _).mono widen

theorem offer_failed (x : Exchange) (frame : Frame) (delivered : Nat) (failed ids : List ConnId) :
    ∀ one ∈ (x.offer frame delivered failed ids).2.1, one ∈ failed ∨ one ∈ ids := by
  induction ids generalizing x delivered failed with
  | nil =>
    intro one member
    exact Or.inl (List.mem_reverse.mp member)
  | cons id ids ih =>
    intro one member
    unfold offer at member
    split at member
    · rcases ih _ _ _ one member with before | later
      · exact Or.inl before
      · exact Or.inr (List.mem_cons_of_mem id later)
    · rcases ih _ _ _ one member with before | later
      · rcases List.mem_cons.mp before with rfl | before
        · exact Or.inr List.mem_cons_self
        · exact Or.inl before
      · exact Or.inr (List.mem_cons_of_mem id later)

theorem evict_leads (x : Exchange) (topic : Topic) (evicted : Nat) (ids : List ConnId) :
    Leads (fun d => ∃ id ∈ ids, d = .leave topic id ∨ d = .close id) x
      (x.evict topic evicted ids).2 := by
  induction ids generalizing x evicted with
  | nil => exact .refl x
  | cons id ids ih =>
    have left : Leads (fun d => ∃ i ∈ id :: ids, d = .leave topic i ∨ d = .close i) x
        (x.perform (.leave topic id)) := .single ⟨id, List.mem_cons_self, Or.inl rfl⟩ x
    have closed : Leads (fun d => ∃ i ∈ id :: ids, d = .leave topic i ∨ d = .close i)
        (x.leave topic id).2 ((x.leave topic id).2.perform (.close id)) :=
      .single ⟨id, List.mem_cons_self, Or.inr rfl⟩ _
    unfold evict
    apply (left.trans closed).trans
    apply (ih _ _).mono
    rintro d ⟨i, member, shape⟩
    exact ⟨i, List.mem_cons_of_mem id member, shape⟩

theorem publish_leads (x : Exchange) (topic : Topic) (frame : Frame) :
    Leads (·.Publishes (x.membersOf topic) topic frame) x (x.publish topic frame).2 := by
  have offered := offer_leads x frame 0 [] (x.membersOf topic)
  have refused := offer_failed x frame 0 [] (x.membersOf topic)
  unfold publish
  generalize x.offer frame 0 [] (x.membersOf topic) = answer at offered refused ⊢
  obtain ⟨delivered, failed, y⟩ := answer
  apply (offered.mono ?_).trans ((evict_leads y topic 0 failed).mono ?_)
  · rintro d ⟨id, member, rfl⟩
    exact ⟨member, rfl⟩
  · rintro d ⟨id, member, shape⟩
    have member : id ∈ x.membersOf topic := by
      rcases refused id member with none | member
      · cases none
      · exact member
    rcases shape with rfl | rfl
    · exact ⟨rfl, member⟩
    · exact member

theorem broadcast_leads (x : Exchange) (room : ConversationId) (content : String) :
    Leads (fun d => ∃ frame, Frame.ofEnvelope (.texting room content) = .ok frame ∧
      d.Publishes (x.membersOf (.room room)) (.room room) frame) x (x.broadcast room content).2 := by
  unfold broadcast
  split
  · exact .refl x
  · next frame written =>
    exact (publish_leads x (.room room) frame).mono fun d publishes => ⟨frame, written, publishes⟩

/-! ### Rooms -/

theorem membersOf_move (h : x.Consistent) (known : x.Knows id) (room : ConversationId) :
    (x.perform (.move room id)).membersOf (.room room) ⊆ id :: x.membersOf (.room room) := by
  intro one member
  have known' : (x.sit room id).Knows id := ((SameConns.sit x room id).knows id).mpr known
  rcases (mem_membersOf_join (h.sit known room) known' _ _ one).mp member with before | ⟨-, rfl, -⟩
  · exact List.mem_cons_of_mem id ((mem_membersOf_sit h room id one _).mp before).1
  · exact List.mem_cons_self

/-- What joining a room may do: the move itself, then the greeting to everyone there. -/
def Greets (x : Exchange) (room : ConversationId) (id : ConnId) (d : Deed) : Prop :=
  d = .move room id ∨ ∃ frame, Frame.ofEnvelope (.texting room greeting) = .ok frame ∧
    d.Publishes (id :: x.membersOf (.room room)) (.room room) frame

theorem joinRoom_leads (h : x.Consistent) (known : x.Knows id) (room : ConversationId) :
    Leads (x.Greets room id) x (x.joinRoom room id).2 := by
  have moved : Leads (x.Greets room id) x (x.perform (.move room id)) := .single (Or.inl rfl) x
  apply moved.trans
  apply (broadcast_leads (x.perform (.move room id)) room greeting).mono
  rintro d ⟨frame, written, publishes⟩
  exact Or.inr ⟨frame, written, publishes.mono (membersOf_move h known room)⟩

theorem joinEach_leads (x : Exchange) (id : ConnId) (rooms : List ConversationId) :
    Leads (fun d => ∃ room ∈ rooms, d = .join (.room room) id) x (x.joinEach id rooms) := by
  induction rooms generalizing x with
  | nil => exact .refl x
  | cons room rooms ih =>
    have first : Leads (fun d => ∃ r ∈ room :: rooms, d = .join (.room r) id) x
        (x.perform (.join (.room room) id)) := .single ⟨room, List.mem_cons_self, rfl⟩ x
    apply first.trans
    apply (ih _).mono
    rintro d ⟨r, member, shape⟩
    exact ⟨r, List.mem_cons_of_mem room member, shape⟩

theorem joinAllRooms_leads (x : Exchange) (id : ConnId) :
    Leads (fun d => ∃ room ∈ x.rooms, d = .join (.room room) id) x (x.joinAllRooms id).2 :=
  joinEach_leads x id x.rooms

theorem leaveRoom_leads (x : Exchange) (id : ConnId) :
    Leads (fun d => d = .vacate id ∨ ∃ room, d = .leave (.room room) id) x (x.leaveRoom id).2 := by
  unfold leaveRoom
  split
  · next room _ =>
    have vacated : Leads (fun d => d = .vacate id ∨ ∃ room, d = .leave (.room room) id) x
        (x.perform (.vacate id)) := .single (Or.inl rfl) x
    have left : Leads (fun d => d = .vacate id ∨ ∃ room, d = .leave (.room room) id) (x.vacate id)
        ((x.vacate id).perform (.leave (.room room) id)) := .single (Or.inr ⟨room, rfl⟩) _
    exact vacated.trans left
  · exact .refl x

end Exchange

end Switchboard
