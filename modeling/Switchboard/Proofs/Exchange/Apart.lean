import Switchboard.Proofs.Exchange.Views
import Switchboard.Proofs.Table

/-!
Two exchanges that agree about every connection but one. Whatever is done to that connection alone
the others do not see, and what is done to both exchanges keeps them in agreement.
-/

namespace Switchboard

def others (c : ConnId) (ids : List ConnId) : List ConnId := ids.filter fun id => decide (id ≠ c)

section others

variable (c one : ConnId) (ids more : List ConnId)

@[simp] theorem others_nil : others c [] = [] := rfl

@[simp] theorem others_cons :
    others c (one :: ids) = if one = c then others c ids else one :: others c ids := by
  by_cases self : one = c <;> simp [others, self]

@[simp] theorem others_append : others c (ids ++ more) = others c ids ++ others c more :=
  List.filter_append ..

@[simp] theorem others_reverse : others c ids.reverse = (others c ids).reverse :=
  List.filter_reverse ..

theorem others_erase_self : others c (ids.erase c) = others c ids := by
  induction ids with
  | nil => rfl
  | cons id ids ih => by_cases self : id = c <;> simp [self, ih]

variable {c one ids}

theorem others_erase (different : one ≠ c) :
    others c (ids.erase one) = (others c ids).erase one := by
  induction ids with
  | nil => rfl
  | cons id ids ih =>
    by_cases self : id = c
    · subst self
      simp [Ne.symm different, ih]
    · by_cases here : id = one <;> simp [self, here, different, ih]

theorem mem_others (different : one ≠ c) : one ∈ others c ids ↔ one ∈ ids := by
  simp [others, different]

end others

namespace Exchange

/-! ### Which topics are known -/

theorem known_of_member {x : Exchange} {topic : Topic} {id : ConnId}
    (member : id ∈ x.membersOf topic) : topic ∈ x.members.keys := by
  rw [Table.mem_keys]
  unfold membersOf at member
  cases found : x.members.find? topic with
  | none => simp [found] at member
  | some ids => rfl

theorem keys_leave (x : Exchange) (topic : Topic) (id : ConnId) :
    (x.leave topic id).2.members.keys = x.members.keys := by
  unfold leave
  dsimp only
  split
  · next member =>
    have inside : id ∈ x.membersOf topic := by simpa using member
    rw [Table.keys_insert, if_pos (known_of_member inside)]
  · rfl

theorem keys_enlist (x : Exchange) (topic : Topic) (id : ConnId) :
    (x.enlist topic id).2.members.keys =
      if topic ∈ x.members.keys then x.members.keys else x.members.keys ++ [topic] := by
  unfold enlist
  dsimp only
  split
  · next member =>
    have inside : id ∈ x.membersOf topic := by simpa using member
    rw [if_pos (known_of_member inside)]
  · split <;> exact Table.keys_insert _ _ _

/-! ### Agreement -/

structure AgreeBut (c : ConnId) (x y : Exchange) : Prop where
  conns : ∀ one, one ≠ c → x.conns.find? one = y.conns.find? one
  members : ∀ topic, others c (x.membersOf topic) = others c (y.membersOf topic)
  known : x.members.keys = y.members.keys
  subscriptions : ∀ one, one ≠ c → x.subscriptions.find? one = y.subscriptions.find? one
  seats : ∀ one, one ≠ c → x.seats.find? one = y.seats.find? one

namespace AgreeBut

variable {c id : ConnId} {x y z : Exchange} {topic : Topic} {frame : Frame}

theorem refl (c : ConnId) (x : Exchange) : AgreeBut c x x :=
  ⟨fun _ _ => rfl, fun _ => rfl, rfl, fun _ _ => rfl, fun _ _ => rfl⟩

theorem symm (h : AgreeBut c x y) : AgreeBut c y x :=
  ⟨fun one other => (h.conns one other).symm, fun topic => (h.members topic).symm, h.known.symm,
    fun one other => (h.subscriptions one other).symm, fun one other => (h.seats one other).symm⟩

theorem trans (h : AgreeBut c x y) (h' : AgreeBut c y z) : AgreeBut c x z :=
  ⟨fun one other => (h.conns one other).trans (h'.conns one other),
    fun topic => (h.members topic).trans (h'.members topic), h.known.trans h'.known,
    fun one other => (h.subscriptions one other).trans (h'.subscriptions one other),
    fun one other => (h.seats one other).trans (h'.seats one other)⟩

theorem meet {x' y' : Exchange} (left : AgreeBut c x x') (h : AgreeBut c x y)
    (right : AgreeBut c y y') : AgreeBut c x' y' :=
  left.symm.trans (h.trans right)

theorem called (h : AgreeBut c x y) (f : Exchange → ConnId → Exchange) (id : ConnId)
    (self : ∀ x, AgreeBut c x (f x c)) (other : id ≠ c → AgreeBut c (f x id) (f y id)) :
    AgreeBut c (f x id) (f y id) := by
  by_cases same : id = c
  · subst same
    exact meet (self x) h (self y)
  · exact other same

theorem member_iff (h : AgreeBut c x y) (different : id ≠ c) (topic : Topic) :
    id ∈ x.membersOf topic ↔ id ∈ y.membersOf topic := by
  rw [← mem_others different, h.members, mem_others different]

theorem topicsOf_eq (h : AgreeBut c x y) (different : id ≠ c) :
    x.topicsOf id = y.topicsOf id := by
  rw [topicsOf, topicsOf, h.subscriptions id different]

theorem rooms_eq (h : AgreeBut c x y) : x.rooms = y.rooms := by
  rw [rooms, rooms, h.known]

theorem isKnown_eq (h : AgreeBut c x y) (topic : Topic) : x.isKnown topic = y.isKnown topic := by
  have same : (x.members.find? topic).isSome ↔ (y.members.find? topic).isSome := by
    rw [← Table.mem_keys, h.known, Table.mem_keys]
  exact Bool.eq_iff_iff.mpr same

/-! ### One connection -/

theorem withConn_self (x : Exchange) (c : ConnId) (k : Conn) : AgreeBut c x (x.withConn c k) where
  conns := by
    intro one different
    rw [find?_conns_withConn, if_neg (Ne.symm different)]
  members := fun _ => rfl
  known := rfl
  subscriptions := fun _ _ => rfl
  seats := fun _ _ => rfl

theorem withConn (h : AgreeBut c x y) (id : ConnId) (k : Conn) :
    AgreeBut c (x.withConn id k) (y.withConn id k) where
  conns := by
    intro one different
    rw [find?_conns_withConn, find?_conns_withConn, h.conns one different]
  members := h.members
  known := h.known
  subscriptions := h.subscriptions
  seats := h.seats

theorem setLink_self (x : Exchange) (c : ConnId) (link : Link) :
    AgreeBut c x (x.setLink c link) where
  conns := by
    intro one different
    rw [setLink, Table.find?_modify, if_neg (Ne.symm different)]
  members := fun _ => rfl
  known := rfl
  subscriptions := fun _ _ => rfl
  seats := fun _ _ => rfl

theorem setLink (h : AgreeBut c x y) (id : ConnId) (link : Link) :
    AgreeBut c (x.setLink id link) (y.setLink id link) where
  conns := by
    intro one different
    simp only [Exchange.setLink, Table.find?_modify, h.conns one different]
  members := h.members
  known := h.known
  subscriptions := h.subscriptions
  seats := h.seats

theorem send_self {next : Exchange} (sent : x.send c frame = .ok next) : AgreeBut c x next := by
  obtain ⟨_, k, -, -, rfl⟩ := send_conn sent
  exact withConn_self x c k

theorem send (h : AgreeBut c x y) (different : id ≠ c) (frame : Frame) :
    (∃ why, x.send id frame = .error why ∧ y.send id frame = .error why) ∨
      ∃ x' y', x.send id frame = .ok x' ∧ y.send id frame = .ok y' ∧ AgreeBut c x' y' := by
  simp only [Exchange.send, h.conns id different]
  cases y.conns.find? id with
  | none => exact Or.inl ⟨_, rfl, rfl⟩
  | some k =>
    cases answer : k.send frame with
    | error why =>
      left
      simp [answer]
    | ok k' =>
      right
      simp only [answer]
      exact ⟨_, _, rfl, rfl, h.withConn id k'⟩

/-! ### Topics -/

theorem leave_self (x : Exchange) (topic : Topic) (c : ConnId) :
    AgreeBut c x (x.leave topic c).2 where
  conns := by simp
  members := by
    intro other
    rw [membersOf_leave]
    split
    · exact (others_erase_self c _).symm
    · rfl
  known := (keys_leave x topic c).symm
  subscriptions := by
    intro one different
    rw [find?_subscriptions_leave, if_neg fun both => different both.2.symm]
  seats := by simp

theorem leave (h : AgreeBut c x y) (topic : Topic) (id : ConnId) :
    AgreeBut c (x.leave topic id).2 (y.leave topic id).2 := by
  apply h.called (fun x id => (x.leave topic id).2) id fun x => leave_self x topic c
  intro self
  refine ⟨?_, ?_, ?_, ?_, ?_⟩
  · simpa using h.conns
  · intro other
    rw [membersOf_leave, membersOf_leave]
    split
    · rw [others_erase self, others_erase self, h.members]
    · exact h.members other
  · rw [keys_leave, keys_leave, h.known]
  · intro one different
    simp only [find?_subscriptions_leave, h.member_iff self, h.subscriptions one different]
  · simpa using h.seats

theorem leaveAll_self (x : Exchange) (c : ConnId) (topics : List Topic) :
    AgreeBut c x (x.leaveAll c topics) := by
  induction topics generalizing x with
  | nil => exact .refl c x
  | cons topic topics ih => exact (leave_self x topic c).trans (ih _)

theorem leaveAll (h : AgreeBut c x y) (id : ConnId) (topics : List Topic) :
    AgreeBut c (x.leaveAll id topics) (y.leaveAll id topics) := by
  induction topics generalizing x y with
  | nil => exact h
  | cons topic topics ih => exact ih (h.leave topic id)

theorem unsubscribe_self (x : Exchange) (c : ConnId) : AgreeBut c x (x.unsubscribe c).2 where
  conns := fun _ _ => rfl
  members := fun _ => rfl
  known := rfl
  subscriptions := by
    intro one different
    simp [unsubscribe, Ne.symm different]
  seats := fun _ _ => rfl

theorem unsubscribe (h : AgreeBut c x y) (id : ConnId) :
    AgreeBut c (x.unsubscribe id).2 (y.unsubscribe id).2 where
  conns := h.conns
  members := h.members
  known := h.known
  subscriptions := by
    intro one different
    simp [Exchange.unsubscribe, h.subscriptions one different]
  seats := h.seats

theorem forget_self (x : Exchange) (c : ConnId) : AgreeBut c x (x.forget c) :=
  (unsubscribe_self x c).trans (leaveAll_self _ c _)

theorem forget (h : AgreeBut c x y) (id : ConnId) : AgreeBut c (x.forget id) (y.forget id) := by
  apply h.called (fun x id => x.forget id) id fun x => forget_self x c
  intro self
  have topics := h.topicsOf_eq self
  unfold Exchange.forget Exchange.unsubscribe
  simp only [topics]
  exact (h.unsubscribe id).leaveAll id _

/-- Whoever it is that is enlisted: a topic that was unknown becomes known on both sides. -/
theorem enlist (h : AgreeBut c x y) (topic : Topic) (id : ConnId) :
    AgreeBut c (x.enlist topic id).2 (y.enlist topic id).2 where
  conns := by simpa using h.conns
  members := by
    intro other
    rw [membersOf_enlist, membersOf_enlist]
    by_cases self : id = c
    · subst self
      split <;> split <;> simp [h.members]
    · simp only [h.member_iff self]
      split <;> simp [h.members]
  known := by rw [keys_enlist, keys_enlist, h.known]
  subscriptions := by
    intro one different
    rw [find?_subscriptions_enlist, find?_subscriptions_enlist]
    by_cases self : id = one
    · subst self
      simp only [h.member_iff different, h.topicsOf_eq different, h.subscriptions id different]
    · simp [self, h.subscriptions one different]
  seats := by simpa using h.seats

/-! ### Seats -/

theorem seated (h : AgreeBut c x y) (id : ConnId) (room : ConversationId) :
    AgreeBut c { x with seats := x.seats.insert id room }
      { y with seats := y.seats.insert id room } where
  conns := h.conns
  members := h.members
  known := h.known
  subscriptions := h.subscriptions
  seats := by
    intro one different
    simp [h.seats one different]

theorem seated_self (x : Exchange) (c : ConnId) (room : ConversationId) :
    AgreeBut c x { x with seats := x.seats.insert c room } where
  conns := fun _ _ => rfl
  members := fun _ => rfl
  known := rfl
  subscriptions := fun _ _ => rfl
  seats := by
    intro one different
    simp [Ne.symm different]

theorem vacate_self (x : Exchange) (c : ConnId) : AgreeBut c x (x.vacate c) where
  conns := fun _ _ => rfl
  members := fun _ => rfl
  known := rfl
  subscriptions := fun _ _ => rfl
  seats := by
    intro one different
    simp [Exchange.vacate, Ne.symm different]

theorem vacate (h : AgreeBut c x y) (id : ConnId) : AgreeBut c (x.vacate id) (y.vacate id) where
  conns := h.conns
  members := h.members
  known := h.known
  subscriptions := h.subscriptions
  seats := by
    intro one different
    simp [Exchange.vacate, h.seats one different]

/-! ### Hooks -/

theorem clean_self (x : Exchange) (c : ConnId) (act : Cleanup) : AgreeBut c x (x.clean c act) := by
  cases act with
  | forgetTopics => exact forget_self x c
  | vacateRoom => exact vacate_self x c

theorem clean (h : AgreeBut c x y) (id : ConnId) (act : Cleanup) :
    AgreeBut c (x.clean id act) (y.clean id act) := by
  cases act with
  | forgetTopics => exact h.forget id
  | vacateRoom => exact h.vacate id

theorem cleanAll_self (x : Exchange) (c : ConnId) (acts : List Cleanup) :
    AgreeBut c x (x.cleanAll c acts) := by
  induction acts generalizing x with
  | nil => exact .refl c x
  | cons act acts ih => exact (clean_self x c act).trans (ih _)

theorem cleanAll (h : AgreeBut c x y) (id : ConnId) (acts : List Cleanup) :
    AgreeBut c (x.cleanAll id acts) (y.cleanAll id acts) := by
  induction acts generalizing x y with
  | nil => exact h
  | cons act acts ih => exact ih (h.clean id act)

theorem attach_self (x : Exchange) (c : ConnId) (act : Cleanup) :
    AgreeBut c x (x.attach c act) := by
  unfold Exchange.attach
  split
  · exact .refl c x
  · exact (withConn_self x c _).trans (cleanAll_self _ c _)

theorem attach (h : AgreeBut c x y) (id : ConnId) (act : Cleanup) :
    AgreeBut c (x.attach id act) (y.attach id act) := by
  apply h.called (fun x id => x.attach id act) id fun x => attach_self x c act
  intro self
  unfold Exchange.attach
  rw [h.conns id self]
  split
  · exact h
  · exact (h.withConn id _).cleanAll id _

theorem close_self (x : Exchange) (c : ConnId) : AgreeBut c x (x.close c) := by
  unfold Exchange.close
  split
  · exact .refl c x
  · split
    · exact .refl c x
    · split
      · exact withConn_self x c _
      · exact (withConn_self x c _).trans (cleanAll_self _ c _)

theorem close (h : AgreeBut c x y) (id : ConnId) : AgreeBut c (x.close id) (y.close id) := by
  apply h.called (fun x id => x.close id) id fun x => close_self x c
  intro self
  unfold Exchange.close
  rw [h.conns id self]
  split
  · exact h
  · split
    · exact h
    · split
      · exact h.withConn id _
      · exact (h.withConn id _).cleanAll id _

/-! ### Joining -/

theorem join_self (x : Exchange) (topic : Topic) (c : ConnId) :
    AgreeBut c (x.enlist topic c).2 (x.join topic c).2 := by
  unfold Exchange.join
  split <;> rename_i shape <;> rw [shape]
  · exact .refl c _
  · exact .refl c _
  · exact attach_self _ c .forgetTopics

theorem enlist_answer (h : AgreeBut c x y) (topic : Topic) (different : id ≠ c) :
    (x.enlist topic id).1 = (y.enlist topic id).1 := by
  have member := h.member_iff different topic
  unfold Exchange.enlist
  simp only [List.contains_iff_mem, member, h.subscriptions id different]
  split
  · rfl
  · split <;> rfl

theorem join (h : AgreeBut c x y) (topic : Topic) (id : ConnId) :
    AgreeBut c (x.join topic id).2 (y.join topic id).2 := by
  have enlisted := h.enlist topic id
  by_cases self : id = c
  · subst self
    exact meet (join_self x topic id) enlisted (join_self y topic id)
  · have answer := h.enlist_answer topic self
    unfold Exchange.join
    generalize x.enlist topic id = first at enlisted answer ⊢
    generalize y.enlist topic id = second at enlisted answer ⊢
    obtain ⟨kind, x'⟩ := first
    obtain ⟨kind', y'⟩ := second
    obtain rfl : kind = kind' := answer
    cases kind with
    | already => exact enlisted
    | added => exact enlisted
    | addedFirst => exact enlisted.attach id .forgetTopics

theorem joinEach (h : AgreeBut c x y) (id : ConnId) (rooms : List ConversationId) :
    AgreeBut c (x.joinEach id rooms) (y.joinEach id rooms) := by
  induction rooms generalizing x y with
  | nil => exact h
  | cons room rooms ih => exact ih (h.join (.room room) id)

theorem joinAllRooms (h : AgreeBut c x y) (id : ConnId) :
    AgreeBut c (x.joinAllRooms id).2 (y.joinAllRooms id).2 := by
  unfold Exchange.joinAllRooms
  rw [h.rooms_eq]
  exact h.joinEach id y.rooms

/-! ### Publishing -/

/-- On one side the frame may be offered to the connection, on the other it is passed over. -/
theorem offer_others (h : AgreeBut c x y) (frame : Frame) (ids : List ConnId) {n m : Nat}
    {failed refused : List ConnId} (same : others c failed = others c refused) :
    AgreeBut c (x.offer frame n failed ids).2.2 (y.offer frame m refused (others c ids)).2.2 ∧
      others c (x.offer frame n failed ids).2.1 =
        others c (y.offer frame m refused (others c ids)).2.1 := by
  induction ids generalizing x y n m failed refused with
  | nil =>
    refine ⟨h, ?_⟩
    rw [others_nil, Exchange.offer, Exchange.offer, others_reverse, others_reverse, same]
  | cons id ids ih =>
    by_cases self : id = c
    · subst self
      rw [others_cons, if_pos rfl, Exchange.offer]
      split
      · next sent => exact ih ((send_self sent).symm.trans h) same
      · exact ih h (by simpa using same)
    · rw [others_cons, if_neg self, Exchange.offer, Exchange.offer]
      rcases h.send self frame with ⟨why, left, right⟩ | ⟨x', y', left, right, h'⟩
      · simp only [left, right]
        exact ih h (by simp [same])
      · simp only [left, right]
        exact ih h' same

theorem evict_others (h : AgreeBut c x y) (topic : Topic) (ids : List ConnId) {n m : Nat} :
    AgreeBut c (x.evict topic n ids).2 (y.evict topic m (others c ids)).2 := by
  induction ids generalizing x y n m with
  | nil => exact h
  | cons id ids ih =>
    by_cases self : id = c
    · subst self
      rw [others_cons, if_pos rfl, Exchange.evict]
      exact ih (meet ((leave_self x topic id).trans (close_self _ id)) h (.refl id y))
    · rw [others_cons, if_neg self, Exchange.evict, Exchange.evict]
      exact ih ((h.leave topic id).close id)

theorem offer (h : AgreeBut c x y) (frame : Frame) {ids more : List ConnId}
    (same : others c ids = others c more) :
    AgreeBut c (x.offer frame 0 [] ids).2.2 (y.offer frame 0 [] more).2.2 ∧
      others c (x.offer frame 0 [] ids).2.1 = others c (y.offer frame 0 [] more).2.1 := by
  obtain ⟨left, failed⟩ := h.offer_others frame ids (n := 0) (m := 0) (rfl : others c [] = _)
  obtain ⟨right, refused⟩ :=
    (refl c y).offer_others frame more (n := 0) (m := 0) (rfl : others c [] = _)
  rw [← same] at right refused
  exact ⟨left.trans right.symm, failed.trans refused.symm⟩

theorem evict (h : AgreeBut c x y) (topic : Topic) {ids more : List ConnId}
    (same : others c ids = others c more) :
    AgreeBut c (x.evict topic 0 ids).2 (y.evict topic 0 more).2 := by
  have left := h.evict_others topic ids (n := 0) (m := 0)
  have right := (refl c y).evict_others topic more (n := 0) (m := 0)
  rw [← same] at right
  exact left.trans right.symm

theorem publish (h : AgreeBut c x y) (topic : Topic) (frame : Frame) :
    AgreeBut c (x.publish topic frame).2 (y.publish topic frame).2 := by
  obtain ⟨offered, failed⟩ := h.offer frame (h.members topic)
  exact offered.evict topic failed

theorem broadcast (h : AgreeBut c x y) (room : ConversationId) (content : String) :
    AgreeBut c (x.broadcast room content).2 (y.broadcast room content).2 := by
  unfold Exchange.broadcast
  split
  · exact h
  · exact h.publish (.room room) _

/-! ### Rooms -/

theorem sit_self (x : Exchange) (room : ConversationId) (c : ConnId) :
    AgreeBut c x (x.sit room c) := by
  have seated := seated_self x c room
  unfold Exchange.sit
  dsimp only
  split
  · split
    · exact seated
    · exact seated.trans (leave_self _ _ c)
  · exact seated.trans (attach_self _ c .vacateRoom)

theorem sit (h : AgreeBut c x y) (room : ConversationId) (id : ConnId) :
    AgreeBut c (x.sit room id) (y.sit room id) := by
  apply h.called (fun x id => x.sit room id) id fun x => sit_self x room c
  intro self
  have seated := h.seated id room
  unfold Exchange.sit seatOf
  dsimp only
  rw [h.seats id self]
  split
  · split
    · exact seated
    · exact seated.leave _ id
  · exact seated.attach id .vacateRoom

theorem joinRoom (h : AgreeBut c x y) (room : ConversationId) (id : ConnId) :
    AgreeBut c (x.joinRoom room id).2 (y.joinRoom room id).2 :=
  ((h.sit room id).join (.room room) id).broadcast room greeting

theorem leaveRoom_self (x : Exchange) (c : ConnId) : AgreeBut c x (x.leaveRoom c).2 := by
  unfold Exchange.leaveRoom
  split
  · exact (vacate_self x c).trans (leave_self _ _ c)
  · exact .refl c x

theorem leaveRoom (h : AgreeBut c x y) (id : ConnId) :
    AgreeBut c (x.leaveRoom id).2 (y.leaveRoom id).2 := by
  apply h.called (fun x id => (x.leaveRoom id).2) id fun x => leaveRoom_self x c
  intro self
  unfold Exchange.leaveRoom seatOf
  rw [h.seats id self]
  split
  · exact (h.vacate id).leave _ id
  · exact h

end AgreeBut

end Exchange

end Switchboard
