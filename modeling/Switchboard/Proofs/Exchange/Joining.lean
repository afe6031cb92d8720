import Switchboard.Proofs.Exchange.Attaching

/-!
Joining topics and rooms. A closed connection that joins is forgotten again at once, by the hook
that it is given.
-/

namespace Switchboard.Exchange

variable {x next : Exchange} {topic other : Topic} {id one : ConnId} {room : ConversationId}

/-! ### Leaving and vacating -/

theorem Consistent.leave (h : x.Consistent) (topic : Topic) (id : ConnId) :
    (x.leave topic id).2.Consistent where
  toMirrored := h.toMirrored.leave topic id
  hooked := by
    intro one c found opened
    rw [conns_leave] at found
    obtain ⟨acts, hooked⟩ := h.hooked one c found opened
    refine ⟨acts, hooked.waiting, ?_, ?_⟩
    · rw [find?_subscriptions_leave]
      intro some
      apply hooked.forgets
      split at some
      · rwa [Option.isSome_map] at some
      · exact some
    · intro some
      apply hooked.vacates
      rwa [seatOf, seats_leave] at some
  fired := by
    intro one c found closed
    rw [conns_leave] at found
    exact h.fired one c found closed
  gone := by
    intro one closed
    rw [isClosed, conns_leave] at closed
    rw [find?_subscriptions_leave, seatOf, seats_leave, (h.gone one closed).1]
    exact ⟨by simp, (h.gone one closed).2⟩

theorem Consistent.vacate (h : x.Consistent) (id : ConnId) : (x.vacate id).Consistent where
  toMirrored := ⟨h.same, h.members, h.topics⟩
  hooked := by
    intro one c found opened
    obtain ⟨acts, hooked⟩ := h.hooked one c found opened
    refine ⟨acts, hooked.waiting, hooked.forgets, ?_⟩
    intro some
    apply hooked.vacates
    rw [seatOf, Exchange.vacate, Table.find?_erase] at some
    split at some
    · cases some
    · exact some
  fired := h.fired
  gone := by
    intro one closed
    refine ⟨(h.gone one closed).1, ?_⟩
    rw [seatOf, Exchange.vacate, Table.find?_erase]
    split
    · rfl
    · exact (h.gone one closed).2

/-! ### What joining leaves as it is -/

theorem find?_conns_attach {c : Conn} (found : x.conns.find? id = some c) (act : Cleanup) :
    ∃ hooks, (x.attach id act).conns.find? id = some { c with hooks := hooks } := by
  unfold attach
  rw [found]
  exact ⟨(c.hooks.register (.mk act [])).1, by simp [conns_cleanAll]⟩

theorem SameConns.attach (x : Exchange) (id : ConnId) (act : Cleanup) :
    SameConns x (x.attach id act) := by
  cases found : x.conns.find? id with
  | none =>
    rw [attach_unknown found]
    exact .of_conns rfl
  | some c =>
    rw [attach_eq found]
    split
    · exact .rehook found _
    · exact (SameConns.rehook found _).trans (.of_conns (conns_clean _ id act))

theorem SameConns.join (x : Exchange) (topic : Topic) (id : ConnId) :
    SameConns x (x.join topic id).2 := by
  have enlisted : SameConns x (x.enlist topic id).2 := .of_conns (conns_enlist x topic id)
  unfold Exchange.join
  split
  · next shape => rw [shape] at enlisted; exact enlisted
  · next shape => rw [shape] at enlisted; exact enlisted
  · next shape =>
    rw [shape] at enlisted
    exact enlisted.trans (.attach _ id .forgetTopics)

theorem SameConns.leave (x : Exchange) (topic : Topic) (id : ConnId) :
    SameConns x (x.leave topic id).2 := .of_conns (conns_leave x topic id)

theorem SameConns.sit (x : Exchange) (room : ConversationId) (id : ConnId) :
    SameConns x (x.sit room id) := by
  have seated : SameConns x { x with seats := x.seats.insert id room } := .of_conns rfl
  unfold Exchange.sit
  dsimp only
  split
  · split
    · exact seated
    · exact seated.trans (.leave _ _ id)
  · exact seated.trans (.attach _ id .vacateRoom)

/-! ### Joining a topic -/

theorem join_member (member : id ∈ x.membersOf topic) : x.join topic id = (false, x) := by
  have inside : (x.membersOf topic).contains id = true := by simpa using member
  simp only [join, enlist, inside, if_true]

theorem join_later (stranger : id ∉ x.membersOf topic) {topics : List Topic}
    (found : x.subscriptions.find? id = some topics) :
    x.join topic id = (true, (x.enlist topic id).2) := by
  have outside : (x.membersOf topic).contains id = false := by simpa using stranger
  simp only [join, enlist, outside, Bool.false_eq_true, if_false, found]

theorem join_first (stranger : id ∉ x.membersOf topic)
    (none : x.subscriptions.find? id = .none) :
    x.join topic id = (true, (x.enlist topic id).2.attach id .forgetTopics) := by
  have outside : (x.membersOf topic).contains id = false := by simpa using stranger
  simp only [join, enlist, outside, Bool.false_eq_true, if_false, none]

theorem answer_join (x : Exchange) (topic : Topic) (id : ConnId) :
    (x.join topic id).1 = decide (id ∉ x.membersOf topic) := by
  by_cases member : id ∈ x.membersOf topic
  · rw [join_member member]
    simp [member]
  · cases found : x.subscriptions.find? id with
    | none =>
      rw [join_first member found]
      simp [member]
    | some topics =>
      rw [join_later member found]
      simp [member]

theorem Consistent.open_of_subscription (h : x.Consistent) {topics : List Topic}
    (found : x.subscriptions.find? id = some topics) : x.isClosed id = false := by
  cases closed : x.isClosed id with
  | false => rfl
  | true => rw [(h.gone id closed).1] at found; cases found

theorem Mirrored.enlist (h : x.Mirrored) (topic : Topic) (id : ConnId) :
    (x.enlist topic id).2.Mirrored where
  same := by
    intro t c
    rw [membersOf_enlist, topicsOf_enlist]
    by_cases member : id ∈ x.membersOf topic
    · simpa [member] using h.same t c
    · have before := h.same t c
      by_cases there : topic = t <;> by_cases self : id = c
      · subst there self
        simp [member]
      · subst there
        simpa [member, self, Ne.symm self] using before
      · subst self
        simpa [member, there, Ne.symm there] using before
      · simpa [member, there, self] using before
  members := by
    intro t
    rw [membersOf_enlist]
    split
    · next added =>
      rw [← added.1, List.nodup_append]
      refine ⟨h.members topic, List.nodup_singleton id, ?_⟩
      intro a member b last same
      rw [List.mem_singleton] at last
      exact added.2 (last ▸ same ▸ member)
    · exact h.members t
  topics := by
    intro c
    rw [topicsOf_enlist]
    split
    · exact (h.topics c).insert
    · exact h.topics c

/-- Joining makes an open connection a member; a closed one is a member of nothing afterwards. -/
theorem mem_membersOf_join (h : x.Consistent) (known : x.Knows id) (topic other : Topic)
    (one : ConnId) :
    one ∈ (x.join topic id).2.membersOf other ↔
      one ∈ x.membersOf other ∨ (other = topic ∧ one = id ∧ x.isClosed id = false) := by
  by_cases member : id ∈ x.membersOf topic
  · rw [join_member member]
    constructor
    · exact Or.inl
    · rintro (before | ⟨rfl, rfl, -⟩)
      · exact before
      · exact member
  · have enlisted : one ∈ (x.enlist topic id).2.membersOf other ↔
        one ∈ x.membersOf other ∨ (other = topic ∧ one = id) := by
      rw [membersOf_enlist]
      by_cases there : topic = other
      · subst there
        simp [member]
      · simp [there, Ne.symm there]
    cases found : x.subscriptions.find? id with
    | some topics =>
      have opened := h.open_of_subscription found
      rw [join_later member found, enlisted]
      simp [opened]
    | none =>
      rw [join_first member found]
      obtain ⟨c, present⟩ := Option.isSome_iff_exists.mp known
      have present' : (x.enlist topic id).2.conns.find? id = some c := by
        rw [conns_enlist, present]
      cases state : c.closed with
      | false =>
        obtain ⟨acts, hooked⟩ := h.hooked id c present state
        rw [attach_eq present', hooked.waiting, isClosed_of_find? present, state]
        change one ∈ (x.enlist topic id).2.membersOf other ↔ _
        simpa using enlisted
      | true =>
        -- the hook of the first subscription is run at once, and undoes it
        have mirrored : ((x.enlist topic id).2.rehook id c c.hooks).Mirrored := by
          have before := h.toMirrored.enlist topic id
          exact ⟨before.same, before.members, before.topics⟩
        have shape := membersOf_forget mirrored id other
        rw [attach_eq present', h.fired id c present state, isClosed_of_find? present, state]
        change one ∈ (((x.enlist topic id).2.rehook id c c.hooks).forget id).membersOf other ↔ _
        rw [shape, (mirrored.members other).mem_erase_iff]
        change one ≠ id ∧ one ∈ (x.enlist topic id).2.membersOf other ↔ _
        rw [enlisted]
        have absent := h.not_member (by rw [isClosed_of_find? present, state]) other
        constructor
        · rintro ⟨different, before | ⟨-, self⟩⟩
          · exact Or.inl before
          · exact absurd self different
        · rintro (before | ⟨-, -, impossible⟩)
          · exact ⟨fun self => absent (self ▸ before), Or.inl before⟩
          · cases impossible

theorem seatOf_attach (x : Exchange) (id one : ConnId) :
    (x.attach id .forgetTopics).seatOf one = x.seatOf one := by
  cases found : x.conns.find? id with
  | none => rw [attach_unknown found]
  | some c =>
    rw [attach_eq found]
    split
    · rfl
    · exact congrArg (Table.find? · one) (seats_forget _ id)

theorem seatOf_join (x : Exchange) (topic : Topic) (id one : ConnId) :
    (x.join topic id).2.seatOf one = x.seatOf one := by
  have enlisted : (x.enlist topic id).2.seatOf one = x.seatOf one := by
    rw [seatOf, seats_enlist, seatOf]
  unfold Exchange.join
  split
  · next shape => rw [shape] at enlisted; exact enlisted
  · next shape => rw [shape] at enlisted; exact enlisted
  · next shape =>
    rw [shape] at enlisted
    exact (seatOf_attach _ id one).trans enlisted

/-! ### Consistency of joins -/

theorem Consistent.enlist (h : x.Consistent) (topic : Topic) (id : ConnId) :
    (x.enlist topic id).2.Owing id .forgetTopics where
  toMirrored := h.toMirrored.enlist topic id
  hooked := by
    intro one c found opened
    rw [conns_enlist] at found
    obtain ⟨acts, hooked⟩ := h.hooked one c found opened
    refine ⟨acts, hooked.waiting, ?_, ?_⟩
    · rw [find?_subscriptions_enlist]
      intro some
      by_cases self : id = one
      · exact Or.inr ⟨self.symm, rfl⟩
      · exact Or.inl (hooked.forgets (by simpa [self] using some))
    · rw [seatOf, seats_enlist]
      exact fun some => Or.inl (hooked.vacates some)
  fired := by
    intro one c found
    rw [conns_enlist] at found
    exact h.fired one c found
  gone := by
    intro one closed
    rw [isClosed, conns_enlist] at closed
    obtain ⟨subscription, seat⟩ := h.gone one closed
    refine ⟨?_, Or.inl ?_⟩
    · by_cases self : id = one
      · exact Or.inr ⟨self.symm, rfl⟩
      · rw [find?_subscriptions_enlist, if_neg fun w => self w.1]
        exact Or.inl subscription
    · rw [seatOf, seats_enlist]
      exact seat

theorem Consistent.join (h : x.Consistent) (known : x.Knows id) (topic : Topic) :
    (x.join topic id).2.Consistent := by
  by_cases member : id ∈ x.membersOf topic
  · rw [join_member member]
    exact h
  · cases found : x.subscriptions.find? id with
    | none =>
      rw [join_first member found]
      apply (h.enlist topic id).attach
      rw [Knows, conns_enlist]
      exact known
    | some topics =>
      have opened := h.open_of_subscription found
      rw [join_later member found]
      apply (h.enlist topic id).paid
      · rw [isClosed, conns_enlist]
        exact opened
      · intro c acts present waiting
        rw [conns_enlist] at present
        exact (h.waits present opened waiting).forgets (by rw [found]; rfl)

end Switchboard.Exchange
