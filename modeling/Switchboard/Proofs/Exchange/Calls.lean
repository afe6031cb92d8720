import Switchboard.Proofs.Exchange.Consistent

/-!
What each call does to a consistent exchange, and that it leaves it consistent. Only connections
that exist can be made members or take seats.
-/

namespace Switchboard

/-- An open connection that takes a frame hands it to its peer or into its queue. -/
theorem Conn.send_cases {c next : Conn} {frame : Frame} (sent : c.send frame = .ok next) :
    c.closed = false ∧
      ((∃ p k, c.link = .peer p ∧ p.send frame = .ok k ∧
          next = { c with link := .peer k, taken := frame :: c.taken }) ∨
        ∃ o k, c.link = .client o ∧ o.send frame = .ok k ∧
          next = { c with link := .client k, taken := frame :: c.taken }) := by
  unfold Conn.send at sent
  split at sent
  · next p link =>
    split at sent
    · cases sent
    · next opened =>
      cases answer : p.send frame with
      | error e => rw [answer] at sent; cases sent
      | ok k =>
        rw [answer] at sent
        cases sent
        exact ⟨by simpa using opened, Or.inl ⟨p, k, link, answer, rfl⟩⟩
  · next o link =>
    split at sent
    · cases sent
    · next opened =>
      cases answer : o.send frame with
      | error e => rw [answer] at sent; cases sent
      | ok k =>
        rw [answer] at sent
        cases sent
        exact ⟨by simpa using opened, Or.inr ⟨o, k, link, answer, rfl⟩⟩

theorem Conn.send_ok {c next : Conn} {frame : Frame} (sent : c.send frame = .ok next) :
    c.closed = false ∧ next.closed = false ∧ next.hooks = c.hooks ∧
      next.taken = frame :: c.taken := by
  obtain ⟨opened, ⟨p, k, -, -, rfl⟩ | ⟨o, k, -, -, rfl⟩⟩ := send_cases sent
  · exact ⟨opened, opened, rfl, rfl⟩
  · exact ⟨opened, opened, rfl, rfl⟩

theorem Conn.send_client {c : Conn} {o : Outbound} (link : c.link = .client o)
    (opened : c.closed = false) (running : o.writer ≠ .stopped) (frame : Frame) :
    c.send frame = match o.queue.push? frame with
      | some queue =>
        .ok { c with link := .client { o with queue := queue }, taken := frame :: c.taken }
      | none => .error .outboundFull := by
  unfold Conn.send
  rw [link]
  simp only [opened, Bool.false_eq_true, if_false, Outbound.send, if_neg running]
  cases o.queue.push? frame <;> rfl

namespace Exchange

variable {x next : Exchange} {topic other : Topic} {id one : ConnId} {room : ConversationId}

theorem isClosed_of_find? {c : Conn} (found : x.conns.find? id = some c) :
    x.isClosed id = c.closed := by
  rw [isClosed, found]

theorem Consistent.not_member (h : x.Consistent) (closed : x.isClosed id = true) (topic : Topic) :
    id ∉ x.membersOf topic := by
  intro member
  rw [h.same, topicsOf, (h.gone id closed).1] at member
  cases member

theorem Consistent.topicsOf_closed (h : x.Consistent) (closed : x.isClosed id = true) :
    x.topicsOf id = [] := by
  rw [topicsOf, (h.gone id closed).1]
  rfl

theorem empty_consistent : empty.Consistent where
  same := by
    intro topic id
    exact iff_of_false List.not_mem_nil List.not_mem_nil
  members := by
    intro topic
    exact List.nodup_nil
  topics := by
    intro id
    exact List.nodup_nil
  hooked := by
    intro id c found
    cases found
  fired := by
    intro id c found
    cases found
  gone := by
    intro id closed
    exact ⟨rfl, rfl⟩

/-! ### Connections with changes -/

/-- The same connections, open or closed as before, which have taken the same frames. -/
structure SameConns (x next : Exchange) : Prop where
  closed : ∀ one, next.isClosed one = x.isClosed one
  sent : ∀ one, next.sentTo one = x.sentTo one
  links : ∀ one, next.linkOf? one = x.linkOf? one
  knows : ∀ one, next.Knows one ↔ x.Knows one

theorem SameConns.of_conns (same : next.conns = x.conns) : SameConns x next where
  closed := by intro one; rw [isClosed, isClosed, same]
  sent := by intro one; rw [sentTo, sentTo, same]
  links := by intro one; rw [linkOf?, linkOf?, same]
  knows := by intro one; rw [Knows, Knows, same]

theorem SameConns.trans {y z : Exchange} (first : SameConns x y) (second : SameConns y z) :
    SameConns x z where
  closed := by intro one; rw [second.closed, first.closed]
  sent := by intro one; rw [second.sent, first.sent]
  links := by intro one; rw [second.links, first.links]
  knows := by intro one; rw [second.knows, first.knows]

theorem isClosed_withConn_same {c k : Conn} (found : x.conns.find? id = some c)
    (closed : k.closed = c.closed) (one : ConnId) :
    (x.withConn id k).isClosed one = x.isClosed one := by
  rw [isClosed_withConn]
  split
  · next self => rw [← self, isClosed_of_find? found, closed]
  · rfl

theorem knows_withConn_same {c : Conn} (found : x.conns.find? id = some c) (k : Conn)
    (one : ConnId) : (x.withConn id k).Knows one ↔ x.Knows one := by
  rw [knows_withConn, or_iff_right_iff_imp]
  rintro rfl
  rw [Knows, found]
  rfl

theorem sentTo_withConn_same {c k : Conn} (found : x.conns.find? id = some c)
    (taken : k.taken = c.taken) (one : ConnId) : (x.withConn id k).sentTo one = x.sentTo one := by
  rw [sentTo_withConn]
  split
  · next self => rw [← self, sentTo, found, taken]
  · rfl

theorem linkOf?_of_find? {c : Conn} (found : x.conns.find? id = some c) :
    x.linkOf? id = some c.link := by
  rw [linkOf?, found, Option.map_some]

theorem SameConns.withConn {c k : Conn} (found : x.conns.find? id = some c)
    (closed : k.closed = c.closed) (link : k.link = c.link) (taken : k.taken = c.taken) :
    SameConns x (x.withConn id k) where
  closed := isClosed_withConn_same found closed
  sent := sentTo_withConn_same found taken
  links := by
    intro one
    rw [linkOf?_withConn]
    split
    · next self => rw [← self, linkOf?_of_find? found, link]
    · rfl
  knows := knows_withConn_same found k

theorem Consistent.withConn (h : x.Consistent) {c k : Conn} (found : x.conns.find? id = some c)
    (closed : k.closed = c.closed) (hooks : k.hooks = c.hooks) : (x.withConn id k).Consistent where
  toMirrored := ⟨h.same, h.members, h.topics⟩
  hooked := by
    intro one d present opened
    rw [find?_conns_withConn] at present
    split at present
    · next self =>
      subst self
      cases present
      rw [closed] at opened
      obtain ⟨acts, hooked⟩ := h.hooked id c found opened
      exact ⟨acts, hooks ▸ hooked.waiting, hooked.forgets, hooked.vacates⟩
    · obtain ⟨acts, hooked⟩ := h.hooked one d present opened
      exact ⟨acts, hooked.waiting, hooked.forgets, hooked.vacates⟩
  fired := by
    intro one d present closed'
    rw [find?_conns_withConn] at present
    split at present
    · cases present
      rw [closed] at closed'
      rw [hooks]
      exact h.fired id c found closed'
    · exact h.fired one d present closed'
  gone := by
    intro one closed'
    rw [isClosed_withConn_same found closed] at closed'
    exact h.gone one closed'

/-! ### Connecting -/

theorem isClosed_unknown (unknown : ¬ x.Knows id) : x.isClosed id = true := by
  have none : x.conns.find? id = none := by simpa [Knows] using unknown
  rw [isClosed, none]

theorem sentTo_unknown (unknown : ¬ x.Knows id) : x.sentTo id = [] := by
  have none : x.conns.find? id = none := by simpa [Knows] using unknown
  rw [sentTo, none]

theorem find?_conns_connect (x : Exchange) (id one : ConnId) (link : Link) :
    (x.connect id link).conns.find? one =
      if id = one then some (.ofLink link) else x.conns.find? one :=
  x.find?_conns_withConn id one (.ofLink link)

theorem isClosed_connect (x : Exchange) (id one : ConnId) (link : Link) :
    (x.connect id link).isClosed one = if id = one then false else x.isClosed one :=
  x.isClosed_withConn id one (.ofLink link)

theorem sentTo_connect (unknown : ¬ x.Knows id) (one : ConnId) (link : Link) :
    (x.connect id link).sentTo one = x.sentTo one := by
  have shape := x.sentTo_withConn id one (.ofLink link)
  split at shape
  · next self =>
    subst self
    exact shape.trans (sentTo_unknown unknown).symm
  · exact shape

theorem knows_connect (x : Exchange) (id one : ConnId) (link : Link) :
    (x.connect id link).Knows one ↔ id = one ∨ x.Knows one :=
  x.knows_withConn id one (.ofLink link)

/-- Nothing is known about a connection before it is there. -/
theorem Consistent.connect (h : x.Consistent) (unknown : ¬ x.Knows id) (link : Link) :
    (x.connect id link).Consistent where
  toMirrored := ⟨h.same, h.members, h.topics⟩
  hooked := by
    intro one c found opened
    rw [find?_conns_connect] at found
    split at found
    · next self =>
      subst self
      cases found
      obtain ⟨subscription, seat⟩ := h.gone id (isClosed_unknown unknown)
      refine ⟨[], rfl, ?_, ?_⟩
      · intro some
        change (x.subscriptions.find? id).isSome at some
        rw [subscription] at some
        cases some
      · intro some
        change (x.seatOf id).isSome at some
        rw [seat] at some
        cases some
    · obtain ⟨acts, hooked⟩ := h.hooked one c found opened
      exact ⟨acts, hooked.waiting, hooked.forgets, hooked.vacates⟩
  fired := by
    intro one c found closed
    rw [find?_conns_connect] at found
    split at found
    · cases found
      cases closed
    · exact h.fired one c found closed
  gone := by
    intro one closed
    rw [isClosed_connect] at closed
    split at closed
    · cases closed
    · exact h.gone one closed

/-! ### Closing -/

theorem close_of_closed (closed : x.isClosed id = true) : x.close id = x := by
  unfold isClosed at closed
  unfold close
  split at closed
  · next c found => rw [found]; simp [closed]
  · next found => rw [found]

def shut (x : Exchange) (id : ConnId) (c : Conn) : Exchange :=
  { x with conns := x.conns.insert id { c with closed := true, hooks := ⟨none⟩ } }

theorem close_of_open {c : Conn} {acts : List Cleanup} (found : x.conns.find? id = some c)
    (opened : c.closed = false) (waiting : c.hooks.pending? = some (acts.map .plain)) :
    x.close id = (x.shut id c).cleanAll id acts := by
  unfold close shut
  rw [found]
  simp only [opened, Hooks.fire?_waiting waiting]
  rfl

theorem Consistent.close_cases (h : x.Consistent) (id : ConnId) :
    (x.isClosed id = true ∧ x.close id = x) ∨
      ∃ c acts, x.conns.find? id = some c ∧ c.closed = false ∧ Hooked x id c acts ∧
        x.close id = (x.shut id c).cleanAll id acts := by
  cases found : x.conns.find? id with
  | none =>
    have closed : x.isClosed id = true := by rw [isClosed, found]
    exact Or.inl ⟨closed, close_of_closed closed⟩
  | some c =>
    cases state : c.closed with
    | true =>
      have closed : x.isClosed id = true := by rw [isClosed_of_find? found, state]
      exact Or.inl ⟨closed, close_of_closed closed⟩
    | false =>
      obtain ⟨acts, hooked⟩ := h.hooked id c found state
      exact Or.inr ⟨c, acts, rfl, state, hooked, close_of_open found state hooked.waiting⟩

theorem Mirrored.shut (h : x.Mirrored) (id : ConnId) (c : Conn) : (x.shut id c).Mirrored :=
  ⟨h.same, h.members, h.topics⟩

theorem membersOf_close (h : x.Consistent) (id : ConnId) (topic : Topic) :
    (x.close id).membersOf topic = (x.membersOf topic).erase id := by
  rcases h.close_cases id with ⟨closed, same⟩ | ⟨c, acts, found, opened, hooked, shape⟩
  · rw [same, List.erase_of_not_mem (h.not_member closed topic)]
  · rw [shape, membersOf_cleanAll (h.toMirrored.shut id c)]
    split
    · rfl
    · next kept =>
      -- without a hook that forgets there was no subscription to forget
      have none : x.subscriptions.find? id = none := by
        rw [← Option.not_isSome_iff_eq_none]
        exact fun some => kept (hooked.forgets some)
      have outside : id ∉ x.membersOf topic := by
        rw [h.same, topicsOf, none]
        exact List.not_mem_nil
      exact (List.erase_of_not_mem outside).symm

theorem find?_subscriptions_close (h : x.Consistent) (id one : ConnId) :
    (x.close id).subscriptions.find? one =
      if id = one then none else x.subscriptions.find? one := by
  rcases h.close_cases id with ⟨closed, same⟩ | ⟨c, acts, found, opened, hooked, shape⟩
  · rw [same]
    split
    · next self => exact self ▸ (h.gone id closed).1
    · rfl
  · rw [shape, find?_subscriptions_cleanAll]
    by_cases self : id = one
    · subst self
      by_cases forgets : Cleanup.forgetTopics ∈ acts
      · simp [forgets]
      · have none : x.subscriptions.find? id = none := by
          rw [← Option.not_isSome_iff_eq_none]
          exact fun some => forgets (hooked.forgets some)
        simp [forgets, Exchange.shut, none]
    · simp [self, Exchange.shut]

theorem seatOf_close (h : x.Consistent) (id one : ConnId) :
    (x.close id).seatOf one = if id = one then none else x.seatOf one := by
  rcases h.close_cases id with ⟨closed, same⟩ | ⟨c, acts, found, opened, hooked, shape⟩
  · rw [same]
    split
    · next self => exact self ▸ (h.gone id closed).2
    · rfl
  · rw [shape, seatOf_cleanAll]
    have kept : (x.shut id c).seatOf one = x.seatOf one := rfl
    by_cases self : id = one
    · subst self
      by_cases vacates : Cleanup.vacateRoom ∈ acts
      · simp [vacates]
      · have none : x.seatOf id = none := by
          rw [← Option.not_isSome_iff_eq_none]
          exact fun some => vacates (hooked.vacates some)
        simp [vacates, kept, none]
    · simp [self, kept]

theorem find?_conns_close (h : x.Consistent) (id one : ConnId) :
    (x.close id).conns.find? one =
      if id = one then (x.conns.find? one).map fun c => { c with closed := true, hooks := ⟨none⟩ }
      else x.conns.find? one := by
  rcases h.close_cases id with ⟨closed, same⟩ | ⟨c, acts, found, opened, hooked, shape⟩
  · rw [same]
    by_cases self : id = one
    · subst self
      cases found : x.conns.find? id with
      | none => simp
      | some c =>
        rw [isClosed_of_find? found] at closed
        have fired := h.fired id c found closed
        obtain ⟨state, ⟨pending⟩, link, taken⟩ := c
        simp only at closed fired
        simp [closed, fired]
    · simp [self]
  · rw [shape, conns_cleanAll]
    by_cases self : id = one
    · subst self
      simp [Exchange.shut, found]
    · simp [Exchange.shut, self]

theorem isClosed_close (h : x.Consistent) (id one : ConnId) :
    (x.close id).isClosed one = (decide (id = one) || x.isClosed one) := by
  unfold isClosed
  rw [find?_conns_close h]
  by_cases self : id = one
  · cases x.conns.find? one <;> simp [self]
  · simp [self]

theorem sentTo_close (h : x.Consistent) (id one : ConnId) :
    (x.close id).sentTo one = x.sentTo one := by
  unfold sentTo
  rw [find?_conns_close h]
  by_cases self : id = one
  · cases x.conns.find? one <;> simp [self]
  · simp [self]

theorem Mirrored.close (h : x.Consistent) (id : ConnId) : (x.close id).Mirrored := by
  rcases h.close_cases id with ⟨closed, same⟩ | ⟨c, acts, found, opened, hooked, shape⟩
  · rw [same]
    exact h.toMirrored
  · rw [shape]
    exact (h.toMirrored.shut id c).cleanAll id acts

theorem Consistent.close (h : x.Consistent) (id : ConnId) : (x.close id).Consistent where
  toMirrored := Mirrored.close h id
  hooked := by
    intro one c found opened
    rw [find?_conns_close h] at found
    split at found
    · obtain ⟨before, _, rfl⟩ := Option.map_eq_some_iff.mp found
      cases opened
    · next different =>
      obtain ⟨acts, hooked⟩ := h.hooked one c found opened
      refine ⟨acts, hooked.waiting, ?_, ?_⟩
      · rw [find?_subscriptions_close h, if_neg different]
        exact hooked.forgets
      · rw [seatOf_close h, if_neg different]
        exact hooked.vacates
  fired := by
    intro one c found closed
    rw [find?_conns_close h] at found
    split at found
    · obtain ⟨before, _, rfl⟩ := Option.map_eq_some_iff.mp found
      rfl
    · exact h.fired one c found closed
  gone := by
    intro one closed
    rw [find?_subscriptions_close h, seatOf_close h]
    by_cases self : id = one
    · simp [self]
    · rw [isClosed_close h] at closed
      simp only [self, decide_false, Bool.false_or] at closed
      simpa [self] using h.gone one closed

end Exchange

end Switchboard
