import Switchboard.Proofs.Exchange.Calls

/-!
Hooks that clean up after a connection: one that is left with an open connection waits, one that is
left with a closed connection is run at once.
-/

namespace Switchboard.Exchange

variable {x : Exchange} {id : ConnId}

/-! ### Leaving a hook -/

def rehook (x : Exchange) (id : ConnId) (c : Conn) (hooks : Hooks Cleanup) : Exchange :=
  { x with conns := x.conns.insert id { c with hooks := hooks } }

theorem attach_eq {c : Conn} (found : x.conns.find? id = some c) (act : Cleanup) :
    x.attach id act = match c.hooks.pending? with
      | some waiting => x.rehook id c ⟨some (waiting ++ [.plain act])⟩
      | none => (x.rehook id c c.hooks).clean id act := by
  obtain ⟨closed, ⟨_ | waiting⟩, link, taken⟩ := c
  · unfold attach
    rw [found]
    rfl
  · unfold attach
    rw [found]
    simp only [show (Callback.mk act []) = .plain act from rfl, Hooks.register_waiting]
    rfl

theorem attach_unknown (unknown : x.conns.find? id = none) (act : Cleanup) :
    x.attach id act = x := by
  unfold attach
  rw [unknown]

theorem find?_conns_rehook (x : Exchange) (id one : ConnId) (c : Conn) (hooks : Hooks Cleanup) :
    (x.rehook id c hooks).conns.find? one =
      if id = one then some { c with hooks := hooks } else x.conns.find? one :=
  x.find?_conns_withConn id one { c with hooks := hooks }

theorem SameConns.rehook {c : Conn} (found : x.conns.find? id = some c) (hooks : Hooks Cleanup) :
    SameConns x (x.rehook id c hooks) := .withConn found rfl rfl rfl

/-! ### A hook that is owed -/

/-- Consistent, but for a hook that a connection has yet to be given. -/
structure Owing (x : Exchange) (id : ConnId) (act : Cleanup) : Prop extends Mirrored x where
  hooked : ∀ one c, x.conns.find? one = some c → c.closed = false →
    ∃ acts : List Cleanup, c.hooks.pending? = some (acts.map .plain) ∧
      ((x.subscriptions.find? one).isSome →
        .forgetTopics ∈ acts ∨ (one = id ∧ act = .forgetTopics)) ∧
      ((x.seatOf one).isSome → .vacateRoom ∈ acts ∨ (one = id ∧ act = .vacateRoom))
  fired : ∀ one c, x.conns.find? one = some c → c.closed = true → c.hooks.pending? = none
  gone : ∀ one, x.isClosed one = true →
    (x.subscriptions.find? one = none ∨ (one = id ∧ act = .forgetTopics)) ∧
      (x.seatOf one = none ∨ (one = id ∧ act = .vacateRoom))

theorem Owing.rehook {c : Conn} {acts : List Cleanup} {act : Cleanup} (h : x.Owing id act)
    (found : x.conns.find? id = some c) (opened : c.closed = false)
    (waiting : c.hooks.pending? = some (acts.map .plain)) :
    (x.rehook id c ⟨some (acts.map .plain ++ [.plain act])⟩).Consistent where
  toMirrored := ⟨h.same, h.members, h.topics⟩
  hooked := by
    intro one k present open'
    rw [find?_conns_rehook] at present
    split at present
    · next self =>
      cases present
      obtain ⟨acts', waiting', forgets, vacates⟩ := h.hooked id c found opened
      rw [waiting, Option.some_inj] at waiting'
      have same : acts = acts' := Callback.map_plain_injective waiting'
      subst self same
      refine ⟨acts ++ [act], by simp, ?_, ?_⟩
      · intro some
        rcases forgets some with member | ⟨-, rfl⟩ <;> simp [*]
      · intro some
        rcases vacates some with member | ⟨-, rfl⟩ <;> simp [*]
    · next different =>
      obtain ⟨acts', waiting', forgets, vacates⟩ := h.hooked one k present open'
      refine ⟨acts', waiting', ?_, ?_⟩
      · intro some
        rcases forgets some with member | ⟨self, -⟩
        · exact member
        · exact absurd self.symm different
      · intro some
        rcases vacates some with member | ⟨self, -⟩
        · exact member
        · exact absurd self.symm different
  fired := by
    intro one k present closed
    rw [find?_conns_rehook] at present
    split at present
    · cases present
      rw [opened] at closed
      cases closed
    · exact h.fired one k present closed
  gone := by
    intro one closed
    rw [(SameConns.rehook found _).closed] at closed
    have different : one ≠ id := by
      rintro rfl
      rw [isClosed_of_find? found, opened] at closed
      cases closed
    obtain ⟨subscription, seat⟩ := h.gone one closed
    exact ⟨subscription.resolve_right fun w => different w.1,
      seat.resolve_right fun w => different w.1⟩

/-- With the hook attached nothing is owed: it waits, or it has been run. -/
theorem Owing.attach {act : Cleanup} (h : x.Owing id act) (known : x.Knows id) :
    (x.attach id act).Consistent := by
  obtain ⟨c, found⟩ := Option.isSome_iff_exists.mp known
  cases state : c.closed with
  | false =>
    obtain ⟨acts, waiting, -⟩ := h.hooked id c found state
    rw [attach_eq found, waiting]
    exact h.rehook found state waiting
  | true =>
    -- the hook is run at once, so that nothing stays entered for the closed connection
    have fired := h.fired id c found state
    have closed : x.isClosed id = true := by rw [isClosed_of_find? found, state]
    have mirrored : (x.rehook id c c.hooks).Mirrored := ⟨h.same, h.members, h.topics⟩
    have conns : ∀ one, ((x.rehook id c c.hooks).clean id act).conns.find? one =
        x.conns.find? one := by
      intro one
      rw [conns_clean, find?_conns_rehook]
      split
      · next self => rw [← self, found]
      · rfl
    have subscriptions : ∀ one, ((x.rehook id c c.hooks).clean id act).subscriptions.find? one =
        if act = .forgetTopics ∧ id = one then none else x.subscriptions.find? one := by
      intro one
      have shape := find?_subscriptions_cleanAll (x.rehook id c c.hooks) id one [act]
      simpa [cleanAll, eq_comm, Exchange.rehook, seatOf] using shape
    have seats : ∀ one, ((x.rehook id c c.hooks).clean id act).seatOf one =
        if act = .vacateRoom ∧ id = one then none else x.seatOf one := by
      intro one
      have shape := seatOf_cleanAll (x.rehook id c c.hooks) id one [act]
      simpa [cleanAll, eq_comm, Exchange.rehook, seatOf] using shape
    rw [attach_eq found, fired]
    exact {
      toMirrored := mirrored.clean id act
      hooked := by
        intro one k present open'
        rw [conns] at present
        have different : one ≠ id := by
          rintro rfl
          rw [found] at present
          cases present
          rw [state] at open'
          cases open'
        obtain ⟨acts, waiting, forgets, vacates⟩ := h.hooked one k present open'
        refine ⟨acts, waiting, ?_, ?_⟩
        · rw [subscriptions, if_neg fun w => different w.2.symm]
          exact fun some => (forgets some).resolve_right fun w => different w.1
        · rw [seats, if_neg fun w => different w.2.symm]
          exact fun some => (vacates some).resolve_right fun w => different w.1
      fired := by
        intro one k present
        rw [conns] at present
        exact h.fired one k present
      gone := by
        intro one closed'
        have before : x.isClosed one = true := by
          rwa [isClosed, conns] at closed'
        obtain ⟨subscription, seat⟩ := h.gone one before
        rw [subscriptions, seats]
        constructor
        · rcases subscription with none | ⟨rfl, rfl⟩
          · simp [none]
          · simp
        · rcases seat with none | ⟨rfl, rfl⟩
          · simp [none]
          · simp }

theorem Owing.paid {act : Cleanup} (h : x.Owing id act) (opened : x.isClosed id = false)
    (waits : ∀ c (acts : List Cleanup), x.conns.find? id = some c →
      c.hooks.pending? = some (acts.map .plain) → act ∈ acts) : x.Consistent where
  toMirrored := h.toMirrored
  hooked := by
    intro one c present open'
    obtain ⟨acts, waiting, forgets, vacates⟩ := h.hooked one c present open'
    refine ⟨acts, waiting, ?_, ?_⟩
    · intro some
      rcases forgets some with member | ⟨rfl, rfl⟩
      · exact member
      · exact waits c acts present waiting
    · intro some
      rcases vacates some with member | ⟨rfl, rfl⟩
      · exact member
      · exact waits c acts present waiting
  fired := h.fired
  gone := by
    intro one closed
    have different : one ≠ id := by
      rintro rfl
      rw [opened] at closed
      cases closed
    obtain ⟨subscription, seat⟩ := h.gone one closed
    exact ⟨subscription.resolve_right fun w => different w.1,
      seat.resolve_right fun w => different w.1⟩

theorem Consistent.waits (h : x.Consistent) {c : Conn} {acts : List Cleanup}
    (found : x.conns.find? id = some c) (opened : x.isClosed id = false)
    (waiting : c.hooks.pending? = some (acts.map .plain)) : x.Hooked id c acts := by
  rw [isClosed_of_find? found] at opened
  obtain ⟨acts', hooked⟩ := h.hooked id c found opened
  have waiting' := hooked.waiting
  rw [waiting, Option.some_inj] at waiting'
  rw [Callback.map_plain_injective waiting']
  exact hooked

end Switchboard.Exchange
