import Switchboard.Proofs.Exchange.Leads
import Switchboard.Proofs.Exchange.Standing

/-!
How many hooks wait with a connection. Each was left for a subscription or for a seat. The hook of a
seat that is given up stays, and the next seat leaves another.
-/

namespace Switchboard

theorem Hooks.pendingCount_eq {h : Hooks Cleanup} :
    h.pendingCount = h.waiting.count .forgetTopics + h.waiting.count .vacateRoom := by
  obtain ⟨_ | callbacks⟩ := h
  · rfl
  · change callbacks.length = (callbacks.map Callback.act).count _ + (callbacks.map _).count _
    induction callbacks with
    | nil => rfl
    | cons callback callbacks ih =>
      rw [List.length_cons, ih, List.map_cons]
      cases callback.act with
      | forgetTopics =>
        rw [List.count_cons_self, List.count_cons_of_ne Cleanup.noConfusion, Nat.add_right_comm]
      | vacateRoom =>
        rw [List.count_cons_self, List.count_cons_of_ne Cleanup.noConfusion, Nat.add_assoc]

namespace Exchange

def pendingHooks (x : Exchange) (id : ConnId) : Nat :=
  match x.conns.find? id with
  | some c => c.hooks.pendingCount
  | none => 0

/-- How many hooks of a kind a connection has a use for. -/
def needs (x : Exchange) (id : ConnId) : Cleanup → Nat
  | .forgetTopics => if (x.subscriptions.find? id).isSome then 1 else 0
  | .vacateRoom => if (x.seatOf id).isSome then 1 else 0

/-- What waits with an open connection is what it needs, and what was left for a seat since given
up. -/
structure Tallied (stale : ConnId → Cleanup → Nat) (x : Exchange) : Prop extends x.Consistent where
  tally : ∀ id, x.isClosed id = false → ∀ act,
    (x.waiting id).count act = x.needs id act + stale id act

variable {x y next : Exchange} {topic : Topic} {id one : ConnId} {room : ConversationId}
  {stale : ConnId → Cleanup → Nat}

theorem needs_le (x : Exchange) (id : ConnId) (act : Cleanup) : x.needs id act ≤ 1 := by
  unfold needs
  split <;> split <;> omega

theorem pendingHooks_eq (x : Exchange) (id : ConnId) :
    x.pendingHooks id =
      (x.waiting id).count .forgetTopics + (x.waiting id).count .vacateRoom := by
  unfold pendingHooks waiting standing
  cases x.conns.find? id with
  | none => rfl
  | some c => exact Hooks.pendingCount_eq

theorem Consistent.pendingHooks_closed (h : x.Consistent) (closed : x.isClosed id = true) :
    x.pendingHooks id = 0 := by
  unfold pendingHooks
  cases found : x.conns.find? id with
  | none => rfl
  | some c =>
    rw [isClosed_of_find? found] at closed
    simp only [Hooks.pendingCount, h.fired id c found closed]

theorem waiting_of_conns (same : y.conns = x.conns) (id : ConnId) :
    y.waiting id = x.waiting id := by
  rw [waiting, standing_of_conns same, waiting]

theorem empty_tallied : empty.Tallied stale where
  toConsistent := empty_consistent
  tally := fun _ opened => nomatch opened

theorem Tallied.kept (h : x.Tallied stale) (consistent : next.Consistent)
    (same : ∀ one, next.isClosed one = false → x.isClosed one = false ∧
      next.waiting one = x.waiting one ∧ next.needs one = x.needs one) : next.Tallied stale where
  toConsistent := consistent
  tally := by
    intro one opened act
    obtain ⟨before, waits, needed⟩ := same one opened
    rw [waits, needed]
    exact h.tally one before act

/-! ### A new hook -/

section attaching

variable {c : Conn} {acts : List Cleanup}

theorem waiting_rehook (x : Exchange) (id : ConnId) (c : Conn) (hooks : Hooks Cleanup) :
    (x.rehook id c hooks).waiting id = hooks.waiting :=
  waiting_of_standing ((x.standing_withConn id { c with hooks := hooks } id).trans (if_pos rfl))

theorem waiting_rehook_other (different : id ≠ one) (c : Conn) (hooks : Hooks Cleanup) :
    (x.rehook id c hooks).waiting one = x.waiting one := by
  have shape : (x.rehook id c hooks).standing one = x.standing one :=
    (x.standing_withConn id { c with hooks := hooks } one).trans (if_neg different)
  rw [waiting, shape, waiting]

theorem waiting_attach (found : x.conns.find? id = some c)
    (waits : c.hooks.pending? = some (acts.map .plain)) (act : Cleanup) :
    (x.attach id act).waiting id = acts ++ [act] := by
  rw [attach_eq found, waits]
  change (x.rehook id c ⟨some (acts.map .plain ++ [.plain act])⟩).waiting id = acts ++ [act]
  rw [waiting_rehook]
  exact Hooks.waiting_plain (by simp)

theorem needs_attach (found : x.conns.find? id = some c)
    (waits : c.hooks.pending? = some (acts.map .plain)) (act : Cleanup) :
    (x.attach id act).needs id = x.needs id := by
  rw [attach_eq found, waits]
  rfl

theorem needs_clean_other (different : id ≠ one) (act : Cleanup) :
    (x.clean id act).needs one = x.needs one := by
  cases act with
  | forgetTopics =>
    have subscribed : (x.forget id).subscriptions.find? one = x.subscriptions.find? one :=
      (find?_subscriptions_forget x id one).trans (if_neg different)
    have seat : (x.forget id).seatOf one = x.seatOf one :=
      congrArg (Table.find? · one) (seats_forget x id)
    funext kind
    cases kind <;> simp only [clean, needs, subscribed, seat]
  | vacateRoom =>
    have seat : (x.vacate id).seatOf one = x.seatOf one :=
      (Table.find?_erase x.seats id one).trans (if_neg different)
    funext kind
    cases kind with
    | forgetTopics => rfl
    | vacateRoom => simp only [clean, needs, seat]

theorem attach_other (different : id ≠ one) (act : Cleanup) :
    (x.attach id act).waiting one = x.waiting one ∧ (x.attach id act).needs one = x.needs one := by
  cases found : x.conns.find? id with
  | none =>
    rw [attach_unknown found]
    exact ⟨rfl, rfl⟩
  | some c =>
    rw [attach_eq found]
    split
    · exact ⟨waiting_rehook_other different c _, rfl⟩
    · constructor
      · rw [waiting_of_conns (conns_clean _ id act), waiting_rehook_other different]
      · exact needs_clean_other different act

end attaching

theorem Tallied.attach (h : x.Tallied stale) {act : Cleanup} (conns : y.conns = x.conns)
    (arises : ∀ one kind, y.needs one kind =
      x.needs one kind + if id = one ∧ act = kind then 1 else 0)
    (consistent : (y.attach id act).Consistent) : (y.attach id act).Tallied stale where
  toConsistent := consistent
  tally := by
    intro one opened kind
    have before : x.isClosed one = false := by
      rwa [(SameConns.attach y id act).closed, isClosed, conns] at opened
    have counted := h.tally one before kind
    by_cases self : id = one
    · subst self
      cases found : x.conns.find? id with
      | none =>
        rw [isClosed, found] at before
        cases before
      | some c =>
        obtain ⟨acts, hooked⟩ := h.hooked id c found ((isClosed_of_find? found).symm.trans before)
        have found' : y.conns.find? id = some c := by rw [conns, found]
        have waited : x.waiting id = acts :=
          (waiting_of_standing (standing_of_find? found)).trans (Hooks.waiting_plain hooked.waiting)
        rw [waited] at counted
        rw [waiting_attach found' hooked.waiting, needs_attach found' hooked.waiting, arises,
          List.count_append, counted]
        simp only [List.count_singleton, beq_iff_eq, true_and]
        omega
    · obtain ⟨waits, needed⟩ := attach_other (x := y) self act
      rw [waits, needed, waiting_of_conns conns, arises, if_neg fun both => self both.1]
      exact counted

/-! ### Deeds -/

theorem Tallied.join (h : x.Tallied stale) (known : x.Knows id) (topic : Topic) :
    (x.join topic id).2.Tallied stale := by
  have consistent := h.toConsistent.join known topic
  by_cases member : id ∈ x.membersOf topic
  · rwa [join_member member]
  · have seat : ∀ one, (x.enlist topic id).2.seatOf one = x.seatOf one :=
      fun one => congrArg (Table.find? · one) (seats_enlist x topic id)
    cases found : x.subscriptions.find? id with
    | none =>
      rw [join_first member found] at consistent ⊢
      apply h.attach (conns_enlist x topic id) ?_ consistent
      intro one kind
      cases kind with
      | forgetTopics =>
        unfold needs
        rw [find?_subscriptions_enlist]
        by_cases self : id = one
        · subst self
          simp [member, found]
        · simp [self]
      | vacateRoom => simp [needs, seat]
    | some topics =>
      rw [join_later member found] at consistent ⊢
      apply h.kept consistent
      intro one opened
      have before : x.isClosed one = false := by rwa [isClosed, conns_enlist] at opened
      refine ⟨before, waiting_of_conns (conns_enlist x topic id) one, ?_⟩
      funext kind
      cases kind with
      | forgetTopics =>
        unfold needs
        rw [find?_subscriptions_enlist]
        by_cases self : id = one
        · subst self
          simp [member, found]
        · simp [self]
      | vacateRoom => simp only [needs, seat]

theorem needs_seated (x : Exchange) (id one : ConnId) (room : ConversationId) (act : Cleanup) :
    (x.seated id room).needs one act =
      if id = one ∧ act = .vacateRoom then 1 else x.needs one act := by
  cases act with
  | forgetTopics =>
    rw [if_neg fun both => Cleanup.noConfusion both.2]
    rfl
  | vacateRoom =>
    unfold needs
    rw [seatOf_seated]
    by_cases self : id = one <;> simp [self]

theorem needs_leave (x : Exchange) (topic : Topic) (id one : ConnId) :
    (x.leave topic id).2.needs one = x.needs one := by
  have subscribed : ((x.leave topic id).2.subscriptions.find? one).isSome =
      (x.subscriptions.find? one).isSome := by
    rw [find?_subscriptions_leave]
    split
    · exact Option.isSome_map
    · rfl
  have seat : (x.leave topic id).2.seatOf one = x.seatOf one :=
    congrArg (Table.find? · one) (seats_leave x topic id)
  funext act
  cases act with
  | forgetTopics => simp only [needs, subscribed]
  | vacateRoom => simp only [needs, seat]

theorem Tallied.leave (h : x.Tallied stale) (topic : Topic) (id : ConnId) :
    (x.leave topic id).2.Tallied stale := by
  apply h.kept (h.toConsistent.leave topic id)
  intro one opened
  rw [(SameConns.leave x topic id).closed] at opened
  exact ⟨opened, waiting_of_conns (conns_leave x topic id) one, needs_leave x topic id one⟩

theorem Tallied.sit (h : x.Tallied stale) (known : x.Knows id) (room : ConversationId) :
    (x.sit room id).Tallied stale := by
  have consistent := h.toConsistent.sit known room
  cases found : x.seatOf id with
  | none =>
    rw [sit_first found] at consistent ⊢
    apply h.attach (y := x.seated id room) rfl ?_ consistent
    intro one kind
    rw [needs_seated]
    by_cases both : id = one ∧ kind = .vacateRoom
    · obtain ⟨rfl, rfl⟩ := both
      simp [needs, found]
    · rw [if_neg both, if_neg fun same => both ⟨same.1, same.2.symm⟩, Nat.add_zero]
  | some previous =>
    -- the hook of the seat before serves the new one
    have again : (x.seated id room).Tallied stale := by
      apply h.kept (h.toConsistent.seated_again found room)
      intro one opened
      refine ⟨opened, rfl, ?_⟩
      funext kind
      rw [needs_seated]
      split
      · next both =>
        obtain ⟨rfl, rfl⟩ := both
        simp [needs, found]
      · rfl
    by_cases same : previous = room
    · rw [sit_again (same ▸ found)]
      exact again
    · rw [sit_elsewhere found same]
      exact again.leave _ id

/-- A hook outlives the seat that was given up. -/
theorem Tallied.vacate (h : x.Tallied stale) (id : ConnId) :
    (x.vacate id).Tallied fun one act =>
      stale one act + if id = one ∧ act = .vacateRoom then x.needs one act else 0 where
  toConsistent := h.toConsistent.vacate id
  tally := by
    intro one opened act
    have counted := h.tally one opened act
    have waits : (x.vacate id).waiting one = x.waiting one := rfl
    rw [waits, counted]
    cases act with
    | forgetTopics =>
      rw [if_neg fun both => Cleanup.noConfusion both.2]
      rfl
    | vacateRoom =>
      have seat : (x.vacate id).seatOf one = if id = one then none else x.seatOf one :=
        Table.find?_erase x.seats id one
      unfold needs
      rw [seat]
      by_cases self : id = one <;> simp [self, Nat.add_comm]

theorem Tallied.close (h : x.Tallied stale) (id : ConnId) : (x.close id).Tallied stale := by
  apply h.kept (h.toConsistent.close id)
  intro one opened
  rw [isClosed_close h.toConsistent, Bool.or_eq_false_iff, decide_eq_false_iff_not] at opened
  obtain ⟨different, before⟩ := opened
  refine ⟨before, ?_, ?_⟩
  · have conn : (x.close id).conns.find? one = x.conns.find? one :=
      (find?_conns_close h.toConsistent id one).trans (if_neg different)
    unfold waiting standing
    rw [conn]
  · funext act
    unfold needs
    rw [find?_subscriptions_close h.toConsistent, seatOf_close h.toConsistent, if_neg different,
      if_neg different]

theorem Tallied.withConn (h : x.Tallied stale) {c k : Conn} (found : x.conns.find? id = some c)
    (closed : k.closed = c.closed) (hooks : k.hooks = c.hooks) :
    (x.withConn id k).Tallied stale := by
  apply h.kept (h.toConsistent.withConn found closed hooks)
  intro one opened
  rw [isClosed_withConn_same found closed] at opened
  refine ⟨opened, ?_, rfl⟩
  rw [waiting, standing_withConn_same found closed hooks, waiting]

theorem Tallied.perform (h : x.Tallied stale) {d : Deed} (possible : x.Possible d)
    (stays : ∀ id, d ≠ .vacate id) : (x.perform d).Tallied stale := by
  cases d with
  | join topic id => exact h.join possible topic
  | leave topic id => exact h.leave topic id
  | move room id =>
    apply (h.sit possible room).join
    exact ((SameConns.sit x room id).knows id).mpr possible
  | vacate id => exact absurd rfl (stays id)
  | close id => exact h.close id
  | send id frame =>
    rcases attempt_cases x id frame with accepted | same
    · obtain ⟨c, k, found, opened, kept, hooks, -, shape⟩ := send_ok accepted
      rw [Exchange.perform, shape]
      exact h.withConn found (kept.trans opened.symm) hooks
    · rw [Exchange.perform, same]
      exact h
  | relink id link =>
    cases found : x.conns.find? id with
    | none =>
      rw [Exchange.perform, setLink_unknown found]
      exact h
    | some c =>
      rw [Exchange.perform, setLink_eq found]
      exact h.withConn found rfl rfl

theorem Leads.tallied {kind : Deed → Prop} (leads : Leads kind x next) (h : x.Tallied stale)
    (possible : ∀ d, kind d → x.Possible d) (stays : ∀ d, kind d → ∀ id, d ≠ .vacate id) :
    next.Tallied stale :=
  (leads.keeps_consistent h.toConsistent possible (·.Tallied stale) h
    fun _ d _ now tallied allowed => tallied.perform now (stays d allowed)).2.2

/-! ### Calls -/

theorem Tallied.connect (h : x.Tallied stale) (unknown : ¬ x.Knows id)
    (unused : ∀ act, stale id act = 0) (link : Link) : (x.connect id link).Tallied stale where
  toConsistent := h.toConsistent.connect unknown link
  tally := by
    intro one opened act
    by_cases self : id = one
    · subst self
      obtain ⟨subscription, seat⟩ := h.gone id (isClosed_unknown unknown)
      have waits : (x.connect id link).waiting id = [] :=
        waiting_of_standing ((standing_connect x id link id).trans (if_pos rfl))
      have needless : (x.connect id link).needs id act = 0 := by
        change x.needs id act = 0
        cases act <;> simp [needs, subscription, seat]
      rw [waits, needless, unused]
      rfl
    · have stands : (x.connect id link).standing one = x.standing one :=
        (standing_connect x id link one).trans (if_neg self)
      rw [isClosed_connect, if_neg self] at opened
      rw [waiting, stands]
      exact h.tally one opened act

theorem Tallied.leaveRoom (h : x.Tallied stale) (id : ConnId) :
    (x.leaveRoom id).2.Tallied fun one act =>
      stale one act + if id = one ∧ act = .vacateRoom then x.needs one act else 0 := by
  unfold Exchange.leaveRoom
  split
  · exact (h.vacate id).leave _ id
  · next none =>
    refine ⟨h.toConsistent, ?_⟩
    intro one opened act
    have needless : (if id = one ∧ act = .vacateRoom then x.needs one act else 0) = 0 := by
      split
      · next both =>
        obtain ⟨rfl, rfl⟩ := both
        simp [needs, none]
      · rfl
    rw [needless]
    exact h.tally one opened act

end Exchange

end Switchboard
