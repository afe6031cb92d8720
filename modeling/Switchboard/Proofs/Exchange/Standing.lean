import Switchboard.Proofs.Exchange.Deeds

/-!
Views of an exchange that are enough to follow it while calls are under way: who is a member, who is
subscribed, and for each connection whether it is closed and which hooks wait.
-/

namespace Switchboard

def Callback.act {α : Type} : Callback α → α
  | .mk act _ => act

def Hooks.waiting {α : Type} (h : Hooks α) : List α := (h.pending?.getD []).map Callback.act

namespace Hooks

variable {α : Type}

theorem waiting_plain {h : Hooks α} {acts : List α} (waits : h.pending? = some (acts.map .plain)) :
    h.waiting = acts := by
  rw [waiting, waits]
  simp [Callback.plain, Callback.act, Function.comp_def]

theorem waiting_fired {h : Hooks α} (fired : h.pending? = none) : h.waiting = [] := by
  rw [waiting, fired]
  rfl

theorem register_waits {h : Hooks α} {acts : List α} (waits : h.pending? = some (acts.map .plain))
    (act : α) : h.register (.mk act []) = (⟨some ((acts ++ [act]).map .plain)⟩, []) := by
  obtain ⟨pending⟩ := h
  cases waits
  rw [register_waiting, List.map_append]
  rfl

end Hooks

namespace Exchange

variable {x : Exchange} {topic other : Topic} {id one : ConnId}

/-! ### Who is in which view -/

theorem mem_membersOf_enlist : one ∈ (x.enlist topic id).2.membersOf other ↔
    one ∈ x.membersOf other ∨ (other = topic ∧ one = id) := by
  rw [membersOf_enlist]
  by_cases here : topic = other
  · subst here
    by_cases member : id ∈ x.membersOf topic
    · simp only [member, not_true_eq_false, and_false, if_false, true_and]
      constructor
      · exact Or.inl
      · rintro (before | rfl)
        · exact before
        · exact member
    · simp [member]
  · simp [here, Ne.symm here]

theorem mem_topicsOf_enlist : other ∈ (x.enlist topic id).2.topicsOf one ↔
    other ∈ x.topicsOf one ∨ (other = topic ∧ one = id ∧ id ∉ x.membersOf topic) := by
  rw [topicsOf_enlist]
  by_cases self : id = one
  · subst self
    by_cases member : id ∈ x.membersOf topic
    · simp [member]
    · simp [member, or_comm]
  · simp [self, Ne.symm self]

theorem mem_membersOf_leave (nodup : ∀ topic, (x.membersOf topic).Nodup) :
    one ∈ (x.leave topic id).2.membersOf other ↔
      one ∈ x.membersOf other ∧ ¬ (other = topic ∧ one = id) := by
  rw [membersOf_leave]
  by_cases here : topic = other
  · subst here
    simp [(nodup topic).mem_erase_iff, and_comm]
  · simp [here, Ne.symm here]

theorem mem_topicsOf_leave (nodup : ∀ id, (x.topicsOf id).Nodup) :
    other ∈ (x.leave topic id).2.topicsOf one ↔
      other ∈ x.topicsOf one ∧ ¬ (other = topic ∧ one = id ∧ id ∈ x.membersOf topic) := by
  rw [topicsOf_leave]
  by_cases self : id = one
  · subst self
    by_cases member : id ∈ x.membersOf topic
    · simp [member, (nodup id).mem_erase_iff, and_comm]
    · simp [member]
  · simp [self, Ne.symm self]

theorem topicsOf_unsubscribe :
    (x.unsubscribe id).2.topicsOf one = if one = id then [] else x.topicsOf one := by
  unfold topicsOf unsubscribe
  by_cases self : one = id
  · simp [self]
  · simp [self, Ne.symm self]

/-! ### Where a connection stands -/

def standing (x : Exchange) (id : ConnId) : Option (Bool × Hooks Cleanup) :=
  (x.conns.find? id).map fun c => (c.closed, c.hooks)

theorem standing_of_find? {c : Conn} (found : x.conns.find? id = some c) :
    x.standing id = some (c.closed, c.hooks) := by
  rw [standing, found]
  rfl

theorem standing_of_conns {y : Exchange} (same : y.conns = x.conns) : y.standing = x.standing := by
  unfold standing
  rw [same]

theorem standing_withConn (x : Exchange) (id : ConnId) (c : Conn) (one : ConnId) :
    (x.withConn id c).standing one =
      if id = one then some (c.closed, c.hooks) else x.standing one := by
  unfold standing
  rw [find?_conns_withConn]
  split <;> rfl

theorem standing_withConn_same {c k : Conn} (found : x.conns.find? id = some c)
    (closed : k.closed = c.closed) (hooks : k.hooks = c.hooks) :
    (x.withConn id k).standing = x.standing := by
  funext one
  rw [standing_withConn]
  split
  · next self => rw [← self, standing_of_find? found, closed, hooks]
  · rfl

theorem standing_setLink (x : Exchange) (id : ConnId) (link : Link) :
    (x.setLink id link).standing = x.standing := by
  cases found : x.conns.find? id with
  | none => rw [setLink_unknown found]
  | some c =>
    rw [setLink_eq found]
    exact standing_withConn_same found rfl rfl

theorem standing_send {y : Exchange} {frame : Frame} (sent : x.send id frame = .ok y) :
    y.standing = x.standing := by
  obtain ⟨c, k, found, opened, kept, hooks, -, rfl⟩ := send_ok sent
  exact standing_withConn_same found (kept.trans opened.symm) hooks

theorem isClosed_standing (x : Exchange) (id : ConnId) :
    x.isClosed id = match x.standing id with
      | some (closed, _) => closed
      | none => true := by
  unfold isClosed standing
  cases x.conns.find? id <;> rfl

theorem knows_standing (x : Exchange) (id : ConnId) : x.Knows id ↔ (x.standing id).isSome := by
  unfold Knows standing
  rw [Option.isSome_map]

theorem standing_unknown (unknown : ¬ x.Knows id) : x.standing id = none := by
  rw [knows_standing] at unknown
  simpa using unknown

theorem standing_connect (x : Exchange) (id : ConnId) (link : Link) (one : ConnId) :
    (x.connect id link).standing one = if id = one then some (false, .fresh) else x.standing one :=
  x.standing_withConn id (.ofLink link) one

def waiting (x : Exchange) (id : ConnId) : List Cleanup :=
  match x.standing id with
  | some (_, hooks) => hooks.waiting
  | none => []

theorem waiting_of_standing {closed : Bool} {hooks : Hooks Cleanup}
    (stands : x.standing id = some (closed, hooks)) : x.waiting id = hooks.waiting := by
  rw [waiting, stands]

end Exchange

end Switchboard
