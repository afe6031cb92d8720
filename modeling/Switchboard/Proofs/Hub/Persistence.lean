import Switchboard.Proofs.Amid
import Switchboard.Proofs.Hub.Chatted

/-!
What a hub does does not depend on what its store holds. Two hubs whose stores give out the same
conversation numbers answer alike and stay alike, whichever other writes the stores take.
-/

namespace Switchboard

/-- The same answer, and what is left is related. -/
structure Echo {α σ : Type} (R : σ → σ → Prop) (p q : α × σ) : Prop where
  answer : p.1 = q.1
  after : R p.2 q.2

namespace Store

/-- Stores that give out the same numbers from here on, or fail to. -/
structure Alike (s t : Store) : Prop extends SameRooms s t where
  failing : t.outage.conversations = s.outage.conversations

variable {s t u : Store} {room : ConversationId}

theorem alike_equivalence : Equivalence Alike where
  refl s := ⟨.refl s, rfl⟩
  symm alike := ⟨⟨alike.last.symm, alike.keys.symm⟩, alike.failing.symm⟩
  trans first second :=
    ⟨⟨second.last.trans first.last, second.keys.trans first.keys⟩,
      second.failing.trans first.failing⟩

theorem note_alike (s : Store) (audience : Audience) (n : Notification) :
    s.Alike (s.note audience n).2 := by
  refine ⟨s.note_same audience n, ?_⟩
  unfold note
  dsimp only
  split <;> rfl

theorem write_alike (s : Store) (room : ConversationId) (sender : AccountId) (content : String) :
    s.Alike (s.write room sender content).2 := by
  refine ⟨s.write_same room sender content, ?_⟩
  unfold write
  split
  · rfl
  · split
    · rfl
    · split <;> rfl

theorem shut_alike (s : Store) (room : ConversationId) : s.Alike (s.shut room).2 := by
  unfold shut
  split
  · exact alike_equivalence.refl s
  · next c found => exact ⟨⟨rfl, Table.keys_insert_of_find? found _⟩, rfl⟩

theorem Alike.openNext (alike : s.Alike t) :
    (∃ why, s.openNext = (.error why, s) ∧ t.openNext = (.error why, t)) ∨
      ∃ room s' t', s.openNext = (.ok room, s') ∧ t.openNext = (.ok room, t') ∧ s'.Alike t' := by
  unfold Store.openNext
  rw [alike.failing, alike.last]
  split
  · exact Or.inl ⟨_, rfl, rfl⟩
  · refine Or.inr ⟨_, _, _, rfl, rfl, ⟨rfl, ?_⟩, alike.failing⟩
    change (t.conversations.insert _ _).keys = (s.conversations.insert _ _).keys
    rw [Table.keys_insert, Table.keys_insert, alike.keys]

end Store

namespace Hub

def withStore (h : Hub) (s : Store) : Hub := { h with store := s }

/-- Hubs that differ in what their stores hold, and in nothing else. -/
def Alike (h h' : Hub) : Prop := ∃ s, h.store.Alike s ∧ h' = h.withStore s

variable {h h' : Hub} {who : Identity} {id : ConnId} {e : Envelope} {room : ConversationId}

theorem alike_equivalence : Equivalence Alike where
  refl h := ⟨h.store, Store.alike_equivalence.refl _, rfl⟩
  symm := by
    rintro h h' ⟨s, alike, rfl⟩
    exact ⟨h.store, Store.alike_equivalence.symm alike, rfl⟩
  trans := by
    rintro h h' h'' ⟨s, alike, rfl⟩ ⟨t, alike', rfl⟩
    exact ⟨t, Store.alike_equivalence.trans alike alike', rfl⟩

theorem Alike.meet {k k' : Hub} (left : h.Alike k) (alike : h.Alike h') (right : h'.Alike k') :
    k.Alike k' :=
  related_meet alike_equivalence left alike right

/-! ### Writes -/

theorem log_alike (h : Hub) (room : ConversationId) (sender : AccountId) (content : String) :
    h.Alike (h.log room sender content) := by
  exact ⟨_, h.store.write_alike room sender content, rfl⟩

theorem record_alike (h : Hub) (event : Event) : h.Alike (h.record event) := by
  cases event with
  | notification audience n => exact ⟨_, h.store.note_alike audience n, rfl⟩
  | conversation e => exact alike_equivalence.refl h

/-! ### What does not look at the store -/

theorem Alike.exchange_eq (alike : h.Alike h') : h'.exchange = h.exchange := by
  obtain ⟨s, -, rfl⟩ := alike
  rfl

theorem Alike.exchanged (alike : h.Alike h') (x : Exchange) :
    Alike { h with exchange := x } { h' with exchange := x } := by
  obtain ⟨s, alike, rfl⟩ := alike
  exact ⟨s, alike, rfl⟩

theorem Alike.publish (alike : h.Alike h') (topic : Topic) (frame : Frame) :
    Alike { h with exchange := (h.exchange.publish topic frame).2 }
      { h' with exchange := (h'.exchange.publish topic frame).2 } := by
  rw [alike.exchange_eq]
  exact alike.exchanged _

theorem Alike.tell (alike : h.Alike h') (id : ConnId) (fault : Fault) :
    (h.tell id fault).Alike (h'.tell id fault) := by
  unfold Hub.tell
  rw [alike.exchange_eq]
  cases Frame.ofFault fault with
  | error _ => exact alike
  | ok frame =>
    dsimp only
    cases h.exchange.send id frame with
    | error _ => exact alike
    | ok x => exact alike.exchanged x

theorem Alike.close (alike : h.Alike h') (id : ConnId) : (h.close id).Alike (h'.close id) := by
  unfold Hub.close
  rw [alike.exchange_eq]
  exact alike.exchanged _

theorem Alike.reject (alike : h.Alike h') (id : ConnId) (fault : Fault) :
    (h.reject id fault).Alike (h'.reject id fault) :=
  (alike.tell id fault).close id

theorem Alike.announce (alike : h.Alike h') (event : ConversationEvent) :
    (h.announce event).Alike (h'.announce event) := by
  obtain ⟨s, alike, rfl⟩ := alike
  unfold Hub.announce withStore
  cases h.bus.enqueue (.conversation event) with
  | error _ => exact ⟨s, alike, rfl⟩
  | ok bus => exact ⟨s, alike, rfl⟩

theorem Alike.sendJoinResponse (alike : h.Alike h') (room : ConversationId) (id : ConnId) :
    (∃ why, h.sendJoinResponse room id = .error why ∧ h'.sendJoinResponse room id = .error why) ∨
      ∃ k k', h.sendJoinResponse room id = .ok k ∧ h'.sendJoinResponse room id = .ok k' ∧
        k.Alike k' := by
  unfold Hub.sendJoinResponse
  rw [alike.exchange_eq]
  cases Frame.ofEnvelope (.joinResponse room) with
  | error why => exact Or.inl ⟨why, rfl, rfl⟩
  | ok frame =>
    dsimp only
    cases h.exchange.send id frame with
    | error why => exact Or.inl ⟨why, rfl, rfl⟩
    | ok x => exact Or.inr ⟨_, _, rfl, rfl, alike.exchanged x⟩

/-! ### Chat frames -/

theorem Alike.adminJoin (alike : h.Alike h') (who : Identity) (id : ConnId) :
    Echo Alike (h.adminJoin who id) (h'.adminJoin who id) := by
  obtain ⟨s, alike, rfl⟩ := alike
  unfold Hub.adminJoin
  split
  · exact ⟨rfl, s, alike, rfl⟩
  · exact ⟨rfl, s, alike, rfl⟩

theorem Alike.userJoin (alike : h.Alike h') (who : Identity) (id : ConnId) :
    Echo Alike (h.userJoin who id) (h'.userJoin who id) := by
  unfold Hub.userJoin
  obtain ⟨s, stores, rfl⟩ := alike
  have alike : h.Alike (h.withStore s) := ⟨s, stores, rfl⟩
  rcases stores.openNext with ⟨why, left, right⟩ | ⟨room, t, t', left, right, later⟩
  · have right : (h.withStore s).store.openNext = (.error why, s) := right
    rw [left, right]
    exact ⟨rfl, alike⟩
  · have right : (h.withStore s).store.openNext = (.ok room, t') := right
    have opened : Alike { h with store := t } { h.withStore s with store := t' } := ⟨t', later, rfl⟩
    rw [left, right]
    dsimp only
    rcases opened.sendJoinResponse room id with ⟨why, left, right⟩ | ⟨k, k', left, right, told⟩
    · rw [left, right]
      exact ⟨rfl, opened⟩
    · rw [left, right]
      dsimp only
      rw [told.exchange_eq]
      have greeted := told.exchanged (k.exchange.joinRoom room id).2
      cases (k.exchange.joinRoom room id).1 with
      | error _ => exact ⟨rfl, greeted⟩
      | ok _ => exact ⟨rfl, greeted.announce _⟩

theorem Alike.texting (alike : h.Alike h') (who : Identity) (id : ConnId) (e : Envelope) :
    Echo Alike (h.texting who id e) (h'.texting who id e) := by
  have same := alike.exchange_eq
  unfold Hub.texting
  rw [same]
  cases e.conversation?.or (h.exchange.seatOf id) with
  | none => exact ⟨rfl, alike⟩
  | some room =>
    cases e.content? with
    | none => exact ⟨rfl, alike⟩
    | some content =>
      dsimp only
      split
      · cases Frame.ofEnvelope (.texting room content) with
        | error _ => exact ⟨rfl, alike⟩
        | ok frame =>
          have logged := (log_alike h room who.account content).meet alike
            (log_alike h' room who.account content)
          exact ⟨rfl, logged.publish (.room room) frame⟩
      · exact ⟨rfl, alike⟩

theorem Alike.chat (alike : h.Alike h') (who : Identity) (id : ConnId) (e : Envelope) :
    Echo Alike (h.chat who id e) (h'.chat who id e) := by
  unfold Hub.chat
  cases e.requireType with
  | error why => exact ⟨rfl, alike⟩
  | ok type =>
    cases type with
    | adminJoin => exact alike.adminJoin who id
    | userJoin => exact alike.userJoin who id
    | texting => exact alike.texting who id e
    | joinResponse => exact ⟨rfl, alike⟩

/-! ### Events -/

theorem Alike.dispatch (alike : h.Alike h') (event : Event) :
    Echo Alike (h.dispatch event) (h'.dispatch event) := by
  have recorded := (record_alike h event).meet alike (record_alike h' event)
  have same := recorded.exchange_eq
  unfold Hub.dispatch
  cases event.frame with
  | error _ => exact ⟨rfl, recorded⟩
  | ok frame => exact ⟨by simp only [same], recorded.publish event.topic frame⟩

end Hub

end Switchboard
