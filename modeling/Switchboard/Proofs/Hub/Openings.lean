import Switchboard.Proofs.Hub.Chatted

/-!
Which chat frames open a conversation, and to which room a message goes.
-/

namespace Switchboard.Hub

open Store (SameRooms)

variable {h next : Hub} {who : Identity} {id : ConnId} {e : Envelope}

theorem chat_store (h : Hub) (who : Identity) (id : ConnId) (e : Envelope) :
    (e.type? = some .userJoin ∧
        ∃ room, h.store.createConversation = .ok (room, (h.chat who id e).2.store)) ∨
      (SameRooms h.store (h.chat who id e).2.store ∧
        ∀ room store, h.store.createConversation = .ok (room, store) →
          e.type? ≠ some .userJoin) := by
  have other : ∀ {type : MessageType}, e.type? = some type → type ≠ .userJoin →
      ∀ room store, h.store.createConversation = .ok (room, store) → e.type? ≠ some .userJoin := by
    intro type shape different _ _ _ userJoin
    rw [shape] at userJoin
    cases userJoin
    exact different rfl
  have chatted := h.chat_chatted who id e
  generalize h.chat who id e = answered at chatted ⊢
  cases chatted with
  | refused _ unopened =>
    right
    refine ⟨.refl _, ?_⟩
    intro room store created type
    obtain ⟨fault, failed⟩ := unopened type
    rw [failed] at created
    cases created
  | attached type _ => exact Or.inr ⟨.refl _, other type MessageType.noConfusion⟩
  | untold _ type created _ => exact Or.inl ⟨type, _, created⟩
  | ungreeted _ type created _ _ _ => exact Or.inl ⟨type, _, created⟩
  | opened type created _ _ _ =>
    obtain ⟨bus, -, shape⟩ := announce_eq _ _
    rw [shape]
    exact Or.inl ⟨type, _, created⟩
  | talked type _ _ _ _ =>
    obtain ⟨store, same, shape⟩ := h.log_eq _ _ _
    rw [shape]
    exact Or.inr ⟨same, other type MessageType.noConfusion⟩

theorem texting_ok (type : e.type? = some .texting)
    (accepted : h.chat who id e = (.ok (), next)) :
    ∃ room content frame, id ∈ h.exchange.membersOf (.room room) ∧
      Frame.ofEnvelope (.texting room content) = .ok frame ∧
      next.exchange = (h.exchange.publish (.room room) frame).2 := by
  have chatted := h.chat_chatted who id e
  rw [accepted] at chatted
  cases chatted with
  | attached other _ => rw [type] at other; cases other
  | opened other _ _ _ _ => rw [type] at other; cases other
  | talked _ _ _ member written => exact ⟨_, _, _, member, written, rfl⟩

theorem dispatch_store (h : Hub) (event : Event) :
    SameRooms h.store (h.dispatch event).2.store := by
  obtain ⟨store, same, shape | ⟨frame, -, shape⟩⟩ := h.dispatch_cases event
  · rw [shape]
    exact same
  · rw [shape]
    exact same

end Switchboard.Hub
