import Switchboard.Proofs.Exchange.Operations
import Switchboard.Proofs.Hub.Chatted

/-!
What a chat frame, an event and a fault may do to the exchange.
-/

namespace Switchboard.Hub

open Exchange (Leads)

/-- The deeds of one chat frame of a connection: an administrator is attached to rooms, a user is
told of a conversation and moves to its room, a member talks in a room. -/
inductive ChatDeed (h : Hub) (who : Identity) (id : ConnId) (e : Envelope) : Deed → Prop
  | attach (room : ConversationId) (type : e.type? = some .adminJoin) (admin : who.role = .admin) :
    ChatDeed h who id e (.join (.room room) id)
  | respond {room : ConversationId} {store : Store} {frame : Frame}
    (type : e.type? = some .userJoin) (created : h.store.createConversation = .ok (room, store))
    (written : Frame.ofEnvelope (.joinResponse room) = .ok frame) :
    ChatDeed h who id e (.send id frame)
  | greet {room : ConversationId} {store : Store} {d : Deed}
    (type : e.type? = some .userJoin) (created : h.store.createConversation = .ok (room, store))
    (greets : h.exchange.Greets room id d) : ChatDeed h who id e d
  | talk {room : ConversationId} {content : String} {frame : Frame} {d : Deed}
    (type : e.type? = some .texting) (member : id ∈ h.exchange.membersOf (.room room))
    (written : Frame.ofEnvelope (.texting room content) = .ok frame)
    (publishes : d.Publishes (h.exchange.membersOf (.room room)) (.room room) frame) :
    ChatDeed h who id e d

variable {h : Hub} {who : Identity} {id : ConnId} {e : Envelope}

theorem opening_leads {room : ConversationId} {store : Store} {frame : Frame} {x : Exchange}
    (consistent : h.exchange.Consistent) (known : h.exchange.Knows id) (who : Identity)
    (type : e.type? = some .userJoin) (created : h.store.createConversation = .ok (room, store))
    (written : Frame.ofEnvelope (.joinResponse room) = .ok frame)
    (accepted : h.exchange.send id frame = .ok x) :
    Leads (h.ChatDeed who id e) h.exchange (x.joinRoom room id).2 := by
  have responded : Leads (h.ChatDeed who id e) h.exchange x := by
    have first : Leads (h.ChatDeed who id e) h.exchange (h.exchange.perform (.send id frame)) :=
      .single (.respond type created written) h.exchange
    rwa [Exchange.perform_send accepted] at first
  have members : x.membersOf (.room room) = h.exchange.membersOf (.room room) := by
    obtain ⟨c, k, -, -, -, -, -, rfl⟩ := Exchange.send_ok accepted
    rfl
  have joined := Exchange.joinRoom_leads (consistent.send accepted)
    ((Exchange.knows_send accepted id).mpr known) room
  apply responded.trans
  apply joined.mono
  intro d greets
  rw [Exchange.Greets, members] at greets
  exact .greet type created greets

theorem chat_leads (consistent : h.exchange.Consistent) (known : h.exchange.Knows id)
    (who : Identity) (e : Envelope) :
    Leads (h.ChatDeed who id e) h.exchange (h.chat who id e).2.exchange := by
  have chatted := h.chat_chatted who id e
  generalize h.chat who id e = answered at chatted ⊢
  cases chatted with
  | refused _ _ => exact .refl _
  | attached type admin =>
    apply (Exchange.joinAllRooms_leads h.exchange id).mono
    rintro d ⟨room, -, rfl⟩
    exact .attach room type admin
  | untold _ _ _ _ => exact .refl _
  | ungreeted _ type created written accepted greeted =>
    have leads := opening_leads consistent known who type created written accepted
    rw [greeted] at leads
    exact leads
  | opened type created written accepted greeted =>
    have leads := opening_leads consistent known who type created written accepted
    obtain ⟨bus, -, shape⟩ := announce_eq _ _
    rw [greeted] at leads
    rw [shape]
    exact leads
  | @talked room _ frame type _ _ member written =>
    apply (Exchange.publish_leads h.exchange (.room room) frame).mono
    intro d publishes
    exact .talk type member written publishes

/-- Only the connection that sent the frame is made a member of anything. -/
theorem ChatDeed.possible {d : Deed} (deed : h.ChatDeed who id e d) (known : h.exchange.Knows id) :
    h.exchange.Possible d := by
  cases deed with
  | attach room type admin => exact known
  | respond type created written => trivial
  | greet type created greets =>
    rcases greets with rfl | ⟨frame, -, publishes⟩
    · exact known
    · cases d <;> trivial
  | talk type member written publishes => cases d <;> trivial

theorem chat_settings (h : Hub) (who : Identity) (id : ConnId) (e : Envelope) :
    (h.chat who id e).2.tokens = h.tokens ∧ (h.chat who id e).2.limits = h.limits := by
  have chatted := h.chat_chatted who id e
  generalize h.chat who id e = answered at chatted ⊢
  cases chatted with
  | opened _ _ _ _ _ =>
    obtain ⟨bus, -, shape⟩ := announce_eq _ _
    rw [shape]
    exact ⟨rfl, rfl⟩
  | talked _ _ _ _ _ =>
    obtain ⟨store, -, shape⟩ := h.log_eq _ _ _
    rw [shape]
    exact ⟨rfl, rfl⟩
  | _ => exact ⟨rfl, rfl⟩

theorem chat_bus (h : Hub) (who : Identity) (id : ConnId) (e : Envelope) :
    h.bus.Grown (h.chat who id e).2.bus := by
  have chatted := h.chat_chatted who id e
  generalize h.chat who id e = answered at chatted ⊢
  cases chatted with
  | opened _ _ _ _ _ =>
    obtain ⟨bus, grown, shape⟩ := announce_eq _ _
    rw [shape]
    exact grown
  | talked _ _ _ _ _ =>
    obtain ⟨store, -, shape⟩ := h.log_eq _ _ _
    rw [shape]
    exact Or.inl rfl
  | _ => exact Or.inl rfl

/-! ### Events and faults -/

theorem dispatch_settings (h : Hub) (event : Event) :
    (h.dispatch event).2.tokens = h.tokens ∧ (h.dispatch event).2.limits = h.limits := by
  obtain ⟨store, -, shape | ⟨frame, -, shape⟩⟩ := h.dispatch_cases event
  · rw [shape]
    exact ⟨rfl, rfl⟩
  · rw [shape]
    exact ⟨rfl, rfl⟩

theorem dispatch_leads (h : Hub) (event : Event) :
    Leads (fun d => ∃ frame, event.frame = .ok frame ∧
      d.Publishes (h.exchange.membersOf event.topic) event.topic frame) h.exchange
      (h.dispatch event).2.exchange := by
  obtain ⟨store, -, shape | ⟨frame, written, shape⟩⟩ := h.dispatch_cases event
  · rw [shape]
    exact .refl _
  · rw [shape]
    apply (Exchange.publish_leads h.exchange event.topic frame).mono
    intro d publishes
    exact ⟨frame, written, publishes⟩

theorem tell_leads (h : Hub) (id : ConnId) (fault : Fault) :
    Leads (fun d => ∃ frame, Frame.ofFault fault = .ok frame ∧ d = .send id frame) h.exchange
      (h.tell id fault).exchange := by
  unfold tell
  split
  · exact .refl _
  · next frame written =>
    have told : Leads (fun d => ∃ frame, Frame.ofFault fault = .ok frame ∧ d = .send id frame)
        h.exchange (h.exchange.perform (.send id frame)) := .single ⟨frame, written, rfl⟩ _
    split
    · next accepted => rwa [Exchange.perform_send accepted] at told
    · exact .refl _

theorem tell_eq (h : Hub) (id : ConnId) (fault : Fault) :
    h.tell id fault = { h with exchange := (h.tell id fault).exchange } := by
  unfold tell
  split
  · rfl
  · split <;> rfl

theorem reject_eq (h : Hub) (id : ConnId) (fault : Fault) :
    h.reject id fault = { h with exchange := (h.reject id fault).exchange } := by
  unfold reject close
  rw [tell_eq]

theorem close_leads (h : Hub) (id : ConnId) :
    Leads (· = .close id) h.exchange (h.close id).exchange := by
  refine ⟨[.close id], ?_, rfl⟩
  intro d member
  exact List.mem_singleton.mp member

theorem reject_leads (h : Hub) (id : ConnId) (fault : Fault) :
    Leads (fun d => (∃ frame, Frame.ofFault fault = .ok frame ∧ d = .send id frame) ∨ d = .close id)
      h.exchange (h.reject id fault).exchange :=
  ((tell_leads h id fault).mono fun _ => Or.inl).trans
    ((close_leads (h.tell id fault) id).mono fun _ => Or.inr)

theorem consistent_tell (consistent : h.exchange.Consistent) (id : ConnId) (fault : Fault) :
    (h.tell id fault).exchange.Consistent := by
  refine ((tell_leads h id fault).consistent consistent ?_).1
  rintro d ⟨frame, -, rfl⟩
  trivial

theorem sentTo_reject (consistent : h.exchange.Consistent) (id : ConnId) (fault : Fault) :
    (h.reject id fault).exchange.sentTo id = h.exchange.sentTo id ∨
      ∃ frame, Frame.ofFault fault = .ok frame ∧
        (h.reject id fault).exchange.sentTo id = h.exchange.sentTo id ++ [frame] := by
  unfold reject close
  rw [Exchange.sentTo_close (consistent_tell consistent id fault)]
  unfold tell
  split
  · exact Or.inl rfl
  · next frame written =>
    split
    · next x sent =>
      right
      exact ⟨frame, written, (Exchange.sentTo_send sent id).trans (if_pos rfl)⟩
    · exact Or.inl rfl

theorem isClosed_reject (consistent : h.exchange.Consistent) (id : ConnId) (fault : Fault) :
    (h.reject id fault).exchange.isClosed id = true := by
  unfold reject close
  rw [Exchange.isClosed_close (consistent_tell consistent id fault), decide_eq_true rfl,
    Bool.true_or]

end Switchboard.Hub
