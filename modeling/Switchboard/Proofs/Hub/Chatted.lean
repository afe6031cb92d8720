import Switchboard.Hub.Chat
import Switchboard.Proofs.Bus
import Switchboard.Proofs.Store

/-!
All that a chat frame or an event may do to the hub, said once; what becomes of its parts is proved
from it.
-/

namespace Switchboard.Hub

open Store (SameRooms)

variable {h : Hub} {who : Identity} {id : ConnId} {e : Envelope}

/-! ### Help that may fail -/

theorem announce_eq (h : Hub) (event : ConversationEvent) :
    ∃ bus, h.bus.Grown bus ∧ h.announce event = { h with bus := bus } := by
  unfold announce
  split
  · next bus taken => exact ⟨bus, Or.inr ⟨_, taken⟩, rfl⟩
  · exact ⟨h.bus, Or.inl rfl, rfl⟩

theorem log_eq (h : Hub) (room : ConversationId) (sender : AccountId) (content : String) :
    ∃ store, SameRooms h.store store ∧ h.log room sender content = { h with store := store } := by
  exact ⟨_, h.store.write_same room sender content, rfl⟩

theorem record_eq (h : Hub) (event : Event) :
    ∃ store, SameRooms h.store store ∧ h.record event = { h with store := store } := by
  cases event with
  | notification audience n => exact ⟨_, h.store.note_same audience n, rfl⟩
  | conversation e => exact ⟨h.store, .refl _, rfl⟩

/-! ### Chat frames -/

/-- The answer to a chat frame, and the hub after it. A user's conversation stays, whatever fails
after it has been opened. -/
inductive Chatted (h : Hub) (who : Identity) (id : ConnId) (e : Envelope) :
    Except Refusal Unit × Hub → Prop
  | refused (why : Refusal)
    (unopened : e.type? = some .userJoin → ∃ fault, h.store.createConversation = .error fault) :
    Chatted h who id e (.error why, h)
  | attached (type : e.type? = some .adminJoin) (admin : who.role = .admin) :
    Chatted h who id e (.ok (), { h with exchange := (h.exchange.joinAllRooms id).2 })
  | untold {room : ConversationId} {store : Store} (why : Refusal)
    (type : e.type? = some .userJoin) (created : h.store.createConversation = .ok (room, store))
    (unsent : { h with store := store }.sendJoinResponse room id = .error why) :
    Chatted h who id e (.error why, { h with store := store })
  | ungreeted {room : ConversationId} {store : Store} {frame : Frame} {x y : Exchange}
    (why : Refusal) (type : e.type? = some .userJoin)
    (created : h.store.createConversation = .ok (room, store))
    (written : Frame.ofEnvelope (.joinResponse room) = .ok frame)
    (accepted : h.exchange.send id frame = .ok x)
    (greeted : x.joinRoom room id = (.error why, y)) :
    Chatted h who id e (.error why, { h with store := store, exchange := y })
  | opened {room : ConversationId} {store : Store} {frame : Frame} {x y : Exchange}
    {report : Report} (type : e.type? = some .userJoin)
    (created : h.store.createConversation = .ok (room, store))
    (written : Frame.ofEnvelope (.joinResponse room) = .ok frame)
    (accepted : h.exchange.send id frame = .ok x)
    (greeted : x.joinRoom room id = (.ok report, y)) :
    Chatted h who id e
      (.ok (), { h with store := store, exchange := y }.announce (.opened room who.account))
  | talked {room : ConversationId} {content : String} {frame : Frame}
    (type : e.type? = some .texting)
    (place : e.conversation?.or (h.exchange.seatOf id) = some room)
    (said : e.content? = some content) (member : id ∈ h.exchange.membersOf (.room room))
    (written : Frame.ofEnvelope (.texting room content) = .ok frame) :
    Chatted h who id e (.ok (), { h.log room who.account content with
      exchange := (h.exchange.publish (.room room) frame).2 })

theorem requireType_ok {type : MessageType} (known : e.requireType = .ok type) :
    e.type? = some type := by
  unfold Envelope.requireType at known
  split at known
  · next found => cases known; exact found
  · cases known

theorem sendJoinResponse_ok {room : ConversationId} {next : Hub}
    (sent : h.sendJoinResponse room id = .ok next) :
    ∃ frame x, Frame.ofEnvelope (.joinResponse room) = .ok frame ∧
      h.exchange.send id frame = .ok x ∧ next = { h with exchange := x } := by
  unfold sendJoinResponse at sent
  split at sent
  · cases sent
  · next frame written =>
    cases answer : h.exchange.send id frame with
    | error why => rw [answer] at sent; cases sent
    | ok x =>
      rw [answer] at sent
      cases sent
      exact ⟨frame, x, written, answer, rfl⟩

theorem adminJoin_chatted (type : e.type? = some .adminJoin) :
    h.Chatted who id e (h.adminJoin who id) := by
  unfold adminJoin
  split
  · next admin => exact .attached type admin
  · exact .refused _ fun other => by rw [type] at other; cases other

theorem userJoin_chatted (type : e.type? = some .userJoin) :
    h.Chatted who id e (h.userJoin who id) := by
  unfold userJoin
  rcases h.store.openNext_cases with ⟨shape, failed⟩ | ⟨room, store, shape, created⟩
  · rw [shape]
    exact .refused _ fun _ => ⟨_, failed⟩
  · rw [shape]
    dsimp only
    split
    · next why unsent => exact .untold why type created unsent
    · next told sent =>
      obtain ⟨frame, x, written, accepted, rfl⟩ := sendJoinResponse_ok sent
      cases greeting : x.joinRoom room id with
      | mk answer y =>
        cases answer with
        | error why => exact .ungreeted why type created written accepted greeting
        | ok report => exact .opened type created written accepted greeting

theorem texting_chatted (type : e.type? = some .texting) :
    h.Chatted who id e (h.texting who id e) := by
  have unopened : e.type? = some .userJoin → ∃ fault, h.store.createConversation = .error fault := by
    rw [type]
    intro other
    cases other
  unfold texting
  split
  · exact .refused _ unopened
  · next room place =>
    split
    · exact .refused _ unopened
    · next content said =>
      split
      · next member =>
        have inside := Exchange.isMember_iff.mp member
        split
        · exact .refused _ unopened
        · next frame written =>
          have talked : h.Chatted who id e (.ok (), { h.log room who.account content with
              exchange := (h.exchange.publish (.room room) frame).2 }) :=
            .talked type place said inside written
          obtain ⟨store, -, logged⟩ := h.log_eq room who.account content
          rw [logged] at talked ⊢
          exact talked
      · exact .refused _ unopened

theorem chat_chatted (h : Hub) (who : Identity) (id : ConnId) (e : Envelope) :
    h.Chatted who id e (h.chat who id e) := by
  unfold chat
  split
  · next why missing =>
    apply Chatted.refused
    intro type
    unfold Envelope.requireType at missing
    rw [type] at missing
    cases missing
  · next type => exact adminJoin_chatted (requireType_ok type)
  · next type => exact userJoin_chatted (requireType_ok type)
  · next type => exact texting_chatted (requireType_ok type)
  · next type =>
    apply Chatted.refused
    intro other
    rw [requireType_ok type] at other
    cases other

/-! ### Events -/

theorem dispatch_cases (h : Hub) (event : Event) :
    ∃ store, SameRooms h.store store ∧
      ((h.dispatch event).2 = { h with store := store } ∨
        ∃ frame, event.frame = .ok frame ∧
          (h.dispatch event).2 = { h with
            store := store, exchange := (h.exchange.publish event.topic frame).2 }) := by
  obtain ⟨store, same, recorded⟩ := h.record_eq event
  refine ⟨store, same, ?_⟩
  unfold dispatch
  rw [recorded]
  cases written : event.frame with
  | error _ => exact Or.inl rfl
  | ok frame => exact Or.inr ⟨frame, rfl, rfl⟩

end Switchboard.Hub
