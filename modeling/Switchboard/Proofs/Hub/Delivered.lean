import Switchboard.Proofs.Hub.Deeds

/-!
Chat while nothing fails to be sent: whoever is open stays open.
-/

namespace Switchboard

namespace Exchange

variable {x : Exchange} {topic : Topic} {frame : Frame} {room : ConversationId} {content : String}

def TakenByAll (x : Exchange) (topic : Topic) (frame : Frame) : Prop :=
  (x.offer frame 0 [] (x.membersOf topic)).2.1 = []

theorem isClosed_offer (x : Exchange) (frame : Frame) (delivered : Nat) (failed ids : List ConnId)
    (one : ConnId) : (x.offer frame delivered failed ids).2.2.isClosed one = x.isClosed one := by
  induction ids generalizing x delivered failed with
  | nil => rfl
  | cons id ids ih =>
    rw [offer]
    split
    next sent => rw [ih, isClosed_send sent]
    next => rw [ih]

theorem isClosed_publish (taken : x.TakenByAll topic frame) (one : ConnId) :
    (x.publish topic frame).2.isClosed one = x.isClosed one := by
  have offered := isClosed_offer x frame 0 [] (x.membersOf topic) one
  rw [publish]
  unfold TakenByAll at taken
  generalize x.offer frame 0 [] (x.membersOf topic) = answer at taken offered ⊢
  obtain ⟨delivered, failed, y⟩ := answer
  obtain rfl : failed = [] := taken
  exact offered

theorem isClosed_broadcast (one : ConnId)
    (taken : ∀ frame, Frame.ofEnvelope (.texting room content) = .ok frame →
      x.TakenByAll (.room room) frame) :
    (x.broadcast room content).2.isClosed one = x.isClosed one := by
  rw [broadcast]
  split
  next => rfl
  next frame written => exact isClosed_publish (taken frame written) one

theorem SameConns.joinEach (x : Exchange) (id : ConnId) (rooms : List ConversationId) :
    SameConns x (x.joinEach id rooms) := by
  induction rooms generalizing x with
  | nil => exact .of_conns rfl
  | cons room rooms ih => exact (SameConns.join x (.room room) id).trans (ih _)

end Exchange

namespace Hub

open Exchange (SameConns)

variable {h : Hub} {who : Identity} {id : ConnId} {e : Envelope}

/-- Nothing fails to be sent when the chat frame of a connection is served: it takes the join
response, the members of its room take the greeting, and those of a message's room the message. -/
structure Delivers (h : Hub) (id : ConnId) (e : Envelope) : Prop where
  response : ∀ {room store frame}, e.type? = some .userJoin →
    h.store.createConversation = .ok (room, store) →
    Frame.ofEnvelope (.joinResponse room) = .ok frame → ∃ x, h.exchange.send id frame = .ok x
  greeting : ∀ {room store frame x hello}, e.type? = some .userJoin →
    h.store.createConversation = .ok (room, store) →
    Frame.ofEnvelope (.joinResponse room) = .ok frame → h.exchange.send id frame = .ok x →
    Frame.ofEnvelope (.texting room greeting) = .ok hello →
    (x.perform (.move room id)).TakenByAll (.room room) hello
  message : ∀ {room content frame}, e.type? = some .texting →
    e.conversation?.or (h.exchange.seatOf id) = some room → e.content? = some content →
    Frame.ofEnvelope (.texting room content) = .ok frame →
    h.exchange.TakenByAll (.room room) frame

theorem isClosed_chat (delivers : h.Delivers id e) (who : Identity) (one : ConnId) :
    (h.chat who id e).2.exchange.isClosed one = h.exchange.isClosed one := by
  have moved : ∀ {room store frame x}, e.type? = some .userJoin →
      h.store.createConversation = .ok (room, store) →
      Frame.ofEnvelope (.joinResponse room) = .ok frame → h.exchange.send id frame = .ok x →
      (x.joinRoom room id).2.isClosed one = h.exchange.isClosed one := by
    intro room store frame x type created written accepted
    have same : SameConns x (x.perform (.move room id)) :=
      (SameConns.sit x room id).trans (.join _ (.room room) id)
    calc (x.joinRoom room id).2.isClosed one
      _ = ((x.perform (.move room id)).broadcast room Switchboard.greeting).2.isClosed one := rfl
      _ = (x.perform (.move room id)).isClosed one :=
        Exchange.isClosed_broadcast one fun _ => delivers.greeting type created written accepted
      _ = x.isClosed one := same.closed one
      _ = h.exchange.isClosed one := Exchange.isClosed_send accepted one
  have chatted := h.chat_chatted who id e
  generalize h.chat who id e = answered at chatted ⊢
  cases chatted with
  | refused _ _ => rfl
  | attached _ _ => exact (SameConns.joinEach h.exchange id h.exchange.rooms).closed one
  | untold _ _ _ _ => rfl
  | ungreeted _ type created written accepted greeted =>
    have same := moved type created written accepted
    rwa [greeted] at same
  | opened type created written accepted greeted =>
    have same := moved type created written accepted
    obtain ⟨bus, -, shape⟩ := announce_eq _ _
    rw [shape]
    rwa [greeted] at same
  | talked type place content _ written =>
    exact Exchange.isClosed_publish (delivers.message type place content written) one

end Hub

end Switchboard
