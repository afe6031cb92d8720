import Switchboard.Proofs.Exchange.Newcomers
import Switchboard.Proofs.Hub.Refusals

/-!
The frames for a newcomer: the number of its conversation, and the greeting in its room. Neither is
ever too large, so once the first has been sent nothing stands in the way of the second.
-/

namespace Switchboard

open Json (byteLength)

variable {room : ConversationId} {id : ConnId}

namespace Frame

theorem joinResponse_written (room : ConversationId) :
    ∃ frame, ofEnvelope (.joinResponse room) = .ok frame := by
  have digits := byteLength_digits_le room
  refine ⟨_, ofJson_eq_ok.mpr ⟨?_, rfl⟩⟩
  rw [joinResponse_size, limit]
  omega

theorem greeting_written (room : ConversationId) :
    ∃ frame, ofEnvelope (.texting room greeting) = .ok frame := by
  have digits := byteLength_digits_le room
  have bytes := Json.spelled_le greeting
  have short : greeting.length = 16 := rfl
  refine ⟨_, ofJson_eq_ok.mpr ⟨?_, rfl⟩⟩
  rw [texting_size, limit]
  omega

end Frame

namespace Exchange

theorem joinRoom_greets (x : Exchange) (room : ConversationId) (id : ConnId) :
    ∃ frame, Frame.ofEnvelope (.texting room greeting) = .ok frame ∧
      x.joinRoom room id =
        (.ok ((x.perform (.move room id)).publish (.room room) frame).1,
          ((x.perform (.move room id)).publish (.room room) frame).2) := by
  obtain ⟨frame, written⟩ := Frame.greeting_written room
  refine ⟨frame, written, ?_⟩
  unfold joinRoom broadcast
  rw [written]
  rfl

end Exchange

namespace Hub

theorem sendJoinResponse_eq (h : Hub) (room : ConversationId) (id : ConnId) :
    ∃ frame, Frame.ofEnvelope (.joinResponse room) = .ok frame ∧
      h.sendJoinResponse room id =
        (h.exchange.send id frame).map fun x => { h with exchange := x } := by
  obtain ⟨frame, written⟩ := Frame.joinResponse_written room
  refine ⟨frame, written, ?_⟩
  unfold sendJoinResponse
  rw [written]

def offered (h : Hub) (event : Event) : Bus := (h.bus.enqueue event).toOption.getD h.bus

theorem announce_offers (h : Hub) (event : ConversationEvent) :
    h.announce event = { h with bus := h.offered (.conversation event) } := by
  unfold announce offered
  cases h.bus.enqueue (.conversation event) <;> rfl

/-- A user that takes the number of its conversation moves to its room, and one event is offered. -/
theorem userJoin_told {h : Hub} {who : Identity} {e : Envelope} {store : Store} {frame : Frame}
    {x : Exchange} (type : e.type? = some .userJoin)
    (created : h.store.createConversation = .ok (room, store))
    (written : Frame.ofEnvelope (.joinResponse room) = .ok frame)
    (sent : h.exchange.send id frame = .ok x) :
    h.chat who id e = (.ok (), { h with
      store := store, exchange := (x.joinRoom room id).2,
      bus := h.offered (.conversation (.opened room who.account)) }) := by
  obtain ⟨greeted, -, joined⟩ := x.joinRoom_greets room id
  have told : { h with store := store }.sendJoinResponse room id =
      .ok { h with store := store, exchange := x } := by
    rw [sendJoinResponse, written]
    dsimp only
    rw [sent]
    rfl
  have opens : h.chat who id e = h.userJoin who id := by
    rw [chat, Envelope.requireType, type]
  rw [opens, userJoin]
  simp only [Store.openNext_ok created, told, joined, announce_offers]
  rfl

end Hub

end Switchboard
