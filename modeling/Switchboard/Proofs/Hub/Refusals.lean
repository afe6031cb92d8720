import Switchboard.Hub.Chat
import Switchboard.Proofs.Store
import Switchboard.Proofs.Wire.Tellable

/-!
The refusals of the hub are brief: none of them quotes what a client has sent.
-/

namespace Switchboard

open Json (spelled byteLength)

variable {n : Nat} {why : Refusal} {e : Envelope} {id : ConnId} {room : ConversationId}

theorem authenticate_brief {tokens : List TokenEntry} {entry : EntryPoint}
    (denied : authenticate tokens entry e = .error why) : why.Brief := by
  unfold authenticate at denied
  split at denied
  · cases denied
    trivial
  · split at denied
    · next unknown =>
      unfold verify at unknown
      cases denied
      split at unknown <;> cases unknown
      trivial
    · split at denied <;> cases denied
      trivial

/-! ### The sizes of frames -/

namespace Frame

theorem byteLength_digits_le (k : UInt64) : byteLength (Nat.toDigits 10 k.toNat) ≤ 80 := by
  have small : k.toNat < 10 ^ 20 := Nat.lt_trans k.toNat_lt (by decide)
  have digits := (Nat.length_toDigits_le_iff (by decide) (by decide)).mpr small
  have bytes := Json.byteLength_le (Nat.toDigits 10 k.toNat)
  omega

theorem joinResponse_size (room : ConversationId) :
    (Envelope.joinResponse room).toJson.write.utf8ByteSize =
      byteLength (Nat.toDigits 10 room.toNat) + 59 := by
  have type : spelled "SYSTEM_USER_JOIN_RESPONSE" = 25 := rfl
  have keys : spelled "msg_type" = 8 ∧ spelled "conversation_id" = 15 := ⟨rfl, rfl⟩
  have members : (Envelope.joinResponse room).toJson =
      .object [("msg_type", .string "SYSTEM_USER_JOIN_RESPONSE"),
        ("conversation_id", .number (.int room.toNat))] := rfl
  rw [members, Json.size_object]
  simp only [List.map_cons, List.map_nil, List.sum_cons, List.sum_nil, Json.text_number]
  simp only [Json.text, Json.byteLength_stringText]
  omega

theorem texting_size (room : ConversationId) (content : String) :
    (Envelope.texting room content).toJson.write.utf8ByteSize =
      spelled content + byteLength (Nat.toDigits 10 room.toNat) + 54 := by
  have type : spelled "TEXTING" = 7 := rfl
  have keys : spelled "msg_type" = 8 ∧ spelled "content" = 7 ∧ spelled "conversation_id" = 15 :=
    ⟨rfl, rfl, rfl⟩
  have members : (Envelope.texting room content).toJson = .object [("msg_type", .string "TEXTING"),
      ("content", .string content), ("conversation_id", .number (.int room.toNat))] := rfl
  rw [members, Json.size_object]
  simp only [List.map_cons, List.map_nil, List.sum_cons, List.sum_nil, Json.text_number]
  simp only [Json.text, Json.byteLength_stringText]
  omega

theorem joinResponse_brief (failed : ofEnvelope (.joinResponse room) = .error why) :
    why.Brief := by
  have digits := byteLength_digits_le room
  obtain ⟨-, rfl⟩ := ofJson_eq_error.mp failed
  rw [joinResponse_size, Refusal.Brief]
  omega

theorem texting_brief {content : String} (short : content.length ≤ n) (countable : n < 10 ^ 19)
    (failed : ofEnvelope (.texting room content) = .error why) : why.Brief := by
  have digits := byteLength_digits_le room
  have bytes := Json.spelled_le content
  obtain ⟨-, rfl⟩ := ofJson_eq_error.mp failed
  rw [texting_size, Refusal.Brief]
  omega

end Frame

/-! ### Sending -/

theorem Peer.send_brief {p : Peer} {frame : Frame} (failed : p.send frame = .error why) :
    why.Brief := by
  unfold send at failed
  split at failed <;> cases failed
  trivial

theorem Outbound.send_brief {o : Outbound} {frame : Frame} (failed : o.send frame = .error why) :
    why.Brief := by
  unfold send at failed
  split at failed
  · cases failed
    trivial
  · split at failed <;> cases failed
    trivial

theorem Conn.send_brief {c : Conn} {frame : Frame} (failed : c.send frame = .error why) :
    why.Brief := by
  unfold send at failed
  split at failed
  · split at failed
    · cases failed
      trivial
    · exact Peer.send_brief (map_eq_error.mp failed)
  · split at failed
    · cases failed
      trivial
    · exact Outbound.send_brief (map_eq_error.mp failed)

namespace Exchange

theorem send_brief {x : Exchange} {frame : Frame} (failed : x.send id frame = .error why) :
    why.Brief := by
  unfold send at failed
  split at failed
  · cases failed
    trivial
  · next c _ =>
    split at failed
    · next unsent =>
      cases failed
      exact Conn.send_brief unsent
    · cases failed

theorem joinRoom_brief {x y : Exchange} (failed : x.joinRoom room id = (.error why, y)) :
    why.Brief := by
  unfold joinRoom broadcast at failed
  dsimp only at failed
  split at failed
  · next unwritten =>
    cases failed
    have short : greeting.length ≤ 20 := by decide
    exact Frame.texting_brief short (by decide) unwritten
  · cases failed

end Exchange

/-! ### Chat -/

namespace Hub

variable {h after : Hub} {who : Identity}

theorem adminJoin_brief (answered : h.adminJoin who id = (.error why, after)) : why.Brief := by
  unfold adminJoin at answered
  split at answered <;> cases answered
  trivial

theorem sendJoinResponse_brief (failed : h.sendJoinResponse room id = .error why) :
    why.Brief := by
  unfold sendJoinResponse at failed
  split at failed
  · next unwritten =>
    cases failed
    exact Frame.joinResponse_brief unwritten
  · exact Exchange.send_brief (map_eq_error.mp failed)

theorem userJoin_brief (answered : h.userJoin who id = (.error why, after)) : why.Brief := by
  unfold userJoin at answered
  rcases h.store.openNext_cases with ⟨shape, -⟩ | ⟨room, store, shape, -⟩
  · rw [shape] at answered
    cases answered
    trivial
  · rw [shape] at answered
    dsimp only at answered
    split at answered
    · next untold =>
      cases answered
      exact sendJoinResponse_brief untold
    · split at answered
      · next ungreeted =>
        cases answered
        exact Exchange.joinRoom_brief (Prod.ext ungreeted rfl)
      · cases answered

theorem texting_brief (modest : e.Modest n) (countable : n < 10 ^ 19)
    (answered : h.texting who id e = (.error why, after)) : why.Brief := by
  unfold texting at answered
  split at answered
  · cases answered
    trivial
  · split at answered
    · cases answered
      trivial
    · next content said =>
      split at answered
      · split at answered
        · next failed =>
          cases answered
          exact Frame.texting_brief (modest content said) countable failed
        · cases answered
      · cases answered
        trivial

theorem chat_brief (modest : e.Modest n) (countable : n < 10 ^ 19)
    (answered : h.chat who id e = (.error why, after)) : why.Brief := by
  unfold chat at answered
  split at answered
  · next missing =>
    cases answered
    unfold Envelope.requireType at missing
    split at missing <;> cases missing
    trivial
  · exact adminJoin_brief answered
  · exact userJoin_brief answered
  · exact texting_brief modest countable answered
  · cases answered
    trivial

/-- An envelope from a line that was not too long for the reader has no refusal too long to tell. -/
theorem chat_tellable {line : List UInt8} (short : line.length ≤ Line.limit)
    (read : Line.read? line = some (.ok e)) (answered : h.chat who id e = (.error why, after)) :
    (Fault.refused why).Tellable := by
  have countable : Line.limit < 10 ^ 19 := by decide
  have modest := Line.modest_of_read? read
  exact (chat_brief modest (Nat.lt_of_le_of_lt short countable) answered).tellable

end Hub

end Switchboard
