import Switchboard.Proofs.Hub.Refusals
import Switchboard.Proofs.Wire.Rewritten
import Switchboard.Proofs.Wire.RoundTrip

/-!
What a member says in a room goes out again: the frame has no more bytes than the line that the
message came in. A message that fills its line is refused if it came in the longest line that the
reader takes, which has a byte more than a frame may have.
-/

namespace Switchboard

variable {e : Envelope} {room : ConversationId} {content : String}

namespace Envelope

/-- Something is said in a room that is named. -/
structure Talks (e : Envelope) (room : ConversationId) (content : String) : Prop where
  type : e.type? = some .texting
  content : e.content? = some content
  conversation : e.conversation? = some room

theorem Talks.mem_ordered (talks : e.Talks room content) :
    ∀ m ∈ (texting room content).ordered, m ∈ e.ordered := by
  intro m member
  have none : (texting room content).tokenMember?.toList = [] := rfl
  rw [ordered, none, List.append_nil] at member
  rw [ordered, contentMember?, conversationMember?, typeMember?, talks.type, talks.content,
    talks.conversation, ← List.append_assoc, ← List.append_assoc]
  rw [← List.append_assoc] at member
  exact List.mem_append_left _ member

end Envelope

namespace Line

/-- An object on the line says the envelope. -/
def SaysObject (line : List UInt8) (e : Envelope) : Prop :=
  read? line = some (.ok e) ∧
    ∃ text members, text? line = some text ∧ Json.IsText text (.object members)

theorem saysObject_line (e : Envelope) : SaysObject (e.line ++ [newline]) e :=
  ⟨e.says_line.read?_eq, _, _, e.text?_line, e.isText_write⟩

/-- A line that ends has a byte for the newline of the frame too. -/
theorem SaysObject.size_le {line : List UInt8} (said : SaysObject line e)
    (ended : line.getLast? = some newline) (talks : e.Talks room content) :
    (Envelope.texting room content).toJson.write.utf8ByteSize + 1 ≤ line.length := by
  obtain ⟨read, text, members, given, object⟩ := said
  obtain ⟨same, told, parsed⟩ := text?_of_read? read
  obtain rfl : same = text := Option.some.inj (told.symm.trans given)
  calc (Envelope.texting room content).toJson.write.utf8ByteSize + 1
      ≤ same.utf8ByteSize + 1 := by
        apply Nat.succ_le_succ
        exact (Envelope.describes_of_parse parsed object).part_le object talks.mem_ordered
    _ ≤ line.length := text?_lt given ended

end Line

namespace Hub

theorem chat_of_member {h : Hub} {who : Identity} {id : ConnId} (talks : e.Talks room content)
    (member : id ∈ h.exchange.membersOf (.room room)) :
    (h.chat who id e).1 = (Frame.ofEnvelope (.texting room content)).map fun _ => () := by
  rw [chat, Envelope.requireType, talks.type]
  dsimp only
  rw [texting, talks.conversation, talks.content]
  dsimp only [Option.or]
  rw [if_pos (Exchange.isMember_iff.mpr member)]
  cases Frame.ofEnvelope (.texting room content) <;> rfl

/-- A message that a member sends on a line of its own goes out, unless it came in the longest line
that the reader takes and fills all of it. -/
theorem message_relayed (h : Hub) (who : Identity) (id : ConnId) (inbox : Inbox)
    (line held : List UInt8) (e : Envelope) (room : ConversationId) (content : String)
    (cut : Line.cut? inbox.held = some (line, held)) (ended : line.getLast? = some Line.newline)
    (said : Line.SaysObject line e) (talks : e.Talks room content)
    (member : id ∈ h.exchange.membersOf (.room room)) :
    let size := (Envelope.texting room content).toJson.write.utf8ByteSize + 1
    inbox.next = .got (.ok e) { inbox with held := held } ∧
      size ≤ line.length ∧ line.length ≤ Frame.limit + 1 ∧
      (line.length ≤ Frame.limit → (h.chat who id e).1 = .ok ()) ∧
      (h.chat who id e).1 = if size ≤ Frame.limit then .ok () else .error (.frameTooLarge size) := by
  intro size
  have smaller : size ≤ line.length := said.size_le ended talks
  have next : inbox.next = .got (.ok e) { inbox with held := held } := by
    rw [Inbox.next_line cut, said.1]
  have answer : (h.chat who id e).1 =
      if size ≤ Frame.limit then .ok () else .error (.frameTooLarge size) := by
    rw [chat_of_member talks member, Frame.ofEnvelope]
    split
    · next fits => rw [Frame.ofJson_eq_ok.mpr ⟨fits, rfl⟩, Except.map]
    · next long => rw [Frame.ofJson_eq_error.mpr ⟨Nat.lt_of_not_le long, rfl⟩, Except.map]
  refine ⟨next, smaller, (Line.first_of_cut? cut).length_le, ?_, answer⟩
  intro short
  rw [answer, if_pos (Nat.le_trans smaller short)]

/-! ### Short messages and long ones -/

def lone : Hub :=
  { Hub.fresh [] .standard with
    exchange := ((Exchange.empty.connect 1 (.peer (.fresh none))).join (.room 1) 1).2 }

theorem member_lone : 1 ∈ lone.exchange.membersOf (.room 1) := List.mem_singleton_self 1

theorem message_relayed_short :
    let e := Envelope.texting 1 "hi"
    let inbox : Inbox := ⟨e.line ++ Line.newline :: [0x7b], [], false⟩
    inbox.next = .got (.ok e) { inbox with held := [0x7b] } ∧
      (lone.chat ⟨7, .user⟩ 1 e).1 = .ok () := by
  intro e inbox
  have short : e.line.length < Line.limit := by cbv
  obtain ⟨next, -, -, out, -⟩ := message_relayed lone ⟨7, .user⟩ 1 inbox _ [0x7b] e 1 "hi"
    (Envelope.cut?_line short _) List.getLast?_concat (Line.saysObject_line e) ⟨rfl, rfl, rfl⟩
    member_lone
  exact ⟨next, out (by cbv)⟩

/-- A line of letters with one byte more than a frame may have is read, but not sent on. -/
theorem message_relayed_letters :
    let content := String.ofList (List.replicate 1048521 'x')
    let e := Envelope.texting 1 content
    let line := e.line ++ [Line.newline]
    Line.cut? line = some (line, []) ∧ line.getLast? = some Line.newline ∧
      Line.SaysObject line e ∧ e.Talks 1 content ∧ 1 ∈ lone.exchange.membersOf (.room 1) ∧
      (lone.chat ⟨7, .user⟩ 1 e).1 = .error (.frameTooLarge 1048577) := by
  intro content e line
  have talks : e.Talks 1 content := ⟨rfl, rfl, rfl⟩
  have size : e.toJson.write.utf8ByteSize = 1048576 := by
    rw [Frame.texting_size, Json.spelled_letters]
    rfl
  have short : e.line.length < Line.limit := by
    rw [Envelope.line, Text.length_encode, size]
    decide
  have long : Frame.limit < e.toJson.write.utf8ByteSize + 1 := by
    rw [size]
    decide
  refine ⟨Envelope.cut?_line short [], List.getLast?_concat, Line.saysObject_line e, talks,
    member_lone, ?_⟩
  rw [chat_of_member talks member_lone, Frame.ofEnvelope, Frame.ofJson_eq_error.mpr ⟨long, rfl⟩,
    size, Except.map]

end Hub

end Switchboard
