import Switchboard.Event
import Switchboard.Proofs.Json.RoundTrip

/-!
Which frames are about a conversation, and that the number of the conversation can be told from
them.
-/

namespace Switchboard

namespace Frame

/-- A chat frame about a conversation: a message in its room, or the answer to whoever opened it. -/
def Carries (frame : Frame) (room : ConversationId) : Prop :=
  (∃ content, ofEnvelope (.texting room content) = .ok frame) ∨
    ofEnvelope (.joinResponse room) = .ok frame

variable {frame : Frame} {room other : ConversationId}

theorem text_of_ofJson {value : Json} (written : ofJson value = .ok frame) :
    frame.text.toList = value.text ++ ['\n'] := by
  obtain ⟨-, rfl⟩ := ofJson_eq_ok.mp written
  rw [String.toList_push, Json.write, String.toList_ofList]

def lastDigits (frame : Frame) : List Char :=
  ((frame.text.toList.reverse.drop 2).takeWhile Char.isDigit).reverse

end Frame

namespace Json

theorem text_object_cons (key : String) (value : Json) (members : List (String × Json)) :
    ∃ tail, (object ((key, value) :: members)).text = '\x7b' :: (stringText key ++ tail) := by
  rw [text, List.map_cons, bracketed]
  cases members with
  | nil => exact ⟨':' :: value.text ++ ['\x7d'], by simp⟩
  | cons m members =>
    rw [List.map_cons, List.intersperse_cons_cons, List.flatten_cons]
    generalize List.flatten _ = others
    exact ⟨':' :: value.text ++ others ++ ['\x7d'], by simp⟩

theorem flatten_intersperse_concat {α : Type} (separator first last : List α)
    (pieces : List (List α)) :
    ∃ middle, ((first :: (pieces ++ [last])).intersperse separator).flatten =
      first ++ middle ++ last := by
  induction pieces generalizing first with
  | nil => exact ⟨separator, by simp⟩
  | cons piece pieces ih =>
    obtain ⟨middle, shape⟩ := ih piece
    refine ⟨separator ++ piece ++ middle, ?_⟩
    rw [List.cons_append, List.intersperse_cons_cons, List.flatten_cons, List.flatten_cons, shape]
    simp only [List.append_assoc]

theorem text_object_concat (key last : String) (value final : Json)
    (members : List (String × Json)) :
    ∃ middle, (object ((key, value) :: (members ++ [(last, final)]))).text =
      '\x7b' :: stringText key ++ middle ++ ':' :: final.text ++ ['\x7d'] := by
  rw [text, List.map_cons, List.map_append, List.map_singleton, bracketed]
  obtain ⟨middle, shape⟩ := flatten_intersperse_concat [','] (stringText key ++ ':' :: value.text)
    (stringText last ++ ':' :: final.text) (members.map fun m => stringText m.1 ++ ':' :: m.2.text)
  refine ⟨':' :: value.text ++ middle ++ stringText last, ?_⟩
  rw [shape]
  simp only [List.append_assoc, List.cons_append]

end Json

namespace Frame

variable {frame : Frame} {room other : ConversationId}

theorem Carries.text (carries : frame.Carries room) :
    ∃ middle, frame.text.toList = '\x7b' :: Json.stringText "msg_type" ++ middle ++
      ':' :: Nat.toDigits 10 room.toNat ++ ['\x7d', '\n'] := by
  have shape : ∃ type members, ofJson (.object (("msg_type", type) ::
      (members ++ [("conversation_id", .number (.int room.toNat))]))) = .ok frame := by
    rcases carries with ⟨content, written⟩ | written
    · exact ⟨_, [("content", .string content)], written⟩
    · exact ⟨_, [], written⟩
  obtain ⟨type, members, written⟩ := shape
  obtain ⟨middle, shape⟩ := Json.text_object_concat "msg_type" "conversation_id" type
    (.number (.int room.toNat)) members
  refine ⟨middle, ?_⟩
  rw [text_of_ofJson written, shape, Json.text_number]
  simp only [List.append_assoc, List.cons_append, List.nil_append]

theorem Carries.lastDigits (carries : frame.Carries room) :
    frame.lastDigits = Nat.toDigits 10 room.toNat := by
  obtain ⟨middle, shape⟩ := carries.text
  have digits : ∀ c ∈ (Nat.toDigits 10 room.toNat).reverse, c.isDigit = true := by
    intro c member
    exact Nat.isDigit_of_mem_toDigits (by omega) (by omega) (List.mem_reverse.mp member)
  have back : frame.text.toList.reverse.drop 2 = (Nat.toDigits 10 room.toNat).reverse ++
      ':' :: ('\x7b' :: Json.stringText "msg_type" ++ middle).reverse := by
    rw [shape]
    simp
  rw [Frame.lastDigits, back, List.takeWhile_append_of_pos digits,
    List.takeWhile_cons_of_neg (by decide), List.append_nil, List.reverse_reverse]

theorem Carries.unique (first : frame.Carries room) (second : frame.Carries other) :
    room = other := by
  have digits : Nat.toDigits 10 room.toNat = Nat.toDigits 10 other.toNat :=
    first.lastDigits.symm.trans second.lastDigits
  have numbers : room.toNat = other.toNat := by
    rw [← Nat.ofDigitChars_ten_toDigits (n := room.toNat), digits, Nat.ofDigitChars_ten_toDigits]
  exact UInt64.toNat.inj numbers

/-! ### Frames that are about no conversation -/

theorem Carries.third (carries : frame.Carries room) : frame.text.toList[2]? = some 'm' := by
  obtain ⟨middle, shape⟩ := carries.text
  rw [shape]
  simp [Json.stringText, Json.escape]

theorem third_of_object {key : String} {value : Json} {members : List (String × Json)} {c : Char}
    (written : ofJson (.object ((key, value) :: members)) = .ok frame)
    (second : (Json.stringText key)[1]? = some c) : frame.text.toList[2]? = some c := by
  obtain ⟨tail, shape⟩ := Json.text_object_cons key value members
  have long : 1 < (Json.stringText key).length := (List.getElem?_eq_some_iff.mp second).1
  rw [text_of_ofJson written, shape, List.cons_append, List.getElem?_cons_succ, List.append_assoc,
    List.getElem?_append_left long, second]

theorem not_carries_of_fault {fault : Fault} (written : ofFault fault = .ok frame) :
    ¬ frame.Carries room := by
  intro carries
  have third := third_of_object written (c := 'e') (by simp [Json.stringText, Json.escape])
  rw [carries.third] at third
  cases third

theorem not_carries_of_event {event : Event} (written : event.frame = .ok frame) :
    ¬ frame.Carries room := by
  intro carries
  cases event with
  | notification audience n =>
    have third := third_of_object written (c := 'a') (by simp [Json.stringText, Json.escape])
    rw [carries.third] at third
    cases third
  | conversation e =>
    have third := third_of_object written (c := 'c') (by simp [Json.stringText, Json.escape])
    rw [carries.third] at third
    cases third

theorem not_carries_probe : ¬ probe.Carries room := by
  intro carries
  have third := carries.third
  simp [probe] at third

end Frame

end Switchboard
