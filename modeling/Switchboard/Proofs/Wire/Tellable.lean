import Switchboard.Proofs.Json.Concise
import Switchboard.Proofs.Wire.Contents
import Switchboard.Proofs.Wire.Mismatches
import Switchboard.Proofs.Wire.Refused

/-!
Which faults can be told to a client: those whose message, escaped once more, has room in an error
frame. The reader of lines finds no others, unless a line is long and its fault quotes from it.
-/

namespace Switchboard

open Json (spelled spelled_append spelled_le spelled_le_size byteLength)

variable {n : Nat}

/-! ### Room in an error frame -/

/-- There is an error frame for the fault. -/
def Fault.Tellable (fault : Fault) : Prop := ∃ frame, Frame.ofFault fault = .ok frame

theorem ErrorFrame.utf8ByteSize_write (e : ErrorFrame) :
    e.toJson.write.utf8ByteSize = spelled e.error + spelled e.code + 22 := by
  have keys : spelled "error" = 5 ∧ spelled "code" = 4 := ⟨rfl, rfl⟩
  rw [ErrorFrame.toJson, Json.size_object]
  simp only [List.map_cons, List.map_nil, List.sum_cons, List.sum_nil, Json.text,
    Json.byteLength_stringText]
  omega

theorem Fault.tellable_iff (fault : Fault) :
    fault.Tellable ↔ spelled fault.message + spelled fault.wireCode.name + 23 ≤ Frame.limit := by
  have size := (ErrorFrame.ofFault fault).utf8ByteSize_write
  change _ = spelled fault.message + spelled fault.wireCode.name + 22 at size
  constructor
  · intro ⟨frame, written⟩
    have fits := (Frame.ofJson_eq_ok.mp written).1
    rwa [size] at fits
  · intro fits
    refine ⟨_, Frame.ofJson_eq_ok.mpr ⟨?_, rfl⟩⟩
    rwa [size]

theorem Code.spelled_name_le (code : Code) : spelled code.name ≤ 132 := by
  have size : code.name.utf8ByteSize ≤ 22 := by cases code <;> decide
  have := spelled_le_size code.name
  omega

theorem Fault.tellable_of_short {fault : Fault} (short : spelled fault.message ≤ 1048400) :
    fault.Tellable := by
  have limit : Frame.limit = 1048576 := rfl
  have code := fault.wireCode.spelled_name_le
  rw [tellable_iff]
  omega

/-! ### Refusals -/

/-- Quotes no text, and no number but those that a computer can count to. -/
def Refusal.Brief : Refusal → Prop
  | unknownType _ | misshapenConfig _ => False
  | frameTooLarge bytes => bytes < 10 ^ 20
  | _ => True

theorem spelled_word_le (k : UInt64) : spelled (toString k.toNat) ≤ 120 :=
  spelled_nat_le 20 (by decide) (Nat.lt_trans k.toNat_lt (by decide))

theorem Refusal.Brief.spelled_message {why : Refusal} (brief : why.Brief) :
    spelled why.message ≤ 500 := by
  have fixed : ∀ {s : String}, s.utf8ByteSize ≤ 80 → spelled s ≤ 500 := by
    intro s short
    have := spelled_le_size s
    omega
  cases why with
  | unknownType _ | misshapenConfig _ => exact brief.elim
  | frameTooLarge bytes =>
    have shape : (Refusal.frameTooLarge bytes).message =
        "Frame of " ++ toString bytes ++ " bytes exceeds maximum size" := rfl
    have around : spelled "Frame of " = 9 ∧ spelled " bytes exceeds maximum size" = 27 := ⟨rfl, rfl⟩
    have digits : spelled (toString bytes) ≤ 6 * 20 := spelled_nat_le 20 (by decide) brief
    simp only [shape, spelled_append]
    omega
  | notInRoom id =>
    have shape : (Refusal.notInRoom id).message =
        "Not a member of conversation " ++ toString id.toNat := rfl
    have front : spelled "Not a member of conversation " = 29 := rfl
    have digits := spelled_word_le id
    rw [shape, spelled_append]
    omega
  | conversationMissing id =>
    have shape : (Refusal.conversationMissing id).message =
        "Conversation " ++ toString id.toNat ++ " not found" := rfl
    have around : spelled "Conversation " = 13 ∧ spelled " not found" = 10 := ⟨rfl, rfl⟩
    have digits := spelled_word_le id
    simp only [shape, spelled_append]
    omega
  | conversationInactive id =>
    have shape : (Refusal.conversationInactive id).message =
        "Conversation " ++ toString id.toNat ++ " is inactive" := rfl
    have around : spelled "Conversation " = 13 ∧ spelled " is inactive" = 12 := ⟨rfl, rfl⟩
    have digits := spelled_word_le id
    simp only [shape, spelled_append]
    omega
  | wrongRole role entry => cases role <;> cases entry <;> exact fixed (by decide)
  | queueFull queue => cases queue <;> exact fixed (by decide)
  | _ => exact fixed (by decide)

theorem Refusal.Brief.tellable {why : Refusal} (brief : why.Brief) :
    (Fault.refused why).Tellable :=
  Fault.tellable_of_short (Nat.le_trans brief.spelled_message (by decide))

/-! ### Texts that are no JSON -/

namespace Json

theorem Flaw.spelled_message_le (flaw : Flaw) : spelled flaw.message ≤ 480 := by
  have size : flaw.message.utf8ByteSize ≤ 80 := by cases flaw <;> decide
  have := spelled_le_size flaw.message
  omega

theorem position_le (line column budget : Nat) (cs : List Char) :
    (position line column budget cs).1 ≤ line + budget ∧
      (position line column budget cs).2 ≤ column + budget := by
  induction cs generalizing line column budget with
  | nil => exact ⟨Nat.le_add_right _ _, Nat.le_add_right _ _⟩
  | cons c cs ih =>
    rw [position]
    split
    · exact ⟨Nat.le_add_right _ _, Nat.le_refl _⟩
    · have := c.utf8Size_pos
      split
      · obtain ⟨lines, columns⟩ := ih (line + 1) 0 (budget - 1)
        omega
      · obtain ⟨lines, columns⟩ := ih line (column + c.utf8Size) (budget - c.utf8Size)
        omega

theorem spelled_readError_le {text : String} {e : ReadError} (failed : Json.read text = .error e)
    (countable : byteLength text.toList < 10 ^ 19) : spelled e.message ≤ 800 := by
  obtain ⟨stop, rfl⟩ : ∃ stop : Stop, stop.locate text.toList = e := by
    rw [Json.read] at failed
    cases whole : readText text.toList with
    | error stop =>
      rw [whole] at failed
      cases failed
      exact ⟨stop, rfl⟩
    | ok value =>
      rw [whole] at failed
      cases failed
  obtain ⟨lines, columns⟩ := position_le 1 0 (byteLength text.toList - stop.left) text.toList
  generalize place : position 1 0 (byteLength text.toList - stop.left) text.toList = at_
    at lines columns
  obtain ⟨line, column⟩ := at_
  have located : stop.locate text.toList = ⟨stop.flaw, line, column⟩ := by
    rw [Stop.locate, place]
  have shape : (ReadError.mk stop.flaw line column).message = stop.flaw.message ++ " at line " ++
      toString line ++ " column " ++ toString column := rfl
  have between : spelled " at line " = 9 ∧ spelled " column " = 8 := ⟨rfl, rfl⟩
  have flaw := stop.flaw.spelled_message_le
  have lineDigits : spelled (toString line) ≤ 6 * 20 := spelled_nat_le 20 (by decide) (by omega)
  have columnDigits : spelled (toString column) ≤ 6 * 20 := spelled_nat_le 20 (by decide) (by omega)
  rw [located, shape]
  simp only [spelled_append]
  omega

end Json

/-! ### Texts that are no envelopes -/

/-- Repeats a string of the text that it is about. -/
def Fault.Quotes : Fault → Prop
  | refused (.unknownType _) | unreadable (.shape _) => True
  | _ => False

namespace Envelope

open Shape

theorem tellable_unknownType {name : String} (short : name.length ≤ 94000) :
    (Fault.refused (.unknownType name)).Tellable := by
  have shape : (Fault.refused (.unknownType name)).message = "Unknown message type: " ++ name := rfl
  have front : spelled "Unknown message type: " = 22 := rfl
  have bytes := spelled_le name
  apply Fault.tellable_of_short
  rw [shape, spelled_append]
  omega

theorem tellable_mismatch {m : Mismatch} (modest : m.Modest n) (short : n ≤ 94000) :
    (Fault.unreadable (.shape m)).Tellable := by
  have shape : (Fault.unreadable (.shape m)).message = "Serialization error: " ++ m.message := rfl
  have front : spelled "Serialization error: " = 21 := rfl
  have bytes := modest.spelled_message (by omega)
  apply Fault.tellable_of_short
  rw [shape, spelled_append]
  omega

theorem tellable_text {text : String} {e : Json.ReadError} (failed : Json.read text = .error e)
    (countable : Json.byteLength text.toList < 10 ^ 19) :
    (Fault.unreadable (.text e)).Tellable := by
  have shape : (Fault.unreadable (.text e)).message = "Serialization error: " ++ e.message := rfl
  have front : spelled "Serialization error: " = 21 := rfl
  have bytes := Json.spelled_readError_le failed countable
  apply Fault.tellable_of_short
  rw [shape, spelled_append]
  omega

theorem checkType_error {v : Json} {why : Refusal} (short : v.Short n)
    (failed : checkType v = .error why) :
    why = .typeNotString ∨ ∃ name : String, name.length ≤ n ∧ why = .unknownType name := by
  rcases checkType_eq_error.mp failed with ⟨name, named, -, rfl⟩ | ⟨_, -, -, -, rfl⟩
  · right
    refine ⟨name, ?_, rfl⟩
    cases short.of_member? named with
    | string short => exact short
  · exact Or.inl rfl

theorem ofJson_error {v : Json} {fault : Fault} (short : v.Short n)
    (failed : ofJson v = .error fault) :
    fault = .refused .typeNotString ∨
      (∃ name : String, name.length ≤ n ∧ fault = .refused (.unknownType name)) ∨
      ∃ m : Mismatch, m.Modest n ∧ fault = .unreadable (.shape m) := by
  rcases ofJson_eq_error.mp failed with ⟨why, checked, rfl⟩ | ⟨-, m, given, rfl⟩
  · rcases checkType_error short checked with rfl | ⟨name, few, rfl⟩
    · exact Or.inl rfl
    · exact Or.inr (Or.inl ⟨name, few, rfl⟩)
  · exact Or.inr (Or.inr ⟨m, modest_read short given, rfl⟩)

/-- What is wrong with a text can be told, unless the text is long and quoted from. -/
theorem parse_error {text : String} {fault : Fault} (failed : parse text = .error fault)
    (countable : byteLength text.toList < 10 ^ 19) :
    fault.Tellable ∨ (94000 < text.length ∧ fault.Quotes) := by
  rcases parse_eq_error.mp failed with ⟨e, unread, rfl⟩ | ⟨v, read, failed⟩
  · exact Or.inl (tellable_text unread countable)
  · have short := Json.read_short read
    by_cases fits : text.length ≤ 94000
    · left
      rcases ofJson_error short failed with rfl | ⟨name, few, rfl⟩ | ⟨m, modest, rfl⟩
      · exact Refusal.Brief.tellable trivial
      · exact tellable_unknownType (Nat.le_trans few fits)
      · exact tellable_mismatch modest fits
    · rcases ofJson_error short failed with rfl | ⟨name, -, rfl⟩ | ⟨m, -, rfl⟩
      · exact Or.inl (Refusal.Brief.tellable trivial)
      · exact Or.inr ⟨Nat.lt_of_not_le fits, trivial⟩
      · exact Or.inr ⟨Nat.lt_of_not_le fits, trivial⟩

end Envelope

/-! ### Lines -/

namespace Line

theorem read?_error {line : List UInt8} {fault : Fault} (cut : line.length ≤ limit)
    (failed : read? line = some (.error fault)) :
    fault.Tellable ∨ (94000 < line.length ∧ fault.Quotes) := by
  rcases read?_cases failed with garbled | long | ⟨text, given, failed⟩
  · cases garbled
    exact Or.inl (Refusal.Brief.tellable trivial)
  · cases long
    exact Or.inl (Refusal.Brief.tellable trivial)
  · have size : limit < 10 ^ 19 := by decide
    have bytes := text?_le given
    have chars := Json.length_le_utf8ByteSize text
    rcases Envelope.parse_error failed (by rw [Json.byteLength_toList]; omega) with
      tellable | ⟨long, quotes⟩
    · exact Or.inl tellable
    · exact Or.inr ⟨by omega, quotes⟩

end Line

end Switchboard
