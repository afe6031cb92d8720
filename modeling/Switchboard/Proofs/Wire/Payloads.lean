import Switchboard.Event
import Switchboard.Proofs.Json.RoundTrip
import Switchboard.Wire.Inbox

/-!
A frame is one line, whatever the texts inside it are: nothing in them ends the line early. So the
frames in a stream come apart again where they were put together.
-/

namespace Switchboard

/-! ### Values as lines -/

def Json.bytes (value : Json) : List UInt8 := Text.encode value.write

variable {value : Json}

theorem Json.le_of_mem_bytes {b : UInt8} (member : b ∈ value.bytes) : 0x20 ≤ b.toNat := by
  apply Nat.le_of_not_lt
  intro control
  exact Text.not_mem_encode control value.printable_text member

theorem Json.newline_not_mem_bytes (value : Json) : Line.newline ∉ value.bytes := by
  intro member
  exact absurd (le_of_mem_bytes member) (by decide)

theorem Line.encode_newline (cs : List Char) :
    Text.encode (String.ofList (cs ++ ['\n'])) = Text.encode (String.ofList cs) ++ [newline] := by
  rw [Text.encode_ofList, Text.encode_ofList, List.flatMap_append]
  rfl

namespace Frame

variable {frame : Frame} {frames : List Frame}

theorem bytes_push (text : String) :
    bytes ⟨text.push '\n'⟩ = Text.encode text ++ [Line.newline] := by
  have pushed : text.push '\n' = String.ofList (text.toList ++ ['\n']) := String.ext (by simp)
  rw [bytes, pushed, Line.encode_newline, String.ofList_toList]

theorem bytes_of_ofJson (written : ofJson value = .ok frame) :
    frame.bytes = value.bytes ++ [Line.newline] ∧ value.bytes.length < limit := by
  obtain ⟨fits, rfl⟩ := ofJson_eq_ok.mp written
  exact ⟨bytes_push value.write, fits⟩

/-! ### Lines in a stream -/

def IsLine (frame : Frame) : Prop :=
  ∃ body, frame.bytes = body ++ [Line.newline] ∧ Line.newline ∉ body

theorem isLine_of_ofJson (written : ofJson value = .ok frame) : frame.IsLine :=
  ⟨value.bytes, (bytes_of_ofJson written).1, value.newline_not_mem_bytes⟩

theorem splitOn_lines (lines : ∀ frame ∈ frames, frame.IsLine) :
    (frames.flatMap bytes).splitOn Line.newline = frames.map (·.bytes.dropLast) ++ [[]] := by
  induction frames with
  | nil => exact List.splitOn_nil _
  | cons frame frames ih =>
    obtain ⟨body, whole, inner⟩ := lines frame List.mem_cons_self
    have later := ih fun other member => lines other (List.mem_cons_of_mem frame member)
    calc ((frame :: frames).flatMap bytes).splitOn Line.newline
        = (body ++ Line.newline :: frames.flatMap bytes).splitOn Line.newline := by
          rw [List.flatMap_cons, whole, List.append_assoc, List.singleton_append]
      _ = body :: (frames.flatMap bytes).splitOn Line.newline :=
          List.splitOn_append_cons_self_of_not_mem inner _
      _ = (frame :: frames).map (·.bytes.dropLast) ++ [[]] := by
          rw [later, List.map_cons, whole, List.dropLast_concat, List.cons_append]

end Frame

/-! ### Payloads -/

/-- All that is ever written as a frame; the probe is one already. -/
inductive Payload
  | envelope (content : Envelope)
  | notification (content : Notification)
  | conversation (content : ConversationEvent)
  | error (content : ErrorFrame)

namespace Payload

def toJson : Payload → Json
  | envelope content => content.toJson
  | notification content => content.toJson
  | conversation content => content.toJson
  | error content => content.toJson

def write (payload : Payload) : Except Refusal Frame := Frame.ofJson payload.toJson

/-- A payload is refused for its length, or written as a line of its own: in a stream of such lines
nothing passes for a frame but what was written as one. -/
theorem frames_apart :
    (∀ payload : Payload,
      let body := payload.toJson.write
      let size := body.utf8ByteSize + 1
      (Frame.limit < size → ∃ why, payload.write = .error why ∧ why.code = .sendFailed ∧
        why.message = s!"Frame of {size} bytes exceeds maximum size") ∧
      (size ≤ Frame.limit → ∃ frame, payload.write = .ok frame ∧ frame.bytes.length = size ∧
        Text.decode? frame.bytes = some frame.text ∧
        frame.bytes = Text.encode body ++ [Line.newline] ∧
        ∀ b ∈ Text.encode body, 0x20 ≤ b.toNat)) ∧
    ∀ payloads : List Payload,
      let frames := payloads.filterMap fun payload => payload.write.toOption
      (frames.flatMap Frame.bytes).splitOn Line.newline = frames.map (·.bytes.dropLast) ++ [[]] := by
  refine ⟨fun payload => ⟨?_, ?_⟩, ?_⟩
  · intro long
    exact ⟨_, Frame.ofJson_eq_error.mpr ⟨long, rfl⟩, rfl, rfl⟩
  · intro fits
    have whole := Frame.bytes_push payload.toJson.write
    refine ⟨_, Frame.ofJson_eq_ok.mpr ⟨fits, rfl⟩, ?_, Text.decode?_encode _, whole, ?_⟩
    · rw [whole, List.length_append, Text.length_encode, List.length_singleton]
    · exact fun b => Json.le_of_mem_bytes
  · intro payloads frames
    apply Frame.splitOn_lines
    intro frame member
    obtain ⟨payload, -, written⟩ := List.mem_filterMap.mp member
    cases result : payload.write with
    | error why =>
      rw [result] at written
      cases written
    | ok other =>
      rw [result] at written
      obtain rfl : other = frame := Option.some.inj written
      exact Frame.isLine_of_ofJson result

end Payload

end Switchboard
