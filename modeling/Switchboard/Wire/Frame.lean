import Switchboard.Json.Writer
import Switchboard.Text.Utf8
import Switchboard.Wire.Envelope

/-!
Frames: one line of compact JSON each, of limited size.
-/

namespace Switchboard

structure Frame where
  text : String
  deriving DecidableEq, Repr

namespace Frame

/-- Bytes, the newline included. -/
def limit : Nat := 1024 * 1024

def bytes (frame : Frame) : List UInt8 := Text.encode frame.text

def ofJson (value : Json) : Except Refusal Frame :=
  let body := value.write
  let size := body.utf8ByteSize + 1
  if size ≤ limit then .ok ⟨body.push '\n'⟩ else .error (.frameTooLarge size)

section OfJson

variable {value : Json} {frame : Frame} {why : Refusal}

theorem ofJson_eq_ok : ofJson value = .ok frame ↔
    value.write.utf8ByteSize + 1 ≤ limit ∧ frame = ⟨value.write.push '\n'⟩ := by
  rw [ofJson]
  split
  · next fits => simp [fits, eq_comm]
  · next long => simp [long]

theorem ofJson_eq_error : ofJson value = .error why ↔
    limit < value.write.utf8ByteSize + 1 ∧
      why = .frameTooLarge (value.write.utf8ByteSize + 1) := by
  rw [ofJson]
  split
  · next fits => simp [Nat.not_lt.mpr fits]
  · next long => simp [Nat.lt_of_not_le long, eq_comm]

end OfJson

def ofEnvelope (e : Envelope) : Except Refusal Frame := ofJson e.toJson

/-- Sent to find out whether a peer is still there. -/
def probe : Frame := ⟨"\x7b\"ping\":true\x7d\n"⟩

end Frame

structure ErrorFrame where
  error : String
  code : String
  deriving DecidableEq, Repr

namespace ErrorFrame

def ofFault (fault : Fault) : ErrorFrame := ⟨fault.message, fault.wireCode.name⟩

def toJson (e : ErrorFrame) : Json := .object [("error", .string e.error), ("code", .string e.code)]

structure Draft where
  error? : Option String
  code? : Option String

def enter (d : Draft) (name : String) (value : Json) : Except Shape.Mismatch Draft :=
  if name = "error" then do return { d with error? := some (← Json.format.string value) }
  else if name = "code" then do return { d with code? := some (← Json.format.string value) }
  else return d

def finish (d : Draft) : Except String ErrorFrame := do
  return ⟨← Shape.required "error" d.error?, ← Shape.required "code" d.code?⟩

def record : Shape.Record Json Draft ErrorFrame where
  name := "ErrorFrame"
  fields := ["error", "code"]
  blank := ⟨none, none⟩
  enter := enter
  finish := finish

def parse (text : String) : Except Unreadable ErrorFrame := Json.readAs record text

end ErrorFrame

def Frame.ofFault (fault : Fault) : Except Refusal Frame :=
  Frame.ofJson (ErrorFrame.ofFault fault).toJson

end Switchboard
