import Switchboard.Json.Format
import Switchboard.Json.Reader

/-!
Reading typed records from a text.
-/

namespace Switchboard

inductive Unreadable
  | text (error : Json.ReadError)
  | shape (mismatch : Shape.Mismatch)
  deriving DecidableEq, Repr

namespace Unreadable

def message : Unreadable → String
  | text error => error.message
  | shape mismatch => mismatch.message

end Unreadable

def Json.readAs {δ τ : Type} (record : Shape.Record Json δ τ) (text : String) :
    Except Unreadable τ :=
  match Json.read text with
  | .error e => .error (.text e)
  | .ok value => (record.read Json.format value).mapError .shape

end Switchboard
