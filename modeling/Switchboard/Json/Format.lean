import Switchboard.Decimal.Layout
import Switchboard.Json.Basic
import Switchboard.Shape.Record

/-!
JSON values as sources of records.
-/

namespace Switchboard.Json

open Shape

def view : Json → View Json
  | null => .null
  | bool b => .bool b
  | number (.int n) => .int n
  | number (.float x) => .float x
  | string s => .string s
  | array items => .list items
  | object members => .record members

def found (value : Json) : Found := value.view.found Decimal.briefText

/-- A tag is a string, or the key of an object with that key alone, for null. -/
def tag : Json → Except Mismatch (String × Except Mismatch Unit)
  | string name => .ok (name, .ok ())
  | object [(name, null)] => .ok (name, .ok ())
  | object [(name, value)] => .ok (name, .error (.invalidType value.found "unit"))
  | object _ => .error (.invalidValue .record "map with a single key")
  | value => .error (.invalidType value.found "string or map")

def format : Format Json where
  view := view
  floatText := Decimal.briefText
  closed := true
  tag := tag

end Switchboard.Json
