import Switchboard.Text.Quoted

/-!
Values of a wrong shape: what was found where something else was expected.
-/

namespace Switchboard.Shape

inductive Found
  | null
  | bool (b : Bool)
  | int (n : Int)
  | float (text : String)
  | string (s : String)
  | list
  | record
  deriving DecidableEq, Repr

def Found.text : Found → String
  | null => "null"
  | bool b => if b then "boolean `true`" else "boolean `false`"
  | int n => s!"integer `{n}`"
  | float text => s!"floating point `{text}`"
  | string s => s!"string {Text.quoted s}"
  | list => "sequence"
  | record => "map"

inductive Mismatch
  | invalidType (found : Found) (expected : String)
  | invalidValue (found : Found) (expected : String)
  | invalidLength (length : Nat) (expected : String)
  | missingField (name : String)
  | unknownVariant (name : String) (known : List String)
  | notATag
  deriving DecidableEq, Repr

def Mismatch.message : Mismatch → String
  | invalidType found expected => s!"invalid type: {found.text}, expected {expected}"
  | invalidValue found expected => s!"invalid value: {found.text}, expected {expected}"
  | invalidLength length expected => s!"invalid length {length}, expected {expected}"
  | missingField name => s!"missing field `{name}`"
  | unknownVariant name known =>
    let names := ", ".intercalate (known.map fun k => s!"`{k}`")
    s!"unknown variant `{name}`, expected one of {names}"
  | notATag => "expected a string or a table with one key"

end Switchboard.Shape
