import Switchboard.Toml.Writer

/-!
Keys, and why one cannot be entered into a document: because of what was entered before it.
-/

namespace Switchboard.Toml

/-- The tables on the way of a dotted key, and the part behind its last dot. -/
structure Key where
  way : List String
  last : String
  deriving DecidableEq, Repr

def Key.parts (key : Key) : List String := key.way ++ [key.last]

def partText (part : String) : String :=
  let cs := part.toList
  if cs.all isBare ∧ cs ≠ [] then part
  else String.ofList ('"' :: escapeAll false [] 0 cs ++ ['"'])

inductive Clash
  | taken (key : String)
  | takenIn (table : List String) (key : String)
  | extended (path : List String) (kind : String)
  deriving DecidableEq, Repr

def Clash.message : Clash → String
  | taken key => s!"duplicate key `{key}`"
  | takenIn [] key => s!"duplicate key `{key}` in document root"
  | takenIn table key =>
    let path := ".".intercalate table
    s!"duplicate key `{key}` in table `{path}`"
  | extended path kind =>
    let path := ".".intercalate path
    s!"dotted key `{path}` attempted to extend non-table type ({kind})"

end Switchboard.Toml
