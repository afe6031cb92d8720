/-!
JSON values. Objects list their members in the order in which they are written; `ofMembers` brings
the members of an object that was read into byte order, the last of equal keys winning.
-/

namespace Switchboard

/-- Whole numbers stay exact; everything else is a double. -/
inductive Number
  | int (n : Int)
  | float (x : Float)

inductive Json
  | null
  | bool (b : Bool)
  | number (n : Number)
  | string (s : String)
  | array (items : List Json)
  | object (members : List (String × Json))

namespace Json

/-- Of neighbours with one key only the last stays. -/
def keepLast {α : Type} (members : List (String × α)) : List (String × α) :=
  members.foldr (fun m rest =>
    match rest with
    | [] => [m]
    | next :: _ => if m.1 = next.1 then rest else m :: rest) []

def ofMembers (members : List (String × Json)) : Json :=
  .object (keepLast (members.mergeSort fun a b => decide (a.1 ≤ b.1)))

def member? (j : Json) (key : String) : Option Json :=
  match j with
  | .object members => (members.find? fun m => m.1 == key).map Prod.snd
  | _ => none

end Json

end Switchboard
