import Switchboard.Shape.Mismatch

/-!
Reading typed records out of untyped values. A record is given by its fields' names, or as a list
with one item for each field by position. Of several faults the one met first is reported; fields
that are left out count last.
-/

namespace Switchboard.Shape

inductive View (α : Type)
  | null
  | bool (b : Bool)
  | int (n : Int)
  | float (x : Float)
  | string (s : String)
  | list (items : List α)
  | record (members : List (String × α))

def View.found {α : Type} (floatText : Float → List Char) : View α → Found
  | null => .null
  | bool b => .bool b
  | int n => .int n
  | float x => .float (String.ofList (floatText x))
  | string s => .string s
  | list _ => .list
  | record _ => .record

structure Format (α : Type) where
  view : α → View α
  floatText : Float → List Char
  /-- Whether a list may hold no more items than the record has fields. -/
  closed : Bool
  /-- The tag that a value names, and what must hold of what comes with it. -/
  tag : α → Except Mismatch (String × Except Mismatch Unit)

variable {α δ τ : Type}

namespace Format

def found (format : Format α) (value : α) : Found := (format.view value).found format.floatText

def mistyped (format : Format α) (value : α) (expected : String) : Except Mismatch τ :=
  .error (.invalidType (format.found value) expected)

def string (format : Format α) (value : α) : Except Mismatch String :=
  match format.view value with
  | .string s => .ok s
  | _ => format.mistyped value "a string"

def word (format : Format α) (expected : String) (value : α) : Except Mismatch UInt64 :=
  match format.view value with
  | .int n =>
    if 0 ≤ n ∧ n.toNat < Nat.pow 2 64 then .ok n.toNat.toUInt64
    else .error (.invalidValue (.int n) expected)
  | _ => format.mistyped value expected

def list (format : Format α) (item : α → Except Mismatch τ) (value : α) :
    Except Mismatch (List τ) :=
  match format.view value with
  | .list items => items.mapM item
  | _ => format.mistyped value "a sequence"

def optional (format : Format α) (read : α → Except Mismatch τ) (value : α) :
    Except Mismatch (Option τ) :=
  match format.view value with
  | .null => .ok none
  | _ => (read value).map some

def choice (format : Format α) (alternatives : List (String × τ)) (value : α) :
    Except Mismatch τ :=
  match format.tag value with
  | .error e => .error e
  | .ok (name, alone) =>
    match alternatives.find? (·.1 == name) with
    | none => .error (.unknownVariant name (alternatives.map Prod.fst))
    | some (_, choice) => alone.map fun _ => choice

end Format

/-- A record under way is a draft, into which fields are entered in the order in which they come;
`finish` turns it into the record or names the first field that must not be left out. -/
structure Record (α δ τ : Type) where
  name : String
  fields : List String
  blank : δ
  enter : δ → String → α → Except Mismatch δ
  finish : δ → Except String τ

namespace Record

def enterAll (r : Record α δ τ) (members : List (String × α)) : Except Mismatch δ :=
  members.foldlM (fun draft m => r.enter draft m.1 m.2) r.blank

def expectedItems (r : Record α δ τ) : String :=
  s!"struct {r.name} with {r.fields.length} elements"

def ofMembers (r : Record α δ τ) (members : List (String × α)) : Except Mismatch τ :=
  match r.enterAll members with
  | .error e => .error e
  | .ok draft => (r.finish draft).mapError .missingField

def ofItems (r : Record α δ τ) (closed : Bool) (items : List α) : Except Mismatch τ :=
  match r.enterAll (r.fields.zip items) with
  | .error e => .error e
  | .ok draft =>
    match r.finish draft with
    | .error name => .error (.invalidLength (r.fields.idxOf name) r.expectedItems)
    | .ok value =>
      if closed ∧ r.fields.length < items.length then
        .error (.invalidLength items.length "fewer elements in array")
      else .ok value

def read (r : Record α δ τ) (format : Format α) (value : α) : Except Mismatch τ :=
  match format.view value with
  | .record members => r.ofMembers members
  | .list items => r.ofItems format.closed items
  | _ => format.mistyped value s!"struct {r.name}"

end Record

def required (name : String) (value : Option τ) : Except String τ :=
  match value with
  | some v => .ok v
  | none => .error name

end Switchboard.Shape
