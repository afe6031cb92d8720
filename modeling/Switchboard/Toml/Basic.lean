import Switchboard.Decimal.Layout
import Switchboard.Shape.Record
import Switchboard.Table
import Switchboard.Toml.Clash

/-!
TOML values, and how keys and headers build tables. A table is opened once: by its header, by
dotted keys, or inline; one that only came about on the way to another may still get its header.
-/

namespace Switchboard

inductive Origin
  | header
  | implied
  | dotted
  | inline
  deriving DecidableEq, Repr

inductive Toml
  | string (s : String)
  | int (n : Int)
  | float (x : Float)
  | bool (b : Bool)
  | moment
  | array (items : List Toml)
  | tables (items : List Toml)
  | table (origin : Origin) (entries : List (String × Toml))

namespace Toml

abbrev Members := List (String × Toml)

def kind : Toml → String
  | string _ => "string"
  | int _ => "integer"
  | float _ => "float"
  | bool _ => "boolean"
  | moment => "datetime"
  | array _ | tables _ => "array"
  | table _ _ => "inline table"

/-- What leads from table to table: the parts of a header, or of a dotted key, which may stand in an
inline table. -/
inductive Route
  | header
  | dotted
  | inline
  deriving DecidableEq, Repr

/-- Whether a table that a path has led to may be entered: inline tables are closed to all that
comes later, and tables with a header of their own to dotted keys. -/
def Route.check (route : Route) (path : List String) (key : String) (origin : Origin) :
    Except Clash Unit :=
  match route, origin with
  | .inline, .inline | .dotted, .header => .error (.taken key)
  | _, .inline => .error (.extended path "inline table")
  | _, _ => .ok ()

/-- Changes the table at the end of a path, making the tables on the way that are missing; `walked`
is the path that led here. An array of tables is entered at its last table. -/
def within (route : Route) (change : Origin → Members → Except Clash Members)
    (walked : List String) : List String → Origin → Members → Except Clash Members
  | [], origin, members => change origin members
  | key :: path, _, members =>
    let walked := walked ++ [key]
    match Entries.find? key members with
    | none => do
      let origin := if route = .header then Origin.implied else .dotted
      let inner ← within route change walked path origin []
      return Entries.put key (.table origin inner) members
    | some (.table origin inner) => do
      route.check walked key origin
      let inner ← within route change walked path origin inner
      return Entries.put key (.table origin inner) members
    | some (.tables items) =>
      match items.getLast? with
      | some (.table origin inner) => do
        let inner ← within route change walked path origin inner
        return Entries.put key (.tables (items.dropLast ++ [.table origin inner])) members
      | _ => .error (.extended walked (kind (.tables items)))
    | some value => .error (.extended walked value.kind)

/-- Enters a value under a dotted key, whose last part must be new; `taken` says how to tell that it
is not. -/
def assign (route : Route) (taken : String → Clash) (key : Key) (value : Toml) (origin : Origin)
    (members : Members) : Except Clash Members :=
  within route (fun origin members =>
    if (origin = .dotted) ↔ key.way = [] then .error (.taken key.last)
    else if (Entries.find? key.last members).isSome then .error (taken key.last)
    else .ok (members ++ [(key.last, value)])) [] key.way origin members

def gather (pairs : List (Key × Toml)) : Except Clash Members :=
  pairs.foldlM (fun members (key, value) => assign .inline .taken key value .inline members) []

def openTable (key : Key) (root : Members) : Except Clash Members :=
  within .header (fun _ members =>
    match Entries.find? key.last members with
    | none => .ok (members ++ [(key.last, .table .header [])])
    | some (.table .implied inner) =>
      .ok (Entries.drop key.last members ++ [(key.last, .table .header inner)])
    | some _ => .error (.takenIn key.way (partText key.last))) [] key.way .header root

def openItem (key : Key) (root : Members) : Except Clash Members :=
  within .header (fun _ members =>
    match Entries.find? key.last members with
    | none => .ok (members ++ [(key.last, .tables [.table .header []])])
    | some (.tables items) =>
      .ok (Entries.put key.last (.tables (items ++ [.table .header []])) members)
    | some _ => .error (.takenIn key.way (partText key.last))) [] key.way .header root

/-! ### As a source of records -/

open Shape

def view : Toml → View Toml
  | string s => .string s
  | int n => .int n
  | float x => .float x
  | bool b => .bool b
  | moment => .record []
  | array items | tables items => .list items
  | table _ members => .record members

def isEmpty : Toml → Bool
  | array [] | table _ [] => true
  | _ => false

def tag : Toml → Except Mismatch (String × Except Mismatch Unit)
  | string name => .ok (name, .ok ())
  | table _ [(name, value)] => .ok (name, if value.isEmpty then .ok () else .error .notATag)
  | _ => .error .notATag

def format : Format Toml where
  view := view
  floatText := Decimal.fullText
  closed := false
  tag := tag

end Toml

end Switchboard
