import Switchboard.Text.Blank
import Switchboard.Wire.Frame

/-!
Inbound bytes and the envelopes in them. A line ends with a newline or after one byte more than a
frame may have; blank lines are passed over.
-/

namespace Switchboard

/-- Why reading fails: over data that the transport finds invalid, or for another reason. -/
inductive Trouble
  | invalid
  | other (message : String)
  deriving DecidableEq, Repr

instance : Coe String Trouble := ⟨.other⟩

def Trouble.fault : Trouble → Fault
  | .invalid => .refused .notUtf8
  | .other message => .io message

inductive Arrival
  | data (bytes : List UInt8)
  | failure (trouble : Trouble)
  deriving DecidableEq, Repr

def Arrival.size : Arrival → Nat
  | .data bytes => bytes.length + 1
  | .failure _ => 1

namespace Line

def limit : Nat := Frame.limit + 1

def newline : UInt8 := 10

/-- Splits a line off; `room` is how many bytes it may still have, `seen` what it has already, the
last byte first. -/
def cutFrom? (room : Nat) (seen : List UInt8) : List UInt8 → Option (List UInt8 × List UInt8)
  | [] => none
  | b :: rest =>
    if b = newline ∨ room ≤ 1 then some ((b :: seen).reverse, rest)
    else cutFrom? (room - 1) (b :: seen) rest

def cut? (bytes : List UInt8) : Option (List UInt8 × List UInt8) := cutFrom? limit [] bytes

def read? (line : List UInt8) : Option (Except Fault Envelope) :=
  match Text.decode? line with
  | none => some (.error (.refused .notUtf8))
  | some text =>
    if Frame.limit < line.length ∧ line.getLast? ≠ some newline then
      some (.error (.refused .lineTooLong))
    else
      match Text.trim text.toList with
      | [] => none
      | body => some (Envelope.parse (String.ofList body))

theorem cutFrom?_length {room : Nat} {seen bytes line rest : List UInt8}
    (hit : cutFrom? room seen bytes = some (line, rest)) : rest.length < bytes.length := by
  induction bytes generalizing room seen with
  | nil => simp [cutFrom?] at hit
  | cons b bytes ih =>
    rw [cutFrom?] at hit
    split at hit
    · cases hit; simp
    · exact Nat.lt_succ_of_lt (ih hit)

end Line

/-- Bytes held back because their line is not complete, arrivals not yet looked at, and whether
more can come. -/
structure Inbox where
  held : List UInt8
  coming : List Arrival
  finished : Bool
  deriving DecidableEq, Repr

namespace Inbox

inductive Next
  | got (result : Except Fault Envelope) (rest : Inbox)
  | pending (rest : Inbox)
  | ended

def fresh : Inbox := ⟨[], [], false⟩

def arrive (inbox : Inbox) (arrival : Arrival) : Inbox :=
  { inbox with coming := inbox.coming ++ [arrival] }

def finish (inbox : Inbox) : Inbox := { inbox with finished := true }

/-- The next envelope or fault. A failure to read loses the line that it interrupts. -/
def next (inbox : Inbox) : Next :=
  match _line : Line.cut? inbox.held with
  | some (bytes, rest) =>
    match Line.read? bytes with
    | some result => .got result { inbox with held := rest }
    | none => next { inbox with held := rest }
  | none =>
    match _arrivals : inbox.coming with
    | .data bytes :: more => next { inbox with held := inbox.held ++ bytes, coming := more }
    | .failure trouble :: more =>
      .got (.error trouble.fault) { inbox with held := [], coming := more }
    | [] =>
      if inbox.finished then
        match inbox.held with
        | [] => .ended
        | held =>
          match Line.read? held with
          | some result => .got result { inbox with held := [] }
          | none => .ended
      else .pending inbox
termination_by (inbox.coming.length, inbox.held.length)
decreasing_by
  · exact Prod.Lex.right _ (Line.cutFrom?_length _line)
  · apply Prod.Lex.left
    simp [_arrivals]

def size (inbox : Inbox) : Nat :=
  inbox.held.length + inbox.coming.foldr (fun arrival total => arrival.size + total) 0

theorem next_size {inbox rest : Inbox} {result : Except Fault Envelope}
    (hit : inbox.next = .got result rest) : rest.size < inbox.size := by
  fun_induction next inbox generalizing rest with
  | case1 _ _ _ line _ _ =>
    cases hit
    have := Line.cutFrom?_length line
    simp only [size]
    omega
  | case2 _ _ _ line _ ih =>
    have := Line.cutFrom?_length line
    have := ih hit
    simp only [size] at this ⊢
    omega
  | case3 _ _ _ _ arrivals ih =>
    have := ih hit
    simp only [size, arrivals, List.foldr_cons, Arrival.size,
      List.length_append] at this ⊢
    omega
  | case4 _ _ _ _ arrivals =>
    cases hit
    simp only [size, arrivals, List.foldr_cons, Arrival.size, List.length_nil]
    omega
  | case5 => cases hit
  | case6 _ _ _ _ _ nonempty _ =>
    cases hit
    simp only [size, List.length_nil]
    have := List.length_pos_iff.mpr nonempty
    omega
  | case7 => cases hit
  | case8 => cases hit

def resultsFrom (seen : List (Except Fault Envelope)) (inbox : Inbox) :
    List (Except Fault Envelope) :=
  match _step : inbox.next with
  | .got result rest => resultsFrom (result :: seen) rest
  | _ => seen.reverse
termination_by inbox.size
decreasing_by exact next_size _step

def results (inbox : Inbox) : List (Except Fault Envelope) := resultsFrom [] inbox

end Inbox

end Switchboard
