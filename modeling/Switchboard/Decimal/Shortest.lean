/-!
The shortest decimal that reads back as a given double: of the decimal grids, from coarse to fine,
the first one with a point that rounds to the double, and of two such points the nearer.
-/

namespace Switchboard

/-- The number `coefficient * 10 ^ exponent`. -/
structure Decimal where
  coefficient : Nat
  exponent : Int
  deriving DecidableEq, Repr

namespace Decimal

inductive Tie
  | toEven
  | up
  deriving DecidableEq, Repr

/-- A positive double `mantissa * 2 ^ exponent`. Its lower neighbour is half as far away as its
upper one when the mantissa is the least of a binade. -/
structure Binary where
  mantissa : Nat
  exponent : Int
  closeBelow : Bool
  deriving DecidableEq, Repr

/-- The finite double with these bits, the sign aside. -/
def Binary.ofBits (bits : UInt64) : Binary :=
  let fraction : Nat := bits.toNat % Nat.pow 2 52
  let binade : Nat := bits.toNat / Nat.pow 2 52 % Nat.pow 2 11
  if binade = 0 then ⟨fraction, -1074, false⟩
  else ⟨fraction + Nat.pow 2 52, binade - 1075, fraction == 0 && binade > 1⟩

namespace Binary

/-- Quarters of a unit in the last place: the ends of the interval that rounds to the double. -/
def low (b : Binary) : Nat := if b.closeBelow then 4 * b.mantissa - 1 else 4 * b.mantissa - 2

def high (b : Binary) : Nat := 4 * b.mantissa + 2

/-- `n` quarters, brought over the common denominator with the points of the grid `10 ^ p`. -/
def quarters (b : Binary) (p : Int) (n : Nat) : Nat :=
  n * Nat.pow 2 (b.exponent - 2).toNat * Nat.pow 10 (-p).toNat

def gridStep (b : Binary) (p : Int) : Nat := Nat.pow 10 p.toNat * Nat.pow 2 (2 - b.exponent).toNat

/-- Whether `c * 10 ^ p` rounds to the double: the ends count when the mantissa is even. -/
def roundsFrom (b : Binary) (p : Int) (c : Nat) : Bool :=
  let x := c * b.gridStep p
  if b.mantissa % 2 = 0 then b.quarters p b.low ≤ x && x ≤ b.quarters p b.high
  else b.quarters p b.low < x && x < b.quarters p b.high

/-- The point of the grid `10 ^ p` that stands for the double, if there is one. -/
def onGrid? (b : Binary) (tie : Tie) (p : Int) : Option Nat :=
  let value := b.quarters p (4 * b.mantissa)
  let step := b.gridStep p
  let below := value / step
  let above := below + 1
  match b.roundsFrom p below, b.roundsFrom p above with
  | false, false => none
  | true, false => some below
  | false, true => some above
  | true, true =>
    let rest := 2 * (value % step)
    if rest < step then some below
    else if step < rest then some above
    else some (if tie = .toEven ∧ below % 2 = 0 then below else above)

def topGrid (b : Binary) : Int :=
  ((b.mantissa.log2 : Int) + b.exponent + 1) * 30103 / 100000 + 1

end Binary

def strip : Nat → Decimal → Decimal
  | 0, d => d
  | n + 1, d =>
    if d.coefficient ≠ 0 ∧ d.coefficient % 10 = 0 then
      strip n ⟨d.coefficient / 10, d.exponent + 1⟩
    else d

def search (b : Binary) (tie : Tie) : Nat → Int → Decimal
  | 0, p => ⟨(b.onGrid? tie p).getD 0, p⟩
  | n + 1, p =>
    match b.onGrid? tie p with
    | some c => strip 20 ⟨c, p⟩
    | none => search b tie n (p - 1)

/-- Twenty grids below the top one are finer than any double. -/
def shortest (b : Binary) (tie : Tie) : Decimal := search b tie 20 b.topGrid

def digits (d : Decimal) : List Char := Nat.toDigits 10 d.coefficient

/-- Digits before the decimal point; negative where zeros follow it. -/
def point (d : Decimal) : Int := d.digits.length + d.exponent

end Decimal

end Switchboard
