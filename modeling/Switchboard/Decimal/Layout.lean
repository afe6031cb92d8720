import Switchboard.Decimal.Shortest

/-!
Doubles as text, from their shortest decimals: in full, or with an exponent where that is long.
-/

namespace Switchboard

namespace Decimal

def zeros (n : Int) : List Char := List.replicate n.toNat '0'

def positional (d : Decimal) : List Char :=
  if 0 ≤ d.exponent then d.digits ++ zeros d.exponent
  else if 0 < d.point then d.digits.take d.point.toNat ++ '.' :: d.digits.drop d.point.toNat
  else '0' :: '.' :: zeros (-d.point) ++ d.digits

def withPoint (text : List Char) : List Char :=
  if text.contains '.' then text else text ++ ['.', '0']

def scientific (d : Decimal) : List Char :=
  let exponent := d.point - 1
  let mantissa := match d.digits with
    | first :: second :: rest => first :: '.' :: second :: rest
    | short => short
  mantissa ++ 'e' :: (if exponent < 0 then '-' else '+') :: Nat.toDigits 10 exponent.natAbs

def brief (d : Decimal) : List Char :=
  if -5 < d.point ∧ d.point ≤ 16 then withPoint d.positional else d.scientific

def negative (x : Float) : Bool := x.toBits.toNat / Nat.pow 2 63 % 2 == 1

def signed (x : Float) (tie : Tie) (body : Decimal → List Char) : List Char :=
  let text := if x == 0 then ['0', '.', '0'] else body (shortest (.ofBits x.toBits) tie)
  if negative x then '-' :: text else text

def briefText (x : Float) : List Char := signed x .toEven brief

def fullText (x : Float) : List Char :=
  if x.isNaN then ['N', 'a', 'N']
  else if x.isInf then if negative x then ['-', 'i', 'n', 'f'] else ['i', 'n', 'f']
  else signed x .up fun d => withPoint d.positional

end Decimal

end Switchboard
