/-!
Hexadecimal digits, written and read.
-/

namespace Switchboard.Text

def hexDigits (upper : Bool) (n : Nat) : List Char :=
  if upper then (Nat.toDigits 16 n).map Char.toUpper else Nat.toDigits 16 n

def paddedHex (upper : Bool) (width n : Nat) : List Char :=
  let ds := hexDigits upper n
  List.replicate (width - ds.length) '0' ++ ds

def hexValue? (c : Char) : Option Nat :=
  if c.isDigit then some (c.toNat - 48)
  else if 'a' ≤ c ∧ c ≤ 'f' then some (c.toNat - 87)
  else if 'A' ≤ c ∧ c ≤ 'F' then some (c.toNat - 55)
  else none

def readHex? (value : Nat) : (count : Nat) → List Char → Option (Nat × List Char)
  | 0, cs => some (value, cs)
  | _ + 1, [] => none
  | count + 1, c :: cs =>
    match hexValue? c with
    | some digit => readHex? (value * 16 + digit) count cs
    | none => none

theorem readHex?_length {value count n : Nat} {cs rest : List Char}
    (hit : readHex? value count cs = some (n, rest)) : rest.length + count = cs.length := by
  induction count generalizing value cs with
  | zero =>
    rw [readHex?] at hit
    cases hit
    rfl
  | succ count ih =>
    cases cs with
    | nil => cases hit
    | cons c cs =>
      rw [readHex?] at hit
      split at hit
      · have := ih hit
        simp only [List.length_cons]
        omega
      · cases hit

end Switchboard.Text
