import Switchboard.Json.Basic
import Switchboard.Json.Flaw

/-!
JSON numbers. A whole number within 64 bits, signed or unsigned, is exact. Anything else becomes a
double: as many leading digits as fit into an unsigned 64-bit word, scaled by a power of ten with
one rounding each.
-/

namespace Switchboard.Json

def wordLimit : Nat := Nat.pow 2 64 - 1

def exponentLimit : Nat := Nat.pow 2 31 - 1

structure Digits where
  value : Nat
  count : Nat
  rest : List Char

/-- The leading digits of a text, as long as their value stays within the limit. -/
def takeDigits (limit value count : Nat) : List Char → Digits
  | [] => ⟨value, count, []⟩
  | c :: cs =>
    if c.isDigit ∧ value * 10 + (c.toNat - 48) ≤ limit then
      takeDigits limit (value * 10 + (c.toNat - 48)) (count + 1) cs
    else ⟨value, count, c :: cs⟩

def startsWithDigit : List Char → Bool
  | c :: _ => c.isDigit
  | [] => false

/-- `significand * 10 ^ exponent`, scaled in steps of at most `10 ^ 308`; `none` beyond the largest
double. -/
def scale (x : Float) (exponent : Int) : Option Float :=
  if 308 < exponent then if x == 0 then some x else none
  else if 0 ≤ exponent then
    let y := x * Float.ofScientific 1 false exponent.toNat
    if y.isInf then none else some y
  else if -308 ≤ exponent then some (x / Float.ofScientific 1 false (-exponent).toNat)
  else if x == 0 then some x
  else scale (x / Float.ofScientific 1 false 308) (exponent + 308)
termination_by (-exponent).toNat

def float? (negative : Bool) (significand : Nat) (exponent : Int) : Option Number :=
  (scale significand.toUInt64.toFloat exponent).map fun x => .float (if negative then -x else x)

def floatBefore (negative : Bool) (significand : Nat) (exponent : Int) (rest : List Char) :
    Except Stop (Number × List Char) :=
  match float? negative significand exponent with
  | some n => .ok (n, rest)
  | none => .error (.before .numberOutOfRange rest)

def readExponent (negative : Bool) (significand : Nat) (shift : Int) (cs : List Char) :
    Except Stop (Number × List Char) :=
  let (down, ds) := match cs with
    | '+' :: r => (false, r)
    | '-' :: r => (true, r)
    | _ => (false, cs)
  match ds with
  | [] => .error (.atEnd .endInValue)
  | d :: _ =>
    if d.isDigit then
      let e := takeDigits exponentLimit 0 0 ds
      if startsWithDigit e.rest then
        if significand ≠ 0 ∧ ¬ down then .error (.past .numberOutOfRange e.rest)
        else .ok (.float (if negative then -0.0 else 0.0), e.rest.dropWhile Char.isDigit)
      else
        let exponent := if down then shift - e.value else shift + e.value
        floatBefore negative significand exponent e.rest
    else .error (.past .badNumber ds)

def readScaled (negative : Bool) (significand : Nat) (shift : Int) (cs : List Char) :
    Except Stop (Number × List Char) :=
  match cs with
  | 'e' :: r | 'E' :: r => readExponent negative significand shift r
  | _ => floatBefore negative significand shift cs

/-- Behind the decimal point: at least one digit; those that no longer fit are dropped. -/
def readFraction (negative : Bool) (significand : Nat) (shift : Int) (cs : List Char) :
    Except Stop (Number × List Char) :=
  match cs with
  | [] => .error (.atEnd .endInValue)
  | c :: _ =>
    if c.isDigit then
      let d := takeDigits wordLimit significand 0 cs
      readScaled negative d.value (shift - d.count) (d.rest.dropWhile Char.isDigit)
    else .error (.past .badNumber cs)

def readTail (negative : Bool) (significand : Nat) (cs : List Char) :
    Except Stop (Number × List Char) :=
  match cs with
  | '.' :: r => readFraction negative significand 0 r
  | 'e' :: r | 'E' :: r => readExponent negative significand 0 r
  | _ =>
    if negative then
      if significand = 0 ∨ Nat.pow 2 63 < significand then
        .ok (.float (-significand.toUInt64.toFloat), cs)
      else .ok (.int (-significand), cs)
    else .ok (.int significand, cs)

/-- Digits that no longer fit into the word only shift the decimal point. -/
def readLong (negative : Bool) (significand shift : Nat) (cs : List Char) :
    Except Stop (Number × List Char) :=
  match cs with
  | '.' :: r => readFraction negative significand shift r
  | _ => readScaled negative significand shift cs

def readUnsigned (negative : Bool) (cs : List Char) : Except Stop (Number × List Char) :=
  match cs with
  | [] => .error (.atEnd .endInValue)
  | c :: r =>
    if c = '0' then
      if startsWithDigit r then .error (.past .badNumber r) else readTail negative 0 r
    else if c.isDigit then
      let d := takeDigits wordLimit 0 0 cs
      if startsWithDigit d.rest then
        let more := d.rest.takeWhile Char.isDigit
        readLong negative d.value more.length (d.rest.dropWhile Char.isDigit)
      else readTail negative d.value d.rest
    else .error (.past .badNumber cs)

def readNumber (cs : List Char) : Except Stop (Number × List Char) :=
  match cs with
  | '-' :: r => readUnsigned true r
  | _ => readUnsigned false cs

/-! ### What is left is shorter -/

theorem takeDigits_length (limit value count : Nat) (cs : List Char) :
    (takeDigits limit value count cs).rest.length ≤ cs.length := by
  induction cs generalizing value count with
  | nil => simp [takeDigits]
  | cons c cs ih =>
    rw [takeDigits]
    split
    · exact Nat.le_succ_of_le (ih _ _)
    · simp

theorem length_dropDigits (cs : List Char) : (cs.dropWhile Char.isDigit).length ≤ cs.length :=
  (List.dropWhile_sublist _).length_le

variable {negative : Bool} {significand : Nat} {shift : Int} {cs rest : List Char} {n : Number}

theorem floatBefore_rest {e : Int} (read : floatBefore negative significand e cs = .ok (n, rest)) :
    rest = cs := by
  unfold floatBefore at read
  grind

theorem readExponent_length (read : readExponent negative significand shift cs = .ok (n, rest)) :
    rest.length ≤ cs.length := by
  unfold readExponent at read
  grind [takeDigits_length, length_dropDigits, floatBefore_rest]

theorem readScaled_length (read : readScaled negative significand shift cs = .ok (n, rest)) :
    rest.length ≤ cs.length := by
  unfold readScaled at read
  split at read
  · exact Nat.le_succ_of_le (readExponent_length read)
  · exact Nat.le_succ_of_le (readExponent_length read)
  · exact Nat.le_of_eq (congrArg List.length (floatBefore_rest read))

theorem readFraction_length (read : readFraction negative significand shift cs = .ok (n, rest)) :
    rest.length ≤ cs.length := by
  unfold readFraction at read
  split at read
  · cases read
  · split at read
    · exact Nat.le_trans (readScaled_length read)
        (Nat.le_trans (length_dropDigits _) (takeDigits_length _ _ _ _))
    · cases read

theorem readTail_length (read : readTail negative significand cs = .ok (n, rest)) :
    rest.length ≤ cs.length := by
  unfold readTail at read
  split at read
  · exact Nat.le_succ_of_le (readFraction_length read)
  · exact Nat.le_succ_of_le (readExponent_length read)
  · exact Nat.le_succ_of_le (readExponent_length read)
  · grind

theorem readLong_length {more : Nat}
    (read : readLong negative significand more cs = .ok (n, rest)) : rest.length ≤ cs.length := by
  unfold readLong at read
  split at read
  · exact Nat.le_succ_of_le (readFraction_length read)
  · exact readScaled_length read

theorem takeDigits_length_lt {c : Char} (digit : c.isDigit) (cs : List Char) :
    (takeDigits wordLimit 0 0 (c :: cs)).rest.length < (c :: cs).length := by
  have small : c.toNat - 48 ≤ wordLimit := by
    simp only [Char.isDigit, Bool.and_eq_true, decide_eq_true_eq] at digit
    have := digit.2
    have : c.toNat ≤ 57 := by simpa using UInt32.le_iff_toNat_le.mp this
    have large : 57 ≤ wordLimit := by decide
    omega
  rw [takeDigits, if_pos ⟨digit, by simpa using small⟩]
  exact Nat.lt_succ_of_le (takeDigits_length _ _ _ _)

theorem readUnsigned_length (read : readUnsigned negative cs = .ok (n, rest)) :
    rest.length < cs.length := by
  unfold readUnsigned at read
  split at read
  · cases read
  · next c r =>
    split at read
    · split at read
      · cases read
      · exact Nat.lt_succ_of_le (readTail_length read)
    · split at read
      · next digit =>
        have taken := takeDigits_length_lt digit r
        dsimp only at read
        split at read
        · have dropped := length_dropDigits (takeDigits wordLimit 0 0 (c :: r)).rest
          exact Nat.lt_of_le_of_lt (Nat.le_trans (readLong_length read) dropped) taken
        · exact Nat.lt_of_le_of_lt (readTail_length read) taken
      · cases read

theorem readNumber_length (read : readNumber cs = .ok (n, rest)) : rest.length < cs.length := by
  unfold readNumber at read
  split at read
  · exact Nat.lt_succ_of_lt (readUnsigned_length read)
  · exact readUnsigned_length read

end Switchboard.Json
