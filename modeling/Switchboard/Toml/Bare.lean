import Switchboard.Toml.Basic
import Switchboard.Toml.Lexeme

/-!
Values written without quotes or brackets: truth values, whole numbers of 64 bits, floating point
numbers, dates and times. Each is one word; only a date and a time may have a space in between.
-/

namespace Switchboard.Toml

def isWordChar (c : Char) : Bool :=
  c.isAlphanum || c = '_' || c = '-' || c = '+' || c = '.' || c = ':'

def isGrouped (isDigit : Char → Bool) (due : Bool) : List Char → Bool
  | [] => !due
  | c :: cs =>
    if isDigit c then isGrouped isDigit false cs
    else c = '_' && !due && isGrouped isDigit true cs

def dropUnderscores (cs : List Char) : List Char := cs.filter (· ≠ '_')

def digitsValue (base : Nat) (cs : List Char) : Nat :=
  (dropUnderscores cs).foldl (fun n c => n * base + (Text.hexValue? c).getD 0) 0

def splitSign : List Char → Bool × List Char
  | '-' :: cs => (true, cs)
  | '+' :: cs => (false, cs)
  | cs => (false, cs)

def isWhole (cs : List Char) : Bool :=
  isGrouped Char.isDigit true cs && (cs.length == 1 || cs.head? ≠ some '0')

def inBase? (base : Nat) (cs : List Char) : Option Toml :=
  let isDigit (c : Char) : Bool := (Text.hexValue? c).any (· < base)
  if isGrouped isDigit true cs then
    let n := digitsValue base cs
    if n < Nat.pow 2 63 then some (.int n) else none
  else none

def int? (word : List Char) : Option Toml :=
  match word with
  | '0' :: 'x' :: cs => inBase? 16 cs
  | '0' :: 'o' :: cs => inBase? 8 cs
  | '0' :: 'b' :: cs => inBase? 2 cs
  | _ =>
    let (negative, cs) := splitSign word
    if isWhole cs then
      let n := digitsValue 10 cs
      if negative then if n ≤ Nat.pow 2 63 then some (.int (-n)) else none
      else if n < Nat.pow 2 63 then some (.int n) else none
    else none

/-- The double nearest to `n * 10 ^ exponent`, of which `count` digits were written. -/
def nearest (n count : Nat) (exponent : Int) : Float :=
  if n = 0 ∨ count + exponent < -400 then 0
  else if 400 < exponent then 1 / 0
  else Float.ofScientific n (exponent < 0) exponent.natAbs

def signedFloat? (negative : Bool) (x : Float) : Option Toml :=
  if negative then some (.float (-x)) else if x.isInf then none else some (.float x)

def exponent? (cs : List Char) : Option Int :=
  let (negative, ds) := splitSign cs
  if isGrouped Char.isDigit true ds then
    let n := digitsValue 10 ds
    some (if negative then -n else n)
  else none

def decimal? (negative : Bool) (cs : List Char) : Option Toml :=
  let isE (c : Char) : Bool := c = 'e' || c = 'E'
  let mantissa := cs.takeWhile (!isE ·)
  let whole := mantissa.takeWhile (· ≠ '.')
  let fraction? : Option (List Char) := match mantissa.drop whole.length with
    | [] => some []
    | _ :: ds => if isGrouped Char.isDigit true ds then some ds else none
  let exponent? : Option Int := match cs.drop mantissa.length with
    | [] => some 0
    | _ :: ds => exponent? ds
  if isWhole whole ∧ whole.length < cs.length then
    match fraction?, exponent? with
    | some fraction, some exponent =>
      let digits := dropUnderscores (whole ++ fraction)
      let shift : Int := (dropUnderscores fraction).length
      signedFloat? negative (nearest (digitsValue 10 digits) digits.length (exponent - shift))
    | _, _ => none
  else none

def float? (word : List Char) : Option Toml :=
  let (negative, cs) := splitSign word
  if cs = ['i', 'n', 'f'] then some (.float (if negative then -1 / 0 else 1 / 0))
  else if cs = ['n', 'a', 'n'] then some (.float (0 / 0))
  else decimal? negative cs

/-! ### Dates and times -/

def isPair (low high : Nat) (a b : Char) : Bool :=
  a.isDigit && b.isDigit &&
    let n := (a.toNat - 48) * 10 + (b.toNat - 48)
    low ≤ n && n ≤ high

def monthDays (year month : Nat) : Nat :=
  if month = 2 then
    if year % 4 = 0 ∧ (year % 100 ≠ 0 ∨ year % 400 = 0) then 29 else 28
  else if month = 4 ∨ month = 6 ∨ month = 9 ∨ month = 11 then 30
  else 31

def isDate (cs : List Char) : Bool :=
  match cs with
  | [y1, y2, y3, y4, '-', m1, m2, '-', d1, d2] =>
    [y1, y2, y3, y4].all Char.isDigit && isPair 1 12 m1 m2 &&
      isPair 1 (monthDays (digitsValue 10 [y1, y2, y3, y4]) (digitsValue 10 [m1, m2])) d1 d2
  | _ => false

def dropFraction : List Char → List Char
  | '.' :: d :: cs => if d.isDigit then cs.dropWhile Char.isDigit else '.' :: d :: cs
  | cs => cs

def afterTime? (cs : List Char) : Option (List Char) :=
  match cs with
  | h1 :: h2 :: ':' :: m1 :: m2 :: ':' :: s1 :: s2 :: rest =>
    if isPair 0 23 h1 h2 && isPair 0 59 m1 m2 && isPair 0 60 s1 s2 then some (dropFraction rest)
    else none
  | _ => none

def isOffset (cs : List Char) : Bool :=
  match cs with
  | ['Z'] | ['z'] => true
  | [sign, h1, h2, ':', m1, m2] =>
    (sign = '+' || sign = '-') && isPair 0 23 h1 h2 && isPair 0 59 m1 m2
  | _ => false

def isTime (cs : List Char) : Bool := afterTime? cs == some []

def isDayTime (cs : List Char) : Bool :=
  match afterTime? cs with
  | some rest => rest.isEmpty || isOffset rest
  | none => false

def moment? (word : List Char) : Option Toml :=
  let joined : Bool := match word.drop 10 with
    | 'T' :: time | 't' :: time => isDayTime time
    | rest => rest.isEmpty
  if isTime word || isDate (word.take 10) && joined then some .moment else none

def word? (word : List Char) : Option Toml :=
  if word = ['t', 'r', 'u', 'e'] then some (.bool true)
  else if word = ['f', 'a', 'l', 's', 'e'] then some (.bool false)
  else (moment? word).orElse fun _ => (float? word).orElse fun _ => int? word

def readBare? (c : Char) (cs : List Char) : Option (Toml × List Char) :=
  let word := c :: cs.takeWhile isWordChar
  let rest := cs.dropWhile isWordChar
  match isDate word, rest with
  | true, ' ' :: more =>
    let time := more.takeWhile isWordChar
    if time.isEmpty then some (.moment, rest)
    else if isDayTime time then some (.moment, more.dropWhile isWordChar)
    else none
  | _, _ => (word? word).map fun value => (value, rest)

theorem readBare?_length {c : Char} {cs rest : List Char} {value : Toml}
    (hit : readBare? c cs = some (value, rest)) : rest.length ≤ cs.length := by
  have dropped (cs : List Char) : (cs.dropWhile isWordChar).length ≤ cs.length :=
    (List.dropWhile_sublist _).length_le
  unfold readBare? at hit
  dsimp only at hit
  split at hit
  · next more _ shape =>
    have here := dropped cs
    rw [shape, List.length_cons] at here
    have := dropped more
    split at hit
    · cases hit
      exact dropped cs
    · split at hit <;> cases hit
      omega
  · obtain ⟨_, _, same⟩ := Option.map_eq_some_iff.mp hit
    cases same
    exact dropped cs

end Switchboard.Toml
