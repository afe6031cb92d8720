import Switchboard.Decimal.Layout
import Switchboard.Json.Basic
import Switchboard.Text.Quoted

/-!
The compact text of a JSON value: no space between tokens, members in their order, and in strings
only quotes, backslashes and control characters escaped.
-/

namespace Switchboard

def Number.text : Number → List Char
  | int n => if n < 0 then '-' :: Nat.toDigits 10 n.natAbs else Nat.toDigits 10 n.natAbs
  | float x => Decimal.briefText x

namespace Json

def escape (c : Char) : List Char :=
  if c = '"' then ['\\', '"']
  else if c = '\\' then ['\\', '\\']
  else if c = '\x08' then ['\\', 'b']
  else if c = '\x0c' then ['\\', 'f']
  else if c = '\n' then ['\\', 'n']
  else if c = '\r' then ['\\', 'r']
  else if c = '\t' then ['\\', 't']
  else if c.toNat < 0x20 then '\\' :: 'u' :: Text.paddedHex false 4 c.toNat
  else [c]

def stringText (s : String) : List Char := '"' :: s.toList.flatMap escape ++ ['"']

def bracketed (left right : Char) (pieces : List (List Char)) : List Char :=
  left :: (pieces.intersperse [',']).flatten ++ [right]

def text : Json → List Char
  | null => ['n', 'u', 'l', 'l']
  | bool true => ['t', 'r', 'u', 'e']
  | bool false => ['f', 'a', 'l', 's', 'e']
  | number n => n.text
  | string s => stringText s
  | array items => bracketed '[' ']' (items.map text)
  | object members =>
    bracketed '\x7b' '\x7d' (members.map fun m => stringText m.1 ++ ':' :: text m.2)
decreasing_by
  · simp_wf; have := List.sizeOf_lt_of_mem ‹_›; omega
  · simp_wf
    have := List.sizeOf_lt_of_mem ‹_›
    have : sizeOf m.2 < sizeOf m := by
      obtain ⟨key, value⟩ := m
      show sizeOf value < 1 + sizeOf key + sizeOf value
      omega
    omega

def write (j : Json) : String := String.ofList j.text

end Json

end Switchboard
