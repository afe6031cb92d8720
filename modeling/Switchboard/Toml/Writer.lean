import Switchboard.Text.Hex
import Switchboard.Toml.Lexeme

/-!
TOML text of strings, in the plainest of four forms that can hold them: between double or single
quotes, on one line or on several.
-/

namespace Switchboard.Toml

def isCode (c : Char) : Bool := (c.toNat < 0x20 && c ≠ '\t' && c ≠ '\n') || c.toNat = 0x7F

/-- The longest run of `quote`; `here` is how long the run is that has just been seen. -/
def longestRun (quote : Char) (here longest : Nat) : List Char → Nat
  | [] => longest
  | c :: cs =>
    if c = quote then longestRun quote (here + 1) (max longest (here + 1)) cs
    else longestRun quote 0 longest cs

structure StringForm where
  quote : Char
  multiline : Bool
  deriving DecidableEq, Repr

def StringForm.of (cs : List Char) : StringForm :=
  let escape := cs.contains '\\'
  let codes := cs.any isCode
  let newline := cs.contains '\n'
  let double := longestRun '"' 0 0 cs
  let single := longestRun '\'' 0 0 cs
  if ¬ escape ∧ ¬ codes ∧ ¬ newline ∧ double = 0 then ⟨'"', false⟩
  else if ¬ codes ∧ ¬ newline ∧ single = 0 then ⟨'\'', false⟩
  else if ¬ escape ∧ ¬ codes ∧ double ≤ 2 then ⟨'"', true⟩
  else if ¬ codes ∧ single ≤ 2 then ⟨'\'', true⟩
  else ⟨'"', newline⟩

/-- How a character is written between double quotes; `quotes` is how many quotes stand right in
front of it. -/
def escape? (multiline : Bool) (quotes : Nat) (c : Char) : Option (List Char) :=
  if c = '"' then if (if multiline then 2 else 0) < quotes + 1 then some ['\\', '"'] else none
  else if c = '\x08' then some ['\\', 'b']
  else if c = '\t' then some ['\\', 't']
  else if c = '\n' then if multiline then none else some ['\\', 'n']
  else if c = '\x0c' then some ['\\', 'f']
  else if c = '\r' then some ['\\', 'r']
  else if c = '\\' then some ['\\', '\\']
  else if isCode c then some ('\\' :: 'u' :: Text.paddedHex true 4 c.toNat)
  else none

def escapeAll (multiline : Bool) (written : List Char) (quotes : Nat) : List Char → List Char
  | [] => written.reverse
  | c :: cs =>
    match escape? multiline quotes c with
    | some text => escapeAll multiline (text.reverse ++ written) 0 cs
    | none => escapeAll multiline (c :: written) (if c = '"' then quotes + 1 else 0) cs

def stringText (s : String) : List Char :=
  let cs := s.toList
  let form := StringForm.of cs
  let delimiter := List.replicate (if form.multiline then 3 else 1) form.quote
  let body := if form.quote = '"' then escapeAll form.multiline [] 0 cs else cs
  let start := if form.multiline ∧ cs.contains '\n' then ['\n'] else []
  delimiter ++ start ++ body ++ delimiter

/-! ### Lines -/

def pairLine (key : String) (value : List Char) : List Char :=
  key.toList ++ [' ', '=', ' '] ++ value ++ ['\n']

def headerLine (key : String) : List Char := ['\n', '['] ++ key.toList ++ [']', '\n']

def itemLine (key : String) : List Char := ['\n', '[', '['] ++ key.toList ++ [']', ']', '\n']

end Switchboard.Toml
