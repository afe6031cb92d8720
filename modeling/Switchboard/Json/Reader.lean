import Switchboard.Json.Number
import Switchboard.Text.Hex
import Switchboard.Text.Within

/-!
Reading one JSON value from a text. Each reader hands on what is left, which is shorter than what
it was given. Values nest less than 128 deep.
-/

namespace Switchboard.Json

def isSpace (c : Char) : Bool := c = ' ' || c = '\t' || c = '\n' || c = '\r'

def skip (cs : List Char) : List Char := cs.dropWhile isSpace

theorem skip_length (cs : List Char) : (skip cs).length ≤ cs.length :=
  (List.dropWhile_sublist _).length_le

/-! ### Strings -/

/-- Four bytes are taken before they are looked at, even where they cut a character. -/
def readHex4 (cs : List Char) : Except Stop (Nat × List Char) :=
  match Text.readHex? 0 4 cs with
  | some r => .ok r
  | none =>
    let left := byteLength (cs.take 4)
    if left < 4 then .error (.atEnd .endInString)
    else .error ⟨.badEscape, byteLength cs - 4⟩

/-- Behind a leading surrogate: `\u` and the trailing one. -/
def readTrailing (lead : Nat) (cs : List Char) : Except Stop (Char × List Char) :=
  match cs with
  | [] => .error (.atEnd .endInString)
  | '\\' :: [] => .error (.atEnd .endInString)
  | '\\' :: 'u' :: r =>
    match readHex4 r with
    | .error e => .error e
    | .ok (trail, rest) =>
      if 0xDC00 ≤ trail ∧ trail ≤ 0xDFFF then
        .ok (Char.ofNat (0x10000 + (lead - 0xD800) * 1024 + (trail - 0xDC00)), rest)
      else .error (.before .loneSurrogate rest)
  | '\\' :: r => .error (.past .cutSurrogate r)
  | _ => .error (.past .cutSurrogate cs)

def readCodePoint (cs : List Char) : Except Stop (Char × List Char) :=
  match readHex4 cs with
  | .error e => .error e
  | .ok (n, rest) =>
    if 0xDC00 ≤ n ∧ n ≤ 0xDFFF then .error (.before .loneSurrogate rest)
    else if 0xD800 ≤ n ∧ n ≤ 0xDBFF then readTrailing n rest
    else .ok (Char.ofNat n, rest)

def escaped? (c : Char) : Option Char :=
  if c = '"' ∨ c = '\\' ∨ c = '/' then some c
  else if c = 'b' then some '\x08'
  else if c = 'f' then some '\x0c'
  else if c = 'n' then some '\n'
  else if c = 'r' then some '\r'
  else if c = 't' then some '\t'
  else none

def readEscape (cs : List Char) : Except Stop (Char × List Char) :=
  match cs with
  | [] => .error (.atEnd .endInString)
  | c :: rest =>
    if c = 'u' then readCodePoint rest
    else
      match escaped? c with
      | some d => .ok (d, rest)
      | none => .error (.past .badEscape cs)

variable {cs rest : List Char}

theorem readHex4_length {n : Nat} (read : readHex4 cs = .ok (n, rest)) :
    rest.length < cs.length := by
  unfold readHex4 at read
  split at read
  · next r hit =>
    cases read
    have := Text.readHex?_length hit
    omega
  · dsimp only at read
    split at read <;> cases read

theorem readTrailing_length {lead : Nat} {c : Char} (read : readTrailing lead cs = .ok (c, rest)) :
    rest.length ≤ cs.length := by
  unfold readTrailing at read
  split at read <;> try cases read
  next r =>
    split at read
    · cases read
    · next h =>
      have := readHex4_length h
      split at read
      · obtain ⟨_, rfl⟩ := Prod.mk.inj (Except.ok.inj read)
        simp only [List.length_cons]
        omega
      · cases read

theorem readCodePoint_length {c : Char} (read : readCodePoint cs = .ok (c, rest)) :
    rest.length ≤ cs.length := by
  unfold readCodePoint at read
  split at read
  · cases read
  · next h =>
    have := readHex4_length h
    split at read
    · cases read
    · split at read
      · have := readTrailing_length read
        omega
      · cases read
        omega

theorem readEscape_length {c : Char} (read : readEscape cs = .ok (c, rest)) :
    rest.length < cs.length := by
  unfold readEscape at read
  split at read
  · cases read
  · split at read
    · exact Nat.lt_succ_of_le (readCodePoint_length read)
    · split at read <;> cases read
      simp

/-- Behind the opening quote; `seen` holds what was read so far, the last character first. -/
def readString (seen : List Char) (cs : List Char) : Except Stop (String × List Char) :=
  match cs with
  | [] => .error (.atEnd .endInString)
  | c :: rest =>
    if c = '"' then .ok (String.ofList seen.reverse, rest)
    else if c = '\\' then
      match _escape : readEscape rest with
      | .error e => .error e
      | .ok (d, rest) => readString (d :: seen) rest
    else if c.toNat < 0x20 then .error (.past .controlInString cs)
    else readString (c :: seen) rest
termination_by cs.length
decreasing_by
  · have := readEscape_length _escape
    simp only [List.length_cons]
    omega
  · simp

theorem readString_length {seen : List Char} {s : String}
    (read : readString seen cs = .ok (s, rest)) : rest.length < cs.length := by
  fun_induction readString seen cs generalizing rest with
  | case1 => cases read
  | case2 => cases read; simp
  | case3 => cases read
  | case4 seen _ d next _ _ ih =>
    have := readEscape_length (by assumption)
    have := ih read
    simp only [List.length_cons]
    omega
  | case5 => cases read
  | case6 seen c next _ _ _ ih =>
    have := ih read
    simp only [List.length_cons]
    omega

/-! ### Values -/

def readWord (word cs : List Char) : Except Stop (List Char) :=
  match word, cs with
  | [], cs => .ok cs
  | _ :: _, [] => .error (.atEnd .endInValue)
  | w :: word, c :: rest => if c = w then readWord word rest else .error (.past .wordExpected cs)

theorem readWord_length {word : List Char} (read : readWord word cs = .ok rest) :
    rest.length ≤ cs.length := by
  induction word generalizing cs with
  | nil =>
    unfold readWord at read
    cases read
    exact Nat.le_refl _
  | cons w word ih =>
    unfold readWord at read
    split at read
    · next h => cases h
    · cases read
    · next h =>
      cases h
      split at read
      · exact Nat.le_succ_of_le (ih read)
      · cases read

abbrev Reading (α : Type) (whole : List Char) := Except Stop (α × Text.Within whole)

def maxDepth : Nat := 128

mutual

/-- The next value; `depth` is how many more brackets may open, less one. -/
def readValue {whole : List Char} (depth : Nat) (cs : List Char)
    (fits : cs.length ≤ whole.length) : Reading Json whole :=
  match found : skip cs with
  | [] => .error (.atEnd .endInValue)
  | c :: rest =>
    have shorter : rest.length < whole.length := by
      have := skip_length cs
      grind
    if c = '"' then
      match string : readString [] rest with
      | .error e => .error e
      | .ok (s, after) => .ok (.string s, ⟨after, by have := readString_length string; omega⟩)
    else if c = '\x7b' then
      if depth ≤ 1 then .error (.past .tooDeep (c :: rest))
      else
        match opened : skip rest with
        | [] => .error (.atEnd .endInObject)
        | '\x7d' :: after => .ok (.object [], ⟨after, by have := skip_length rest; grind⟩)
        | _ => readMembers (depth - 1) [] rest shorter
    else if c = '[' then
      if depth ≤ 1 then .error (.past .tooDeep (c :: rest))
      else
        match opened : skip rest with
        | [] => .error (.atEnd .endInArray)
        | ']' :: after => .ok (.array [], ⟨after, by have := skip_length rest; grind⟩)
        | _ => readItems (depth - 1) [] rest shorter
    else if c = 't' then
      match word : readWord ['r', 'u', 'e'] rest with
      | .error e => .error e
      | .ok after => .ok (.bool true, ⟨after, by have := readWord_length word; omega⟩)
    else if c = 'f' then
      match word : readWord ['a', 'l', 's', 'e'] rest with
      | .error e => .error e
      | .ok after => .ok (.bool false, ⟨after, by have := readWord_length word; omega⟩)
    else if c = 'n' then
      match word : readWord ['u', 'l', 'l'] rest with
      | .error e => .error e
      | .ok after => .ok (.null, ⟨after, by have := readWord_length word; omega⟩)
    else if c = '-' ∨ c.isDigit then
      match number : readNumber (c :: rest) with
      | .error e => .error e
      | .ok (x, after) =>
        .ok (.number x, ⟨after, by have := readNumber_length number; grind⟩)
    else .error (.past .valueExpected (c :: rest))
termination_by (cs.length, 0)
decreasing_by
  all_goals
    have := skip_length cs
    grind

def readItems {whole : List Char} (depth : Nat) (items : List Json) (cs : List Char)
    (fits : cs.length < whole.length) : Reading Json whole :=
  match readValue depth cs (Nat.le_refl cs.length) with
  | .error e => .error e
  | .ok (item, ⟨rest, shorter⟩) =>
    match found : skip rest with
    | [] => .error (.atEnd .endInArray)
    | c :: after =>
      have : after.length < cs.length := by
        have := skip_length rest
        grind
      if c = ']' then .ok (.array (item :: items).reverse, ⟨after, by omega⟩)
      else if c = ',' then
        match skip after with
        | [] => .error (.atEnd .endInValue)
        | ']' :: more => .error (.past .trailingComma (']' :: more))
        | _ => readItems depth (item :: items) after (by omega)
      else .error (.past .arrayCommaExpected (c :: after))
termination_by (cs.length, 1)

def readMembers {whole : List Char} (depth : Nat) (members : List (String × Json))
    (cs : List Char) (fits : cs.length < whole.length) : Reading Json whole :=
  match found : skip cs with
  | [] => .error (.atEnd .endInObject)
  | q :: r =>
    have : r.length < cs.length := by
      have := skip_length cs
      grind
    if q = '"' then
      match string : readString [] r with
      | .error e => .error e
      | .ok (key, r1) =>
        have := readString_length string
        match colon : skip r1 with
        | [] => .error (.atEnd .endInObject)
        | k :: r2 =>
          have inside : r2.length < r1.length := by
            have := skip_length r1
            grind
          if k = ':' then
            match readValue depth r2 (Nat.le_of_lt inside) with
            | .error e => .error e
            | .ok (value, ⟨r3, shorter⟩) =>
              match more : skip r3 with
              | [] => .error (.atEnd .endInObject)
              | c :: after =>
                have : after.length < cs.length := by
                  have := skip_length r3
                  grind
                if c = '\x7d' then
                  .ok (ofMembers ((key, value) :: members).reverse, ⟨after, by omega⟩)
                else if c = ',' then
                  match skip after with
                  | [] => .error (.atEnd .endInValue)
                  | '\x7d' :: x => .error (.past .trailingComma ('\x7d' :: x))
                  | _ => readMembers depth ((key, value) :: members) after (by omega)
                else .error (.past .objectCommaExpected (c :: after))
          else .error (.past .colonExpected (k :: r2))
    else .error (.past .keyNotString (q :: r))
termination_by (cs.length, 1)

end

def readText (cs : List Char) : Except Stop Json :=
  match readValue maxDepth cs (Nat.le_refl cs.length) with
  | .error e => .error e
  | .ok (value, ⟨rest, _⟩) =>
    match skip rest with
    | [] => .ok value
    | more => .error (.past .trailingCharacters more)

def read (text : String) : Except ReadError Json :=
  let cs := text.toList
  (readText cs).mapError fun stop => stop.locate cs

end Switchboard.Json
