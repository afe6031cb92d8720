import Switchboard.Text.Within
import Switchboard.Toml.Bare

/-!
Reading a TOML document into one table. Keys have fewer than eighty parts, and brackets open
fewer than eighty deep.
-/

namespace Switchboard.Toml

open Text (Within)

theorem skip_length (cs : List Char) : (skip cs).length ≤ cs.length :=
  (List.dropWhile_sublist _).length_le

theorem skipLines?_length {inComment : Bool} {cs rest : List Char}
    (hit : skipLines? inComment cs = some rest) : rest.length ≤ cs.length := by
  induction cs generalizing inComment with
  | nil => cases hit; simp
  | cons c cs ih =>
    rw [skipLines?] at hit
    split at hit
    · exact Nat.le_succ_of_le (ih hit)
    · split at hit
      · split at hit
        · exact Nat.le_succ_of_le (ih hit)
        · cases hit
      · split at hit
        · exact Nat.le_succ_of_le (ih hit)
        · split at hit
          · exact Nat.le_succ_of_le (ih hit)
          · cases hit; simp

theorem endLine?_length {cs rest : List Char} (hit : endLine? cs = some rest) :
    rest.length ≤ cs.length := by
  have skipped := skip_length cs
  unfold endLine? at hit
  split at hit
  · cases hit; simp
  · next found =>
    cases hit
    rw [found, List.length_cons] at skipped
    omega
  · next found =>
    have := skipLines?_length hit
    rw [found, List.length_cons] at skipped
    omega
  · cases hit

theorem endLine?_drop_length {close cs rest whole : List Char}
    (hit : endLine? (cs.drop close.length) = some rest) (shorter : cs.length < whole.length) :
    rest.length < whole.length := by
  have := endLine?_length hit
  rw [List.length_drop] at this
  omega

inductive Flaw
  | malformed
  | clash (why : Clash)
  deriving DecidableEq, Repr

/-! ### Keys -/

def startsKey (c : Char) : Bool := c = '"' || c = '\'' || isBare c

def readKeyPart? : List Char → Option (String × List Char)
  | [] => none
  | c :: rest =>
    if c = '"' ∨ c = '\'' then readLine? c [] rest
    else if isBare c then
      some (String.ofList (c :: rest.takeWhile isBare), rest.dropWhile isBare)
    else none

theorem readKeyPart?_length {cs rest : List Char} {part : String}
    (hit : readKeyPart? cs = some (part, rest)) : rest.length < cs.length := by
  unfold readKeyPart? at hit
  split at hit
  · cases hit
  · next c inner =>
    split at hit
    · exact Nat.lt_succ_of_lt (readLine?_length hit)
    · split at hit <;> cases hit
      exact Nat.lt_succ_of_le (List.dropWhile_sublist _).length_le

def readKey? {whole : List Char} (way : List String) (cs : List Char)
    (fits : cs.length ≤ whole.length) : Option (Key × Within whole) :=
  match _part : readKeyPart? (skip cs) with
  | none => none
  | some (part, rest) =>
    have shorter : rest.length < cs.length := by
      have := readKeyPart?_length _part
      have := skip_length cs
      omega
    match _dot : skip rest with
    | '.' :: more =>
      have : more.length < rest.length := by
        have := skip_length rest
        grind
      readKey? (part :: way) more (by omega)
    | more => some (⟨way.reverse, part⟩, ⟨more, by have := skip_length rest; grind⟩)
termination_by cs.length

def depthLimit : Nat := 80

def Key.isDeep (key : Key) : Bool := depthLimit ≤ key.parts.length

/-! ### Values -/

mutual

/-- The next value; `depth` is how many more brackets may open. A table that does not go together is
told of as such, unless it is an item of a list. -/
def readValue {whole : List Char} (depth : Nat) (listed : Bool) (cs : List Char)
    (fits : cs.length ≤ whole.length) : Except Flaw (Toml × Within whole) :=
  match cs, fits with
  | [], _ => .error .malformed
  | c :: rest, fits =>
    have shorter : rest.length < whole.length := fits
    if c = '"' ∨ c = '\'' then
      match text : readString? c rest with
      | some (s, after) => .ok (.string s, ⟨after, by have := readString?_length text; omega⟩)
      | none => .error .malformed
    else if c = '[' then
      if depth = 0 then .error .malformed else readItems (depth - 1) [] rest shorter
    else if c = '\x7b' then
      if depth = 0 then .error .malformed
      else
        have inside : (skip rest).length < whole.length := by
          have := skip_length rest
          omega
        match readPairs (depth - 1) [] ⟨skip rest, inside⟩ rest shorter with
        | .error flaw => .error flaw
        | .ok (pairs, ⟨next, near⟩) =>
          match gather pairs with
          | .error why => .error (if listed then .malformed else .clash why)
          | .ok members =>
            match next, near with
            | d :: after, near =>
              if d = '\x7d' then .ok (.table .inline members, ⟨after, Nat.lt_of_succ_lt near⟩)
              else .error .malformed
            | [], _ => .error .malformed
    else if isWordChar c then
      match bare : readBare? c rest with
      | some (value, after) => .ok (value, ⟨after, by have := readBare?_length bare; omega⟩)
      | none => .error .malformed
    else .error .malformed
termination_by 2 * cs.length

def readItems {whole : List Char} (depth : Nat) (items : List Toml) (cs : List Char)
    (fits : cs.length < whole.length) : Except Flaw (Toml × Within whole) :=
  match start : skipLines? false cs with
  | none => .error .malformed
  | some [] => .error .malformed
  | some (c :: after) =>
    have here : (c :: after).length ≤ cs.length := skipLines?_length start
    have here' : after.length ≤ cs.length := Nat.le_of_succ_le here
    if c = ']' then .ok (.array items.reverse, ⟨after, Nat.lt_of_le_of_lt here' fits⟩)
    else
      match readValue depth true (c :: after) here with
      | .error flaw => .error flaw
      | .ok (item, ⟨rest, shorter⟩) =>
        match next : skipLines? false rest with
        | none => .error .malformed
        | some [] => .error .malformed
        | some (d :: more) =>
          have : more.length < cs.length := by
            have := skipLines?_length next
            rw [List.length_cons] at this
            omega
          if d = ',' then readItems depth (item :: items) more (by omega)
          else if d = ']' then .ok (.array (item :: items).reverse, ⟨more, by omega⟩)
          else .error .malformed
termination_by 2 * cs.length + 1
decreasing_by
  · omega
  · omega

/-- The pairs of an inline table, behind its bracket or a comma; `back` is what is left if no pair
comes there. -/
def readPairs {whole : List Char} (depth : Nat) (pairs : List (Key × Toml)) (back : Within whole)
    (cs : List Char) (fits : cs.length < whole.length) :
    Except Flaw (List (Key × Toml) × Within whole) :=
  if (skip cs).head?.any startsKey then
    match readKey? [] cs (Nat.le_refl cs.length) with
    | none => .error .malformed
    | some (key, ⟨rest, shorter⟩) =>
      if key.isDeep then .ok (pairs.reverse, back)
      else
        match rest, shorter with
        | [], _ => .error .malformed
        | c :: rest, shorter =>
          if c = '=' then
            have inside : (skip rest).length ≤ cs.length := by
              have := skip_length rest
              have : rest.length < cs.length := Nat.lt_of_succ_lt shorter
              omega
            match readValue depth false (skip rest) inside with
            | .error flaw => .error flaw
            | .ok (value, ⟨after, _⟩) =>
              have near : (skip after).length < cs.length := by
                have := skip_length after
                omega
              match skip after, near with
              | [], near => .ok (((key, value) :: pairs).reverse, ⟨[], Nat.lt_trans near fits⟩)
              | d :: more, near =>
                have : more.length < cs.length := Nat.lt_of_succ_lt near
                have here : (d :: more).length < whole.length := Nat.lt_trans near fits
                if d = ',' then
                  readPairs depth ((key, value) :: pairs) ⟨d :: more, here⟩ more (by omega)
                else .ok (((key, value) :: pairs).reverse, ⟨d :: more, here⟩)
          else .error .malformed
  else .ok (pairs.reverse, back)
termination_by 2 * cs.length + 1
decreasing_by
  · have := skip_length rest
    have : rest.length < cs.length := Nat.lt_of_succ_lt shorter
    omega
  · omega

end

/-! ### Documents -/

def readHeader? {whole : List Char} (close : List Char) (cs : List Char)
    (fits : cs.length ≤ whole.length) : Option (Key × Within whole) :=
  match readKey? [] cs fits with
  | none => none
  | some (key, ⟨rest, shorter⟩) =>
    if ¬ key.isDeep ∧ close.isPrefixOf rest then
      match line : endLine? (rest.drop close.length) with
      | some after => some (key, ⟨after, endLine?_drop_length line shorter⟩)
      | none => none
    else none

def readPair {whole : List Char} (cs : List Char) (fits : cs.length ≤ whole.length) :
    Except Flaw (Key × Toml × Within whole) :=
  match readKey? [] cs fits with
  | some (key, ⟨'=' :: rest, shorter⟩) =>
    have inside : (skip rest).length ≤ whole.length := by
      have := skip_length rest
      grind
    if key.isDeep then .error .malformed
    else
      match readValue (depthLimit - 1) false (skip rest) inside with
      | .error flaw => .error flaw
      | .ok (value, ⟨after, _⟩) =>
        match line : endLine? after with
        | some more => .ok (key, value, ⟨more, by have := endLine?_length line; omega⟩)
        | none => .error .malformed
  | _ => .error .malformed

def readBody (root : Members) (header : List String) (cs : List Char) : Except Flaw Members :=
  match start : skipLines? false cs with
  | none => .error .malformed
  | some [] => .ok root
  | some (c :: after) =>
    have here : (c :: after).length ≤ cs.length := skipLines?_length start
    if c = '[' then
      let isItem := after.head? == some '['
      have fits : (if isItem then after.tail else after).length ≤ after.length := by
        split <;> simp
      match readHeader? (if isItem then [']', ']'] else [']']) _ fits with
      | none => .error .malformed
      | some (key, ⟨rest, shorter⟩) =>
        have : rest.length < cs.length := Nat.lt_trans shorter here
        match if isItem then openItem key root else openTable key root with
        | .error why => .error (.clash why)
        | .ok root => readBody root key.parts rest
    else
      match readPair (c :: after) here with
      | .error flaw => .error flaw
      | .ok (key, value, ⟨rest, shorter⟩) =>
        have : rest.length < cs.length := shorter
        let enter := assign .dotted (.takenIn header) key value
        match within .header enter [] header .header root with
        | .error why => .error (.clash why)
        | .ok root => readBody root header rest
termination_by cs.length

def read (text : String) : Except Flaw Toml :=
  let cs := unixLines [] text.toList
  let body := match cs with
    | '\uFEFF' :: rest => rest
    | _ => cs
  (readBody [] [] body).map (.table .header)

end Switchboard.Toml
