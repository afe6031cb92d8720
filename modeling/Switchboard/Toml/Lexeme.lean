import Switchboard.Text.Hex

/-!
The characters of TOML, and its strings. Line ends are single newlines here.
-/

namespace Switchboard.Toml

def isSpace (c : Char) : Bool := c = ' ' || c = '\t'

def isPlain (c : Char) : Bool := c = '\t' || (0x20 ≤ c.toNat && c.toNat ≠ 0x7F)

def isBare (c : Char) : Bool := c.isAlphanum || c = '_' || c = '-'

def skip (cs : List Char) : List Char := cs.dropWhile isSpace

def unixLines (seen : List Char) : List Char → List Char
  | [] => seen.reverse
  | '\r' :: '\n' :: cs => unixLines ('\n' :: seen) cs
  | c :: cs => unixLines (c :: seen) cs

def skipLines? (inComment : Bool) : List Char → Option (List Char)
  | [] => some []
  | c :: cs =>
    if c = '\n' then skipLines? false cs
    else if inComment then if isPlain c then skipLines? true cs else none
    else if isSpace c then skipLines? false cs
    else if c = '#' then skipLines? true cs
    else some (c :: cs)

def endLine? (cs : List Char) : Option (List Char) :=
  match skip cs with
  | [] => some []
  | '\n' :: rest => some rest
  | '#' :: rest => skipLines? true rest
  | _ => none

/-! ### Strings -/

def escaped? (c : Char) : Option Char :=
  if c = '"' ∨ c = '\\' then some c
  else if c = 'b' then some '\x08'
  else if c = 't' then some '\t'
  else if c = 'n' then some '\n'
  else if c = 'f' then some '\x0c'
  else if c = 'r' then some '\r'
  else none

def readScalar? (count : Nat) (cs : List Char) : Option (Char × List Char) :=
  match Text.readHex? 0 count cs with
  | some (n, rest) => if n.isValidChar then some (Char.ofNat n, rest) else none
  | none => none

def readEscape? : List Char → Option (Char × List Char)
  | [] => none
  | c :: rest =>
    if c = 'u' then readScalar? 4 rest
    else if c = 'U' then readScalar? 8 rest
    else (escaped? c).map fun d => (d, rest)

theorem readEscape?_length {c : Char} {cs rest : List Char}
    (hit : readEscape? cs = some (c, rest)) : rest.length < cs.length := by
  have scalar {count : Nat} {cs : List Char} (hit : readScalar? count cs = some (c, rest)) :
      rest.length ≤ cs.length := by
    unfold readScalar? at hit
    split at hit
    · next read =>
      have := Text.readHex?_length read
      split at hit <;> cases hit
      omega
    · cases hit
  unfold readEscape? at hit
  split at hit
  · cases hit
  · split at hit
    · exact Nat.lt_succ_of_le (scalar hit)
    · split at hit
      · exact Nat.lt_succ_of_le (scalar hit)
      · obtain ⟨_, _, same⟩ := Option.map_eq_some_iff.mp hit
        cases same
        simp

def readLine? (quote : Char) (seen : List Char) (cs : List Char) : Option (String × List Char) :=
  match cs with
  | [] => none
  | c :: rest =>
    if c = quote then some (String.ofList seen.reverse, rest)
    else if c = '\\' ∧ quote = '"' then
      match _escape : readEscape? rest with
      | some (d, rest) => readLine? quote (d :: seen) rest
      | none => none
    else if isPlain c then readLine? quote (c :: seen) rest
    else none
termination_by cs.length
decreasing_by
  · have := readEscape?_length _escape
    simp only [List.length_cons]
    omega
  · simp

/-- A backslash at the end of a line: past it and all blank lines and space behind it. -/
def foldLine? (cs : List Char) : Option (List Char) :=
  match skip cs with
  | '\n' :: rest => some (rest.dropWhile fun c => isSpace c || c = '\n')
  | _ => none

theorem foldLine?_length {cs rest : List Char} (hit : foldLine? cs = some rest) :
    rest.length < cs.length := by
  unfold foldLine? at hit
  split at hit
  · next inner found =>
    cases hit
    have dropped := (List.dropWhile_sublist (fun c => isSpace c || c = '\n') (l := inner)).length_le
    have skipped : (skip cs).length ≤ cs.length := (List.dropWhile_sublist _).length_le
    rw [found, List.length_cons] at skipped
    omega
  · cases hit

/-- Behind the three quotes that open a string of many lines. A run of up to two quotes is text; the
three that close may have two more in front of them. -/
def readLines? (quote : Char) (seen : List Char) (cs : List Char) : Option (String × List Char) :=
  match cs with
  | [] => none
  | c :: rest =>
    if c = quote then
      let more := rest.takeWhile (· = quote)
      let next := rest.drop more.length
      if more.length ≤ 1 then readLines? quote (more ++ c :: seen) next
      else if more.length ≤ 4 then some (String.ofList (more.drop 2 ++ seen).reverse, next)
      else none
    else if c = '\\' ∧ quote = '"' then
      match _fold : foldLine? rest with
      | some rest => readLines? quote seen rest
      | none =>
        match _escape : readEscape? rest with
        | some (d, rest) => readLines? quote (d :: seen) rest
        | none => none
    else if isPlain c ∨ c = '\n' then readLines? quote (c :: seen) rest
    else none
termination_by cs.length
decreasing_by
  · simp only [List.length_drop, List.length_cons]
    omega
  · have := foldLine?_length _fold
    simp only [List.length_cons]
    omega
  · have := readEscape?_length _escape
    simp only [List.length_cons]
    omega
  · simp

def dropNewline : List Char → List Char
  | '\n' :: rest => rest
  | cs => cs

def readString? (quote : Char) (cs : List Char) : Option (String × List Char) :=
  match cs with
  | a :: b :: rest =>
    if a = quote ∧ b = quote then readLines? quote [] (dropNewline rest)
    else readLine? quote [] cs
  | _ => readLine? quote [] cs

theorem readLine?_length {quote : Char} {seen cs rest : List Char} {s : String}
    (hit : readLine? quote seen cs = some (s, rest)) : rest.length < cs.length := by
  fun_induction readLine? quote seen cs generalizing rest with
  | case1 => cases hit
  | case2 => cases hit; simp
  | case3 _ _ _ _ _ _ _ escape ih =>
    have := readEscape?_length escape
    have := ih hit
    simp only [List.length_cons]
    omega
  | case4 => cases hit
  | case5 _ _ _ _ _ _ ih => exact Nat.lt_succ_of_lt (ih hit)
  | case6 => cases hit

theorem readLines?_length {quote : Char} {seen cs rest : List Char} {s : String}
    (hit : readLines? quote seen cs = some (s, rest)) : rest.length < cs.length := by
  fun_induction readLines? quote seen cs generalizing rest with
  | case1 => cases hit
  | case2 _ cs more next =>
    rename_i ih
    have := ih hit
    have : next.length ≤ cs.length := by simp [next]
    simp only [List.length_cons]
    omega
  | case3 _ cs more next =>
    cases hit
    have : next.length ≤ cs.length := by simp [next]
    simp only [List.length_cons]
    omega
  | case4 => cases hit
  | case5 _ _ _ _ _ next fold ih =>
    have := foldLine?_length fold
    have := ih hit
    simp only [List.length_cons]
    omega
  | case6 _ _ _ _ _ _ d next escape ih =>
    have := readEscape?_length escape
    have := ih hit
    simp only [List.length_cons]
    omega
  | case7 => cases hit
  | case8 _ _ _ _ _ _ ih => exact Nat.lt_succ_of_lt (ih hit)
  | case9 => cases hit

theorem dropNewline_length (cs : List Char) : (dropNewline cs).length ≤ cs.length := by
  unfold dropNewline
  split <;> simp

theorem readString?_length {quote : Char} {cs rest : List Char} {s : String}
    (hit : readString? quote cs = some (s, rest)) : rest.length < cs.length := by
  unfold readString? at hit
  split at hit
  · next inner =>
    split at hit
    · have := readLines?_length hit
      have := dropNewline_length inner
      simp only [List.length_cons]
      omega
    · exact readLine?_length hit
  · exact readLine?_length hit

end Switchboard.Toml
