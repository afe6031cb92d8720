import Switchboard.Proofs.Json.Scalars
import Switchboard.Proofs.Toml.Strings
import Switchboard.Toml.Reader

/-!
Strings, whole numbers and empty lists are read from the texts that are written for them.
-/

namespace Switchboard.Toml

variable {word rest : List Char} {c : Char} {n : Nat}

/-! ### Whole numbers -/

theorem isDigit_toDigits (n : Nat) : ∀ c ∈ Nat.toDigits 10 n, c.isDigit = true :=
  (Json.wholeFigures n).property.2

theorem not_mem_digits (digits : ∀ c ∈ word, c.isDigit = true) (other : c.isDigit = false) :
    c ∉ word := fun member => by
  rw [digits c member] at other
  cases other

theorem isGrouped_digits (digits : ∀ c ∈ word, c.isDigit = true) (due : Bool)
    (filled : due = true → word ≠ []) : isGrouped Char.isDigit due word = true := by
  induction word generalizing due with
  | nil =>
    cases due with
    | false => rfl
    | true => exact absurd rfl (filled rfl)
  | cons c word ih =>
    obtain ⟨digit, more⟩ := List.forall_mem_cons.mp digits
    rw [isGrouped, if_pos digit]
    exact ih more false nofun

theorem foldl_digits (digits : ∀ c ∈ word, c.isDigit = true) (k : Nat) :
    word.foldl (fun n c => n * 10 + (Text.hexValue? c).getD 0) k = Nat.ofDigitChars 10 word k := by
  induction word generalizing k with
  | nil => rfl
  | cons c word ih =>
    obtain ⟨digit, more⟩ := List.forall_mem_cons.mp digits
    rw [List.foldl_cons, ih more, Nat.ofDigitChars_cons, Text.hexValue?, if_pos digit,
      Option.getD_some, Nat.mul_comm]
    rfl

theorem digitsValue_toDigits (n : Nat) : digitsValue 10 (Nat.toDigits 10 n) = n := by
  have digits := isDigit_toDigits n
  have plain : dropUnderscores (Nat.toDigits 10 n) = Nat.toDigits 10 n := by
    refine List.filter_eq_self.mpr fun c member => decide_eq_true ?_
    rintro rfl
    exact not_mem_digits digits (by decide) member
  rw [digitsValue, plain, foldl_digits digits, Nat.ofDigitChars_ten_toDigits]

theorem splitSign_digits (digits : ∀ c ∈ word, c.isDigit = true) :
    splitSign word = (false, word) := by
  unfold splitSign
  split
  · exact absurd List.mem_cons_self (not_mem_digits digits (by decide))
  · exact absurd List.mem_cons_self (not_mem_digits digits (by decide))
  · rfl

theorem isDate_digits (digits : ∀ c ∈ word, c.isDigit = true) : isDate word = false := by
  unfold isDate
  split
  · exact absurd (by simp) (not_mem_digits (c := '-') digits (by decide))
  · rfl

theorem moment?_digits (digits : ∀ c ∈ word, c.isDigit = true) : moment? word = none := by
  have time : isTime word = false := by
    unfold isTime afterTime?
    split
    · exact absurd (by simp) (not_mem_digits (c := ':') digits (by decide))
    · rfl
  have date : isDate (word.take 10) = false :=
    isDate_digits fun c member => digits c (List.mem_of_mem_take member)
  rw [moment?, time, date]
  simp

theorem takeWhile_digits {p : Char → Bool} (digits : ∀ c ∈ word, c.isDigit = true)
    (all : ∀ c, c.isDigit = true → p c = true) : word.takeWhile p = word := by
  have split : (word ++ []).takeWhile p = word ∧ (word ++ []).dropWhile p = [] :=
    Text.run_split (fun c member => all c (digits c member)) nofun
  rw [List.append_nil] at split
  exact split.1

theorem float?_digits (digits : ∀ c ∈ word, c.isDigit = true) : float? word = none := by
  have infinite : word ≠ ['i', 'n', 'f'] := by
    rintro rfl
    exact not_mem_digits digits (by decide) List.mem_cons_self
  have undefined : word ≠ ['n', 'a', 'n'] := by
    rintro rfl
    exact not_mem_digits digits (by decide) List.mem_cons_self
  have mantissa : word.takeWhile (fun c => !(c = 'e' || c = 'E')) = word :=
    takeWhile_digits digits fun c digit => by
      have lower : c ≠ 'e' := by rintro rfl; cases digit
      have upper : c ≠ 'E' := by rintro rfl; cases digit
      simp [lower, upper]
  have whole : word.takeWhile (· ≠ '.') = word :=
    takeWhile_digits digits fun c digit => by
      refine decide_eq_true ?_
      rintro rfl
      cases digit
  rw [float?, splitSign_digits digits]
  dsimp only
  rw [if_neg infinite, if_neg undefined, decimal?, mantissa, whole]
  exact if_neg fun more => Nat.lt_irrefl _ more.2

theorem int?_toDigits (small : n < Nat.pow 2 63) : int? (Nat.toDigits 10 n) = some (.int n) := by
  have digits := isDigit_toDigits n
  have whole : isWhole (Nat.toDigits 10 n) = true := by
    rw [isWhole, isGrouped_digits digits true fun _ => Nat.toDigits_ne_nil, Bool.true_and]
    by_cases zero : (Nat.toDigits 10 n).head? = some '0'
    · rw [Json.lead_toDigits n zero]
      rfl
    · simp [zero]
  have value := digitsValue_toDigits n
  generalize Nat.toDigits 10 n = word at *
  unfold int?
  split
  · exact absurd (by simp) (not_mem_digits (c := 'x') digits (by decide))
  · exact absurd (by simp) (not_mem_digits (c := 'o') digits (by decide))
  · exact absurd (by simp) (not_mem_digits (c := 'b') digits (by decide))
  · rw [splitSign_digits digits]
    simp [whole, value, small]

theorem word?_toDigits (small : n < Nat.pow 2 63) :
    word? (Nat.toDigits 10 n) = some (.int n) := by
  have digits := isDigit_toDigits n
  have yes : Nat.toDigits 10 n ≠ ['t', 'r', 'u', 'e'] := fun same =>
    not_mem_digits (c := 't') digits (by decide) (by rw [same]; exact List.mem_cons_self)
  have no : Nat.toDigits 10 n ≠ ['f', 'a', 'l', 's', 'e'] := fun same =>
    not_mem_digits (c := 'f') digits (by decide) (by rw [same]; exact List.mem_cons_self)
  rw [word?, if_neg yes, if_neg no, moment?_digits digits, float?_digits digits,
    int?_toDigits small]
  rfl

theorem isWordChar_of_isDigit (digit : c.isDigit = true) : isWordChar c = true := by
  simp [isWordChar, Char.isAlphanum, digit]

theorem readBare?_toDigits {cs : List Char} (small : n < Nat.pow 2 63)
    (shape : Nat.toDigits 10 n = c :: cs)
    (stop : ∀ d, rest.head? = some d → isWordChar d = false) :
    readBare? c (cs ++ rest) = some (.int n, rest) := by
  have digits := isDigit_toDigits n
  have inside : ∀ d ∈ cs, isWordChar d = true := fun d member =>
    isWordChar_of_isDigit (digits d (shape ▸ List.mem_cons_of_mem c member))
  obtain ⟨taken, left⟩ := Text.run_split inside stop
  have date : isDate (c :: cs) = false := shape ▸ isDate_digits digits
  rw [readBare?]
  dsimp only
  rw [taken, left, date, ← shape, word?_toDigits small]
  rfl

/-! ### Values in a document -/

/-- Reading takes the value off and leaves the rest. -/
def ReadsAs (cs : List Char) (value : Toml) (rest : List Char) : Prop :=
  ∀ (whole : List Char) (fits : cs.length ≤ whole.length),
    (readValue (depthLimit - 1) false cs fits).map (fun r => (r.1, r.2.val)) = .ok (value, rest)

theorem ReadsAs.ok {cs : List Char} {value : Toml} (reads : ReadsAs cs value rest)
    {whole : List Char} (fits : cs.length ≤ whole.length) :
    ∃ near, readValue (depthLimit - 1) false cs fits = .ok (value, ⟨rest, near⟩) := by
  have read := reads whole fits
  cases result : readValue (depthLimit - 1) false cs fits with
  | error e => rw [result] at read; cases read
  | ok r => rw [result] at read; cases read; exact ⟨r.2.property, rfl⟩

/-- How a value may be written on the line of its key: it is what is read in front of the line's
end. -/
structure Denotes (text : List Char) (value : Toml) : Prop where
  solid : ∀ after, skip (text ++ '\n' :: after) = text ++ '\n' :: after
  unix : '\r' ∉ text
  read : ∀ after, ReadsAs (text ++ '\n' :: after) value ('\n' :: after)

theorem skip_solid (solid : isSpace c = false) (rest : List Char) : skip (c :: rest) = c :: rest :=
  List.dropWhile_cons_of_neg (Bool.eq_false_iff.mp solid)

theorem Denotes.string (s : String) : Denotes (stringText s) (.string s) := by
  have opens (after : List Char) : ∃ quote rest, stringText s ++ '\n' :: after = quote :: rest ∧
      (quote = '"' ∨ quote = '\'') ∧ readString? quote rest = some (s, '\n' :: after) :=
    readString?_stringText s (by simp) (by simp)
  refine ⟨fun after => ?_, stringText_unix s, fun after whole => ?_⟩
  · obtain ⟨quote, rest, shape, known, -⟩ := opens after
    rw [shape]
    refine skip_solid ?_ rest
    rcases known with rfl | rfl <;> rfl
  · obtain ⟨quote, rest, shape, known, read⟩ := opens after
    rw [shape]
    intro fits
    rw [readValue]
    dsimp only
    rw [if_pos known]
    split
    · next found => rw [read] at found; cases found; rfl
    · next found => rw [read] at found; cases found

theorem Denotes.int (small : n < Nat.pow 2 63) : Denotes (Nat.toDigits 10 n) (.int n) := by
  have digits := isDigit_toDigits n
  obtain ⟨c, cs, shape⟩ := List.exists_cons_of_ne_nil
    (Nat.toDigits_ne_nil : Nat.toDigits 10 n ≠ [])
  have digit : c.isDigit = true := digits c (shape ▸ List.mem_cons_self)
  have other {d : Char} (no : d.isDigit = false) : c ≠ d := by
    rintro rfl
    rw [digit] at no
    cases no
  refine ⟨fun after => ?_, not_mem_digits digits (by decide), fun after whole => ?_⟩
  · rw [shape]
    refine skip_solid ?_ _
    simp [isSpace, other (d := ' ') (by decide), other (d := '\t') (by decide)]
  · have read : readBare? c (cs ++ '\n' :: after) = some (.int n, '\n' :: after) :=
      readBare?_toDigits small shape fun d first => by cases first; decide
    rw [shape]
    intro fits
    simp only [List.cons_append]
    rw [readValue]
    dsimp only
    rw [if_neg (not_or.mpr ⟨other (by decide), other (by decide)⟩), if_neg (other (by decide)),
      if_neg (other (by decide)), if_pos (isWordChar_of_isDigit digit)]
    split
    · next found => rw [read] at found; cases found; rfl
    · next found => rw [read] at found; cases found

theorem Denotes.empty : Denotes ['[', ']'] (.array []) where
  solid _ := rfl
  unix := by decide
  read after whole fits := by
    have start : skipLines? false (']' :: '\n' :: after) = some (']' :: '\n' :: after) := by
      simp [skipLines?, isSpace]
    simp only [List.cons_append, List.nil_append]
    rw [readValue]
    dsimp only
    rw [if_neg (by decide), if_pos rfl, if_neg (by decide), readItems]
    split
    · next found => rw [start] at found; cases found
    · next found => rw [start] at found; cases found
    · next found => rw [start] at found; cases found; rfl

end Switchboard.Toml
