import Mathlib.Algebra.Group.Int.Defs
import Mathlib.Algebra.Group.Nat.Defs
import Switchboard.Proofs.Json.Grammar

/-!
Strings and whole numbers are written as the grammar has them.
-/

namespace Switchboard.Json

variable {digits : List Char} {c : Char}

/-! ### Strings -/

theorem escape_cases (c : Char) :
    (∃ d, escape c = ['\\', d] ∧ d ≠ 'u' ∧ escaped? d = some c) ∨
    (escape c = '\\' :: 'u' :: Text.paddedHex false 4 c.toNat ∧ c.toNat < 0x20) ∨
    (escape c = [c] ∧ c ≠ '"' ∧ c ≠ '\\' ∧ 0x20 ≤ c.toNat) := by
  have short : ∀ p ∈ [('"', '"'), ('\\', '\\'), ('\x08', 'b'), ('\x0c', 'f'), ('\n', 'n'),
      ('\r', 'r'), ('\t', 't')],
      escape p.1 = ['\\', p.2] ∧ p.2 ≠ 'u' ∧ escaped? p.2 = some p.1 := by
    decide
  by_cases named : ∃ p ∈ [('"', '"'), ('\\', '\\'), ('\x08', 'b'), ('\x0c', 'f'), ('\n', 'n'),
      ('\r', 'r'), ('\t', 't')], p.1 = c
  · obtain ⟨p, member, rfl⟩ := named
    exact Or.inl ⟨p.2, short p member⟩
  · simp only [List.mem_cons, List.not_mem_nil, or_false, exists_eq_or_imp, exists_eq_left,
      not_or, ← ne_eq] at named
    obtain ⟨quote, backslash, backspace, feed, newline, back, tab⟩ := named
    have rest : escape c =
        if c.toNat < 0x20 then '\\' :: 'u' :: Text.paddedHex false 4 c.toNat else [c] := by
      rw [escape, if_neg quote.symm, if_neg backslash.symm, if_neg backspace.symm,
        if_neg feed.symm, if_neg newline.symm, if_neg back.symm, if_neg tab.symm]
    rw [rest]
    by_cases control : c.toNat < 0x20
    · rw [if_pos control]
      exact Or.inr (Or.inl ⟨rfl, control⟩)
    · rw [if_neg control]
      exact Or.inr (Or.inr ⟨rfl, quote.symm, backslash.symm, Nat.le_of_not_lt control⟩)

theorem hex_control {n : Nat} (control : n < 0x20) : Hex (Text.paddedHex false 4 n) n := by
  have digits : ∀ n < 0x20, (Text.paddedHex false 4 n).map Text.hexValue? =
      [some 0, some 0, some (n / 16), some (n % 16)] := by
    decide
  exact ⟨0, 0, n / 16, n % 16, digits n control, by omega⟩

theorem glyph_escape (c : Char) : Glyph (escape c) c := by
  rcases escape_cases c with ⟨d, shape, -, stands⟩ | ⟨shape, control⟩ |
    ⟨shape, quote, backslash, printable⟩
  · rw [shape]
    exact .escaped stands
  · have glyph := Glyph.point (hex_control control) (Or.inl (by omega))
    rwa [Char.ofNat_toNat, ← shape] at glyph
  · rw [shape]
    exact .plain quote backslash printable

theorem spells_escape (cs : List Char) : Spells (cs.flatMap escape) cs := by
  induction cs with
  | nil => exact .nil
  | cons c cs ih => exact .cons (glyph_escape c) ih

theorem printable_escape : ∀ d ∈ escape c, 0x20 ≤ d.toNat := by
  have all : ∀ n < 0x20, (Text.paddedHex false 4 n).all (fun d => 0x20 ≤ d.toNat) = true := by
    decide
  have hex : ∀ n < 0x20, ∀ d ∈ Text.paddedHex false 4 n, 0x20 ≤ d.toNat := fun n small d inside =>
    of_decide_eq_true (List.all_eq_true.mp (all n small) d inside)
  rcases escape_cases c with ⟨e, shape, -, stands⟩ | ⟨shape, control⟩ | ⟨shape, -, -, printable⟩
  · have printable : 0x20 ≤ e.toNat := by
      refine Nat.le_of_not_lt fun control => ?_
      have none : ∀ n < 0x20, escaped? (Char.ofNat n) = none := by decide
      have nothing := none e.toNat control
      rw [Char.ofNat_toNat, stands] at nothing
      cases nothing
    rw [shape]
    simp [printable]
  · rw [shape]
    simpa using hex c.toNat control
  · rw [shape]
    simpa using printable

theorem printable_stringText (s : String) : ∀ d ∈ stringText s, 0x20 ≤ d.toNat := by
  intro d member
  simp only [stringText, List.mem_cons, List.mem_append, List.mem_flatMap, List.not_mem_nil,
    or_false] at member
  rcases member with (rfl | ⟨c, -, inside⟩) | rfl
  · decide
  · exact printable_escape d inside
  · decide

/-! ### Whole numbers -/

theorem le_ofDigitChars (digits : List Char) (value : Nat) :
    value ≤ Nat.ofDigitChars 10 digits value := by
  rw [Nat.ofDigitChars_eq_ofDigitChars_zero]
  exact Nat.le_add_right_of_le (Nat.le_mul_of_pos_left value (Nat.pow_pos (by decide)))

theorem takeDigits_fits {limit value count : Nat} (all : ∀ c ∈ digits, c.isDigit)
    (fits : Nat.ofDigitChars 10 digits value ≤ limit) :
    takeDigits limit value count digits =
      ⟨Nat.ofDigitChars 10 digits value, count + digits.length, []⟩ := by
  induction digits generalizing value count with
  | nil => rfl
  | cons c digits ih =>
    have zero : '0'.toNat = 48 := rfl
    rw [Nat.ofDigitChars_cons, Nat.mul_comm, zero] at fits ⊢
    have digit := all c List.mem_cons_self
    have more : value * 10 + (c.toNat - 48) ≤ limit := Nat.le_trans (le_ofDigitChars digits _) fits
    rw [takeDigits, if_pos ⟨digit, more⟩,
      ih (fun d member => all d (List.mem_cons_of_mem c member)) fits, List.length_cons,
      Nat.add_assoc, Nat.add_comm 1]

theorem takeDigits_value_le {limit value count : Nat} (fits : value ≤ limit) (digits : List Char) :
    (takeDigits limit value count digits).value ≤ limit := by
  induction digits generalizing value count with
  | nil => exact fits
  | cons c cs ih =>
    rw [takeDigits]
    split
    · next more => exact ih more.2
    · exact fits

theorem takeDigits_value {limit value count : Nat}
    (whole : (takeDigits limit value count digits).rest = []) :
    (takeDigits limit value count digits).value = Nat.ofDigitChars 10 digits value := by
  induction digits generalizing value count with
  | nil => rfl
  | cons c digits ih =>
    have zero : '0'.toNat = 48 := rfl
    rw [Nat.ofDigitChars_cons, Nat.mul_comm, zero]
    rw [takeDigits] at whole ⊢
    split at whole
    · next fits =>
      rw [if_pos fits]
      exact ih whole
    · cases whole

theorem float?_float {negative : Bool} {significand : Nat} {e : Int} {x : Number}
    (float : float? negative significand e = some x) : ∃ y, x = .float y := by
  obtain ⟨y, -, rfl⟩ := Option.map_eq_some_iff.mp float
  exact ⟨_, rfl⟩

theorem scaled?_float {negative : Bool} {significand : Nat} {shift : Int}
    {exponent? : Option Exponent} {x : Number}
    (scaled : scaled? negative significand shift exponent? = some x) : ∃ y, x = .float y := by
  cases exponent? with
  | none => exact float?_float scaled
  | some e =>
    rw [scaled?, Exponent.number?] at scaled
    split at scaled
    · exact float?_float scaled
    · split at scaled <;> cases scaled
      exact ⟨_, rfl⟩

def Numeral.amount (n : Numeral) : Nat := Nat.ofDigitChars 10 n.whole.val 0

theorem Numeral.number?_eq_int {n : Numeral} {k : Int} : n.number? = some (.int k) ↔
    n.fraction? = none ∧ n.exponent? = none ∧
      if n.negative then 0 < n.amount ∧ n.amount ≤ 2 ^ 63 ∧ k = -n.amount
      else n.amount < 2 ^ 64 ∧ k = n.amount := by
  have float : ∀ significand shift exponent?,
      scaled? n.negative significand shift exponent? ≠ some (.int k) :=
    fun _ _ _ scaled => nomatch scaled?_float scaled
  have limit : wordLimit = 2 ^ 64 - 1 := rfl
  have power : Nat.pow 2 63 = 2 ^ 63 := rfl
  unfold number? Json.number?
  cases n.fraction? with
  | some f => simp [float]
  | none =>
    by_cases whole : (takeDigits wordLimit 0 0 n.whole.val).rest = []
    · have fits : n.amount ≤ wordLimit := by
        rw [amount, ← takeDigits_value whole]
        exact takeDigits_value_le (Nat.zero_le _) _
      dsimp only
      rw [takeDigits_value whole, ← amount]
      cases n.exponent? with
      | some e => simp [float]
      | none =>
        rw [if_pos ⟨whole, rfl⟩, wordNumber, Option.some.injEq]
        split
        · split
          · simp
            omega
          · simp only [Number.int.injEq, true_and]
            omega
        · simp only [Number.int.injEq, true_and]
          omega
    · have large : ¬ n.amount ≤ wordLimit := fun fits =>
        whole (by rw [takeDigits_fits n.whole.property.2 fits])
      dsimp only
      rw [if_neg fun both => whole both.1]
      simp only [float, false_iff, not_and]
      intro _ _
      split <;> omega

theorem head?_toDigits {n : Nat} (positive : 0 < n) : (Nat.toDigits 10 n).head? ≠ some '0' := by
  induction n using Nat.strongRecOn with
  | ind n ih =>
    rw [Nat.toDigits_eq_if (by decide)]
    split
    next small =>
      have digits : ∀ n < 10, 0 < n → [n.digitChar].head? ≠ some '0' := by decide
      exact digits n small positive
    next large =>
      obtain ⟨c, digits, written⟩ := List.exists_cons_of_ne_nil
        (Nat.toDigits_ne_nil : Nat.toDigits 10 (n / 10) ≠ [])
      have first := ih (n / 10) (by omega) (by omega)
      rwa [written] at first ⊢

def wholeFigures (n : Nat) : Figures :=
  ⟨Nat.toDigits 10 n, Nat.toDigits_ne_nil, fun _ member =>
    Nat.isDigit_of_mem_toDigits (by decide) (by decide) member⟩

theorem lead_toDigits (n : Nat) :
    (Nat.toDigits 10 n).head? = some '0' → Nat.toDigits 10 n = ['0'] := by
  intro zero
  rcases Nat.eq_zero_or_pos n with rfl | positive
  · rfl
  · exact absurd zero (head?_toDigits positive)

def wholeNumeral (n : Int) : Numeral where
  negative := decide (n < 0)
  whole := wholeFigures n.natAbs
  fraction? := none
  exponent? := none
  lead := lead_toDigits n.natAbs

theorem text_wholeNumeral (n : Int) : (wholeNumeral n).text = (Number.int n).text := by
  rw [Numeral.text, Numeral.sign, Number.text]
  by_cases negative : n < 0 <;>
    simp [wholeNumeral, wholeFigures, Numeral.fractionText, Numeral.exponentText, negative]

/-- Whole numbers within 64 bits, signed or unsigned. -/
def Exact (n : Int) : Prop := -2 ^ 63 ≤ n ∧ n < 2 ^ 64

theorem number?_wholeNumeral {n : Int} (exact : Exact n) :
    (wholeNumeral n).number? = some (.int n) := by
  obtain ⟨low, high⟩ := exact
  have amount : (wholeNumeral n).amount = n.natAbs := Nat.ofDigitChars_ten_toDigits
  refine Numeral.number?_eq_int.mpr ⟨rfl, rfl, ?_⟩
  rw [amount]
  by_cases negative : n < 0
  · have sign : (wholeNumeral n).negative = true := decide_eq_true negative
    rw [if_pos sign]
    omega
  · have sign : ¬ (wholeNumeral n).negative = true := fun sign => negative (of_decide_eq_true sign)
    rw [if_neg sign]
    omega

end Switchboard.Json
