import Mathlib.Algebra.Group.Nat.Defs
import Switchboard.Decimal.Layout

/-!
The short text of a double is short, by a coarse bound on its digits, and there is nothing in it but
digits, a point and signs.
-/

namespace Switchboard.Decimal

/-! ### Doubles -/

theorem Binary.mantissa_ofBits (bits : UInt64) : (Binary.ofBits bits).mantissa < 2 ^ 53 := by
  have fraction : bits.toNat % Nat.pow 2 52 < 2 ^ 52 := Nat.mod_lt _ (by decide)
  unfold ofBits
  dsimp only
  split
  · change bits.toNat % Nat.pow 2 52 < 2 ^ 53
    omega
  · change bits.toNat % Nat.pow 2 52 + 2 ^ 52 < 2 ^ 53
    omega

theorem Binary.exponent_ofBits (bits : UInt64) :
    -1074 ≤ (Binary.ofBits bits).exponent ∧ (Binary.ofBits bits).exponent ≤ 972 := by
  have binade : bits.toNat / Nat.pow 2 52 % Nat.pow 2 11 < 2048 := Nat.mod_lt _ (by decide)
  unfold ofBits
  dsimp only
  split
  · dsimp only
    omega
  · dsimp only
    omega

theorem Binary.topGrid_ofBits (bits : UInt64) :
    -330 ≤ (Binary.ofBits bits).topGrid ∧ (Binary.ofBits bits).topGrid ≤ 330 := by
  obtain ⟨low, high⟩ := exponent_ofBits bits
  have log : (Binary.ofBits bits).mantissa.log2 ≤ 52 := by
    by_cases zero : (Binary.ofBits bits).mantissa = 0
    · rw [zero]
      decide
    · exact Nat.le_of_lt_succ ((Nat.log2_lt zero).mpr (mantissa_ofBits bits))
  unfold topGrid
  omega

/-! ### Their decimals -/

def digitLimit : Nat := 1400

/-- Few digits, and none of them far from the decimal point. -/
structure Tame (d : Decimal) : Prop where
  coefficient : d.coefficient < 10 ^ digitLimit
  low : -400 ≤ d.exponent
  high : d.exponent ≤ 400

variable {b : Binary} {tie : Tie} {p : Int}

theorem Binary.onGrid?_le {c : Nat} (hit : b.onGrid? tie p = some c) :
    c ≤ b.quarters p (4 * b.mantissa) + 1 := by
  have quotient : b.quarters p (4 * b.mantissa) / b.gridStep p ≤ b.quarters p (4 * b.mantissa) :=
    Nat.div_le_self _ _
  unfold onGrid? at hit
  grind

theorem strip_bounds (n : Nat) (d : Decimal) :
    (strip n d).coefficient ≤ d.coefficient ∧ d.exponent ≤ (strip n d).exponent ∧
      (strip n d).exponent ≤ d.exponent + n := by
  induction n generalizing d with
  | zero => exact ⟨Nat.le_refl _, Int.le_refl _, by simp [strip]⟩
  | succ n ih =>
    rw [strip]
    split
    · obtain ⟨smaller, low, high⟩ := ih ⟨d.coefficient / 10, d.exponent + 1⟩
      dsimp only at smaller low high
      refine ⟨Nat.le_trans smaller (Nat.div_le_self _ _), ?_, ?_⟩ <;> omega
    · exact ⟨Nat.le_refl _, Int.le_refl _, by omega⟩

theorem tame_search {n : Nat} (low : -370 ≤ p - n) (high : p ≤ 370)
    (small : ∀ q : Int, -370 ≤ q → b.quarters q (4 * b.mantissa) + 1 < 10 ^ digitLimit) :
    (search b tie n p).Tame := by
  -- every round goes to a finer grid, and none of them finer than the bound on `p`
  induction n generalizing p with
  | zero =>
    refine ⟨?_, by simp only [search]; omega, by simp only [search]; omega⟩
    rw [search]
    cases hit : b.onGrid? tie p with
    | none => exact Nat.pow_pos (by decide)
    | some c => exact Nat.lt_of_le_of_lt (Binary.onGrid?_le hit) (small p (by omega))
  | succ n ih =>
    rw [search]
    split
    · next c hit =>
      obtain ⟨smaller, below, above⟩ := strip_bounds 20 ⟨c, p⟩
      dsimp only at smaller below above
      refine ⟨?_, by omega, by omega⟩
      exact Nat.lt_of_le_of_lt (Nat.le_trans smaller (Binary.onGrid?_le hit)) (small p (by omega))
    · exact ih (by omega) (by omega)

theorem mul_mul_lt_pow {x y z a b c d : Nat} (first : x ≤ 10 ^ a) (second : y ≤ 10 ^ b)
    (third : z ≤ 10 ^ c) (fits : a + b + c < d) : x * y * z + 1 < 10 ^ d := by
  have product : x * y * z ≤ 10 ^ (a + b + c) := by
    rw [Nat.pow_add, Nat.pow_add]
    exact Nat.mul_le_mul (Nat.mul_le_mul first second) third
  have positive : 0 < 10 ^ (a + b + c) := Nat.pow_pos (by decide)
  have more : 10 ^ (a + b + c) * 10 ≤ 10 ^ d := by
    rw [← Nat.pow_succ]
    exact Nat.pow_le_pow_right (by decide) fits
  omega

theorem pow_le_pow_ten {base n k : Nat} (small : base ≤ 10) (le : n ≤ k) :
    Nat.pow base n ≤ 10 ^ k :=
  Nat.le_trans (Nat.pow_le_pow_left small n) (Nat.pow_le_pow_right (by decide) le)

theorem Binary.quarters_ofBits (bits : UInt64) {q : Int} (low : -370 ≤ q) :
    (ofBits bits).quarters q (4 * (ofBits bits).mantissa) + 1 < 10 ^ digitLimit := by
  have mantissa : 4 * (ofBits bits).mantissa ≤ 10 ^ 20 := by
    have := mantissa_ofBits bits
    omega
  have exponent : ((ofBits bits).exponent - 2).toNat ≤ 970 := by
    obtain ⟨-, high⟩ := exponent_ofBits bits
    omega
  have negated : (-q).toNat ≤ 370 := by omega
  have two : 2 ≤ 10 := by decide
  exact mul_mul_lt_pow mantissa (pow_le_pow_ten two exponent)
    (pow_le_pow_ten (Nat.le_refl 10) negated) (by decide)

theorem tame_shortest (bits : UInt64) (tie : Tie) : (shortest (.ofBits bits) tie).Tame := by
  obtain ⟨low, high⟩ := Binary.topGrid_ofBits bits
  exact tame_search (by omega) (by omega) fun q low => Binary.quarters_ofBits bits low

/-! ### Their texts -/

theorem Tame.length_digits {d : Decimal} (tame : d.Tame) : d.digits.length ≤ digitLimit :=
  (Nat.length_toDigits_le_iff (by decide) (by decide)).mpr tame.coefficient

theorem length_withPoint_le (text : List Char) : (withPoint text).length ≤ text.length + 2 := by
  unfold withPoint
  split
  · omega
  · simp

theorem Tame.length_positional {d : Decimal} (tame : d.Tame) (low : -5 < d.point)
    (high : d.point ≤ 16) : d.positional.length ≤ digitLimit + 10 := by
  have digits := tame.length_digits
  have many : 16 ≤ digitLimit := by decide
  unfold point at low high
  unfold positional
  split
  · simp only [zeros, List.length_append, List.length_replicate]
    omega
  · split
    · simp only [List.length_append, List.length_cons, List.length_take, List.length_drop]
      omega
    · simp only [zeros, point, List.length_append, List.length_cons, List.length_replicate]
      omega

theorem Tame.length_scientific {d : Decimal} (tame : d.Tame) :
    d.scientific.length ≤ digitLimit + 10 := by
  have digits := tame.length_digits
  have low := tame.low
  have high := tame.high
  have near : (d.point - 1).natAbs < 10 ^ 4 := by
    unfold point
    have limit : digitLimit = 1400 := rfl
    omega
  have exponent : (Nat.toDigits 10 (d.point - 1).natAbs).length ≤ 4 :=
    (Nat.length_toDigits_le_iff (by decide) (by decide)).mpr near
  unfold scientific
  dsimp only
  split
  · next first second rest shape =>
    rw [shape] at digits
    simp only [List.length_append, List.length_cons] at digits ⊢
    omega
  · simp only [List.length_append, List.length_cons]
    omega

theorem length_briefText_le (x : Float) : (briefText x).length ≤ digitLimit + 13 := by
  have body : ∀ d : Decimal, d.Tame → d.brief.length ≤ digitLimit + 12 := by
    intro d tame
    unfold brief
    split
    · next near =>
      exact Nat.le_trans (length_withPoint_le _)
        (Nat.add_le_add_right (tame.length_positional near.1 near.2) 2)
    · exact Nat.le_trans tame.length_scientific (by decide)
  have text : (if x == 0 then ['0', '.', '0']
      else brief (shortest (.ofBits x.toBits) .toEven)).length ≤ digitLimit + 12 := by
    split
    · decide
    · exact body _ (tame_shortest _ _)
  unfold briefText signed
  dsimp only
  split
  · exact Nat.succ_le_succ text
  · exact Nat.le_succ_of_le text

/-! ### The characters in them -/

def Numeric (c : Char) : Prop := c.isDigit = true ∨ c ∈ ['.', 'e', '+', '-']

instance : DecidablePred Numeric := fun _ => inferInstanceAs (Decidable (_ ∨ _))

theorem Numeric.printable {c : Char} (numeric : Numeric c) : 0x20 ≤ c.toNat := by
  rcases numeric with digit | mark
  · simp only [Char.isDigit, Bool.and_eq_true, decide_eq_true_eq] at digit
    have low : 48 ≤ c.toNat := by simpa using UInt32.le_iff_toNat_le.mp digit.1
    omega
  · have marks : ∀ c ∈ ['.', 'e', '+', '-'], 0x20 ≤ c.toNat := by simp
    exact marks c mark

theorem numeric_toDigits (n : Nat) : ∀ c ∈ Nat.toDigits 10 n, Numeric c := by
  intro c member
  exact Or.inl (Nat.isDigit_of_mem_toDigits (by decide) (by decide) member)

theorem numeric_zeros (n : Int) : ∀ c ∈ zeros n, Numeric c := by
  intro c member
  rw [(List.mem_replicate.mp member).2]
  decide

theorem numeric_positional (d : Decimal) : ∀ c ∈ d.positional, Numeric c := by
  have digits : ∀ c ∈ d.digits, Numeric c := numeric_toDigits d.coefficient
  unfold positional
  split
  · exact List.forall_mem_append.mpr ⟨digits, numeric_zeros d.exponent⟩
  · split
    · refine List.forall_mem_append.mpr ⟨?_, List.forall_mem_cons.mpr ⟨by decide, ?_⟩⟩
      · exact fun c member => digits c (List.mem_of_mem_take member)
      · exact fun c member => digits c (List.mem_of_mem_drop member)
    · refine List.forall_mem_append.mpr ⟨List.forall_mem_cons.mpr ⟨by decide, ?_⟩, digits⟩
      exact List.forall_mem_cons.mpr ⟨by decide, numeric_zeros _⟩

theorem numeric_withPoint {text : List Char} (numeric : ∀ c ∈ text, Numeric c) :
    ∀ c ∈ withPoint text, Numeric c := by
  unfold withPoint
  split
  · exact numeric
  · exact List.forall_mem_append.mpr ⟨numeric, by simp [Numeric]⟩

theorem numeric_scientific (d : Decimal) : ∀ c ∈ d.scientific, Numeric c := by
  have digits : ∀ c ∈ d.digits, Numeric c := numeric_toDigits d.coefficient
  unfold scientific
  refine List.forall_mem_append.mpr ⟨?_, List.forall_mem_cons.mpr ⟨by decide, ?_⟩⟩
  · split
    · next first second rest shape =>
      rw [shape] at digits
      obtain ⟨lead, digits⟩ := List.forall_mem_cons.mp digits
      exact List.forall_mem_cons.mpr ⟨lead, List.forall_mem_cons.mpr ⟨by decide, digits⟩⟩
    · exact digits
  · refine List.forall_mem_cons.mpr ⟨?_, numeric_toDigits _⟩
    split <;> decide

theorem numeric_briefText (x : Float) : ∀ c ∈ briefText x, Numeric c := by
  have body : ∀ d : Decimal, ∀ c ∈ d.brief, Numeric c := by
    intro d
    unfold brief
    split
    · exact numeric_withPoint (numeric_positional d)
    · exact numeric_scientific d
  have unsigned : ∀ c ∈ (if x == 0 then ['0', '.', '0']
      else brief (shortest (.ofBits x.toBits) .toEven)), Numeric c := by
    split
    · simp [Numeric]
    · exact body _
  unfold briefText signed
  dsimp only
  split
  · exact List.forall_mem_cons.mpr ⟨by decide, unsigned⟩
  · exact unsigned

end Switchboard.Decimal
