import Switchboard.Proofs.Json.Grammar

/-!
The number reader reads numerals, and nothing else: as the number that they stand for, as long as
what comes behind cannot belong to them.
-/

namespace Switchboard

theorem Text.run_split {p : Char → Bool} {run rest : List Char} (all : ∀ c ∈ run, p c = true)
    (stop : ∀ c, rest.head? = some c → p c = false) :
    (run ++ rest).takeWhile p = run ∧ (run ++ rest).dropWhile p = rest := by
  rw [List.takeWhile_append_of_pos all, List.dropWhile_append_of_pos all]
  cases rest with
  | nil => exact ⟨List.append_nil run, rfl⟩
  | cons c rest =>
    have other : ¬ p c = true := Bool.eq_false_iff.mp (stop c rfl)
    rw [List.takeWhile_cons_of_neg other, List.dropWhile_cons_of_neg other]
    exact ⟨List.append_nil run, rfl⟩

namespace Json

variable {negative : Bool} {significand limit value count : Nat} {shift : Int}
variable {cs ds rest after : List Char} {c : Char} {x : Number}

/-- Nothing that a number could go on with. -/
def Stops (rest : List Char) : Prop :=
  ∀ c, rest.head? = some c → ¬ c.isDigit ∧ c ≠ '.' ∧ c ≠ 'e' ∧ c ≠ 'E'

theorem Stops.startsWithDigit (stops : Stops rest) : startsWithDigit rest = false := by
  cases rest with
  | nil => rfl
  | cons c rest => exact Bool.eq_false_iff.mpr (stops c rfl).1

/-! ### Runs of digits -/

theorem digits_split (cs : List Char) :
    ∃ ds rest, cs = ds ++ rest ∧ (∀ c ∈ ds, c.isDigit = true) ∧ startsWithDigit rest = false := by
  refine ⟨cs.takeWhile Char.isDigit, cs.dropWhile Char.isDigit,
    List.takeWhile_append_dropWhile.symm, fun c member => ?_, ?_⟩
  · exact List.all_eq_true.mp List.all_takeWhile c member
  · cases behind : cs.dropWhile Char.isDigit with
    | nil => rfl
    | cons c tail =>
      have := List.head?_dropWhile_not Char.isDigit cs
      rw [behind] at this
      simpa [startsWithDigit] using this

theorem figures_split (starts : startsWithDigit cs = true) :
    ∃ (f : Figures) (rest : List Char), cs = f.val ++ rest ∧ startsWithDigit rest = false := by
  obtain ⟨ds, rest, rfl, all, stop⟩ := digits_split cs
  refine ⟨⟨ds, ?_, all⟩, rest, rfl, stop⟩
  rintro rfl
  rw [List.nil_append, stop] at starts
  cases starts

theorem run_digits (all : ∀ c ∈ ds, c.isDigit = true) (stop : startsWithDigit rest = false) :
    (ds ++ rest).takeWhile Char.isDigit = ds ∧ (ds ++ rest).dropWhile Char.isDigit = rest := by
  refine Text.run_split all fun c first => ?_
  cases rest with
  | nil => cases first
  | cons d rest => cases first; exact stop

theorem takeDigits_run (all : ∀ c ∈ ds, c.isDigit = true) (stop : startsWithDigit rest = false) :
    takeDigits limit value count (ds ++ rest) =
      { takeDigits limit value count ds with
        rest := (takeDigits limit value count ds).rest ++ rest } := by
  induction ds generalizing value count with
  | nil =>
    cases rest with
    | nil => rfl
    | cons c rest =>
      have other : ¬ c.isDigit = true := Bool.eq_false_iff.mp stop
      show takeDigits limit value count (c :: rest) = ⟨value, count, c :: rest⟩
      rw [takeDigits, if_neg fun fits => other fits.1]
  | cons c ds ih =>
    rw [List.cons_append, takeDigits, takeDigits]
    split
    · exact ih fun d member => all d (List.mem_cons_of_mem c member)
    · rfl

theorem takeDigits_suffix (limit value count : Nat) (cs : List Char) :
    (takeDigits limit value count cs).rest <:+ cs := by
  induction cs generalizing value count with
  | nil => exact List.suffix_rfl
  | cons c cs ih =>
    rw [takeDigits]
    split
    · exact (ih _ _).trans (List.suffix_cons c cs)
    · exact List.suffix_rfl

theorem takeDigits_digits (all : ∀ c ∈ ds, c.isDigit = true) :
    ∀ c ∈ (takeDigits limit value count ds).rest, c.isDigit = true :=
  fun c member => all c ((takeDigits_suffix limit value count ds).subset member)

theorem startsWithDigit_run (all : ∀ c ∈ ds, c.isDigit = true)
    (stop : startsWithDigit rest = false) :
    startsWithDigit (ds ++ rest) = true ↔ ds ≠ [] := by
  cases ds with
  | nil => simp [stop]
  | cons c ds => simpa [startsWithDigit] using all c List.mem_cons_self

theorem Figures.startsWithDigit (f : Figures) (rest : List Char) :
    startsWithDigit (f.val ++ rest) = true := by
  obtain ⟨ds, filled, all⟩ := f
  cases ds with
  | nil => exact absurd rfl filled
  | cons c ds => exact all c List.mem_cons_self

/-! ### Exponents -/

theorem readExponent_sign {sign? : Option Char} (signed : ∀ c ∈ sign?, c = '+' ∨ c = '-')
    (digits : startsWithDigit ds = true) :
    readExponent negative significand shift (sign?.toList ++ ds) =
      let e := takeDigits exponentLimit 0 0 ds
      if startsWithDigit e.rest then
        if significand ≠ 0 ∧ sign? ≠ some '-' then .error (.past .numberOutOfRange e.rest)
        else .ok (.float (if negative then -0.0 else 0.0), e.rest.dropWhile Char.isDigit)
      else
        floatBefore negative significand
          (if sign? = some '-' then shift - e.value else shift + e.value) e.rest := by
  cases ds with
  | nil => cases digits
  | cons d ds =>
    have digit : d.isDigit = true := digits
    cases sign? with
    | none =>
      have plus : d ≠ '+' := fun other => by rw [other] at digit; cases digit
      have minus : d ≠ '-' := fun other => by rw [other] at digit; cases digit
      simp [readExponent, digit, plus, minus]
    | some c =>
      rcases signed c rfl with rfl | rfl <;> simp [readExponent, digit]

theorem readExponent_split (read : readExponent negative significand shift cs = .ok (x, rest)) :
    ∃ (sign? : Option Char) (ds : List Char), (∀ c ∈ sign?, c = '+' ∨ c = '-') ∧
      startsWithDigit ds = true ∧ cs = sign?.toList ++ ds := by
  unfold readExponent at read
  split at read
  next down ds signs =>
    split at read
    · cases read
    · next d tail =>
      split at read
      · next digit =>
        split at signs <;> cases signs
        · exact ⟨some '+', d :: tail, by simp, digit, rfl⟩
        · exact ⟨some '-', d :: tail, by simp, digit, rfl⟩
        · exact ⟨none, d :: tail, by simp, digit, rfl⟩
      · cases read

theorem readExponent_figures (e : Exponent) (stop : startsWithDigit rest = false) :
    readExponent negative significand shift (e.sign?.toList ++ (e.figures.val ++ rest)) =
        .ok (x, after) ↔
      after = rest ∧ e.number? negative significand shift = some x := by
  obtain ⟨-, digits⟩ := e.figures.property
  have left : ∀ c ∈ (takeDigits exponentLimit 0 0 e.figures.val).rest, c.isDigit = true :=
    takeDigits_digits digits
  have starts := startsWithDigit_run left stop
  rw [readExponent_sign e.signed (e.figures.startsWithDigit rest), takeDigits_run digits stop,
    Exponent.number?]
  dsimp only
  by_cases whole : (takeDigits exponentLimit 0 0 e.figures.val).rest = []
  · rw [if_neg fun more => starts.mp more whole, if_pos whole, whole, List.nil_append, floatBefore]
    split
    next y value => simp [value, eq_comm, and_comm]
    next none => simp [none]
  · rw [if_pos (starts.mpr whole), if_neg whole, (run_digits left stop).2]
    split
    · simp
    · simp [eq_comm, and_comm]

theorem readExponent_sound (marked : c = 'e' ∨ c = 'E')
    (read : readExponent negative significand shift cs = .ok (x, rest)) :
    ∃ e : Exponent, c :: cs = e.text ++ rest ∧ e.number? negative significand shift = some x := by
  obtain ⟨sign?, ds, signed, digits, rfl⟩ := readExponent_split read
  obtain ⟨figures, behind, rfl, stop⟩ := figures_split digits
  let e : Exponent := ⟨c, sign?, figures, marked, signed⟩
  obtain ⟨rfl, value⟩ := (readExponent_figures e stop).mp read
  exact ⟨e, by simp [e, Exponent.text], value⟩

open Numeral

theorem readScaled_sound (read : readScaled negative significand shift cs = .ok (x, rest)) :
    ∃ exponent?, cs = exponentText exponent? ++ rest ∧
      scaled? negative significand shift exponent? = some x := by
  unfold readScaled at read
  split at read
  · obtain ⟨e, text, value⟩ := readExponent_sound (Or.inl rfl) read
    exact ⟨some e, text, value⟩
  · obtain ⟨e, text, value⟩ := readExponent_sound (Or.inr rfl) read
    exact ⟨some e, text, value⟩
  · refine ⟨none, (floatBefore_rest read).symm, ?_⟩
    unfold floatBefore at read
    split at read
    next value => cases read; exact value
    next => cases read

theorem readScaled_complete {exponent? : Option Exponent} (stops : Stops rest)
    (value : scaled? negative significand shift exponent? = some x) :
    readScaled negative significand shift (exponentText exponent? ++ rest) = .ok (x, rest) := by
  cases exponent? with
  | none =>
    show readScaled negative significand shift rest = .ok (x, rest)
    have float : float? negative significand shift = some x := value
    unfold readScaled
    split
    · exact absurd rfl (stops _ rfl).2.2.1
    · exact absurd rfl (stops _ rfl).2.2.2
    · rw [floatBefore, float]
  | some e =>
    have read := (readExponent_figures e stops.startsWithDigit).mpr ⟨rfl, value⟩
    rw [exponentText, Option.elim_some, Exponent.text, List.cons_append, List.append_assoc]
    rcases e.marked with mark | mark <;> rw [mark] <;> exact read

/-! ### Fractions -/

theorem readFraction_figures (f : Figures) (stop : startsWithDigit rest = false) :
    readFraction negative significand shift (f.val ++ rest) =
      let all := takeDigits wordLimit significand 0 f.val
      readScaled negative all.value (shift - all.count) rest := by
  obtain ⟨ds, filled, digits⟩ := f
  cases ds with
  | nil => exact absurd rfl filled
  | cons c ds =>
    have digit := digits c List.mem_cons_self
    rw [List.cons_append, readFraction, if_pos digit, ← List.cons_append,
      takeDigits_run digits stop]
    dsimp only
    rw [(run_digits (takeDigits_digits digits) stop).2]

theorem readFraction_sound (read : readFraction negative significand shift cs = .ok (x, rest)) :
    ∃ (f : Figures) (exponent? : Option Exponent), cs = f.val ++ (exponentText exponent? ++ rest) ∧
      let all := takeDigits wordLimit significand 0 f.val
      scaled? negative all.value (shift - all.count) exponent? = some x := by
  have starts : startsWithDigit cs = true := by
    unfold readFraction at read
    split at read
    · cases read
    · split at read
      · assumption
      · cases read
  obtain ⟨f, behind, rfl, stop⟩ := figures_split starts
  rw [readFraction_figures f stop] at read
  obtain ⟨exponent?, rfl, value⟩ := readScaled_sound read
  exact ⟨f, exponent?, rfl, value⟩

theorem startsWithDigit_exponent (exponent? : Option Exponent) (stops : Stops rest) :
    startsWithDigit (exponentText exponent? ++ rest) = false := by
  cases exponent? with
  | none => exact stops.startsWithDigit
  | some e =>
    show e.mark.isDigit = false
    rcases e.marked with mark | mark <;> rw [mark] <;> rfl

theorem readFraction_complete (f : Figures) {exponent? : Option Exponent} (stops : Stops rest)
    (value : let all := takeDigits wordLimit significand 0 f.val
      scaled? negative all.value (shift - all.count) exponent? = some x) :
    readFraction negative significand shift (f.val ++ (exponentText exponent? ++ rest)) =
      .ok (x, rest) := by
  rw [readFraction_figures f (startsWithDigit_exponent exponent? stops)]
  exact readScaled_complete stops value

/-! ### Whole numbers and numerals -/

theorem Stops.not_cons (stops : Stops rest) (mark : c ∈ ['.', 'e', 'E']) (r : List Char) :
    rest ≠ c :: r := by
  rintro rfl
  obtain ⟨-, dot, small, big⟩ := stops c rfl
  simp [dot, small, big] at mark

def readBehind (negative : Bool) (whole : Digits) (cs : List Char) :
    Except Stop (Number × List Char) :=
  if whole.rest = [] then readTail negative whole.value cs
  else readLong negative whole.value whole.rest.length cs

theorem readUnsigned_figures (f : Figures) (lead : f.val.head? = some '0' → f.val = ['0'])
    (stop : startsWithDigit rest = false) :
    readUnsigned negative (f.val ++ rest) =
      readBehind negative (takeDigits wordLimit 0 0 f.val) rest := by
  obtain ⟨ds, filled, digits⟩ := f
  cases ds with
  | nil => exact absurd rfl filled
  | cons c ds =>
    rw [List.cons_append, readUnsigned]
    split
    next zero =>
      have alone : c :: ds = ['0'] := lead (congrArg some zero)
      cases alone
      rw [List.nil_append, stop]
      rfl
    next =>
      have left : ∀ d ∈ (takeDigits wordLimit 0 0 (c :: ds)).rest, d.isDigit = true :=
        takeDigits_digits digits
      have starts := startsWithDigit_run left stop
      rw [if_pos (digits c List.mem_cons_self), ← List.cons_append, takeDigits_run digits stop,
        readBehind]
      dsimp only
      by_cases whole : (takeDigits wordLimit 0 0 (c :: ds)).rest = []
      · rw [if_neg fun more => starts.mp more whole, if_pos whole, whole, List.nil_append]
      · rw [if_pos (starts.mpr whole), if_neg whole, (run_digits left stop).1,
          (run_digits left stop).2]

theorem readUnsigned_split (read : readUnsigned negative cs = .ok (x, rest)) :
    ∃ (f : Figures) (behind : List Char), cs = f.val ++ behind ∧
      (f.val.head? = some '0' → f.val = ['0']) ∧ startsWithDigit behind = false := by
  unfold readUnsigned at read
  split at read
  · cases read
  · next c r =>
    split at read
    · next zero =>
      split at read
      · cases read
      · next stop =>
        exact ⟨⟨['0'], by simp⟩, r, by rw [zero]; rfl, fun _ => rfl, Bool.eq_false_iff.mpr stop⟩
    · next other =>
      split at read
      · next digit =>
        have starts : startsWithDigit (c :: r) = true := digit
        obtain ⟨⟨ds, filled, digits⟩, behind, written, stop⟩ := figures_split starts
        refine ⟨⟨ds, filled, digits⟩, behind, written, fun zero => absurd ?_ other, stop⟩
        cases ds with
        | nil => exact absurd rfl filled
        | cons d ds => exact (List.cons.inj written).1.trans (Option.some.inj zero)
      · cases read

theorem readTail_other (dot : ∀ r, cs ≠ '.' :: r) (small : ∀ r, cs ≠ 'e' :: r)
    (big : ∀ r, cs ≠ 'E' :: r) :
    readTail negative significand cs = .ok (wordNumber negative significand, cs) := by
  unfold readTail wordNumber
  split
  · exact absurd rfl (dot _)
  · exact absurd rfl (small _)
  · exact absurd rfl (big _)
  · split
    · split <;> rfl
    · rfl

theorem readBehind_sound {whole : Digits} (read : readBehind negative whole cs = .ok (x, rest)) :
    ∃ fraction? exponent?, cs = fractionText fraction? ++ (exponentText exponent? ++ rest) ∧
      number? negative whole fraction? exponent? = some x := by
  unfold readBehind at read
  split at read
  next fits =>
    have shift : (whole.rest.length : Int) = 0 := by rw [fits]; rfl
    by_cases dot : ∃ r, cs = '.' :: r
    · obtain ⟨r, rfl⟩ := dot
      obtain ⟨f, exponent?, rfl, value⟩ := readFraction_sound read
      exact ⟨some f, exponent?, rfl, by rw [number?, shift]; exact value⟩
    · by_cases marked : ∃ c r, (c = 'e' ∨ c = 'E') ∧ cs = c :: r
      · obtain ⟨c, r, mark, rfl⟩ := marked
        have read : readExponent negative whole.value 0 r = .ok (x, rest) := by
          rcases mark with rfl | rfl <;> exact read
        obtain ⟨e, text, value⟩ := readExponent_sound mark read
        exact ⟨none, some e, text, by simpa [number?, scaled?, shift] using value⟩
      · rw [readTail_other (fun r equal => dot ⟨r, equal⟩)
          (fun r equal => marked ⟨_, r, Or.inl rfl, equal⟩)
          fun r equal => marked ⟨_, r, Or.inr rfl, equal⟩] at read
        cases read
        exact ⟨none, none, rfl, by simp [number?, fits]⟩
  next long =>
    unfold readLong at read
    split at read
    · obtain ⟨f, exponent?, rfl, value⟩ := readFraction_sound read
      exact ⟨some f, exponent?, rfl, value⟩
    · obtain ⟨exponent?, rfl, value⟩ := readScaled_sound read
      exact ⟨none, exponent?, rfl, by simpa [number?, long] using value⟩

theorem readBehind_complete {whole : Digits} {fraction? : Option Figures}
    {exponent? : Option Exponent} (stops : Stops rest)
    (value : number? negative whole fraction? exponent? = some x) :
    readBehind negative whole (fractionText fraction? ++ (exponentText exponent? ++ rest)) =
      .ok (x, rest) := by
  unfold readBehind
  cases fraction? with
  | some f =>
    split
    next fits =>
      have shift : (whole.rest.length : Int) = 0 := by rw [fits]; rfl
      rw [number?, shift] at value
      exact readFraction_complete f stops value
    next => exact readFraction_complete f stops value
  | none =>
    rw [number?] at value
    split
    next fits =>
      cases exponent? with
      | none =>
        rw [if_pos ⟨fits, rfl⟩] at value
        cases value
        exact readTail_other (stops.not_cons (by simp)) (stops.not_cons (by simp))
          (stops.not_cons (by simp))
      | some e =>
        rw [if_neg (by simp), fits] at value
        have read := (readExponent_figures e stops.startsWithDigit).mpr ⟨rfl, value⟩
        show readTail negative whole.value (e.mark :: (e.sign?.toList ++ e.figures.val ++ rest)) = _
        rw [List.append_assoc]
        rcases e.marked with mark | mark <;> rw [mark] <;> exact read
    next long =>
      rw [if_neg fun fits => long fits.1] at value
      have read := readScaled_complete stops value
      rw [readLong]
      · exact read
      · intro r equal
        cases exponent? with
        | none => exact stops.not_cons (by simp) r equal
        | some e =>
          have mark : e.mark = '.' := (List.cons.inj equal).1
          rcases e.marked with other | other <;> rw [other] at mark <;> cases mark

theorem readNumber_sound (read : readNumber cs = .ok (x, rest)) :
    ∃ n : Numeral, cs = n.text ++ rest ∧ n.number? = some x := by
  unfold readNumber at read
  split at read
  all_goals
    obtain ⟨whole, behind, rfl, lead, stop⟩ := readUnsigned_split read
    rw [readUnsigned_figures whole lead stop] at read
    obtain ⟨fraction?, exponent?, rfl, value⟩ := readBehind_sound read
  · exact ⟨⟨true, whole, fraction?, exponent?, lead⟩, by simp [Numeral.text, sign], value⟩
  · exact ⟨⟨false, whole, fraction?, exponent?, lead⟩, by simp [Numeral.text, sign], value⟩

theorem startsWithDigit_behind (fraction? : Option Figures) (exponent? : Option Exponent)
    (stops : Stops rest) :
    startsWithDigit (fractionText fraction? ++ (exponentText exponent? ++ rest)) = false := by
  cases fraction? with
  | none => exact startsWithDigit_exponent exponent? stops
  | some f => rfl

theorem readNumber_complete (n : Numeral) (stops : Stops rest) (value : n.number? = some x) :
    readNumber (n.text ++ rest) = .ok (x, rest) := by
  obtain ⟨negative, whole, fraction?, exponent?, lead⟩ := n
  have stop := startsWithDigit_behind fraction? exponent? stops
  have read : readUnsigned negative
      (whole.val ++ (fractionText fraction? ++ (exponentText exponent? ++ rest))) =
        .ok (x, rest) := by
    rw [readUnsigned_figures whole lead stop]
    exact readBehind_complete stops value
  cases negative with
  | true => simpa [Numeral.text, sign, readNumber] using read
  | false =>
    have unsigned : ∀ r, whole.val ++ (fractionText fraction? ++ (exponentText exponent? ++ rest)) ≠
        '-' :: r := by
      intro r equal
      have digit := whole.startsWithDigit
        (fractionText fraction? ++ (exponentText exponent? ++ rest))
      rw [equal] at digit
      cases digit
    rw [← readNumber.eq_2 _ unsigned] at read
    simpa [Numeral.text, sign] using read

end Json

end Switchboard
