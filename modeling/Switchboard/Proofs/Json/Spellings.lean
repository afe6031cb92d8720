import Switchboard.Proofs.Json.Grammar

/-!
The string reader reads spellings, and nothing else.
-/

namespace Switchboard

variable {cs rest spelling chars seen : List Char} {c : Char} {n : Nat}

theorem Text.readHex?_succ {value count : Nat} :
    readHex? value (count + 1) cs = some (n, rest) ↔
      ∃ c tail digit, cs = c :: tail ∧ hexValue? c = some digit ∧
        readHex? (value * 16 + digit) count tail = some (n, rest) := by
  cases cs with
  | nil => simp [readHex?]
  | cons c cs =>
    rw [readHex?]
    constructor
    · intro hit
      split at hit
      · next digit known => exact ⟨c, cs, digit, rfl, known, hit⟩
      · cases hit
    · rintro ⟨_, _, digit, ⟨⟩, known, hit⟩
      rw [known]
      exact hit

namespace Json

theorem readHex?_iff : Text.readHex? 0 4 cs = some (n, rest) ↔
    ∃ digits, cs = digits ++ rest ∧ Hex digits n := by
  simp only [Text.readHex?_succ, Text.readHex?, Option.some.injEq, Prod.mk.injEq]
  constructor
  · rintro ⟨_, _, a, rfl, first, _, _, b, rfl, second, _, _, c, rfl, third, _, _, d, rfl, fourth,
      rfl, rfl⟩
    exact ⟨[_, _, _, _], rfl, a, b, c, d, by simp [first, second, third, fourth], by omega⟩
  · rintro ⟨digits, rfl, a, b, c, d, known, rfl⟩
    obtain ⟨_, _, rfl, first, known⟩ := List.map_eq_cons_iff.mp known
    obtain ⟨_, _, rfl, second, known⟩ := List.map_eq_cons_iff.mp known
    obtain ⟨_, _, rfl, third, known⟩ := List.map_eq_cons_iff.mp known
    obtain ⟨_, _, rfl, fourth, known⟩ := List.map_eq_cons_iff.mp known
    cases List.map_eq_nil_iff.mp known
    exact ⟨_, _, a, rfl, first, _, _, b, rfl, second, _, _, c, rfl, third, _, _, d, rfl, fourth,
      by omega, rfl⟩

theorem readHex4_sound (read : readHex4 cs = .ok (n, rest)) :
    ∃ digits, cs = digits ++ rest ∧ Hex digits n := by
  unfold readHex4 at read
  split at read
  · next hit =>
    cases read
    exact readHex?_iff.mp hit
  · dsimp only at read
    split at read <;> cases read

theorem readHex4_complete {digits : List Char} (hex : Hex digits n) (rest : List Char) :
    readHex4 (digits ++ rest) = .ok (n, rest) := by
  rw [readHex4, readHex?_iff.mpr ⟨digits, rfl, hex⟩]

/-! ### Single characters -/

theorem readTrailing_sound {lead : Nat} (read : readTrailing lead cs = .ok (c, rest)) :
    ∃ digits trail, cs = '\\' :: 'u' :: digits ++ rest ∧ Hex digits trail ∧
      (0xDC00 ≤ trail ∧ trail ≤ 0xDFFF) ∧
      c = Char.ofNat (0x10000 + (lead - 0xD800) * 1024 + (trail - 0xDC00)) := by
  unfold readTrailing at read
  split at read
  · cases read
  · cases read
  · split at read
    · cases read
    · next trail behind four =>
      obtain ⟨digits, rfl, hex⟩ := readHex4_sound four
      split at read
      · next trails =>
        obtain ⟨rfl, rfl⟩ := Prod.mk.inj (Except.ok.inj read)
        exact ⟨digits, trail, rfl, hex, trails, rfl⟩
      · cases read
  · cases read
  · cases read

theorem readCodePoint_sound (read : readCodePoint cs = .ok (c, rest)) :
    ∃ digits, cs = digits ++ rest ∧ Glyph ('\\' :: 'u' :: digits) c := by
  unfold readCodePoint at read
  split at read
  · cases read
  · next n behind four =>
    obtain ⟨digits, rfl, hex⟩ := readHex4_sound four
    split at read
    · cases read
    · next trails =>
      split at read
      · next leads =>
        obtain ⟨more, trail, rfl, again, trails, joined⟩ := readTrailing_sound read
        have glyph := Glyph.pair hex leads again trails
        rw [← joined] at glyph
        exact ⟨digits ++ '\\' :: 'u' :: more, by rw [List.append_assoc], glyph⟩
      · next leads =>
        cases read
        exact ⟨digits, rfl, .point hex (by omega)⟩

theorem readEscape_sound (read : readEscape cs = .ok (c, rest)) :
    ∃ glyph, cs = glyph ++ rest ∧ Glyph ('\\' :: glyph) c := by
  unfold readEscape at read
  split at read
  · cases read
  · next mark behind =>
    split at read
    · next u =>
      obtain ⟨digits, rfl, glyph⟩ := readCodePoint_sound read
      exact ⟨'u' :: digits, by rw [u]; rfl, glyph⟩
    · split at read
      · next stands =>
        cases read
        exact ⟨[mark], rfl, .escaped stands⟩
      · cases read

theorem readEscape_complete {glyph : List Char} (spelled : Glyph ('\\' :: glyph) c)
    (rest : List Char) : readEscape (glyph ++ rest) = .ok (c, rest) := by
  cases spelled with
  | plain _ backslash => exact absurd rfl backslash
  | @escaped mark _ stands =>
    have other : mark ≠ 'u' := by
      rintro rfl
      cases stands
    show readEscape (mark :: rest) = .ok (c, rest)
    rw [readEscape, if_neg other, stands]
  | @point digits n hex scalar =>
    rw [List.cons_append, readEscape, if_pos rfl, readCodePoint, readHex4_complete hex]
    dsimp only
    rw [if_neg (by omega), if_neg (by omega)]
  | @pair digits more lead trail hex leads again trails =>
    have inner : readTrailing lead ('\\' :: 'u' :: (more ++ rest)) =
        .ok (Char.ofNat (0x10000 + (lead - 0xD800) * 1024 + (trail - 0xDC00)), rest) := by
      rw [readTrailing, readHex4_complete again]
      dsimp only
      rw [if_pos trails]
    rw [List.cons_append, readEscape, if_pos rfl, readCodePoint, List.append_assoc,
      readHex4_complete hex]
    dsimp only
    rw [if_neg (by omega), if_pos leads]
    exact inner

/-! ### Whole strings -/

theorem readString_escaped {d : Char} {seen : List Char} (read : readEscape cs = .ok (d, rest)) :
    readString seen ('\\' :: cs) = readString (d :: seen) rest := by
  rw [readString, if_neg (by decide), if_pos rfl]
  split
  next other => rw [read] at other; cases other
  next other => rw [read] at other; cases other; rfl

theorem readString_sound {s : String} (read : readString seen cs = .ok (s, rest)) :
    ∃ spelling chars, cs = spelling ++ '"' :: rest ∧ Spells spelling chars ∧
      s = String.ofList (seen.reverse ++ chars) := by
  fun_induction readString seen cs generalizing rest with
  | case1 => cases read
  | case2 seen behind =>
    cases read
    exact ⟨[], [], rfl, .nil, by rw [List.append_nil]⟩
  | case3 => cases read
  | case4 seen behind d next escape _ ih =>
    obtain ⟨spelling, chars, rfl, spells, rfl⟩ := ih read
    obtain ⟨glyph, rfl, first⟩ := readEscape_sound escape
    exact ⟨'\\' :: glyph ++ spelling, d :: chars, by simp, .cons first spells, by simp⟩
  | case5 => cases read
  | case6 seen c behind quote backslash printable ih =>
    obtain ⟨spelling, chars, rfl, spells, rfl⟩ := ih read
    have first : Glyph [c] c := .plain quote backslash (Nat.le_of_not_lt printable)
    exact ⟨[c] ++ spelling, c :: chars, by simp, .cons first spells, by simp⟩

theorem readString_complete (spells : Spells spelling chars) (seen rest : List Char) :
    readString seen (spelling ++ '"' :: rest) =
      .ok (String.ofList (seen.reverse ++ chars), rest) := by
  induction spells generalizing seen with
  | nil => rw [List.nil_append, readString, if_pos rfl, List.append_nil]
  | @cons glyph spelling chars c first _ ih =>
    have step : readString seen (glyph ++ (spelling ++ '"' :: rest)) =
        readString (c :: seen) (spelling ++ '"' :: rest) := by
      by_cases escape : ∃ tail, glyph = '\\' :: tail
      · obtain ⟨tail, rfl⟩ := escape
        exact readString_escaped (readEscape_complete first _)
      · cases first with
        | plain quote backslash printable =>
          rw [List.singleton_append, readString, if_neg quote, if_neg backslash,
            if_neg (Nat.not_lt.mpr printable)]
        | escaped => exact absurd ⟨_, rfl⟩ escape
        | point => exact absurd ⟨_, rfl⟩ escape
        | pair => exact absurd ⟨_, rfl⟩ escape
    rw [List.append_assoc, step, ih, List.reverse_cons, List.append_assoc, List.singleton_append]

end Json

end Switchboard
