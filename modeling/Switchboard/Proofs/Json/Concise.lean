import Mathlib.Algebra.Order.BigOperators.Group.List
import Mathlib.Algebra.Order.Ring.Nat
import Switchboard.Proofs.Json.RoundTrip
import Switchboard.Proofs.Json.Spelled

/-!
A value without fractions is written in no more bytes than any text that it is read from has:
escapes are the shortest there are, whole numbers have no digit too many, and of the members of an
object none is written twice.
-/

namespace Switchboard.Json

variable {c : Char} {glyph spelling cs digits body : List Char} {depth k : Nat} {value : Json}

/-! ### Strings -/

theorem escape_of_plain (quote : c ≠ '"') (backslash : c ≠ '\\') (printable : 0x20 ≤ c.toNat) :
    escape c = [c] := by
  have other : ∀ d : Char, d.toNat < 0x20 → c ≠ d := by
    intro d control same
    rw [same] at printable
    omega
  rw [escape, if_neg quote, if_neg backslash, if_neg (other '\x08' (by decide)),
    if_neg (other '\x0c' (by decide)), if_neg (other '\n' (by decide)),
    if_neg (other '\r' (by decide)), if_neg (other '\t' (by decide)),
    if_neg (Nat.not_lt.mpr printable)]

theorem byteLength_escape_escaped {mark : Char} (stands : escaped? mark = some c) :
    byteLength (escape c) ≤ 2 := by
  unfold escaped? at stands
  split at stands
  · next themselves =>
    rw [← Option.some.inj stands]
    rcases themselves with rfl | rfl | rfl <;> decide
  · repeat' split at stands
    all_goals cases stands
    all_goals decide

theorem length_hex {n : Nat} (hex : Hex digits n) : 4 ≤ byteLength digits := by
  obtain ⟨_, _, _, _, values, -⟩ := hex
  have four : digits.length = 4 := by
    simpa using congrArg List.length values
  rw [← four]
  exact length_le_byteLength digits

/-- No spelling of a character is shorter than the one that is written. -/
theorem Glyph.escape_le (first : Glyph glyph c) : byteLength (escape c) ≤ byteLength glyph := by
  have six := byteLength_escape_le c
  have slash : '\\'.utf8Size = 1 := rfl
  have mark : 'u'.utf8Size = 1 := rfl
  cases first with
  | plain quote backslash printable => rw [escape_of_plain quote backslash printable]
  | @escaped mark _ stands =>
    have two := byteLength_escape_escaped stands
    have := mark.utf8Size_pos
    simp only [byteLength_cons, byteLength_nil]
    omega
  | point hex _ =>
    have := length_hex hex
    simp only [byteLength_cons]
    omega
  | pair hex _ again _ =>
    have := length_hex hex
    have := length_hex again
    simp only [byteLength_cons, byteLength_append]
    omega

theorem Spells.escape_le (spells : Spells spelling cs) :
    byteLength (cs.flatMap escape) ≤ byteLength spelling := by
  induction spells with
  | nil => exact Nat.le_refl _
  | cons first later ih =>
    rw [List.flatMap_cons, byteLength_append, byteLength_append]
    exact Nat.add_le_add first.escape_le ih

/-! ### Whole numbers -/

theorem le_of_isDigit (digit : c.isDigit = true) : c.toNat ≤ 57 := by
  simp only [Char.isDigit, Bool.and_eq_true, decide_eq_true_eq] at digit
  simpa using UInt32.le_iff_toNat_le.mp digit.2

theorem byteLength_digits (all : ∀ c ∈ digits, c.isDigit = true) :
    byteLength digits = digits.length := by
  induction digits with
  | nil => rfl
  | cons c digits ih =>
    have ascii : c.utf8Size = 1 := by
      apply Char.utf8Size_eq_one_iff.mpr
      exact UInt32.le_iff_toNat_le.mpr
        (Nat.le_trans (le_of_isDigit (all c List.mem_cons_self)) (by decide))
    have later := ih fun d member => all d (List.mem_cons_of_mem c member)
    rw [byteLength_cons, List.length_cons, later, ascii, Nat.add_comm]

theorem ofDigitChars_lt (all : ∀ c ∈ digits, c.isDigit = true) (value : Nat) :
    Nat.ofDigitChars 10 digits value < (value + 1) * 10 ^ digits.length := by
  induction digits generalizing value with
  | nil => simp
  | cons c digits ih =>
    have zero : '0'.toNat = 48 := rfl
    have digit := le_of_isDigit (all c List.mem_cons_self)
    calc Nat.ofDigitChars 10 (c :: digits) value
        = Nat.ofDigitChars 10 digits (10 * value + (c.toNat - '0'.toNat)) := Nat.ofDigitChars_cons
      _ < (10 * value + (c.toNat - '0'.toNat) + 1) * 10 ^ digits.length :=
        ih (fun d member => all d (List.mem_cons_of_mem c member)) _
      _ ≤ (value + 1) * 10 * 10 ^ digits.length := by
        apply Nat.mul_le_mul_right
        omega
      _ = (value + 1) * 10 ^ (c :: digits).length := by
        rw [List.length_cons, Nat.pow_succ', Nat.mul_assoc]

theorem Numeral.text_le {n : Numeral} {k : Int} (inRange : n.number? = some (.int k)) :
    byteLength (Number.int k).text ≤ byteLength n.text := by
  obtain ⟨-, -, amount⟩ := Numeral.number?_eq_int.mp inRange
  have digits : byteLength (Nat.toDigits 10 n.amount) ≤ byteLength n.whole.val := by
    have written : ∀ c ∈ Nat.toDigits 10 n.amount, c.isDigit = true := fun c member =>
      Nat.isDigit_of_mem_toDigits (by decide) (by decide) member
    rw [byteLength_digits written, byteLength_digits n.whole.property.2]
    apply (Nat.length_toDigits_le_iff (by decide) (List.length_pos_iff.mpr n.whole.property.1)).mpr
    simpa [Numeral.amount] using ofDigitChars_lt n.whole.property.2 0
  have size : byteLength n.sign + byteLength n.whole.val ≤ byteLength n.text := by
    simp only [Numeral.text, byteLength_append]
    omega
  split at amount
  · next negative =>
    have same : k.natAbs = n.amount := by omega
    rw [Numeral.sign, if_pos negative] at size
    rw [Number.text, if_pos (by omega), same]
    simp only [byteLength_cons, byteLength_nil] at size ⊢
    omega
  · have same : k.natAbs = n.amount := by omega
    rw [Number.text, if_neg (by omega), same]
    omega

/-! ### Brackets -/

def charge (pieces : List (List Char)) : Nat := (pieces.map fun piece => byteLength piece + 1).sum

theorem byteLength_commas (pieces : List (List Char)) :
    byteLength (pieces.flatMap (',' :: ·)) = charge pieces := by
  have comma : ','.utf8Size = 1 := rfl
  induction pieces with
  | nil => rfl
  | cons piece pieces ih =>
    rw [List.flatMap_cons, byteLength_append, ih, byteLength_cons, comma, charge, charge,
      List.map_cons, List.sum_cons, Nat.add_comm 1]

theorem byteLength_bracketed {left right : Char} (opens : left.utf8Size = 1)
    (closes : right.utf8Size = 1) (pieces : List (List Char)) :
    byteLength (bracketed left right pieces) = 1 + max 1 (charge pieces) := by
  cases pieces with
  | nil => simp [bracketed, charge, opens, closes]
  | cons piece pieces =>
    have first : charge (piece :: pieces) = byteLength piece + 1 + charge pieces := by
      rw [charge, List.map_cons, List.sum_cons, charge]
    rw [bracketed_cons, byteLength_cons, byteLength_append, byteLength_append, byteLength_commas,
      byteLength_cons, byteLength_nil, opens, closes, first]
    omega

theorem byteLength_memberText (m : String × Json) :
    byteLength (memberText m) = spelled m.1 + byteLength m.2.text + 3 := by
  have colon : ':'.utf8Size = 1 := rfl
  rw [memberText, byteLength_append, byteLength_stringText, byteLength_cons, colon]
  omega

theorem size_object (m : String × Json) (members : List (String × Json)) :
    (object (m :: members)).write.utf8ByteSize =
      ((m :: members).map fun m => spelled m.1 + byteLength m.2.text + 4).sum + 1 := by
  have pieces : charge ((m :: members).map memberText) =
      ((m :: members).map fun m => spelled m.1 + byteLength m.2.text + 4).sum := by
    rw [charge, List.map_map]
    congr 1
    apply List.map_congr_left
    intro m _
    rw [Function.comp_apply, byteLength_memberText]
  have some : 1 ≤ charge ((m :: members).map memberText) := by
    rw [List.map_cons, charge, List.map_cons, List.sum_cons]
    omega
  rw [write, utf8ByteSize_ofList, text_object, byteLength_bracketed rfl rfl, pieces,
    Nat.max_eq_right (pieces ▸ some), Nat.add_comm]

/-! ### Values -/

theorem Member.memberText_le {m : Member} (value : byteLength m.value.text ≤ byteLength m.body) :
    byteLength (memberText m.entry) ≤ byteLength m.text := by
  have marks : '"'.utf8Size = 1 ∧ ':'.utf8Size = 1 := ⟨rfl, rfl⟩
  have key : spelled m.key ≤ byteLength m.spelling := m.spells.escape_le
  rw [byteLength_memberText]
  simp only [entry, Member.text, Item.text, byteLength_append, byteLength_cons, marks]
  omega

/-- Different members that all stand in an object are written in no more bytes than its text has. -/
theorem byteLength_kept_le {members : List Member} {kept : List (String × Json)}
    (distinct : kept.Nodup) (inside : ∀ m ∈ kept, m ∈ members.map Member.entry)
    (each : ∀ m ∈ members, m.entry ∈ kept → byteLength m.value.text ≤ byteLength m.body) :
    byteLength (object kept).text ≤
      byteLength (bracketed '\x7b' '\x7d' (members.map Member.text)) := by
  -- different members that all stand in the text are some of its members in another order
  obtain ⟨entries, perm, among⟩ := List.subperm_of_subset distinct inside
  obtain ⟨chosen, sublist, rfl⟩ := List.sublist_map_iff.mp among
  have fewer : charge (kept.map memberText) ≤ charge (members.map Member.text) := by
    calc charge (kept.map memberText)
        = (kept.map fun m => byteLength (memberText m) + 1).sum := by
          rw [charge, List.map_map]
          rfl
      _ = ((chosen.map Member.entry).map fun m => byteLength (memberText m) + 1).sum :=
          (perm.symm.map _).sum_nat
      _ = (chosen.map fun m => byteLength (memberText m.entry) + 1).sum := by
          rw [List.map_map]
          rfl
      _ ≤ (chosen.map fun m => byteLength m.text + 1).sum := by
          apply List.sum_le_sum
          intro m member
          apply Nat.succ_le_succ
          apply Member.memberText_le
          exact each m (sublist.subset member) (perm.subset (List.mem_map_of_mem member))
      _ ≤ (members.map fun m => byteLength m.text + 1).sum :=
          (sublist.map _).sum_le_sum fun _ _ => Nat.zero_le _
      _ = charge (members.map Member.text) := by
          rw [charge, List.map_map]
          rfl
  rw [text_object, byteLength_bracketed rfl rfl, byteLength_bracketed rfl rfl]
  omega

/-- A value without fractions is written in no more bytes than its text has. -/
theorem Denotes.text_le (denotes : Denotes depth body value) (plain : value.Plain k) :
    byteLength value.text ≤ byteLength body := by
  induction denotes generalizing k with
  | null => rw [text]
  | yes => rw [text]
  | no => rw [text]
  | number inRange =>
    cases plain with
    | int =>
      rw [text]
      exact Numeral.text_le inRange
  | @string _ spelling cs spells =>
    have inner := spells.escape_le
    have quote : '"'.utf8Size = 1 := rfl
    rw [text, byteLength_stringText, spelled_ofList]
    simp only [byteLength_cons, byteLength_append, byteLength_nil]
    omega
  | emptyArray gap =>
    rw [text]
    simp [bracketed]
  | @array _ items _ each ih =>
    cases plain with
    | array inner =>
      have lighter : charge ((items.map Item.value).map text) ≤ charge (items.map Item.text) := by
        simp only [charge, List.map_map]
        apply List.sum_le_sum
        intro i member
        have value := ih i member (inner i.value (List.mem_map_of_mem member))
        simp only [Function.comp_apply, Item.text, byteLength_append]
        omega
      rw [text, byteLength_bracketed rfl rfl, byteLength_bracketed rfl rfl]
      omega
  | emptyObject gap =>
    rw [text]
    simp [bracketed]
  | object _ _ settled ih =>
    cases plain with
    | object inner =>
      apply byteLength_kept_le settled.ascending.nodup fun m => settled.mem
      intro m member kept
      exact ih m member (inner m.entry kept)

/-- So are some of the members of an object, if there are fractions in the others. -/
theorem Denotes.kept_le {ordered kept : List (String × Json)}
    (denotes : Denotes depth body (.object ordered)) (inside : ∀ m ∈ kept, m ∈ ordered)
    (distinct : kept.Nodup) (plain : ∀ m ∈ kept, m.2.Plain k) :
    byteLength (Json.object kept).text ≤ byteLength body := by
  cases denotes with
  | emptyObject gap =>
    have none : kept = [] := List.eq_nil_iff_forall_not_mem.mpr fun m member =>
      List.not_mem_nil (inside m member)
    rw [none, text]
    simp [bracketed]
  | object _ each settled =>
    apply byteLength_kept_le distinct fun m member => settled.mem (inside m member)
    intro m member kept
    exact (each m member).text_le (plain m.entry kept)

theorem IsText.kept_le {text : String} {ordered kept : List (String × Json)}
    (isText : IsText text (.object ordered)) (inside : ∀ m ∈ kept, m ∈ ordered)
    (distinct : kept.Nodup) (plain : ∀ m ∈ kept, m.2.Plain k) :
    (Json.object kept).write.utf8ByteSize ≤ text.utf8ByteSize := by
  obtain ⟨item, whole, -, denotes⟩ := isText
  calc (Json.object kept).write.utf8ByteSize
      = byteLength (Json.object kept).text := utf8ByteSize_ofList _
    _ ≤ byteLength item.body := denotes.kept_le inside distinct plain
    _ ≤ byteLength item.text := by
        simp only [Item.text, byteLength_append]
        omega
    _ = text.utf8ByteSize := by rw [← whole, byteLength_toList]

end Switchboard.Json
