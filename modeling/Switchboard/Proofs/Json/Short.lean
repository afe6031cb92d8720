import Switchboard.Proofs.Json.Scalars
import Switchboard.Proofs.Json.Sound

/-!
What is read is no longer than the text that it is read from.
-/

namespace Switchboard.Json

/-- Strings and keys have at most `n` characters, arrays at most `n` items, and whole numbers fit
into 64 bits. -/
inductive Short (n : Nat) : Json → Prop
  | null : Short n .null
  | bool (b : Bool) : Short n (.bool b)
  | int {k : Int} (word : k.natAbs ≤ wordLimit) : Short n (.number (.int k))
  | float (x : Float) : Short n (.number (.float x))
  | string {s : String} (short : s.length ≤ n) : Short n (.string s)
  | array {items : List Json} (few : items.length ≤ n) (inner : ∀ i ∈ items, Short n i) :
    Short n (.array items)
  | object {members : List (String × Json)} (keys : ∀ m ∈ members, m.1.length ≤ n)
    (inner : ∀ m ∈ members, Short n m.2) : Short n (.object members)

variable {n depth : Nat} {body spelling cs : List Char} {value : Json}

/-! ### Strings and numbers -/

theorem Spells.length_le (spells : Spells spelling cs) : cs.length ≤ spelling.length := by
  induction spells with
  | nil => exact Nat.le_refl _
  | @cons glyph spelling cs c first _ ih =>
    have some : 0 < glyph.length := by cases first <;> exact Nat.succ_pos _
    rw [List.length_cons, List.length_append]
    omega

theorem Numeral.short {numeral : Numeral} {x : Number} (inRange : numeral.number? = some x) :
    Short n (.number x) := by
  cases x with
  | float x => exact .float x
  | int k =>
    have limit : wordLimit = 2 ^ 64 - 1 := rfl
    obtain ⟨-, -, amount⟩ := Numeral.number?_eq_int.mp inRange
    refine .int ?_
    split at amount <;> omega

/-! ### Values -/

theorem length_bracketed {left right : Char} {pieces : List (List Char)} :
    pieces.length ≤ (bracketed left right pieces).length ∧
      ∀ piece ∈ pieces, piece.length ≤ (bracketed left right pieces).length := by
  cases pieces with
  | nil => exact ⟨Nat.zero_le _, by simp⟩
  | cons first pieces =>
    have behind : pieces.length ≤ (pieces.flatMap (',' :: ·)).length ∧
        ∀ piece ∈ pieces, piece.length ≤ (pieces.flatMap (',' :: ·)).length := by
      induction pieces with
      | nil => exact ⟨Nat.le_refl _, by simp⟩
      | cons piece pieces ih =>
        obtain ⟨count, each⟩ := ih
        simp only [List.flatMap_cons, List.length_append, List.length_cons, List.mem_cons]
        refine ⟨by omega, ?_⟩
        rintro other (rfl | member)
        · omega
        · have := each other member
          omega
    obtain ⟨count, each⟩ := behind
    simp only [bracketed_cons, List.length_append, List.length_cons, List.mem_cons]
    refine ⟨by omega, ?_⟩
    rintro other (rfl | member)
    · omega
    · have := each other member
      omega

theorem Denotes.short (denotes : Denotes depth body value) (fits : body.length ≤ n) :
    Short n value := by
  induction denotes with
  | null => exact .null
  | yes => exact .bool true
  | no => exact .bool false
  | number inRange => exact Numeral.short inRange
  | @string _ spelling cs spells =>
    have := spells.length_le
    refine .string ?_
    simp only [List.length_cons, List.length_append] at fits
    rw [String.length_ofList]
    omega
  | emptyArray => exact .array (Nat.zero_le n) (by simp)
  | @array _ items _ each ih =>
    obtain ⟨count, pieces⟩ := @length_bracketed '[' ']' (items.map Item.text)
    refine .array ?_ fun v member => ?_
    · simp only [List.length_map] at count ⊢
      omega
    · obtain ⟨i, inside, rfl⟩ := List.mem_map.mp member
      have piece := pieces i.text (List.mem_map_of_mem inside)
      simp only [Item.text, List.length_append] at piece
      exact ih i inside (by omega)
  | emptyObject => exact .object (by simp) (by simp)
  | @object _ members ordered _ each settled ih =>
    have pieces := (@length_bracketed '\x7b' '\x7d' (members.map Member.text)).2
    have source : ∀ m ∈ ordered, ∃ w ∈ members, w.entry = m ∧ w.text.length ≤ n := by
      intro m member
      obtain ⟨w, inside, rfl⟩ := List.mem_map.mp (settled.mem member)
      exact ⟨w, inside, rfl, Nat.le_trans (pieces _ (List.mem_map_of_mem inside)) fits⟩
    refine .object (fun m member => ?_) fun m member => ?_
    · obtain ⟨w, -, rfl, short⟩ := source m member
      have key := w.spells.length_le
      simp only [Member.text, List.length_append, List.length_cons] at short
      show w.key.length ≤ n
      rw [← String.length_toList]
      omega
    · obtain ⟨w, inside, rfl, short⟩ := source m member
      simp only [Member.text, Item.text, List.length_append, List.length_cons] at short
      exact ih w inside (by omega)

/-- A value is no longer than its text. -/
theorem read_short {text : String} {v : Json} (read : Json.read text = .ok v) :
    v.Short text.length := by
  obtain ⟨item, written, rfl, denotes⟩ := read_sound read
  refine denotes.short ?_
  rw [← String.length_toList, written, Item.text]
  simp only [List.length_append]
  omega

end Switchboard.Json
