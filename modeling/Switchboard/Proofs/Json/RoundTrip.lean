import Switchboard.Proofs.Decimal
import Switchboard.Proofs.Json.Scalars
import Switchboard.Proofs.Json.Sound

/-!
A value without fractions is read as it was written, except that the members of its objects come in
byte order.
-/

namespace Switchboard.Json

variable {j : Json} {depth : Nat} {c : Char}

/-- The value with the members of all its objects in byte order, the last of equal keys only. -/
def sorted : Json → Json
  | null => null
  | bool b => bool b
  | number n => number n
  | string s => string s
  | array items => array (items.map sorted)
  | object members => ofMembers (members.map fun m => (m.1, sorted m.2))
decreasing_by
  · simp_wf; have := List.sizeOf_lt_of_mem ‹_›; omega
  · simp_wf
    have := List.sizeOf_lt_of_mem ‹_›
    have : sizeOf m.2 < sizeOf m := by
      obtain ⟨key, value⟩ := m
      show sizeOf value < 1 + sizeOf key + sizeOf value
      omega
    omega

/-- All numbers are whole and within 64 bits, and at most `depth` brackets are open at a time. -/
inductive Plain : Nat → Json → Prop
  | null {depth : Nat} : Plain depth null
  | bool {depth : Nat} (b : Bool) : Plain depth (bool b)
  | int {depth : Nat} {n : Int} (exact : Exact n) : Plain depth (number (.int n))
  | string {depth : Nat} (s : String) : Plain depth (string s)
  | array {depth : Nat} {items : List Json} (inner : ∀ item ∈ items, Plain depth item) :
    Plain (depth + 1) (array items)
  | object {depth : Nat} {members : List (String × Json)}
    (inner : ∀ m ∈ members, Plain depth m.2) : Plain (depth + 1) (object members)

/-! ### What the text looks like -/

def memberText (m : String × Json) : List Char := stringText m.1 ++ ':' :: m.2.text

theorem text_object (members : List (String × Json)) :
    (object members).text = bracketed '\x7b' '\x7d' (members.map memberText) := by
  rw [text]
  rfl

theorem text_number (n : Nat) : (number (.int n)).text = Nat.toDigits 10 n := by
  rw [text, Number.text, if_neg (by omega), Int.natAbs_natCast]

theorem mem_bracketed {left right : Char} {pieces : List (List Char)}
    (member : c ∈ bracketed left right pieces) :
    c ∈ [left, ',', right] ∨ ∃ piece ∈ pieces, c ∈ piece := by
  cases pieces with
  | nil =>
    have ends : c ∈ [left, right] := member
    simp only [List.mem_cons, List.not_mem_nil, or_false] at ends ⊢
    exact Or.inl (ends.imp_right Or.inr)
  | cons piece pieces =>
    rw [bracketed_cons] at member
    simp only [List.mem_cons, List.mem_append, List.mem_flatMap, List.not_mem_nil, or_false]
      at member ⊢
    grind

theorem printable_number (n : Number) : ∀ c ∈ n.text, 0x20 ≤ c.toNat := by
  have digits : ∀ k, ∀ c ∈ Nat.toDigits 10 k, 0x20 ≤ c.toNat := fun k c member =>
    (Decimal.numeric_toDigits k c member).printable
  cases n with
  | int n =>
    rw [Number.text]
    split
    · exact List.forall_mem_cons.mpr ⟨by decide, digits _⟩
    · exact digits _
  | float x => exact fun c member => (Decimal.numeric_briefText x c member).printable

theorem printable_text (j : Json) : ∀ c ∈ j.text, 0x20 ≤ c.toNat := by
  have brackets : ∀ c ∈ ['[', ',', ']'], 0x20 ≤ c.toNat := by simp
  have braces : ∀ c ∈ ['\x7b', ',', '\x7d'], 0x20 ≤ c.toNat := by simp
  induction j using text.induct with
  | case1 => simp [text]
  | case2 => simp [text]
  | case3 => simp [text]
  | case4 n => rw [text]; exact printable_number n
  | case5 s => rw [text]; exact printable_stringText s
  | case6 items ih =>
    intro c member
    rw [text] at member
    rcases mem_bracketed member with mark | ⟨_, source, inside⟩
    · exact brackets c mark
    · obtain ⟨item, found, rfl⟩ := List.mem_map.mp source
      exact ih item found c inside
  | case7 members ih =>
    intro c member
    rw [text_object] at member
    rcases mem_bracketed member with mark | ⟨_, source, inside⟩
    · exact braces c mark
    · obtain ⟨m, found, rfl⟩ := List.mem_map.mp source
      rcases List.mem_append.mp inside with key | value
      · exact printable_stringText m.1 c key
      · rcases List.mem_cons.mp value with rfl | value
        · decide
        · exact ih m found c value

/-! ### What the text denotes -/

def noGap : Gap := ⟨[], List.forall_mem_nil _⟩

def writtenItem (j : Json) : Item := ⟨noGap, j.text, noGap, j.sorted⟩

def writtenMember (m : String × Json) : Member :=
  ⟨writtenItem m.2, noGap, m.1.toList.flatMap escape, m.1, noGap, spells_escape m.1.toList⟩

theorem text_writtenItem (j : Json) : (writtenItem j).text = j.text := List.append_nil j.text

theorem text_writtenMember (m : String × Json) : (writtenMember m).text = memberText m := by
  rw [Member.text, show (writtenMember m).toItem = writtenItem m.2 from rfl, text_writtenItem]
  simp [writtenMember, noGap, memberText, stringText]

theorem ofMembers_nil : ofMembers [] = object [] := by
  rw [ofMembers, List.mergeSort_nil]
  rfl

theorem Plain.denotes (plain : Plain depth j) : Denotes depth j.text j.sorted := by
  induction plain with
  | null =>
    rw [text, sorted]
    exact .null
  | bool b =>
    rw [sorted]
    cases b <;> rw [text]
    · exact .no
    · exact .yes
  | @int _ n exact =>
    rw [text, sorted, ← text_wholeNumeral]
    exact .number (number?_wholeNumeral exact)
  | @string depth s =>
    have denotes : Denotes depth (stringText s) (.string (String.ofList s.toList)) :=
      .string (spells_escape s.toList)
    rw [text, sorted]
    rwa [String.ofList_toList] at denotes
  | @array depth items inner ih =>
    rw [text, sorted]
    by_cases none : items = []
    · subst none
      exact .emptyArray noGap
    · have filled : items.map writtenItem ≠ [] := by simpa using none
      have each : ∀ i ∈ items.map writtenItem, Denotes depth i.body i.value := by
        rintro i member
        obtain ⟨j, inside, rfl⟩ := List.mem_map.mp member
        exact ih j inside
      have denotes := Denotes.array filled each
      rwa [List.map_map, List.map_map,
        show Item.text ∘ writtenItem = text from funext text_writtenItem] at denotes
  | @object depth members inner ih =>
    rw [text_object, sorted]
    by_cases none : members = []
    · subst none
      rw [List.map_nil, List.map_nil, ofMembers_nil]
      exact .emptyObject noGap
    · have filled : members.map writtenMember ≠ [] := by simpa using none
      have each : ∀ i ∈ members.map writtenMember, Denotes depth i.body i.value := by
        rintro i member
        obtain ⟨m, inside, rfl⟩ := List.mem_map.mp member
        exact ih m inside
      obtain ⟨ordered, result, settled⟩ :=
        settled_ofMembers ((members.map writtenMember).map Member.entry)
      have denotes := Denotes.object filled each settled
      rw [List.map_map] at result
      rw [List.map_map, show Member.text ∘ writtenMember = memberText from
        funext text_writtenMember, ← result] at denotes
      exact denotes

theorem IsText.push_newline {text : String} (isText : IsText text j) :
    IsText (text.push '\n') j := by
  obtain ⟨item, whole, rfl, denotes⟩ := isText
  have blank : Blank (item.behind.val ++ ['\n']) :=
    List.forall_mem_append.mpr ⟨item.behind.property, List.forall_mem_singleton.mpr rfl⟩
  refine ⟨{ item with behind := ⟨_, blank⟩ }, ?_, rfl, denotes⟩
  rw [String.toList_push, whole]
  simp only [Item.text, List.append_assoc]

theorem isText_write (plain : Plain (maxDepth - 1) j) : IsText j.write j.sorted := by
  have written : j.write.toList = (writtenItem j).text := by
    rw [write, String.toList_ofList, text_writtenItem]
  exact ⟨writtenItem j, written, rfl, plain.denotes⟩

/-- What is written is read. -/
theorem read_write (plain : Plain (maxDepth - 1) j) : read j.write = .ok j.sorted :=
  read_complete (isText_write plain)

end Switchboard.Json
