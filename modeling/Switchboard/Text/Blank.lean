/-!
Blank characters: the twenty-five with the Unicode property White_Space, and trimming them off.
-/

namespace Switchboard.Text

def blankRanges : List (Nat × Nat) :=
  [(0x09, 0x0D), (0x20, 0x20), (0x85, 0x85), (0xA0, 0xA0), (0x1680, 0x1680), (0x2000, 0x200A),
    (0x2028, 0x2029), (0x202F, 0x202F), (0x205F, 0x205F), (0x3000, 0x3000)]

def isBlank (c : Char) : Bool :=
  blankRanges.any fun range => range.1 ≤ c.toNat && c.toNat ≤ range.2

example : (blankRanges.map fun range => range.2 + 1 - range.1).sum = 25 := by decide

def trimEnd (cs : List Char) : List Char := (cs.reverse.dropWhile isBlank).reverse

def trim (cs : List Char) : List Char := trimEnd (cs.dropWhile isBlank)

theorem trim_split (cs : List Char) :
    ∃ front back, cs = front ++ trim cs ++ back ∧
      (∀ c ∈ front, isBlank c) ∧ ∀ c ∈ back, isBlank c := by
  let body := cs.dropWhile isBlank
  refine ⟨cs.takeWhile isBlank, (body.reverse.takeWhile isBlank).reverse, ?_, ?_, ?_⟩
  · have back : body = trimEnd body ++ (body.reverse.takeWhile isBlank).reverse := by
      rw [trimEnd, ← List.reverse_append, List.takeWhile_append_dropWhile, List.reverse_reverse]
    rw [trim, List.append_assoc, ← back, List.takeWhile_append_dropWhile]
  · intro c member
    exact List.all_eq_true.mp List.all_takeWhile c member
  · intro c member
    exact List.all_eq_true.mp List.all_takeWhile c (List.mem_reverse.mp member)

theorem trimEnd_append {body back : List Char} (behind : ∀ c ∈ back, isBlank c)
    (last : ∀ c, body.getLast? = some c → ¬ isBlank c) : trimEnd (body ++ back) = body := by
  have blank : ∀ c ∈ back.reverse, isBlank c := fun c member => behind c (List.mem_reverse.mp member)
  rw [trimEnd, List.reverse_append, List.dropWhile_append_of_pos blank]
  cases reversed : body.reverse with
  | nil => simpa using reversed.symm
  | cons c rest =>
    have final : body.getLast? = some c := by rw [← List.head?_reverse, reversed, List.head?_cons]
    rw [List.dropWhile_cons_of_neg (last c final), ← reversed, List.reverse_reverse]

theorem trim_append {front body back : List Char} (before : ∀ c ∈ front, isBlank c)
    (behind : ∀ c ∈ back, isBlank c) (something : body ≠ [])
    (first : ∀ c, body.head? = some c → ¬ isBlank c)
    (last : ∀ c, body.getLast? = some c → ¬ isBlank c) : trim (front ++ body ++ back) = body := by
  have start : (front ++ body ++ back).dropWhile isBlank = body ++ back := by
    rw [List.append_assoc, List.dropWhile_append_of_pos before]
    cases body with
    | nil => exact absurd rfl something
    | cons c body => exact List.dropWhile_cons_of_neg (first c rfl)
  rw [trim, start, trimEnd_append behind last]

theorem getLast?_trim (cs : List Char) {c : Char} (last : (trim cs).getLast? = some c) :
    ¬ isBlank c := by
  rw [trim, trimEnd, List.getLast?_reverse] at last
  have kept := List.head?_dropWhile_not isBlank (cs.dropWhile isBlank).reverse
  rw [last] at kept
  simpa using kept

theorem head?_trim (cs : List Char) {c : Char} (first : (trim cs).head? = some c) :
    ¬ isBlank c := by
  have kept := List.head?_dropWhile_not isBlank cs
  have start : (cs.dropWhile isBlank).head? = some c := by
    have trimmed : trimEnd (cs.dropWhile isBlank) <+: cs.dropWhile isBlank := by
      rw [trimEnd, ← List.reverse_suffix, List.reverse_reverse]
      exact List.dropWhile_suffix _
    obtain ⟨more, whole⟩ := trimmed
    rw [← whole, List.head?_append, ← trim, first]
    rfl
  rw [start] at kept
  simpa using kept

theorem trim_blank {cs : List Char} (blank : ∀ c ∈ cs, isBlank c) : trim cs = [] := by
  cases trimmed : trim cs with
  | nil => rfl
  | cons c body =>
    obtain ⟨front, back, split, -, -⟩ := trim_split cs
    have member : c ∈ cs := by
      rw [split, trimmed]
      simp
    have head : (trim cs).head? = some c := by rw [trimmed, List.head?_cons]
    exact absurd (blank c member) (head?_trim cs head)

end Switchboard.Text
