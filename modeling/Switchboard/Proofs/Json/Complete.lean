import Switchboard.Proofs.Json.Numerals
import Switchboard.Proofs.Json.Spellings

/-!
What the grammar derives is read, with whatever stands behind it left over.
-/

namespace Switchboard.Json

variable {value item : Json} {depth : Nat} {c : Char} {s key : String}
variable {body cs tail left rest after more : List Char}

/-! ### White space -/

theorem skip_cons (solid : isSpace c = false) : skip (c :: cs) = c :: cs :=
  List.dropWhile_cons_of_neg (by rw [solid]; exact Bool.false_ne_true)

theorem skip_gap (gap : Gap) (cs : List Char) : skip (gap.val ++ cs) = skip cs :=
  List.dropWhile_append_of_pos gap.property

def Begins (c : Char) : Prop := isSpace c = false ∧ c ≠ ']' ∧ c ≠ '\x7d'

instance : DecidablePred Begins := fun _ => inferInstanceAs (Decidable (_ ∧ _ ∧ _))

theorem not_mem_of_starts (starts : c = '-' ∨ c.isDigit = true) :
    c ∉ [' ', '\t', '\n', '\r', '"', '\x7b', '[', 't', 'f', 'n', ']', '\x7d'] := by
  have no : ∀ c ∈ [' ', '\t', '\n', '\r', '"', '\x7b', '[', 't', 'f', 'n', ']', '\x7d'],
      ¬ (c = '-' ∨ c.isDigit = true) := by
    simp
  exact fun member => no c member starts

theorem begins_of_starts (starts : c = '-' ∨ c.isDigit = true) : Begins c := by
  have other := not_mem_of_starts starts
  simp only [List.mem_cons, List.not_mem_nil, or_false, not_or] at other
  simp [Begins, isSpace, other]

theorem Numeral.text_starts (n : Numeral) :
    ∃ c tail, n.text = c :: tail ∧ (c = '-' ∨ c.isDigit = true) := by
  rw [Numeral.text, sign]
  split
  · exact ⟨'-', _, rfl, Or.inl rfl⟩
  · obtain ⟨ds, filled, digits⟩ := n.whole
    cases ds with
    | nil => exact absurd rfl filled
    | cons c ds => exact ⟨c, _, rfl, Or.inr (digits c List.mem_cons_self)⟩

theorem Denotes.begins (denotes : Denotes depth body value) :
    ∃ c tail, body = c :: tail ∧ Begins c := by
  cases denotes with
  | null => exact ⟨_, _, rfl, by decide⟩
  | yes => exact ⟨_, _, rfl, by decide⟩
  | no => exact ⟨_, _, rfl, by decide⟩
  | @number _ n _ _ =>
    obtain ⟨c, tail, written, starts⟩ := n.text_starts
    exact ⟨c, tail, written, begins_of_starts starts⟩
  | string => exact ⟨_, _, rfl, by decide⟩
  | emptyArray => exact ⟨_, _, rfl, by decide⟩
  | array => exact ⟨_, _, rfl, by decide⟩
  | emptyObject => exact ⟨_, _, rfl, by decide⟩
  | object => exact ⟨_, _, rfl, by decide⟩

/-! ### One step of the reader -/

/-- Reading takes the value off and leaves the rest. -/
def ReadsAs (depth : Nat) (cs : List Char) (value : Json) (rest : List Char) : Prop :=
  ∀ (whole : List Char) (fits : cs.length ≤ whole.length),
    (readValue depth cs fits).map (fun r => (r.1, r.2.val)) = .ok (value, rest)

theorem ReadsAs.ok (reads : ReadsAs depth cs value rest) {whole : List Char}
    (fits : cs.length ≤ whole.length) :
    ∃ shorter, readValue depth cs fits = .ok (value, ⟨rest, shorter⟩) := by
  have read := reads whole fits
  cases result : readValue depth cs fits with
  | error e => rw [result] at read; cases read
  | ok r => rw [result] at read; cases read; exact ⟨r.2.property, rfl⟩

theorem readsAs_word {word : List Char}
    (known : (word, value) ∈ [(['n', 'u', 'l', 'l'], null), (['t', 'r', 'u', 'e'], bool true),
      (['f', 'a', 'l', 's', 'e'], bool false)])
    (begins : skip cs = word ++ rest) : ReadsAs depth cs value rest := by
  simp only [List.mem_cons, List.not_mem_nil, or_false, Prod.mk.injEq] at known
  rcases known with ⟨rfl, rfl⟩ | ⟨rfl, rfl⟩ | ⟨rfl, rfl⟩ <;>
  · intro whole fits
    rw [readValue]
    split
    next none => rw [begins] at none; cases none
    next c after found =>
      rw [begins] at found
      cases found
      simp [readWord]
      rfl

theorem readsAs_number {x : Number} (opens : skip cs = c :: tail)
    (starts : c = '-' ∨ c.isDigit = true) (read : readNumber (c :: tail) = .ok (x, rest)) :
    ReadsAs depth cs (.number x) rest := by
  have other := not_mem_of_starts starts
  simp only [List.mem_cons, List.not_mem_nil, or_false, not_or] at other
  obtain ⟨_, _, _, _, quote, brace, bracket, t, f, n, _, _⟩ := other
  intro whole fits
  rw [readValue]
  split
  next none => rw [opens] at none; cases none
  next d after found =>
    rw [opens] at found
    cases found
    rw [if_neg quote, if_neg brace, if_neg bracket, if_neg t, if_neg f, if_neg n, if_pos starts]
    split
    next other => rw [read] at other; cases other
    next other => rw [read] at other; cases other; rfl

theorem readsAs_string (opens : skip cs = '"' :: tail)
    (string : readString [] tail = .ok (s, rest)) : ReadsAs depth cs (.string s) rest := by
  intro whole fits
  rw [readValue]
  split
  next none => rw [opens] at none; cases none
  next c after found =>
    rw [opens] at found
    cases found
    rw [if_pos rfl]
    split
    next other => rw [string] at other; cases other
    next other => rw [string] at other; cases other; rfl

/-! ### Arrays -/

theorem readsAs_emptyArray (deep : 1 < depth) (opens : skip cs = '[' :: tail)
    (ends : skip tail = ']' :: rest) : ReadsAs depth cs (.array []) rest := by
  intro whole fits
  rw [readValue]
  split
  next none => rw [opens] at none; cases none
  next c after found =>
    rw [opens] at found
    cases found
    rw [if_neg (by decide), if_neg (by decide), if_pos rfl, if_neg (Nat.not_le.mpr deep)]
    split
    next none => rw [ends] at none; cases none
    next other => rw [ends] at other; cases other; rfl
    next none other => exact absurd ends (other _)

def ReadsItems (depth : Nat) (seen : List Json) (cs : List Char) (value : Json)
    (rest : List Char) : Prop :=
  ∀ (whole : List Char) (fits : cs.length < whole.length),
    (readItems depth seen cs fits).map (fun r => (r.1, r.2.val)) = .ok (value, rest)

theorem readsAs_array (deep : 1 < depth) (opens : skip cs = '[' :: tail)
    (begins : skip tail = c :: more) (other : c ≠ ']')
    (items : ReadsItems (depth - 1) [] tail value rest) : ReadsAs depth cs value rest := by
  intro whole fits
  rw [readValue]
  split
  next none => rw [opens] at none; cases none
  next d after found =>
    rw [opens] at found
    cases found
    rw [if_neg (by decide), if_neg (by decide), if_pos rfl, if_neg (Nat.not_le.mpr deep)]
    split
    next none => rw [begins] at none; cases none
    next ends => rw [begins] at ends; cases ends; exact absurd rfl other
    next => exact items whole _

theorem readsItems_item {seen : List Json} (reads : ReadsAs depth cs item left)
    (goes : (skip left = ']' :: rest ∧ value = .array (item :: seen).reverse) ∨
      ∃ after c more, skip left = ',' :: after ∧ skip after = c :: more ∧ c ≠ ']' ∧
        ReadsItems depth (item :: seen) after value rest) :
    ReadsItems depth seen cs value rest := by
  intro whole fits
  obtain ⟨shorter, read⟩ := reads.ok (Nat.le_refl cs.length)
  rw [readItems, read]
  dsimp only
  rcases goes with ⟨ends, rfl⟩ | ⟨after, c, more, comma, begins, other, later⟩
  · split
    next none => rw [ends] at none; cases none
    next c after found =>
      rw [ends] at found
      cases found
      rw [if_pos rfl]
      rfl
  · split
    next none => rw [comma] at none; cases none
    next d after found =>
      rw [comma] at found
      cases found
      rw [if_neg (by decide), if_pos rfl]
      split
      next none => rw [begins] at none; cases none
      next ends => rw [begins] at ends; cases ends; exact absurd rfl other
      next => exact later whole _

/-! ### Objects -/

theorem readsAs_emptyObject (deep : 1 < depth) (opens : skip cs = '\x7b' :: tail)
    (ends : skip tail = '\x7d' :: rest) : ReadsAs depth cs (.object []) rest := by
  intro whole fits
  rw [readValue]
  split
  next none => rw [opens] at none; cases none
  next c after found =>
    rw [opens] at found
    cases found
    rw [if_neg (by decide), if_pos rfl, if_neg (Nat.not_le.mpr deep)]
    split
    next none => rw [ends] at none; cases none
    next other => rw [ends] at other; cases other; rfl
    next none other => exact absurd ends (other _)

def ReadsMembers (depth : Nat) (seen : List (String × Json)) (cs : List Char) (value : Json)
    (rest : List Char) : Prop :=
  ∀ (whole : List Char) (fits : cs.length < whole.length),
    (readMembers depth seen cs fits).map (fun r => (r.1, r.2.val)) = .ok (value, rest)

theorem readsAs_object (deep : 1 < depth) (opens : skip cs = '\x7b' :: tail)
    (begins : skip tail = '"' :: more)
    (members : ReadsMembers (depth - 1) [] tail value rest) : ReadsAs depth cs value rest := by
  intro whole fits
  rw [readValue]
  split
  next none => rw [opens] at none; cases none
  next c after found =>
    rw [opens] at found
    cases found
    rw [if_neg (by decide), if_pos rfl, if_neg (Nat.not_le.mpr deep)]
    split
    next none => rw [begins] at none; cases none
    next other => rw [begins] at other; cases other
    next => exact members whole _

theorem readsMembers_member {seen : List (String × Json)} {behind : List Char}
    (opens : skip cs = '"' :: tail) (string : readString [] tail = .ok (key, behind))
    (colon : skip behind = ':' :: after) (reads : ReadsAs depth after item left)
    (goes : (skip left = '\x7d' :: rest ∧ value = ofMembers ((key, item) :: seen).reverse) ∨
      ∃ next c more, skip left = ',' :: next ∧ skip next = c :: more ∧ c ≠ '\x7d' ∧
        ReadsMembers depth ((key, item) :: seen) next value rest) :
    ReadsMembers depth seen cs value rest := by
  intro whole fits
  have inside : after.length ≤ behind.length := by
    have := skip_length behind
    rw [colon, List.length_cons] at this
    omega
  obtain ⟨shorter, read⟩ := reads.ok inside
  rw [readMembers]
  split
  next none => rw [opens] at none; cases none
  next q r found =>
    rw [opens] at found
    cases found
    rw [if_pos rfl]
    split
    next other => rw [string] at other; cases other
    next other =>
      rw [string] at other
      cases other
      split
      next none => rw [colon] at none; cases none
      next k r2 found =>
        rw [colon] at found
        cases found
        rw [if_pos rfl]
        split
        next other => rw [read] at other; cases other
        next other =>
          rw [read] at other
          cases other
          rcases goes with ⟨ends, rfl⟩ | ⟨next, c, more, comma, begins, other, later⟩
          · split
            next none => rw [ends] at none; cases none
            next found =>
              rw [ends] at found
              cases found
              rw [if_pos rfl]
              rfl
          · split
            next none => rw [comma] at none; cases none
            next found =>
              rw [comma] at found
              cases found
              rw [if_neg (by decide), if_pos rfl]
              split
              next none => rw [begins] at none; cases none
              next ends => rw [begins] at ends; cases ends; exact absurd rfl other
              next => exact later whole _

/-! ### Whole values -/

theorem stops_cons (mark : c ∈ [',', ']', '\x7d']) : Stops (c :: rest) := by
  have : ∀ c ∈ [',', ']', '\x7d'], ¬ c.isDigit ∧ c ≠ '.' ∧ c ≠ 'e' ∧ c ≠ 'E' := by simp
  intro d head
  cases head
  exact this c mark

theorem Stops.gap (gap : Gap) (stops : Stops rest) : Stops (gap.val ++ rest) := by
  obtain ⟨cs, blank⟩ := gap
  cases cs with
  | nil => exact stops
  | cons c cs =>
    intro d head
    cases head
    have space := blank c List.mem_cons_self
    have none : ∀ c ∈ [' ', '\t', '\n', '\r'], ¬ c.isDigit ∧ c ≠ '.' ∧ c ≠ 'e' ∧ c ≠ 'E' := by simp
    exact none c (by simpa [isSpace, or_assoc] using space)

/-- Its texts are read as the value, whatever stands in front of them and behind. -/
def Reads (depth : Nat) (body : List Char) (value : Json) : Prop :=
  ∀ cs rest, skip cs = body ++ rest → Stops rest → ReadsAs depth cs value rest

theorem bracketed_cons (left right : Char) (piece : List Char) (pieces : List (List Char)) :
    bracketed left right (piece :: pieces) =
      left :: (piece ++ pieces.flatMap (',' :: ·) ++ [right]) := by
  have joined : ((piece :: pieces).intersperse [',']).flatten =
      piece ++ pieces.flatMap (',' :: ·) := by
    induction pieces generalizing piece with
    | nil => simp
    | cons next pieces ih =>
      rw [List.intersperse_cons_cons, List.flatten_cons, List.flatten_cons, ih]
      rfl
  rw [bracketed, joined]
  rfl

structure Item.Legible (depth : Nat) (i : Item) : Prop where
  begins : ∃ c tail, i.body = c :: tail ∧ Begins c
  reads : Reads depth i.body i.value

namespace Item.Legible

variable {i : Item}

theorem skip_text (legible : i.Legible depth) (rest : List Char) :
    skip (i.text ++ rest) = i.body ++ (i.behind.val ++ rest) := by
  obtain ⟨c, tail, written, begins⟩ := legible.begins
  rw [Item.text, List.append_assoc, skip_gap, List.append_assoc, written, List.cons_append,
    skip_cons begins.1]

theorem readsAs (legible : i.Legible depth) (mark : c ∈ [',', ']', '\x7d']) (rest : List Char) :
    ReadsAs depth (i.text ++ c :: rest) i.value (i.behind.val ++ c :: rest) :=
  legible.reads _ _ (legible.skip_text _) ((stops_cons mark).gap i.behind)

end Item.Legible

theorem skip_gap_cons (gap : Gap) (solid : isSpace c = false) (cs : List Char) :
    skip (gap.val ++ c :: cs) = c :: cs := by
  rw [skip_gap, skip_cons solid]

theorem readsItems_text {first : Item} {items : List Item} (seen : List Json)
    (legible : ∀ i ∈ first :: items, i.Legible depth) :
    ReadsItems depth seen
      (first.text ++ ((items.map Item.text).flatMap (',' :: ·) ++ ']' :: rest))
      (.array (seen.reverse ++ (first :: items).map Item.value)) rest := by
  induction items generalizing first seen with
  | nil =>
    have now := (legible first List.mem_cons_self).readsAs (c := ']') (by simp) rest
    exact readsItems_item now (Or.inl ⟨skip_gap_cons _ (by decide) _, by simp⟩)
  | cons next items ih =>
    have now := (legible first List.mem_cons_self).readsAs (c := ',') (by simp)
      (next.text ++ ((items.map Item.text).flatMap (',' :: ·) ++ ']' :: rest))
    have later := ih (first.value :: seen) fun i member => legible i (List.mem_cons_of_mem _ member)
    have coming : next.Legible depth := legible next (by simp)
    obtain ⟨c, tail, written, begins⟩ := coming.begins
    have ahead := coming.skip_text ((items.map Item.text).flatMap (',' :: ·) ++ ']' :: rest)
    rw [written] at ahead
    rw [List.reverse_cons, List.append_assoc] at later
    rw [List.map_cons, List.flatMap_cons, List.append_assoc]
    exact readsItems_item now
      (Or.inr ⟨_, c, _, skip_gap_cons _ (by decide) _, ahead, begins.2.1, later⟩)

theorem Member.skip_text (m : Member) (rest : List Char) :
    skip (m.text ++ rest) =
      '"' :: (m.spelling ++ '"' :: (m.gap.val ++ ':' :: (m.toItem.text ++ rest))) := by
  rw [Member.text, List.append_assoc, skip_gap, List.cons_append, skip_cons (by decide)]
  simp

theorem Member.readString (m : Member) (rest : List Char) :
    readString [] (m.spelling ++ '"' :: rest) = .ok (m.key, rest) := by
  rw [readString_complete m.spells, List.reverse_nil, List.nil_append, String.ofList_toList]

theorem readsMembers_text {first : Member} {members : List Member} (seen : List (String × Json))
    (legible : ∀ m ∈ first :: members, m.toItem.Legible depth) :
    ReadsMembers depth seen
      (first.text ++ ((members.map Member.text).flatMap (',' :: ·) ++ '\x7d' :: rest))
      (ofMembers (seen.reverse ++ (first :: members).map Member.entry)) rest := by
  induction members generalizing first seen with
  | nil =>
    have now := (legible first List.mem_cons_self).readsAs (c := '\x7d') (by simp) rest
    exact readsMembers_member (first.skip_text _) (first.readString _)
      (skip_gap_cons _ (by decide) _) now
      (Or.inl ⟨skip_gap_cons _ (by decide) _, by simp [Member.entry]⟩)
  | cons next members ih =>
    have now := (legible first List.mem_cons_self).readsAs (c := ',') (by simp)
      (next.text ++ ((members.map Member.text).flatMap (',' :: ·) ++ '\x7d' :: rest))
    have later := ih (first.entry :: seen) fun m member => legible m (List.mem_cons_of_mem _ member)
    rw [List.reverse_cons, List.append_assoc] at later
    rw [List.map_cons, List.flatMap_cons, List.append_assoc]
    exact readsMembers_member (first.skip_text _) (first.readString _)
      (skip_gap_cons _ (by decide) _) now
      (Or.inr ⟨_, '"', _, skip_gap_cons _ (by decide) _, next.skip_text _, by decide, later⟩)

theorem Denotes.reads (denotes : Denotes depth body value) : Reads (depth + 1) body value := by
  induction denotes with
  | null => exact fun cs rest begins _ => readsAs_word (by simp) begins
  | yes => exact fun cs rest begins _ => readsAs_word (by simp) begins
  | no => exact fun cs rest begins _ => readsAs_word (by simp) begins
  | @number _ n x inRange =>
    intro cs rest opens stops
    obtain ⟨c, tail, written, starts⟩ := n.text_starts
    have read := readNumber_complete n stops inRange
    rw [written] at opens read
    exact readsAs_number opens starts read
  | @string _ spelling chars spells =>
    intro cs rest opens _
    have read := readString_complete spells [] rest
    exact readsAs_string (by simpa using opens) read
  | emptyArray gap =>
    intro cs rest opens _
    exact readsAs_emptyArray (by omega) (by simpa using opens) (skip_gap_cons gap (by decide) rest)
  | @array depth items filled each ih =>
    intro cs rest opens _
    have legible : ∀ i ∈ items, i.Legible (depth + 1) :=
      fun i member => ⟨(each i member).begins, ih i member⟩
    obtain ⟨first, more, rfl⟩ := List.exists_cons_of_ne_nil filled
    have read : ReadsItems _ _ _ _ rest := readsItems_text [] legible
    have ahead := (legible first List.mem_cons_self).skip_text
      ((more.map Item.text).flatMap (',' :: ·) ++ ']' :: rest)
    obtain ⟨c, tail, written, begins⟩ := (legible first List.mem_cons_self).begins
    rw [written] at ahead
    rw [List.map_cons, bracketed_cons] at opens
    exact readsAs_array (by omega) (by simpa using opens) ahead begins.2.1 read
  | emptyObject gap =>
    intro cs rest opens _
    exact readsAs_emptyObject (by omega) (by simpa using opens) (skip_gap_cons gap (by decide) rest)
  | @object depth members ordered filled each settled ih =>
    intro cs rest opens _
    have legible : ∀ m ∈ members, m.toItem.Legible (depth + 1) :=
      fun m member => ⟨(each m member).begins, ih m member⟩
    obtain ⟨first, more, rfl⟩ := List.exists_cons_of_ne_nil filled
    have read : ReadsMembers _ _ _ _ rest := readsMembers_text [] legible
    rw [List.reverse_nil, List.nil_append, settled.ofMembers] at read
    rw [List.map_cons, bracketed_cons] at opens
    exact readsAs_object (by omega) (by simpa using opens) (first.skip_text _) read

theorem read_complete {text : String} (isText : IsText text value) : read text = .ok value := by
  obtain ⟨item, written, rfl, denotes⟩ := isText
  have legible : item.Legible 128 := ⟨denotes.begins, denotes.reads⟩
  have stops : Stops (item.behind.val ++ []) := Stops.gap item.behind fun _ none => nomatch none
  have opens := legible.skip_text []
  rw [List.append_nil, ← written] at opens
  obtain ⟨shorter, whole⟩ := (legible.reads _ _ opens stops).ok (Nat.le_refl _)
  have ends : skip (item.behind.val ++ []) = [] := skip_gap item.behind []
  rw [read, readText, maxDepth, whole]
  dsimp only
  split
  next => rfl
  next other => exact absurd ends other

end Switchboard.Json
