import Switchboard.Proofs.Table
import Switchboard.Proofs.Toml.Values

/-!
Documents of lines: bare keys with their values, headers of tables and headers of items of lists.
Such a document is read as the tables that its lines build one after another.
-/

namespace Switchboard.Toml

def IsBare (key : String) : Prop := key.toList ≠ [] ∧ key.toList.all isBare = true

instance (key : String) : Decidable (IsBare key) := inferInstanceAs (Decidable (_ ∧ _))

structure Pair where
  key : String
  text : List Char
  value : Toml

def Pair.member (p : Pair) : String × Toml := (p.key, p.value)

inductive Line
  | pair (p : Pair)
  | header (key : String)
  | item (key : String)

namespace Line

def text : Line → List Char
  | pair p => pairLine p.key p.text
  | header key => headerLine key
  | item key => itemLine key

/-- Keys need no quotes, and values are written as what they are. -/
def Fair : Line → Prop
  | pair p => IsBare p.key ∧ Denotes p.text p.value
  | header key | item key => IsBare key

/-- What a line does to the document's tables and to the path of the header above. -/
def enter (state : Members × List String) : Line → Except Clash (Members × List String)
  | pair p =>
    (within .header (assign .dotted (.takenIn state.2) ⟨[], p.key⟩ p.value) [] state.2 .header
      state.1).map fun root => (root, state.2)
  | header key => (openTable ⟨[], key⟩ state.1).map fun root => (root, [key])
  | item key => (openItem ⟨[], key⟩ state.1).map fun root => (root, [key])

end Line

variable {key : String} {text rest after whole : List Char} {value : Toml} {c : Char}

/-! ### Keys -/

theorem ne_of_isBare {d : Char} (bare : isBare c = true) (other : isBare d = false) : c ≠ d := by
  rintro rfl
  rw [bare] at other
  cases other

theorem IsBare.cons (bare : IsBare key) : ∃ c cs, key.toList = c :: cs ∧ isBare c = true ∧
    ∀ d ∈ cs, isBare d = true := by
  obtain ⟨filled, all⟩ := bare
  obtain ⟨c, cs, shape⟩ := List.exists_cons_of_ne_nil filled
  rw [shape] at all
  obtain ⟨first, more⟩ := List.forall_mem_cons.mp (List.all_eq_true.mp all)
  exact ⟨c, cs, shape, first, more⟩

theorem readKey?_bare {d : Char} {tail : List Char} (bare : IsBare key)
    (stop : ∀ c, rest.head? = some c → isBare c = false) (behind : skip rest = d :: tail)
    (dot : d ≠ '.') (fits : (key.toList ++ rest).length ≤ whole.length) :
    ∃ near, readKey? [] (key.toList ++ rest) fits = some (⟨[], key⟩, ⟨d :: tail, near⟩) := by
  obtain ⟨c, cs, shape, first, more⟩ := bare.cons
  have solid : skip (key.toList ++ rest) = key.toList ++ rest := by
    rw [shape, List.cons_append]
    refine skip_solid ?_ _
    simp [isSpace, ne_of_isBare (d := ' ') first (by decide),
      ne_of_isBare (d := '\t') first (by decide)]
  have part : readKeyPart? (skip (key.toList ++ rest)) = some (key, rest) := by
    have quotes : ¬ (c = '"' ∨ c = '\'') := not_or.mpr
      ⟨ne_of_isBare first (by decide), ne_of_isBare first (by decide)⟩
    obtain ⟨taken, left⟩ := Text.run_split more stop
    rw [solid, shape, List.cons_append, readKeyPart?, if_neg quotes, if_pos first, taken, left,
      ← shape, String.ofList_toList]
  have near : (d :: tail).length < whole.length := by
    have skipped := skip_length rest
    rw [behind] at skipped
    rw [shape, List.cons_append, List.length_cons, List.length_append] at fits
    omega
  refine ⟨near, ?_⟩
  rw [readKey?]
  split
  · next found => rw [part] at found; cases found
  · next found =>
    rw [part] at found
    cases found
    split
    · next found => rw [behind] at found; cases found; exact absurd rfl dot
    · exact congrArg some (Prod.ext rfl (Subtype.ext behind))

theorem not_isDeep (key : String) : ¬ Key.isDeep ⟨[], key⟩ = true := Bool.eq_false_iff.mp rfl

/-! ### Single lines -/

theorem pairLine_append (key : String) (text after : List Char) : pairLine key text ++ after =
    key.toList ++ ' ' :: '=' :: ' ' :: (text ++ '\n' :: after) := by
  simp [pairLine]

theorem readPair_line (bare : IsBare key) (denotes : Denotes text value)
    (fits : (pairLine key text ++ after).length ≤ whole.length) :
    ∃ near, readPair (pairLine key text ++ after) fits = .ok (⟨[], key⟩, value, ⟨after, near⟩) := by
  have near : after.length < whole.length := by
    simp only [pairLine, List.length_append, List.length_cons] at fits
    omega
  refine ⟨near, ?_⟩
  have read (cs : List Char) (same : cs = text ++ '\n' :: after)
      (inside : cs.length ≤ whole.length) :
      ∃ near, readValue (depthLimit - 1) false cs inside = .ok (value, ⟨'\n' :: after, near⟩) := by
    subst same
    exact (denotes.read after).ok inside
  revert fits
  rw [pairLine_append]
  intro fits
  obtain ⟨shorter, named⟩ := readKey?_bare bare (by rintro _ ⟨⟩; decide) rfl (by decide) fits
  obtain ⟨_, valued⟩ := read (skip (' ' :: (text ++ '\n' :: after))) (denotes.solid after)
    (Nat.le_trans (skip_length _) (Nat.le_of_lt (Nat.lt_of_succ_lt shorter)))
  rw [readPair, named]
  refine (if_neg (not_isDeep key)).trans ?_
  rw [valued]
  rfl

theorem readHeader?_line (bare : IsBare key) {close : List Char} (bracket : close.head? = some ']')
    (fits : (key.toList ++ (close ++ '\n' :: after)).length ≤ whole.length) :
    ∃ near, readHeader? close (key.toList ++ (close ++ '\n' :: after)) fits =
      some (⟨[], key⟩, ⟨after, near⟩) := by
  have near : after.length < whole.length := by
    simp only [List.length_append, List.length_cons] at fits
    omega
  refine ⟨near, ?_⟩
  obtain ⟨tail, rfl⟩ : ∃ tail, close = ']' :: tail := by
    cases close with
    | nil => cases bracket
    | cons c tail => cases bracket; exact ⟨tail, rfl⟩
  obtain ⟨shorter, named⟩ := readKey?_bare bare (by rintro _ ⟨⟩; decide) rfl (by decide) fits
  have prefixed : (']' :: tail).isPrefixOf (']' :: (tail ++ '\n' :: after)) = true :=
    List.isPrefixOf_iff_prefix.mpr ⟨'\n' :: after, rfl⟩
  have line : endLine? ((']' :: (tail ++ '\n' :: after)).drop (']' :: tail).length) =
      some after := by
    rw [← List.cons_append, List.drop_left]
    rfl
  rw [readHeader?, named]
  dsimp only
  rw [if_pos ⟨not_isDeep key, prefixed⟩]
  split
  · next found => cases line.symm.trans found; rfl
  · next found => cases line.symm.trans found

/-! ### Documents -/

variable {root : Members} {header : List String} {line : Line} {lines : List Line}

theorem skipLines?_bare (bare : isBare c = true) (rest : List Char) :
    skipLines? false (c :: rest) = some (c :: rest) := by
  rw [skipLines?, if_neg (ne_of_isBare bare (by decide)), if_neg Bool.false_ne_true, if_neg,
    if_neg (ne_of_isBare bare (by decide))]
  simp [isSpace, ne_of_isBare (d := ' ') bare (by decide),
    ne_of_isBare (d := '\t') bare (by decide)]

theorem readBody_pair (bare : IsBare key) (denotes : Denotes text value) :
    readBody root header (pairLine key text ++ after) =
      (within .header (assign .dotted (.takenIn header) ⟨[], key⟩ value) [] header .header
        root).mapError .clash >>= fun root => readBody root header after := by
  obtain ⟨c, cs, shape, first, -⟩ := bare.cons
  obtain ⟨tail, begins⟩ : ∃ tail, pairLine key text ++ after = c :: tail := by
    rw [pairLine_append, shape]
    exact ⟨_, rfl⟩
  have start : skipLines? false (pairLine key text ++ after) = some (c :: tail) := by
    rw [begins, skipLines?_bare first]
  have read {whole : List Char} (fits : (c :: tail).length ≤ whole.length) :
      ∃ near, readPair (c :: tail) fits = .ok (⟨[], key⟩, value, ⟨after, near⟩) := by
    revert fits
    rw [← begins]
    exact readPair_line bare denotes
  rw [readBody]
  split
  · next found => rw [start] at found; cases found
  · next found => rw [start] at found; cases found
  · next found =>
    rw [start] at found
    cases found
    dsimp only
    rw [if_neg (ne_of_isBare first (by decide))]
    obtain ⟨near, read⟩ := read (skipLines?_length start)
    rw [read]
    dsimp only
    cases within .header (assign .dotted (.takenIn header) ⟨[], key⟩ value) [] header .header
      root <;> rfl

theorem readBody_bracket {cs : List Char} (isItem : Bool) (tail : List Char) (bare : IsBare key)
    (start : skipLines? false cs = some ('[' :: tail))
    (item : (tail.head? == some '[') = isItem)
    (shape : (if isItem then tail.tail else tail) =
      key.toList ++ ((if isItem then [']', ']'] else [']']) ++ '\n' :: after)) :
    readBody root header cs =
      (if isItem then openItem ⟨[], key⟩ root else openTable ⟨[], key⟩ root).mapError .clash >>=
        fun root => readBody root [key] after := by
  have bracket : (if isItem then [']', ']'] else [']']).head? = some ']' := by
    cases isItem <;> rfl
  have read {inner whole : List Char} (same : inner = if isItem then tail.tail else tail)
      (fits : inner.length ≤ whole.length) :
      ∃ near, readHeader? (if isItem then [']', ']'] else [']']) inner fits =
        some (⟨[], key⟩, ⟨after, near⟩) := by
    subst same
    revert fits
    rw [shape]
    exact readHeader?_line bare bracket
  rw [readBody]
  split
  · next found => rw [start] at found; cases found
  · next found => rw [start] at found; cases found
  · next found =>
    rw [start] at found
    cases found
    dsimp only
    rw [if_pos rfl]
    subst item
    have fits : (if tail.head? == some '[' then tail.tail else tail).length ≤ tail.length := by
      split <;> simp
    obtain ⟨near, read⟩ := read rfl fits
    rw [read]
    dsimp only
    cases (if tail.head? == some '[' then openItem ⟨[], key⟩ root else openTable ⟨[], key⟩ root) <;>
      rfl

theorem readBody_header (bare : IsBare key) : readBody root header (headerLine key ++ after) =
    (openTable ⟨[], key⟩ root).mapError .clash >>= fun root => readBody root [key] after := by
  obtain ⟨c, cs, shape, first, -⟩ := bare.cons
  refine readBody_bracket false (key.toList ++ ([']'] ++ '\n' :: after)) bare ?_ ?_ rfl
  · simp [headerLine, skipLines?, isSpace]
  · simp [shape, ne_of_isBare (d := '[') first (by decide)]

theorem readBody_item (bare : IsBare key) : readBody root header (itemLine key ++ after) =
    (openItem ⟨[], key⟩ root).mapError .clash >>= fun root => readBody root [key] after := by
  refine readBody_bracket true ('[' :: (key.toList ++ ([']', ']'] ++ '\n' :: after))) bare ?_ rfl
    rfl
  simp [itemLine, skipLines?, isSpace]

/-- Reading goes on behind the line with what it has built. -/
theorem readBody_line (fair : line.Fair) : readBody root header (line.text ++ after) =
    (line.enter (root, header)).mapError .clash >>=
      fun state => readBody state.1 state.2 after := by
  cases line with
  | pair p =>
    rw [Line.text, readBody_pair fair.1 fair.2, Line.enter]
    dsimp only
    cases within .header (assign .dotted (.takenIn header) ⟨[], p.key⟩ p.value) [] header .header
      root <;> rfl
  | header key =>
    rw [Line.text, readBody_header fair, Line.enter]
    cases openTable ⟨[], key⟩ root <;> rfl
  | item key =>
    rw [Line.text, readBody_item fair, Line.enter]
    cases openItem ⟨[], key⟩ root <;> rfl

theorem readBody_nil : readBody root header [] = .ok root := by
  rw [readBody]
  split
  · next found => cases found
  · rfl
  · next found => cases found

theorem readBody_lines (fair : ∀ line ∈ lines, line.Fair) :
    readBody root header (lines.flatMap Line.text) =
      ((lines.foldlM Line.enter (root, header)).map Prod.fst).mapError .clash := by
  induction lines generalizing root header with
  | nil => exact readBody_nil
  | cons line lines ih =>
    rw [List.flatMap_cons, readBody_line (fair line List.mem_cons_self), List.foldlM_cons]
    cases line.enter (root, header) with
    | error why => rfl
    | ok state => exact ih fun other member => fair other (List.mem_cons_of_mem line member)

/-! ### Whole texts -/

theorem unixLines_eq {cs : List Char} (unix : '\r' ∉ cs) (seen : List Char) :
    unixLines seen cs = seen.reverse ++ cs := by
  induction cs generalizing seen with
  | nil => rw [unixLines, List.append_nil]
  | cons c cs ih =>
    rw [List.mem_cons, not_or] at unix
    rw [unixLines]
    · rw [ih unix.2, List.reverse_cons, List.append_assoc, List.singleton_append]
    · rintro _ rfl
      exact absurd rfl unix.1

theorem IsBare.not_mem {d : Char} (bare : IsBare key) (other : isBare d = false) :
    d ∉ key.toList := fun member => by
  rw [List.all_eq_true.mp bare.2 d member] at other
  cases other

theorem Line.Fair.unix (fair : line.Fair) : '\r' ∉ line.text := by
  cases line with
  | pair p =>
    have key := fair.1.not_mem (d := '\r') (by decide)
    simp [Line.text, pairLine, key, fair.2.unix]
  | header key =>
    have key := IsBare.not_mem (d := '\r') fair (by decide)
    simp [Line.text, headerLine, key]
  | item key =>
    have key := IsBare.not_mem (d := '\r') fair (by decide)
    simp [Line.text, itemLine, key]

theorem Line.Fair.unmarked (fair : line.Fair) : ∃ c tail, line.text = c :: tail ∧ c ≠ '\uFEFF' := by
  cases line with
  | pair p =>
    obtain ⟨c, cs, shape, first, -⟩ := fair.1.cons
    refine ⟨c, cs ++ [' ', '=', ' '] ++ p.text ++ ['\n'], ?_, ne_of_isBare first (by decide)⟩
    rw [Line.text, pairLine, shape]
    rfl
  | header key => exact ⟨'\n', _, rfl, by decide⟩
  | item key => exact ⟨'\n', _, rfl, by decide⟩

theorem read_lines (fair : ∀ line ∈ lines, line.Fair) :
    read (String.ofList (lines.flatMap Line.text)) =
      (((lines.foldlM Line.enter ([], [])).map Prod.fst).mapError .clash).map (.table .header) := by
  have unix : '\r' ∉ lines.flatMap Line.text := fun member => by
    obtain ⟨line, inside, member⟩ := List.mem_flatMap.mp member
    exact (fair line inside).unix member
  rw [read, String.toList_ofList, unixLines_eq unix, List.reverse_nil, List.nil_append,
    ← readBody_lines fair]
  split
  · next rest marked =>
    cases lines with
    | nil => cases marked
    | cons line lines =>
      obtain ⟨c, tail, shape, plain⟩ := (fair line List.mem_cons_self).unmarked
      rw [List.flatMap_cons, shape] at marked
      exact absurd (List.cons.inj marked).1 plain
  · rfl

end Switchboard.Toml
