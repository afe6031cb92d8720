import Switchboard.Wire.Inbox

/-!
The lines of a text of bytes, and what they say, defined without a reader: a line is the shortest
front of the text at which one is over.
-/

namespace Switchboard.Line

variable {closed : Bool} {bytes line rest other : List UInt8}
  {result? result'? : Option (Except Fault Envelope)} {results others : List (Except Fault Envelope)}

/-- Nothing more belongs to the line: it ends in a newline, or has as many bytes as there is
`room` for. -/
def Over (room : Nat) (line : List UInt8) : Prop :=
  line.getLast? = some newline ∨ line.length = room

/-- The first line of a text. If the text is `closed` nothing follows it, and its end is the end of
a line too. -/
structure First (closed : Bool) (bytes line rest : List UInt8) : Prop where
  whole : line ++ rest = bytes
  nonempty : line ≠ []
  ended : Over limit line ∨ (closed = true ∧ rest = [])
  shortest : ∀ front back, front ++ back = bytes → front ≠ [] →
    Over limit front ∨ (closed = true ∧ back = []) → line.length ≤ front.length

/-- What a line says: nothing if it is blank, and otherwise what its text says without the blanks
around it. -/
inductive Says (line : List UInt8) : Option (Except Fault Envelope) → Prop
  | garbled (unreadable : ∀ text, Text.encode text ≠ line) :
    Says line (some (.error (.refused .notUtf8)))
  | tooLong {text : String} (encoded : Text.encode text = line) (long : line.length = limit)
    (cut : line.getLast? ≠ some newline) : Says line (some (.error (.refused .lineTooLong)))
  | blank {text : String} (encoded : Text.encode text = line)
    (fits : line.length < limit ∨ line.getLast? = some newline)
    (blank : ∀ c ∈ text.toList, Text.isBlank c) : Says line none
  | said {text : String} {front body back : List Char} (encoded : Text.encode text = line)
    (fits : line.length < limit ∨ line.getLast? = some newline)
    (split : text.toList = front ++ body ++ back) (before : ∀ c ∈ front, Text.isBlank c)
    (behind : ∀ c ∈ back, Text.isBlank c) (something : body ≠ [])
    (first : ∀ c, body.head? = some c → ¬ Text.isBlank c)
    (last : ∀ c, body.getLast? = some c → ¬ Text.isBlank c) :
    Says line (some (Envelope.parse (String.ofList body)))

/-- What a text says line by line. What is left when no line can be cut off says nothing. -/
inductive Reference (closed : Bool) : List UInt8 → List (Except Fault Envelope) → Prop
  | stop {bytes : List UInt8} (none : ∀ line rest, ¬ First closed bytes line rest) :
    Reference closed bytes []
  | line {bytes line rest : List UInt8} {result? : Option (Except Fault Envelope)}
    {results : List (Except Fault Envelope)} (first : First closed bytes line rest)
    (said : Says line result?) (later : Reference closed rest results) :
    Reference closed bytes (result?.toList ++ results)

/-! ### There is one first line -/

theorem First.unique {rest' : List UInt8} (first : First closed bytes line rest)
    (second : First closed bytes other rest') : line = other ∧ rest = rest' := by
  have shorter := first.shortest other rest' second.whole second.nonempty second.ended
  have longer := second.shortest line rest first.whole first.nonempty first.ended
  exact List.append_inj (first.whole.trans second.whole.symm) (Nat.le_antisymm shorter longer)

theorem First.length_le (first : First closed bytes line rest) : line.length ≤ limit := by
  refine Nat.le_of_not_lt fun long => ?_
  have cut : limit ≤ bytes.length := by
    rw [← first.whole, List.length_append]
    omega
  have taken : (bytes.take limit).length = limit := List.length_take_of_le cut
  have some : bytes.take limit ≠ [] := List.ne_nil_of_length_pos (by rw [taken]; exact Nat.succ_pos _)
  have shorter := first.shortest _ _ (List.take_append_drop limit bytes) some (Or.inl (Or.inr taken))
  omega

theorem First.append (first : First false bytes line rest) (more : List UInt8) :
    First closed (bytes ++ more) line (rest ++ more) where
  whole := by rw [← List.append_assoc, first.whole]
  nonempty := first.nonempty
  ended := Or.inl (first.ended.resolve_right fun none => Bool.noConfusion none.1)
  shortest := by
    intro front back whole some ended
    by_cases inside : front.length ≤ bytes.length
    · have front_eq : front = bytes.take front.length := by
        have taken := congrArg (List.take front.length) whole
        rwa [List.take_left, List.take_append_of_le_length inside] at taken
      rcases ended with ended | ⟨-, none⟩
      · apply first.shortest front (bytes.drop front.length) _ some (Or.inl ended)
        conv => lhs; lhs; rw [front_eq]
        exact List.take_append_drop _ _
      · rw [none, List.append_nil] at whole
        rw [whole, ← first.whole]
        simp only [List.length_append]
        omega
    · have := congrArg List.length first.whole
      simp only [List.length_append] at this
      omega

/-! ### Every line says one thing -/

theorem fits_iff :
    (line.length < limit ∨ line.getLast? = some newline) ↔
      ¬ (Frame.limit < line.length ∧ line.getLast? ≠ some newline) := by
  have : limit = Frame.limit + 1 := rfl
  constructor
  · rintro (within | ended) ⟨long, cut⟩
    · omega
    · exact cut ended
  · intro fits
    by_cases ended : line.getLast? = some newline
    · exact Or.inr ended
    · have : ¬ Frame.limit < line.length := fun long => fits ⟨long, ended⟩
      exact Or.inl (by omega)

theorem Says.read?_eq (said : Says line result?) : read? line = result? := by
  unfold read?
  cases said with
  | garbled unreadable =>
    have none : Text.decode? line = none := by
      cases decoded : Text.decode? line with
      | none => rfl
      | some text => exact absurd (Text.encode_of_decode? decoded) (unreadable text)
    rw [none]
  | tooLong encoded long cut =>
    have tooLong : Frame.limit < line.length ∧ line.getLast? ≠ some newline :=
      ⟨by rw [long]; exact Nat.lt_succ_self _, cut⟩
    subst encoded
    rw [Text.decode?_encode]
    dsimp only
    rw [if_pos tooLong]
  | blank encoded fits blank =>
    subst encoded
    rw [Text.decode?_encode]
    dsimp only
    rw [if_neg (fits_iff.mp fits), Text.trim_blank blank]
  | @said text front body back encoded fits split before behind something first last =>
    subst encoded
    rw [Text.decode?_encode]
    dsimp only
    rw [if_neg (fits_iff.mp fits), split,
      Text.trim_append before behind something first last]
    cases body with
    | nil => exact absurd rfl something
    | cons c body => rfl

theorem Says.of_read? (short : line.length ≤ limit) : Says line (read? line) := by
  unfold read?
  split
  next unreadable =>
    refine .garbled fun text encoded => ?_
    rw [← encoded, Text.decode?_encode] at unreadable
    cases unreadable
  next text decoded =>
    have encoded := Text.encode_of_decode? decoded
    obtain ⟨front, back, apart, before, behind⟩ := Text.trim_split text.toList
    split
    next tooLong => exact .tooLong encoded (Nat.le_antisymm short tooLong.1) tooLong.2
    next within =>
      have fits := fits_iff.mpr within
      split
      next trimmed =>
        refine .blank encoded fits fun c member => ?_
        rw [apart, trimmed, List.append_nil] at member
        exact (List.mem_append.mp member).elim (before c) (behind c)
      next something =>
        exact .said encoded fits apart before behind something
          (fun _ => Text.head?_trim text.toList) (fun _ => Text.getLast?_trim text.toList)

theorem First.says_iff_read? (first : First closed bytes line rest) :
    Says line result? ↔ result? = read? line :=
  ⟨fun said => said.read?_eq.symm, fun read => read ▸ .of_read? first.length_le⟩

/-- A text says one thing. -/
theorem Reference.unique (first : Reference closed bytes results)
    (second : Reference closed bytes others) : results = others := by
  induction first generalizing others with
  | stop none =>
    cases second with
    | stop _ => rfl
    | line first _ _ => exact absurd first (none _ _)
  | line first said _ ih =>
    cases second with
    | stop none => exact absurd first (none _ _)
    | line first' said' later =>
      obtain ⟨rfl, rfl⟩ := first.unique first'
      rw [first.says_iff_read?.mp said, first.says_iff_read?.mp said', ih later]

theorem Reference.iff_eq (reference : Reference closed bytes results) :
    Reference closed bytes others ↔ others = results :=
  ⟨fun other => other.unique reference, fun same => same ▸ reference⟩

end Switchboard.Line
