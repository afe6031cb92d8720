import Switchboard.Proofs.Json.Numerals
import Switchboard.Proofs.Json.Spellings
import Switchboard.Toml.Writer

/-!
A string between quotes is read back from every spelling of it, and the text that is written for it
holds one.
-/

namespace Switchboard.Toml

variable {form : StringForm} {multi : Bool} {quote c : Char} {quotes longest : Nat} {s : String}
variable {cs spelling code rest seen after : List Char}

/-! ### Spellings -/

/-- What may stand behind a backslash for a character. -/
inductive Escape : List Char → Char → Prop
  | named {d c : Char} (stands : escaped? d = some c) : Escape [d] c
  | point {digits : List Char} {c : Char} (hex : Json.Hex digits c.toNat) :
    Escape ('u' :: digits) c

/-- What may stand between the quotes for a string, behind as many quotes as are counted. Quotes
stand for themselves on several lines only, and no more than two in a row. -/
inductive Spells (form : StringForm) : Nat → List Char → List Char → Prop
  | nil {quotes : Nat} : Spells form quotes [] []
  | quote {quotes : Nat} {spelling cs : List Char} (multiline : form.multiline = true)
    (few : quotes < 2) (more : Spells form (quotes + 1) spelling cs) :
    Spells form quotes (form.quote :: spelling) (form.quote :: cs)
  | plain {quotes : Nat} {c : Char} {spelling cs : List Char} (other : c ≠ form.quote)
    (literal : c = '\\' → form.quote ≠ '"')
    (fits : isPlain c = true ∨ form.multiline = true ∧ c = '\n')
    (more : Spells form 0 spelling cs) : Spells form quotes (c :: spelling) (c :: cs)
  | escape {quotes : Nat} {code : List Char} {c : Char} {spelling cs : List Char}
    (double : form.quote = '"') (stands : Escape code c) (more : Spells form 0 spelling cs) :
    Spells form quotes ('\\' :: (code ++ spelling)) (c :: cs)

theorem readEscape?_complete (escape : Escape code c) (rest : List Char) :
    readEscape? (code ++ rest) = some (c, rest) := by
  cases escape with
  | @named d c stands =>
    have short : d ≠ 'u' := by rintro rfl; cases stands
    have long : d ≠ 'U' := by rintro rfl; cases stands
    rw [List.singleton_append, readEscape?, if_neg short, if_neg long, stands, Option.map_some]
  | @point digits c hex =>
    have read : Text.readHex? 0 4 (digits ++ rest) = some (c.toNat, rest) :=
      Json.readHex?_iff.mpr ⟨digits, rfl, hex⟩
    rw [List.cons_append, readEscape?, if_pos rfl, readScalar?, read]
    simp only [show c.toNat.isValidChar from c.valid, if_true, Char.ofNat_toNat]

theorem foldLine?_escape (escape : Escape code c) (rest : List Char) :
    foldLine? (code ++ rest) = none := by
  obtain ⟨d, tail, shape, solid, same⟩ : ∃ d tail, code ++ rest = d :: tail ∧ isSpace d = false ∧
      d ≠ '\n' := by
    cases escape with
    | @named d c stands =>
      have space : d ≠ ' ' := by rintro rfl; cases stands
      have tab : d ≠ '\t' := by rintro rfl; cases stands
      have line : d ≠ '\n' := by rintro rfl; cases stands
      exact ⟨d, rest, rfl, by simp [isSpace, space, tab], line⟩
    | @point digits c hex => exact ⟨'u', digits ++ rest, rfl, by decide, by decide⟩
  have stays : skip (d :: tail) = d :: tail := List.dropWhile_cons_of_neg (by simp [solid])
  rw [shape, foldLine?, stays]
  split
  · next same' => exact absurd (List.cons.inj same').1 same
  · rfl

/-! ### Reading on one line -/

theorem readLine?_close : readLine? quote seen (quote :: rest) =
    some (String.ofList seen.reverse, rest) := by
  rw [readLine?, if_pos rfl]

theorem readLine?_plain (other : c ≠ quote) (literal : c = '\\' → quote ≠ '"')
    (fits : isPlain c = true) :
    readLine? quote seen (c :: rest) = readLine? quote (c :: seen) rest := by
  rw [readLine?, if_neg other, if_neg fun opens => literal opens.1 opens.2, if_pos fits]

theorem readLine?_escape (escape : Escape code c) :
    readLine? '"' seen ('\\' :: (code ++ rest)) = readLine? '"' (c :: seen) rest := by
  rw [readLine?, if_neg (by decide), if_pos ⟨rfl, rfl⟩]
  split
  · next d inner read =>
    rw [readEscape?_complete escape] at read
    cases read
    rfl
  · next read =>
    rw [readEscape?_complete escape] at read
    cases read

theorem readLine?_spelled (seen : List Char) (spells : Spells form quotes spelling cs)
    (single : form.multiline = false) :
    readLine? form.quote seen (spelling ++ form.quote :: after) =
      some (String.ofList (seen.reverse ++ cs), after) := by
  induction spells generalizing seen with
  | nil => rw [List.nil_append, readLine?_close, List.append_nil]
  | quote multiline => rw [single] at multiline; cases multiline
  | plain other literal fits _ ih =>
    have plain := fits.resolve_right fun line => by rw [single] at line; cases line.1
    rw [List.cons_append, readLine?_plain other literal plain, ih, List.reverse_cons,
      List.append_assoc, List.singleton_append]
  | escape double stands _ ih =>
    rw [double] at ih ⊢
    rw [List.cons_append, List.append_assoc, readLine?_escape stands, ih, List.reverse_cons,
      List.append_assoc, List.singleton_append]

/-! ### Reading on several lines -/

theorem run_quotes (stop : rest.head? ≠ some quote) (count : Nat) :
    (List.replicate count quote ++ rest).takeWhile (· = quote) = List.replicate count quote ∧
      (List.replicate count quote ++ rest).drop count = rest := by
  have all : ∀ c ∈ List.replicate count quote, decide (c = quote) = true := fun c member =>
    decide_eq_true (List.eq_of_mem_replicate member)
  have behind : ∀ c, rest.head? = some c → decide (c = quote) = false := fun c first =>
    decide_eq_false fun same => stop (same ▸ first)
  exact ⟨(Text.run_split all behind).1, List.drop_left' List.length_replicate⟩

theorem readLines?_run (few : quotes ≤ 2) (stop : rest.head? ≠ some quote) :
    readLines? quote seen (List.replicate quotes quote ++ rest) =
      readLines? quote (List.replicate quotes quote ++ seen) rest := by
  cases quotes with
  | zero => rfl
  | succ more =>
    obtain ⟨taken, left⟩ := run_quotes stop more
    rw [List.replicate_succ, List.cons_append, readLines?, if_pos rfl]
    simp only [taken, List.length_replicate, left]
    rw [if_pos (by omega), ← List.singleton_append, ← List.append_assoc,
      ← List.replicate_succ', List.replicate_succ, List.cons_append]

theorem readLines?_close (few : quotes ≤ 2) (stop : after.head? ≠ some quote) :
    readLines? quote seen (List.replicate (quotes + 3) quote ++ after) =
      some (String.ofList (seen.reverse ++ List.replicate quotes quote), after) := by
  obtain ⟨taken, left⟩ := run_quotes stop (quotes + 2)
  rw [List.replicate_succ, List.cons_append, readLines?, if_pos rfl]
  simp only [taken, List.length_replicate, left]
  rw [if_neg (by omega), if_pos (by omega), List.drop_replicate, Nat.add_sub_cancel,
    List.reverse_append, List.reverse_replicate]

theorem readLines?_plain (other : c ≠ quote) (literal : c = '\\' → quote ≠ '"')
    (fits : isPlain c = true ∨ c = '\n') :
    readLines? quote seen (c :: rest) = readLines? quote (c :: seen) rest := by
  rw [readLines?, if_neg other, if_neg fun opens => literal opens.1 opens.2, if_pos fits]

theorem readLines?_escape (escape : Escape code c) :
    readLines? '"' seen ('\\' :: (code ++ rest)) = readLines? '"' (c :: seen) rest := by
  rw [readLines?, if_neg (by decide), if_pos ⟨rfl, rfl⟩]
  split
  · next inner fold =>
    rw [foldLine?_escape escape] at fold
    cases fold
  · split
    · next d inner read =>
      rw [readEscape?_complete escape] at read
      cases read
      rfl
    · next read =>
      rw [readEscape?_complete escape] at read
      cases read

/-- By induction on the spelling; the quotes in front of it are held back until something else
comes, for they may turn out to belong to the closing ones. -/
theorem readLines?_spelled (seen : List Char) (spells : Spells form quotes spelling cs)
    (few : quotes ≤ 2) (stop : after.head? ≠ some form.quote) :
    readLines? form.quote seen
        (List.replicate quotes form.quote ++ (spelling ++ (List.replicate 3 form.quote ++ after))) =
      some (String.ofList (seen.reverse ++ (List.replicate quotes form.quote ++ cs)), after) := by
  induction spells generalizing seen with
  | nil =>
    rw [List.nil_append, ← List.append_assoc, List.replicate_append_replicate,
      readLines?_close few stop, List.append_nil]
  | quote _ fewer _ ih =>
    have next := ih seen fewer
    rw [List.replicate_succ', List.append_assoc, List.append_assoc] at next
    exact next
  | @plain quotes c spelling cs other literal fits _ ih =>
    have here : (c :: spelling ++ (List.replicate 3 form.quote ++ after)).head? ≠
        some form.quote := fun same => other (Option.some.inj same)
    rw [readLines?_run few here, List.cons_append,
      readLines?_plain other literal (fits.imp_right And.right)]
    have next := ih (c :: (List.replicate quotes form.quote ++ seen)) (Nat.zero_le 2)
    rw [List.replicate_zero, List.nil_append, List.nil_append] at next
    rw [next]
    simp
  | @escape quotes code c spelling cs double stands _ ih =>
    have here : ('\\' :: (code ++ spelling) ++ (List.replicate 3 form.quote ++ after)).head? ≠
        some form.quote := by
      rw [double]
      exact fun same => by cases same
    rw [readLines?_run few here, List.cons_append, List.append_assoc]
    have next := ih (c :: (List.replicate quotes form.quote ++ seen)) (Nat.zero_le 2)
    rw [List.replicate_zero, List.nil_append, List.nil_append] at next
    rw [double] at next ⊢
    rw [readLines?_escape stands, next]
    simp

/-! ### What is written -/

theorem hex_code (small : c.toNat < 0x80) :
    Json.Hex (Text.paddedHex true 4 c.toNat) c.toNat := by
  have digits : ∀ n < 0x80, (Text.paddedHex true 4 n).map Text.hexValue? =
      [some 0, some 0, some (n / 16), some (n % 16)] := by
    decide
  exact ⟨0, 0, c.toNat / 16, c.toNat % 16, digits c.toNat small, by omega⟩

theorem lt_of_isCode (code : isCode c = true) : c.toNat < 0x80 := by
  unfold isCode at code
  grind

theorem isPlain_of_not_isCode (code : isCode c = false) (line : c ≠ '\n') : isPlain c = true := by
  unfold isCode at code
  unfold isPlain
  grind

theorem escape?_cases (multi : Bool) (quotes : Nat) (c : Char) :
    (∃ code, escape? multi quotes c = some ('\\' :: code) ∧ Escape code c) ∨
    (escape? multi quotes c = none ∧ c = '"' ∧ multi = true ∧ quotes < 2) ∨
    (escape? multi quotes c = none ∧ c ≠ '"' ∧ c ≠ '\\' ∧
      (isPlain c = true ∨ multi = true ∧ c = '\n')) := by
  have short : ∀ p ∈ [('\x08', 'b'), ('\t', 't'), ('\x0c', 'f'), ('\r', 'r'), ('\\', '\\')],
      escape? multi quotes p.1 = some ['\\', p.2] ∧ escaped? p.2 = some p.1 := by
    simp only [List.forall_mem_cons, List.not_mem_nil, false_imp_iff, implies_true, and_true]
    exact ⟨⟨rfl, rfl⟩, ⟨rfl, rfl⟩, ⟨rfl, rfl⟩, ⟨rfl, rfl⟩, rfl, rfl⟩
  by_cases named : ∃ p ∈ [('\x08', 'b'), ('\t', 't'), ('\x0c', 'f'), ('\r', 'r'), ('\\', '\\')],
      p.1 = c
  · obtain ⟨p, member, rfl⟩ := named
    obtain ⟨shape, stands⟩ := short p member
    exact Or.inl ⟨_, shape, .named stands⟩
  · simp only [List.mem_cons, List.not_mem_nil, or_false, exists_eq_or_imp, exists_eq_left,
      not_or, ← ne_eq] at named
    obtain ⟨backspace, tab, feed, back, backslash⟩ := named
    by_cases double : c = '"'
    · subst double
      by_cases raw : multi = true ∧ quotes < 2
      · refine Or.inr (Or.inl ⟨?_, rfl, raw⟩)
        rw [escape?, if_pos rfl, if_pos raw.1, if_neg (by omega)]
      · refine Or.inl ⟨['"'], ?_, .named rfl⟩
        rw [escape?, if_pos rfl, if_pos (by split <;> grind)]
    · by_cases line : c = '\n'
      · subst line
        cases multi with
        | false => exact Or.inl ⟨_, rfl, .named rfl⟩
        | true => exact Or.inr (Or.inr ⟨rfl, by decide, by decide, Or.inr ⟨rfl, rfl⟩⟩)
      · have rest : escape? multi quotes c =
            if isCode c then some ('\\' :: 'u' :: Text.paddedHex true 4 c.toNat) else none := by
          rw [escape?, if_neg double, if_neg backspace.symm, if_neg tab.symm, if_neg line,
            if_neg feed.symm, if_neg back.symm, if_neg backslash.symm]
        rw [rest]
        cases code : isCode c with
        | true => exact Or.inl ⟨_, rfl, .point (hex_code (lt_of_isCode code))⟩
        | false =>
          have plain := isPlain_of_not_isCode code line
          exact Or.inr (Or.inr ⟨rfl, double, backslash.symm, Or.inl plain⟩)

theorem escapeAll_eq (multi : Bool) (written : List Char) (quotes : Nat) (cs : List Char) :
    escapeAll multi written quotes cs = written.reverse ++ escapeAll multi [] quotes cs := by
  induction cs generalizing written quotes with
  | nil => simp [escapeAll]
  | cons c cs ih =>
    rw [escapeAll, escapeAll]
    split
    · rw [ih, ih (_ ++ [])]
      simp
    · rw [ih, ih [c]]
      simp

theorem spells_escapeAll (multi : Bool) (quotes : Nat) (cs : List Char) :
    Spells ⟨'"', multi⟩ quotes (escapeAll multi [] quotes cs) cs := by
  induction cs generalizing quotes with
  | nil => exact .nil
  | cons c cs ih =>
    rw [escapeAll]
    rcases escape?_cases multi quotes c with ⟨code, shape, stands⟩ |
      ⟨shape, rfl, multiline, few⟩ | ⟨shape, other, backslash, fits⟩
    · simp only [shape]
      rw [escapeAll_eq]
      simpa using Spells.escape rfl stands (ih 0)
    · simp only [shape]
      rw [escapeAll_eq]
      exact .quote multiline few (ih (quotes + 1))
    · simp only [shape, if_neg other]
      rw [escapeAll_eq]
      exact .plain other (absurd · backslash) fits (ih 0)

theorem le_longestRun (quote : Char) (quotes longest : Nat) (cs : List Char) :
    longest ≤ longestRun quote quotes longest cs := by
  induction cs generalizing quotes longest with
  | nil => exact Nat.le_refl longest
  | cons c cs ih =>
    rw [longestRun]
    split
    · exact Nat.le_trans (Nat.le_max_left _ _) (ih _ _)
    · exact ih _ _

theorem spells_raw (literal : quote ≠ '"') (codes : ∀ c ∈ cs, isCode c = false)
    (lines : '\n' ∈ cs → multi = true)
    (run : longestRun quote quotes longest cs ≤ if multi then 2 else 0) :
    Spells ⟨quote, multi⟩ quotes cs cs := by
  induction cs generalizing quotes longest with
  | nil => exact .nil
  | cons c cs ih =>
    have codes' := fun d member => codes d (List.mem_cons_of_mem c member)
    have lines' := fun member => lines (List.mem_cons_of_mem c member)
    rw [longestRun] at run
    split at run
    · next same =>
      subst same
      have counted : quotes + 1 ≤ if multi then 2 else 0 :=
        Nat.le_trans (Nat.le_max_right longest (quotes + 1)) (Nat.le_trans (le_longestRun ..) run)
      cases multi with
      | false => exact absurd counted (by simp)
      | true => exact .quote rfl counted (ih codes' lines' run)
    · next other =>
      refine .plain other (fun _ => literal) ?_ (ih codes' lines' run)
      by_cases line : c = '\n'
      · exact Or.inr ⟨lines (by simp [line]), line⟩
      · exact Or.inl (isPlain_of_not_isCode (codes c List.mem_cons_self) line)

def StringForm.inner (form : StringForm) (cs : List Char) : List Char :=
  if form.quote = '"' then escapeAll form.multiline [] 0 cs else cs

def StringForm.quoted (form : StringForm) (cs : List Char) : List Char :=
  List.replicate (if form.multiline then 3 else 1) form.quote ++
    (if form.multiline ∧ cs.contains '\n' then ['\n'] else []) ++ form.inner cs ++
    List.replicate (if form.multiline then 3 else 1) form.quote

theorem stringText_eq (s : String) :
    stringText s = (StringForm.of s.toList).quoted s.toList := rfl

theorem spells_inner (cs : List Char) :
    Spells (StringForm.of cs) 0 ((StringForm.of cs).inner cs) cs ∧
      ((StringForm.of cs).quote = '"' ∨ (StringForm.of cs).quote = '\'') := by
  have double (multi : Bool) : Spells ⟨'"', multi⟩ 0 (StringForm.inner ⟨'"', multi⟩ cs) cs :=
    spells_escapeAll multi 0 cs
  have single (multi : Bool) (codes : ¬ cs.any isCode) (lines : '\n' ∈ cs → multi = true)
      (run : longestRun '\'' 0 0 cs ≤ if multi then 2 else 0) :
      Spells ⟨'\'', multi⟩ 0 (StringForm.inner ⟨'\'', multi⟩ cs) cs := by
    show Spells ⟨'\'', multi⟩ 0 cs cs
    exact spells_raw (by decide) (by simpa using codes) lines run
  unfold StringForm.of
  dsimp only
  split
  · exact ⟨double false, Or.inl rfl⟩
  · split
    · next fits =>
      obtain ⟨codes, line, run⟩ := fits
      have lines : '\n' ∈ cs → false = true := fun member =>
        absurd (List.contains_iff_mem.mpr member) line
      exact ⟨single false codes lines (Nat.le_of_eq run), Or.inr rfl⟩
    · split
      · exact ⟨double true, Or.inl rfl⟩
      · split
        · next fits => exact ⟨single true fits.1 (fun _ => rfl) fits.2, Or.inr rfl⟩
        · exact ⟨double _, Or.inl rfl⟩

/-! ### Reading what is written -/

theorem readString?_single (spells : Spells form 0 spelling cs) (single : form.multiline = false)
    (stop : after.head? ≠ some form.quote) :
    readString? form.quote (spelling ++ form.quote :: after) = some (String.ofList cs, after) := by
  have read : readLine? form.quote [] (spelling ++ form.quote :: after) = _ :=
    readLine?_spelled [] spells single
  rw [List.reverse_nil, List.nil_append] at read
  -- Two quotes in a row would open several lines.
  have apart : ∀ a b tail, spelling ++ form.quote :: after = a :: b :: tail →
      ¬ (a = form.quote ∧ b = form.quote) := by
    rintro a b tail shape ⟨rfl, rfl⟩
    cases spells with
    | nil =>
      have behind : after = form.quote :: tail := (List.cons.inj shape).2
      exact stop (by rw [behind, List.head?_cons])
    | quote multiline => rw [single] at multiline; cases multiline
    | plain other => exact other (List.cons.inj shape).1
    | escape double =>
      rw [double] at shape
      cases (List.cons.inj shape).1
  unfold readString?
  split
  · next a b tail shape => rw [if_neg (apart a b tail shape), read]
  · exact read

/-- A newline right behind the opening quotes is one too many, and is dropped. -/
theorem dropNewline_start (spells : Spells form 0 spelling cs) (quote : form.quote ≠ '\n') :
    dropNewline ((if cs.contains '\n' then ['\n'] else []) ++
        (spelling ++ (List.replicate 3 form.quote ++ after))) =
      spelling ++ (List.replicate 3 form.quote ++ after) := by
  split
  · rfl
  · next none =>
    have solid : (spelling ++ (List.replicate 3 form.quote ++ after)).head? ≠ some '\n' := by
      cases spells with
      | nil => exact fun same => quote (Option.some.inj same)
      | quote => exact fun same => quote (Option.some.inj same)
      | plain =>
        rintro ⟨⟩
        exact none (by simp)
      | escape => exact fun same => by cases same
    rw [List.nil_append]
    unfold dropNewline
    split
    · next shape => exact absurd (by rw [shape, List.head?_cons]) solid
    · rfl

theorem readString?_multi (spells : Spells form 0 spelling cs) (quote : form.quote ≠ '\n')
    (stop : after.head? ≠ some form.quote) :
    readString? form.quote (List.replicate 2 form.quote ++
        ((if cs.contains '\n' then ['\n'] else []) ++
          (spelling ++ (List.replicate 3 form.quote ++ after)))) =
      some (String.ofList cs, after) := by
  rw [List.replicate_succ, List.replicate_succ, List.replicate_zero, List.cons_append,
    List.cons_append, List.nil_append, readString?, if_pos ⟨rfl, rfl⟩,
    dropNewline_start spells quote]
  have read := readLines?_spelled [] spells (Nat.zero_le 2) stop
  rwa [List.replicate_zero, List.nil_append] at read

/-- A string is read back from the text that is written for it, in front of anything but a quote. -/
theorem readString?_stringText (s : String) (double : after.head? ≠ some '"')
    (single : after.head? ≠ some '\'') :
    ∃ quote rest, stringText s ++ after = quote :: rest ∧ (quote = '"' ∨ quote = '\'') ∧
      readString? quote rest = some (s, after) := by
  obtain ⟨spells, known⟩ := spells_inner s.toList
  have stop : after.head? ≠ some (StringForm.of s.toList).quote := by
    rcases known with same | same <;> rw [same] <;> assumption
  have quote : (StringForm.of s.toList).quote ≠ '\n' := by
    rcases known with same | same <;> rw [same] <;> decide
  rw [stringText_eq]
  generalize StringForm.of s.toList = form at *
  cases multiline : form.multiline with
  | false =>
    have read := readString?_single spells multiline stop
    rw [String.ofList_toList] at read
    exact ⟨form.quote, _, by simp [StringForm.quoted, multiline], known, read⟩
  | true =>
    have read := readString?_multi spells quote stop
    rw [String.ofList_toList] at read
    refine ⟨form.quote, _, ?_, known, read⟩
    simp [StringForm.quoted, multiline, List.replicate_succ]

/-! ### Line ends -/

theorem Escape.unix (escape : Escape code c) : '\r' ∉ code := by
  cases escape with
  | named stands =>
    rw [List.mem_singleton]
    rintro rfl
    cases stands
  | point hex =>
    obtain ⟨a, b, c, d, known, -⟩ := hex
    rw [List.mem_cons, not_or]
    refine ⟨by decide, fun member => ?_⟩
    have digit := List.mem_map_of_mem (f := Text.hexValue?) member
    rw [known] at digit
    simp [Text.hexValue?] at digit

theorem Spells.unix (spells : Spells form quotes spelling cs) (quote : form.quote ≠ '\r') :
    '\r' ∉ spelling := by
  induction spells with
  | nil => exact List.not_mem_nil
  | quote _ _ _ ih =>
    rw [List.mem_cons, not_or]
    exact ⟨quote.symm, ih⟩
  | plain _ _ fits _ ih =>
    rw [List.mem_cons, not_or]
    refine ⟨?_, ih⟩
    rintro rfl
    rcases fits with plain | ⟨-, line⟩
    · exact absurd plain (by decide)
    · exact absurd line (by decide)
  | escape _ stands _ ih =>
    rw [List.mem_cons, List.mem_append, not_or, not_or]
    exact ⟨by decide, stands.unix, ih⟩

theorem stringText_unix (s : String) : '\r' ∉ stringText s := by
  obtain ⟨spells, known⟩ := spells_inner s.toList
  have quote : (StringForm.of s.toList).quote ≠ '\r' := by
    rcases known with same | same <;> rw [same] <;> decide
  have inner := spells.unix quote
  rw [stringText_eq, StringForm.quoted]
  generalize StringForm.of s.toList = form at *
  simp only [List.mem_append, List.mem_replicate, not_or]
  refine ⟨⟨⟨fun same => quote same.2.symm, ?_⟩, inner⟩, fun same => quote same.2.symm⟩
  split <;> simp

end Switchboard.Toml
