import Switchboard.Proofs.Json.Complete

/-!
What is read is derived by the grammar. So the reader accepts exactly the texts of the grammar, each
as the one value that it denotes.
-/

namespace Switchboard.Json

variable {cs rest word : List Char} {k : Nat}

theorem skip_split (cs : List Char) : ∃ gap : Gap, cs = gap.val ++ skip cs := by
  refine ⟨⟨cs.takeWhile isSpace, fun c member => ?_⟩, List.takeWhile_append_dropWhile.symm⟩
  exact List.all_eq_true.mp List.all_takeWhile c member

theorem readWord_sound (read : readWord word cs = .ok rest) : cs = word ++ rest := by
  induction word generalizing cs with
  | nil =>
    cases read
    rfl
  | cons w word ih =>
    cases cs with
    | nil => cases read
    | cons c cs =>
      rw [readWord] at read
      split at read
      · next same => rw [ih read, same, List.cons_append]
      · cases read

theorem Denotes.opened {depth : Nat} {body : List Char} {value : Json} (deep : ¬ depth ≤ 1)
    (denotes : Denotes (depth - 1 - 1 + 1) body value) : Denotes (depth - 1) body value := by
  rwa [show depth - 1 - 1 + 1 = depth - 1 by omega] at denotes

/-! ### Readers of texts with fewer than `k` characters -/

def SoundValues (k : Nat) : Prop :=
  ∀ ⦃whole : List Char⦄ ⦃depth : Nat⦄ ⦃cs : List Char⦄ ⦃fits : cs.length ≤ whole.length⦄ ⦃v : Json⦄
    ⦃left : Text.Within whole⦄, cs.length < k → readValue depth cs fits = .ok (v, left) →
    ∃ (gap : Gap) (body : List Char), cs = gap.val ++ (body ++ left.val) ∧
      Denotes (depth - 1) body v

def SoundItems (k : Nat) : Prop :=
  ∀ ⦃whole : List Char⦄ ⦃depth : Nat⦄ ⦃seen : List Json⦄ ⦃cs : List Char⦄
    ⦃fits : cs.length < whole.length⦄ ⦃v : Json⦄ ⦃left : Text.Within whole⦄, cs.length < k →
    readItems depth seen cs fits = .ok (v, left) →
    ∃ (first : Item) (items : List Item),
      cs = first.text ++ ((items.map Item.text).flatMap (',' :: ·) ++ ']' :: left.val) ∧
      v = .array (seen.reverse ++ (first :: items).map Item.value) ∧
      ∀ i ∈ first :: items, Denotes (depth - 1) i.body i.value

def SoundMembers (k : Nat) : Prop :=
  ∀ ⦃whole : List Char⦄ ⦃depth : Nat⦄ ⦃seen : List (String × Json)⦄ ⦃cs : List Char⦄
    ⦃fits : cs.length < whole.length⦄ ⦃v : Json⦄ ⦃left : Text.Within whole⦄, cs.length < k →
    readMembers depth seen cs fits = .ok (v, left) →
    ∃ (first : Member) (members : List Member),
      cs = first.text ++ ((members.map Member.text).flatMap (',' :: ·) ++ '\x7d' :: left.val) ∧
      v = ofMembers (seen.reverse ++ (first :: members).map Member.entry) ∧
      ∀ m ∈ first :: members, Denotes (depth - 1) m.body m.value

theorem soundValues_succ (items : SoundItems k) (members : SoundMembers k) :
    SoundValues (k + 1) := by
  intro whole depth cs fits v left inside read
  obtain ⟨gap, around⟩ := skip_split cs
  -- what is behind the white space is the body, whose first character decides
  suffices body : ∃ body, skip cs = body ++ left.val ∧ Denotes (depth - 1) body v by
    obtain ⟨body, text, denotes⟩ := body
    exact ⟨gap, body, by rw [← text]; exact around, denotes⟩
  rw [readValue] at read
  split at read
  · cases read
  · next c rest found =>
    have shorter : rest.length < cs.length := by
      have := skip_length cs
      rwa [found] at this
    rw [found]
    split at read
    · next quote =>
      subst quote
      split at read
      · cases read
      · next string =>
        cases read
        obtain ⟨spelling, chars, rfl, spells, rfl⟩ := readString_sound string
        exact ⟨_, by simp, .string spells⟩
    · split at read
      · next brace =>
        subst brace
        split at read
        · cases read
        · next deep =>
          obtain ⟨gap, opened⟩ := skip_split rest
          split at read
          · cases read
          · next ends =>
            cases read
            rw [ends] at opened
            exact ⟨_, by dsimp only; rw [opened]; simp, (Denotes.emptyObject gap).opened deep⟩
          · obtain ⟨first, more, rfl, rfl, each⟩ := members (by omega) read
            obtain ⟨ordered, result, settled⟩ :=
              settled_ofMembers ((first :: more).map Member.entry)
            rw [List.reverse_nil, List.nil_append, result]
            have denotes := (Denotes.object (List.cons_ne_nil _ _) each settled).opened deep
            rw [List.map_cons, bracketed_cons] at denotes
            exact ⟨_, by simp, denotes⟩
      · split at read
        · next bracket =>
          subst bracket
          split at read
          · cases read
          · next deep =>
            obtain ⟨gap, opened⟩ := skip_split rest
            split at read
            · cases read
            · next ends =>
              cases read
              rw [ends] at opened
              exact ⟨_, by dsimp only; rw [opened]; simp, (Denotes.emptyArray gap).opened deep⟩
            · obtain ⟨first, more, rfl, rfl, each⟩ := items (by omega) read
              have denotes := (Denotes.array (List.cons_ne_nil _ _) each).opened deep
              rw [List.map_cons, bracketed_cons] at denotes
              exact ⟨_, by simp, denotes⟩
        · split at read
          · next letter =>
            subst letter
            split at read <;> cases read
            next word => exact ⟨_, congrArg ('t' :: ·) (readWord_sound word), .yes⟩
          · split at read
            · next letter =>
              subst letter
              split at read <;> cases read
              next word => exact ⟨_, congrArg ('f' :: ·) (readWord_sound word), .no⟩
            · split at read
              · next letter =>
                subst letter
                split at read <;> cases read
                next word => exact ⟨_, congrArg ('n' :: ·) (readWord_sound word), .null⟩
              · split at read
                · split at read
                  · cases read
                  · next number =>
                    cases read
                    obtain ⟨n, text, inRange⟩ := readNumber_sound number
                    exact ⟨n.text, text, .number inRange⟩
                · cases read

theorem soundItems_succ (values : SoundValues (k + 1)) (items : SoundItems k) :
    SoundItems (k + 1) := by
  intro whole depth seen cs fits v left inside read
  rw [readItems] at read
  split at read
  · cases read
  · next item rest shorter value =>
    obtain ⟨before, body, text, denotes⟩ := values inside value
    obtain ⟨behind, around⟩ := skip_split rest
    dsimp only at text
    split at read
    · cases read
    · next c after found =>
      let first : Item := ⟨before, body, behind, item⟩
      have text : cs = first.text ++ c :: after := by
        rw [text, around, found]
        simp [first, Item.text]
      have less : after.length < cs.length := by
        rw [text]
        simp
        omega
      split at read
      · next ends =>
        subst ends
        cases read
        exact ⟨first, [], text, by simp [first], by simpa [first] using denotes⟩
      · split at read
        · next comma =>
          split at read
          · cases read
          · cases read
          · obtain ⟨next, others, rfl, rfl, each⟩ := items (by omega) read
            refine ⟨first, next :: others, by rw [text, comma]; simp, by simp [first], ?_⟩
            rintro i (_ | ⟨_, member⟩)
            · exact denotes
            · exact each i member
        · cases read

theorem soundMembers_succ (values : SoundValues k) (members : SoundMembers k) :
    SoundMembers (k + 1) := by
  intro whole depth seen cs fits v left inside read
  obtain ⟨front, opened⟩ := skip_split cs
  rw [readMembers] at read
  split at read
  · cases read
  · next q r found =>
    rw [found] at opened
    split at read
    · next quote =>
      split at read
      · cases read
      · next key afterKey string =>
        obtain ⟨spelling, chars, rfl, spells, rfl⟩ := readString_sound string
        obtain ⟨gap, colon⟩ := skip_split afterKey
        split at read
        · cases read
        · next k r2 mark =>
          rw [mark] at colon
          split at read
          · next colonMark =>
            dsimp only at read
            split at read
            · cases read
            · next value rest shorter given =>
              have inner : r2.length < cs.length := by
                rw [opened, colon]
                simp
                omega
              obtain ⟨before, body, text, denotes⟩ := values (by omega) given
              obtain ⟨behind, around⟩ := skip_split rest
              dsimp only at text
              split at read
              · cases read
              · next c after more =>
                rw [more] at around
                let first : Member := ⟨⟨before, body, behind, value⟩, front, spelling,
                  String.ofList chars, gap, by rwa [String.toList_ofList]⟩
                have text : cs = first.text ++ c :: after := by
                  rw [opened, colon, text, around, quote, colonMark]
                  simp [first, Member.text, Item.text]
                have less : after.length < cs.length := by
                  rw [text]
                  simp
                  omega
                split at read
                · next ends =>
                  subst ends
                  cases read
                  exact ⟨first, [], text, by simp [first, Member.entry],
                    by simpa [first] using denotes⟩
                · split at read
                  · next comma =>
                    split at read
                    · cases read
                    · cases read
                    · obtain ⟨next, others, rfl, rfl, each⟩ := members (by omega) read
                      refine ⟨first, next :: others, by rw [text, comma]; simp,
                        by simp [first, Member.entry], ?_⟩
                      rintro m (_ | ⟨_, member⟩)
                      · exact denotes
                      · exact each m member
                  · cases read
          · cases read
    · cases read

theorem sounds (k : Nat) : SoundValues k ∧ SoundItems k ∧ SoundMembers k := by
  -- the three readers call one another, each time with less of the text before them
  induction k with
  | zero =>
    exact ⟨fun _ _ _ _ _ _ inside => absurd inside (Nat.not_lt_zero _),
      fun _ _ _ _ _ _ _ inside => absurd inside (Nat.not_lt_zero _),
      fun _ _ _ _ _ _ _ inside => absurd inside (Nat.not_lt_zero _)⟩
  | succ k ih =>
    obtain ⟨values, items, members⟩ := ih
    have values' := soundValues_succ items members
    exact ⟨values', soundItems_succ values' items, soundMembers_succ values members⟩

theorem read_sound {text : String} {value : Json} (read : Json.read text = .ok value) :
    IsText text value := by
  rw [Json.read] at read
  cases whole : readText text.toList with
  | error stop =>
    rw [whole] at read
    cases read
  | ok value =>
    rw [whole] at read
    cases read
    unfold readText at whole
    split at whole
    · cases whole
    · next value rest shorter given =>
      split at whole
      · next ends =>
        cases whole
        obtain ⟨before, body, written, denotes⟩ :=
          (sounds (text.toList.length + 1)).1 (Nat.lt_succ_self _) given
        obtain ⟨behind, around⟩ := skip_split rest
        rw [ends, List.append_nil] at around
        dsimp only at written
        rw [around] at written
        exact ⟨⟨before, body, behind, _⟩, written, rfl, denotes⟩
      · cases whole

/-- The reader accepts the texts of the grammar, and no others. -/
theorem read_iff {text : String} {value : Json} : read text = .ok value ↔ IsText text value :=
  ⟨read_sound, read_complete⟩

end Switchboard.Json
