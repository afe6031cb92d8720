import Switchboard.Proofs.Wire.Inbox
import Switchboard.Proofs.Wire.Lines

/-!
The reader against its reference: what an inbox yields, one call after another, is what its bytes
say line by line, whatever chunks they come in.
-/

namespace Switchboard

namespace Arrival

def untilFailure : List Arrival → List UInt8
  | .data bytes :: more => bytes ++ untilFailure more
  | .failure _ :: _ => []
  | [] => []

def sinceFailure : List Arrival → List Arrival
  | .data _ :: more => sinceFailure more
  | .failure trouble :: more => .failure trouble :: more
  | [] => []

def bytes : List Arrival → List UInt8
  | .data bytes :: more => bytes ++ Arrival.bytes more
  | .failure _ :: more => Arrival.bytes more
  | [] => []

theorem untilFailure_data (chunks : List (List UInt8)) (tail : List Arrival) :
    untilFailure (chunks.map .data ++ tail) = chunks.flatten ++ untilFailure tail := by
  induction chunks with
  | nil => rfl
  | cons chunk chunks ih => simp [untilFailure, ih]

theorem sinceFailure_data (chunks : List (List UInt8)) (tail : List Arrival) :
    sinceFailure (chunks.map .data ++ tail) = sinceFailure tail := by
  induction chunks with
  | nil => rfl
  | cons chunk chunks ih => exact ih

end Arrival

namespace Line

variable {room : Nat} {seen bytes line rest : List UInt8} {closed : Bool}

theorem over_cons {b : UInt8} (nonempty : line ≠ []) :
    Over room (b :: line) ↔ Over (room - 1) line := by
  obtain ⟨c, more, rfl⟩ := List.exists_cons_of_ne_nil nonempty
  simp only [Over, List.getLast?_cons_cons, List.length_cons]
  refine or_congr_right ?_
  omega

theorem cutFrom?_eq_some (some_room : 0 < room)
    (hit : cutFrom? room seen bytes = some (line, rest)) :
    ∃ cut, line = seen.reverse ++ cut ∧ cut ++ rest = bytes ∧ cut ≠ [] ∧ Over room cut ∧
      ∀ front back, front ++ back = bytes → front ≠ [] → Over room front →
        cut.length ≤ front.length := by
  fun_induction cutFrom? room seen bytes with
  | case1 => cases hit
  | case2 room seen b bytes ends =>
    cases hit
    refine ⟨[b], by simp, rfl, List.cons_ne_nil b [], ?_, fun front _ _ nonempty _ =>
      List.length_pos_iff.mpr nonempty⟩
    rcases ends with rfl | last
    · exact Or.inl rfl
    · exact Or.inr (by simp only [List.length_singleton]; omega)
  | case3 room seen b bytes goes_on ih =>
    simp only [not_or, Nat.not_le] at goes_on
    obtain ⟨cut, rfl, rfl, nonempty, ended, shortest⟩ := ih (by omega) hit
    refine ⟨b :: cut, by simp, rfl, List.cons_ne_nil b cut, (over_cons nonempty).mpr ended, ?_⟩
    intro front back whole front_nonempty front_over
    obtain ⟨c, front, rfl⟩ := List.exists_cons_of_ne_nil front_nonempty
    obtain ⟨rfl, behind⟩ := List.cons.inj whole
    by_cases none : front = []
    · subst none
      exfalso
      rcases front_over with newline | length
      · exact goes_on.1 (Option.some.inj newline)
      · simp only [List.length_singleton] at length
        omega
    · exact Nat.succ_le_succ (shortest front back behind none ((over_cons none).mp front_over))

theorem cutFrom?_eq_none (some_room : 0 < room) (miss : cutFrom? room seen bytes = none)
    {front back : List UInt8} (whole : front ++ back = bytes) (nonempty : front ≠ []) :
    ¬ Over room front := by
  fun_induction cutFrom? room seen bytes generalizing front with
  | case1 => exact absurd (List.append_eq_nil_iff.mp whole).1 nonempty
  | case2 => cases miss
  | case3 room seen b bytes goes_on ih =>
    simp only [not_or, Nat.not_le] at goes_on
    obtain ⟨c, front, rfl⟩ := List.exists_cons_of_ne_nil nonempty
    obtain ⟨rfl, behind⟩ := List.cons.inj whole
    by_cases none : front = []
    · subst none
      rintro (newline | length)
      · exact goes_on.1 (Option.some.inj newline)
      · simp only [List.length_singleton] at length
        omega
    · rw [over_cons none]
      exact ih (by omega) miss behind none

theorem first_of_cut? (hit : cut? bytes = some (line, rest)) : First false bytes line rest := by
  obtain ⟨cut, rfl, whole, nonempty, ended, shortest⟩ := cutFrom?_eq_some (Nat.succ_pos _) hit
  refine ⟨whole, nonempty, Or.inl ended, fun front back whole nonempty ended => ?_⟩
  exact shortest front back whole nonempty (ended.resolve_right fun closed => nomatch closed.1)

theorem not_first_of_cut? (miss : cut? bytes = none) : ¬ First false bytes line rest :=
  fun first => cutFrom?_eq_none (Nat.succ_pos _) miss first.whole first.nonempty
    (first.ended.resolve_right fun closed => nomatch closed.1)

theorem cut?_of_first (first : First false bytes line rest) : cut? bytes = some (line, rest) := by
  cases cut : cut? bytes with
  | none => exact absurd first (not_first_of_cut? cut)
  | some split =>
    obtain ⟨rfl, rfl⟩ := (first_of_cut? cut).unique first
    rfl

theorem first_of_end (miss : cut? bytes = none) (nonempty : bytes ≠ []) :
    First true bytes bytes [] := by
  refine ⟨List.append_nil bytes, nonempty, Or.inr ⟨rfl, rfl⟩, fun front back whole some ended => ?_⟩
  rcases ended with ended | ⟨-, rfl⟩
  · exact absurd ended (cutFrom?_eq_none (Nat.succ_pos _) miss whole some)
  · rw [List.append_nil] at whole
    exact Nat.le_of_eq (congrArg List.length whole.symm)

theorem reference_nil : Reference closed [] [] :=
  .stop fun _ _ first => first.nonempty (List.append_eq_nil_iff.mp first.whole).1

theorem reference_end (miss : cut? bytes = none) (nonempty : bytes ≠ []) :
    Reference true bytes (read? bytes).toList := by
  have first := first_of_end miss nonempty
  have reference : Reference true bytes ((read? bytes).toList ++ []) :=
    .line first (first.says_iff_read?.mpr rfl) reference_nil
  rwa [List.append_nil] at reference

end Line

namespace Inbox

variable {inbox rest : Inbox} {result : Except Fault Envelope}
  {results : List (Except Fault Envelope)}

def ofArrivals (arrivals : List Arrival) : Inbox := ⟨[], arrivals, true⟩

/-- What the calls bring, one after another, until one finds nothing more. -/
inductive Yields : Inbox → List (Except Fault Envelope) → Prop
  | ended {inbox : Inbox} (none : inbox.next = .ended) : Yields inbox []
  | got {inbox rest : Inbox} {result : Except Fault Envelope}
    {results : List (Except Fault Envelope)} (got : inbox.next = .got result rest)
    (later : Yields rest results) : Yields inbox (result :: results)

theorem Yields.of_next {other : Inbox} (same : other.next = inbox.next)
    (yields : inbox.Yields results) : other.Yields results := by
  cases yields with
  | ended none => exact .ended (same.trans none)
  | got got later => exact .got (same.trans got) later

theorem Yields.of_got {arrivals : List Arrival}
    (yields : (inbox.extend arrivals true).Yields results)
    (silent : inbox.finished = true → arrivals = []) (got : inbox.next = .got result rest) :
    ∃ later, results = result :: later ∧ (rest.extend arrivals true).Yields later := by
  have got : (inbox.extend arrivals true).next = .got result (rest.extend arrivals true) := by
    cases finished : inbox.finished with
    | false => exact next_extend_of_got finished got arrivals true
    | true =>
      rw [silent finished, ← finished, extend_same, ← finished_of_got got, extend_same, got]
  cases yields with
  | ended none => rw [got] at none; cases none
  | got first later =>
    rw [got] at first
    cases first
    exact ⟨_, rfl, later⟩

theorem Yields.of_ended {arrivals : List Arrival}
    (yields : (inbox.extend arrivals true).Yields results)
    (silent : inbox.finished = true → arrivals = []) (ended : inbox.next = .ended) :
    results = [] := by
  have finished := finished_of_ended ended
  rw [silent finished, ← finished, extend_same] at yields
  cases yields with
  | ended _ => rfl
  | got first _ => rw [ended] at first; cases first

def unread (inbox : Inbox) : List UInt8 := inbox.held ++ Arrival.bytes inbox.coming

/-- The bytes in front of the next failure, or of the end. -/
def ahead (inbox : Inbox) : List UInt8 := inbox.held ++ Arrival.untilFailure inbox.coming

/-- One call of a finished inbox whose bytes ahead are followed by `tail`, the next failure and what
is behind it; they are `closed` if there is none. -/
inductive Reads (inbox : Inbox) (tail : List Arrival) (closed : Bool) : Next → Prop
  | ended (last : tail = []) (nothing : Line.Reference closed inbox.ahead []) :
    Reads inbox tail closed .ended
  | failed {trouble : Trouble} {later : List Arrival} (failure : tail = .failure trouble :: later)
    (nothing : Line.Reference closed inbox.ahead []) :
    Reads inbox tail closed (.got (.error trouble.fault) (ofArrivals later))
  | got {result : Except Fault Envelope} {rest : Inbox} (finished : rest.finished = true)
    (behind : Arrival.sinceFailure rest.coming = tail)
    (said : ∀ results, Line.Reference closed rest.ahead results →
      Line.Reference closed inbox.ahead (result :: results)) :
    Reads inbox tail closed (.got result rest)

theorem ahead_of_nil (none : inbox.coming = []) : inbox.ahead = inbox.held := by
  rw [ahead, none, Arrival.untilFailure, List.append_nil]

theorem Reads.grow {other : Inbox} {tail : List Arrival} {closed : Bool} {next : Next}
    (reads : other.Reads tail closed next)
    (silent : ∀ results, Line.Reference closed other.ahead results →
      Line.Reference closed inbox.ahead results) : inbox.Reads tail closed next := by
  cases reads with
  | ended last nothing => exact .ended last (silent _ nothing)
  | failed failure nothing => exact .failed failure (silent _ nothing)
  | got finished behind said =>
    exact .got finished behind fun results later => silent _ (said results later)

theorem next_reads {tail : List Arrival} {closed : Bool} (finished : inbox.finished = true)
    (behind : Arrival.sinceFailure inbox.coming = tail) (last : closed = true ↔ tail = []) :
    inbox.Reads tail closed inbox.next := by
  -- along the reader's own rounds: a blank line or an arrival leads to another one
  fun_induction next inbox with
  | case1 inbox line held cut result read =>
    have first : Line.First closed inbox.ahead line _ := (Line.first_of_cut? cut).append _
    exact .got finished behind fun results later =>
      .line first (first.says_iff_read?.mpr read.symm) later
  | case2 inbox line held cut read ih =>
    have first : Line.First closed inbox.ahead line _ := (Line.first_of_cut? cut).append _
    exact (ih finished behind).grow fun results later =>
      .line first (first.says_iff_read?.mpr read.symm) later
  | case3 inbox cut bytes coming shape ih =>
    rw [shape] at behind
    refine (ih finished behind).grow fun results later => ?_
    simpa [ahead, shape, Arrival.untilFailure] using later
  | case4 inbox cut trouble coming shape =>
    rw [shape] at behind
    obtain ⟨held, _, _⟩ := inbox
    cases finished
    cases shape
    have open_ : closed = false := by
      cases closed
      · rfl
      · exact absurd (last.mp rfl) (behind ▸ List.cons_ne_nil _ _)
    subst open_
    refine .failed behind.symm (.stop fun line rest first => ?_)
    rw [ahead, Arrival.untilFailure, List.append_nil] at first
    exact Line.not_first_of_cut? cut first
  | case5 inbox cut shape ended empty =>
    rw [shape] at behind
    refine .ended behind.symm ?_
    rw [ahead_of_nil shape, empty]
    exact Line.reference_nil
  | case6 inbox cut shape ended result nonempty read =>
    refine .got finished behind fun results later => ?_
    have nothing : { inbox with held := [] }.ahead = [] := ahead_of_nil shape
    rw [nothing] at later
    rw [ahead_of_nil shape]
    rw [shape] at behind
    obtain rfl : closed = true := last.mpr behind.symm
    have first := Line.first_of_end cut nonempty
    exact .line first (first.says_iff_read?.mpr read.symm) later
  | case7 inbox cut shape ended nonempty read =>
    rw [shape] at behind
    obtain rfl : closed = true := last.mpr behind.symm
    refine .ended behind.symm ?_
    have reference := Line.reference_end cut nonempty
    rw [read] at reference
    rwa [ahead_of_nil shape]
  | case8 inbox cut shape more => exact absurd finished more

theorem line_of_next (got : inbox.next = .got result rest) :
    (∃ trouble : Trouble, result = .error trouble.fault) ∨
      ∃ line, line <:+: inbox.unread ∧ line.length ≤ Line.limit ∧ Line.read? line = some result := by
  fun_induction next inbox with
  | case1 inbox line held cut _ read =>
    cases got
    have first := Line.first_of_cut? cut
    refine Or.inr ⟨line, ?_, first.length_le, read⟩
    rw [unread, ← first.whole, List.append_assoc]
    exact (List.prefix_append line _).isInfix
  | case2 inbox line held cut _ ih =>
    rcases ih got with failed | ⟨next, inside, short, read⟩
    · exact Or.inl failed
    · refine Or.inr ⟨next, inside.trans ?_, short, read⟩
      rw [unread, unread, ← (Line.first_of_cut? cut).whole, List.append_assoc]
      exact (List.suffix_append line _).isInfix
  | case3 inbox _ bytes coming shape ih =>
    have same :
        { inbox with held := inbox.held ++ bytes, coming := coming }.unread = inbox.unread := by
      simp [unread, shape, Arrival.bytes]
    exact same ▸ ih got
  | case4 =>
    cases got
    exact Or.inl ⟨_, rfl⟩
  | case5 => cases got
  | case6 inbox cut _ _ _ nonempty read =>
    cases got
    have first := Line.first_of_end cut nonempty
    exact Or.inr ⟨inbox.held, (List.prefix_append _ _).isInfix, first.length_le, read⟩
  | case7 => cases got
  | case8 => cases got

theorem exists_yields (inbox : Inbox) (finished : inbox.finished = true) :
    ∃ results, inbox.Yields results := by
  induction size : inbox.size using Nat.strongRecOn generalizing inbox with
  | ind size ih =>
    cases next : inbox.next with
    | got result rest =>
      have smaller := next_size next
      obtain ⟨results, later⟩ := ih rest.size (by omega) rest
        ((finished_of_got next).trans finished) rfl
      exact ⟨result :: results, .got next later⟩
    | pending rest =>
      have more := (finished_of_pending next).1
      rw [finished] at more
      cases more
    | ended => exact ⟨[], .ended next⟩

/-- What comes of a failure and what is behind it: it is reported, and then the calls go on as with
a new inbox. -/
inductive Resumes : List Arrival → List (Except Fault Envelope) → Prop
  | ended : Resumes [] []
  | failed {trouble : Trouble} {later : List Arrival} {results : List (Except Fault Envelope)}
    (yields : (ofArrivals later).Yields results) :
    Resumes (.failure trouble :: later) (.error trouble.fault :: results)

/-- Up to the next failure, or else to the end, an inbox yields what its bytes say. -/
theorem Yields.reference {tail : List Arrival} {closed : Bool} (yields : inbox.Yields results)
    (finished : inbox.finished = true) (behind : Arrival.sinceFailure inbox.coming = tail)
    (last : closed = true ↔ tail = []) :
    ∃ said more, results = said ++ more ∧ Line.Reference closed inbox.ahead said ∧
      Resumes tail more := by
  induction yields with
  | ended none =>
    have reads := next_reads finished behind last
    rw [none] at reads
    cases reads with
    | ended last nothing => exact ⟨[], [], rfl, nothing, last ▸ .ended⟩
  | got got later ih =>
    have reads := next_reads finished behind last
    rw [got] at reads
    cases reads with
    | failed failure nothing => exact ⟨[], _, rfl, nothing, failure ▸ .failed later⟩
    | got finished behind said =>
      obtain ⟨results, more, rfl, reference, resumes⟩ := ih finished behind
      exact ⟨_ :: results, more, rfl, said results reference, resumes⟩

/-- What every call but the last consumes. -/
theorem next_consumes (got : inbox.next = .got result rest) :
    ∃ consumed, inbox.unread = consumed ++ rest.unread ∧
      (consumed = [] → ∃ trouble, .failure trouble ∈ inbox.coming ∧
        result = .error trouble.fault) := by
  fun_induction next inbox with
  | case1 inbox line held cut _ read =>
    cases got
    have first := Line.first_of_cut? cut
    refine ⟨line, ?_, fun none => absurd none first.nonempty⟩
    simp only [unread, ← first.whole, List.append_assoc]
  | case2 inbox line held cut read ih =>
    have first := Line.first_of_cut? cut
    obtain ⟨consumed, split, -⟩ := ih got
    have some : line ++ consumed ≠ [] := fun none =>
      first.nonempty (List.append_eq_nil_iff.mp none).1
    refine ⟨line ++ consumed, ?_, fun none => absurd none some⟩
    simp only [unread] at split ⊢
    simp only [← first.whole, List.append_assoc, split]
  | case3 inbox cut bytes coming shape ih =>
    obtain ⟨consumed, split, nothing⟩ := ih got
    refine ⟨consumed, ?_, fun none => ?_⟩
    · rw [← split]
      simp [unread, shape, Arrival.bytes]
    · obtain ⟨trouble, member, failed⟩ := nothing none
      exact ⟨trouble, shape ▸ List.mem_cons_of_mem _ member, failed⟩
  | case4 inbox cut trouble coming shape =>
    cases got
    refine ⟨inbox.held, ?_, fun _ => ⟨trouble, shape ▸ List.mem_cons_self, rfl⟩⟩
    simp [unread, shape, Arrival.bytes]
  | case5 => cases got
  | case6 inbox cut shape ended result nonempty read =>
    cases got
    refine ⟨inbox.held, ?_, fun none => absurd none nonempty⟩
    simp [unread, shape, Arrival.bytes]
  | case7 => cases got
  | case8 => cases got

theorem yields_chunks (chunks : List (List UInt8)) (tail : List Arrival) {closed : Bool}
    (until_tail : Arrival.untilFailure tail = []) (since_tail : Arrival.sinceFailure tail = tail)
    (last : closed = true ↔ tail = []) :
    ∃ said more, (ofArrivals (chunks.map .data ++ tail)).Yields (said ++ more) ∧
      Line.Reference closed chunks.flatten said ∧ Resumes tail more := by
  let inbox := ofArrivals (chunks.map .data ++ tail)
  have ahead : inbox.ahead = chunks.flatten := by
    simp [inbox, Inbox.ahead, ofArrivals, Arrival.untilFailure_data, until_tail]
  have behind : Arrival.sinceFailure inbox.coming = tail :=
    (Arrival.sinceFailure_data chunks tail).trans since_tail
  obtain ⟨results, yields⟩ := exists_yields inbox rfl
  obtain ⟨said, more, rfl, reference, resumes⟩ := yields.reference rfl behind last
  exact ⟨said, more, yields, ahead ▸ reference, resumes⟩

/-- The reader agrees with its reference: on bytes in whatever chunks, call after call, up to the end
and up to a failure, behind which it goes on as if nothing had been read before. -/
theorem reads_reference :
    (∀ chunks : List (List UInt8), ∃ results, (ofArrivals (chunks.map .data)).Yields results ∧
      ∀ others, Line.Reference true chunks.flatten others ↔ others = results) ∧
    (∀ (inbox rest : Inbox) (result : Except Fault Envelope), inbox.next = .got result rest →
      ∃ consumed, inbox.unread = consumed ++ rest.unread ∧
        (consumed = [] → ∃ trouble, .failure trouble ∈ inbox.coming ∧
          result = .error trouble.fault)) ∧
    ∀ (chunks : List (List UInt8)) (trouble : Trouble) (later : List Arrival),
      ∃ results more, (ofArrivals later).Yields more ∧
        (ofArrivals (chunks.map .data ++ .failure trouble :: later)).Yields
          (results ++ .error trouble.fault :: more) ∧
        ∀ others, Line.Reference false chunks.flatten others ↔ others = results := by
  refine ⟨fun chunks => ?_, fun _ _ _ => next_consumes, fun chunks trouble later => ?_⟩
  · obtain ⟨said, more, yields, reference, resumes⟩ :=
      yields_chunks chunks [] rfl rfl (iff_of_true rfl rfl)
    cases resumes
    simp only [List.append_nil] at yields
    exact ⟨said, yields, fun _ => reference.iff_eq⟩
  · obtain ⟨said, more, yields, reference, resumes⟩ :=
      yields_chunks chunks (.failure trouble :: later) rfl rfl
        (iff_of_false Bool.false_ne_true (List.cons_ne_nil _ _))
    cases resumes with
    | failed behind => exact ⟨said, _, behind, yields, fun _ => reference.iff_eq⟩

end Inbox

end Switchboard
