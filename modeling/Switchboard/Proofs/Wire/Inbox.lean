import Switchboard.Wire.Inbox

/-!
Reading while more arrives. What can be read already stays the same whatever comes later, and an
inbox that waits for more may be looked at in between.
-/

namespace Switchboard.Inbox

def extend (inbox : Inbox) (arrivals : List Arrival) (finished : Bool) : Inbox :=
  { inbox with coming := inbox.coming ++ arrivals, finished := finished }

variable {inbox rest : Inbox} {result : Except Fault Envelope}

theorem extend_same (inbox : Inbox) : inbox.extend [] inbox.finished = inbox := by
  rw [extend, List.append_nil]

theorem extend_arrive (inbox : Inbox) (arrival : Arrival) (arrivals : List Arrival)
    (finished : Bool) :
    (inbox.arrive arrival).extend arrivals finished =
      inbox.extend (arrival :: arrivals) finished := by
  simp [extend, arrive]

theorem extend_inj {arrivals others : List Arrival} {finished : Bool}
    (same : inbox.extend arrivals finished = inbox.extend others finished) : arrivals = others := by
  simpa [extend] using same

theorem finished_of_got (got : inbox.next = .got result rest) : rest.finished = inbox.finished := by
  fun_induction next inbox with
  | case1 => cases got; rfl
  | case2 _ _ _ _ _ ih => exact ih got
  | case3 _ _ _ _ _ ih => exact ih got
  | case4 => cases got; rfl
  | case5 => cases got
  | case6 => cases got; rfl
  | case7 => cases got
  | case8 => cases got

theorem finished_of_pending (pending : inbox.next = .pending rest) :
    inbox.finished = false ∧ rest.finished = false := by
  fun_induction next inbox with
  | case1 => cases pending
  | case2 _ _ _ _ _ ih => exact ih pending
  | case3 _ _ _ _ _ ih => exact ih pending
  | case4 => cases pending
  | case5 => cases pending
  | case6 => cases pending
  | case7 => cases pending
  | case8 inbox _ _ more => cases pending; simpa using more

theorem finished_of_ended (ended : inbox.next = .ended) : inbox.finished = true := by
  fun_induction next inbox with
  | case1 => cases ended
  | case2 _ _ _ _ _ ih => exact ih ended
  | case3 _ _ _ _ _ ih => exact ih ended
  | case4 => cases ended
  | case5 _ _ _ finished _ => exact finished
  | case6 => cases ended
  | case7 _ _ _ finished _ _ => exact finished
  | case8 => cases ended

/-! ### One look at a time -/

theorem next_line {bytes held : List UInt8} (line : Line.cut? inbox.held = some (bytes, held)) :
    inbox.next =
      match Line.read? bytes with
      | some result => .got result { inbox with held := held }
      | none => next { inbox with held := held } := by
  rw [next]
  split
  · next found =>
    rw [line] at found
    cases found
    rfl
  · next missing =>
    rw [line] at missing
    cases missing

theorem next_data {bytes : List UInt8} {coming : List Arrival} (line : Line.cut? inbox.held = none)
    (arrivals : inbox.coming = .data bytes :: coming) :
    inbox.next = next { inbox with held := inbox.held ++ bytes, coming := coming } := by
  rw [next]
  split
  · next found =>
    rw [line] at found
    cases found
  · split
    · next shape =>
      rw [arrivals] at shape
      cases shape
      rfl
    · next shape =>
      rw [arrivals] at shape
      cases shape
    · next shape =>
      rw [arrivals] at shape
      cases shape

theorem next_failure {trouble : Trouble} {coming : List Arrival}
    (line : Line.cut? inbox.held = none) (arrivals : inbox.coming = .failure trouble :: coming) :
    inbox.next = .got (.error trouble.fault) { inbox with held := [], coming := coming } := by
  rw [next]
  split
  · next found =>
    rw [line] at found
    cases found
  · split
    · next shape =>
      rw [arrivals] at shape
      cases shape
    · next shape =>
      rw [arrivals] at shape
      cases shape
      rfl
    · next shape =>
      rw [arrivals] at shape
      cases shape

/-! ### With more to come -/

/-- What can be read now can be read later, and is the same. -/
theorem next_extend_of_got (more : inbox.finished = false) (got : inbox.next = .got result rest)
    (arrivals : List Arrival) (finished : Bool) :
    (inbox.extend arrivals finished).next = .got result (rest.extend arrivals finished) := by
  fun_induction next inbox with
  | case1 inbox bytes held line read? read =>
    cases got
    have line' : Line.cut? (inbox.extend arrivals finished).held = some (bytes, held) := line
    rw [next_line line', read]
    rfl
  | case2 inbox bytes held line read ih =>
    have line' : Line.cut? (inbox.extend arrivals finished).held = some (bytes, held) := line
    rw [next_line line', read]
    exact ih more got
  | case3 inbox line bytes coming shape ih =>
    have arrivals' : (inbox.extend arrivals finished).coming =
        .data bytes :: (coming ++ arrivals) := by rw [extend, shape, List.cons_append]
    have line' : Line.cut? (inbox.extend arrivals finished).held = none := line
    rw [next_data line' arrivals']
    exact ih more got
  | case4 inbox line trouble coming shape =>
    cases got
    have arrivals' : (inbox.extend arrivals finished).coming =
        .failure trouble :: (coming ++ arrivals) := by rw [extend, shape, List.cons_append]
    have line' : Line.cut? (inbox.extend arrivals finished).held = none := line
    rw [next_failure line' arrivals']
    rfl
  | case5 => cases got
  | case6 inbox line none ended _ _ _ =>
    rw [more] at ended
    cases ended
  | case7 => cases got
  | case8 => cases got

theorem next_extend_of_pending (pending : inbox.next = .pending rest) (arrivals : List Arrival)
    (finished : Bool) :
    (inbox.extend arrivals finished).next = (rest.extend arrivals finished).next := by
  fun_induction next inbox with
  | case1 => cases pending
  | case2 inbox bytes held line read ih =>
    have line' : Line.cut? (inbox.extend arrivals finished).held = some (bytes, held) := line
    rw [next_line line', read]
    exact ih pending
  | case3 inbox line bytes coming shape ih =>
    have arrivals' : (inbox.extend arrivals finished).coming =
        .data bytes :: (coming ++ arrivals) := by rw [extend, shape, List.cons_append]
    have line' : Line.cut? (inbox.extend arrivals finished).held = none := line
    rw [next_data line' arrivals']
    exact ih pending
  | case4 => cases pending
  | case5 => cases pending
  | case6 => cases pending
  | case7 => cases pending
  | case8 inbox line none more => cases pending; rfl

end Switchboard.Inbox
