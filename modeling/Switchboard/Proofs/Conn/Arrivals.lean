import Switchboard.Proofs.Conn.Feed
import Switchboard.Station.Clock

/-!
What comes of a writer that is left alone: it writes everything that was accepted, and then rests.
A station lets its writers run in just this way.
-/

namespace Switchboard.Feed

namespace Intact

variable {id : ConnId} {capacity timeout : Nat} {f : Feed} {c : Conn} {o : Outbound}

/-! ### What is accepted -/

theorem sentTo_step (h : Intact id capacity f c o) (act : Act) :
    (f.step id timeout act).exchange.sentTo id = f.exchange.sentTo id ++ f.passes id act := by
  unfold Feed.step
  rw [h.outbound]
  cases act with
  | send frame =>
    unfold passes refusal?
    dsimp only
    cases answer : f.exchange.send id frame with
    | error why => simp
    | ok x => simpa using Exchange.sentTo_send answer id
  | close => simpa [passes] using Exchange.sentTo_close_self f.exchange id
  | attach act => simpa [passes] using (Exchange.SameConns.attach f.exchange id act).sent id
  | notice =>
    dsimp only [passes]
    split <;> simp
  | move now =>
    dsimp only [passes]
    split
    · simpa using sentTo_withMoved id f o _
    · simp
  | take | stall | look | depart => simpa [passes] using sentTo_withPipe id f o _

theorem sentTo_run (h : Intact id capacity f c o) (acts : List Act) :
    (f.run id timeout acts).exchange.sentTo id =
      f.exchange.sentTo id ++ passed id timeout f acts := by
  induction acts generalizing f c o with
  | nil => simp [Feed.run, passed]
  | cons act acts ih =>
    obtain ⟨d, p, stepped, -⟩ := h.step timeout act
    rw [Feed.run, List.foldl_cons, ← Feed.run, ih stepped, h.sentTo_step, passed,
      List.append_assoc]

/-! ### The writer, left alone -/

theorem pending_stopped (h : Intact id capacity f c o) (stopped : o.writer = .stopped) :
    o.pending = [] := by
  rw [Outbound.pending, stopped, h.cleared stopped]
  rfl

theorem rests (h : Intact id capacity f c o) (resting : f.Resting id timeout o) :
    o.pending = [] ∧ (c.closed = true → o.writer = .stopped) := by
  rcases Outbound.waits resting.1 with stopped | ⟨ready, empty, unnoticed⟩
  · exact ⟨h.pending_stopped stopped, fun _ => stopped⟩
  · constructor
    · rw [Outbound.pending, ready, empty]
      rfl
    · intro closed
      rw [resting.2 (h.isClosed.trans closed) ready] at unnoticed
      cases unnoticed

theorem tires (h : Intact id capacity f c o) {act : Act} (own : act.ofWriter = true) :
    f.step id timeout act = f ∨ ∃ p, (f.step id timeout act).exchange.outbound? id = some p ∧
      (f.step id timeout act).effort p < f.effort o := by
  cases act with
  | notice =>
    unfold Feed.step
    rw [h.outbound]
    dsimp only
    split
    · obtain ⟨exchange, noticed, failed, seen, lost⟩ := f
      cases noticed with
      | true => exact Or.inl rfl
      | false => exact Or.inr ⟨o, h.outbound, by simp [effort]⟩
    · exact Or.inl rfl
  | move now =>
    unfold Feed.step
    rw [h.outbound]
    dsimp only
    cases hit : o.step? now timeout f.noticed with
    | none => exact Or.inl rfl
    | some next =>
      obtain ⟨d, intact, -⟩ := h.withMoved (Outbound.step?_moved hit)
      have less := Outbound.step?_work hit
      refine Or.inr ⟨next, intact.outbound, ?_⟩
      rw [effort, noticed_withMoved, effort]
      omega
  | _ => cases own

/-! ### The writers of a station -/

theorem notices (h : Intact id capacity f c o) (now timeout : Nat) :
    ∃ acts, Intact id capacity (f.run id timeout acts) c o ∧
      o.step? now timeout (f.run id timeout acts).noticed = o.step? now timeout c.closed := by
  by_cases ready : o.writer = .ready
  · cases closed : c.closed with
    | false =>
      have unaware : f.noticed = false := by
        rw [← Bool.not_eq_true]
        intro noticed
        rw [h.noticed noticed] at closed
        cases closed
      exact ⟨[], h, by rw [Feed.run, List.foldl_nil, unaware]⟩
    | true =>
      have shape : f.run id timeout [.notice] = { f with noticed := true } := by
        simp [Feed.run, Feed.step, h.outbound, h.isClosed, closed, ready]
      refine ⟨[.notice], ?_, ?_⟩
      · rw [shape]
        exact { h with noticed := fun _ => closed }
      · rw [shape]
  · exact ⟨[], h, Outbound.step?_writing ready ..⟩

theorem drains (h : Intact id capacity f c o) (now timeout : Nat) :
    ∃ acts d, Intact id capacity (f.run id timeout acts) d (o.drain now timeout c.closed) ∧
      d.closed = (c.closed || decide ((o.drain now timeout c.closed).writer = .stopped)) := by
  -- by the work that is left: every move takes some of it, and without a move the writer pauses
  induction work : o.work using Nat.strongRecOn generalizing f c o with
  | _ work ih =>
    subst work
    cases hit : o.step? now timeout c.closed with
    | none =>
      have still : c.closed = (c.closed || decide (o.writer = .stopped)) := by
        by_cases stopped : o.writer = .stopped
        · simp [h.stopped stopped]
        · simp [stopped]
      rw [Outbound.drain_none hit]
      by_cases reading : o.pipe.far = .reading
      · refine ⟨[.take o.pipe.held.length],
          { c with link := .client { o with pipe := o.pipe.drain } }, ?_, still⟩
        have taken := h.taking o.pipe.held.length
        rw [Pipe.take_held reading] at taken
        simpa [Feed.run, Feed.step, h.outbound, Pipe.take_held reading] using taken
      · refine ⟨[], c, ?_, still⟩
        rw [Pipe.drain, if_neg reading]
        exact h
    | some next =>
      obtain ⟨acts, noticed, same⟩ := h.notices now timeout
      have hit' := same.trans hit
      obtain ⟨d, moved, -, closed⟩ := noticed.withMoved (Outbound.step?_moved hit')
      obtain ⟨more, e, intact, closed'⟩ := ih _ (Outbound.step?_work hit) moved rfl
      have drained : o.drain now timeout c.closed = next.drain now timeout d.closed := by
        rw [Outbound.drain_some hit]
        by_cases stopped : next.writer = .stopped
        · rw [Outbound.drain_stopped stopped, Outbound.drain_stopped stopped]
        · simp [closed, stopped]
      refine ⟨acts ++ .move now :: more, e, ?_, ?_⟩
      · have stepped : (f.run id timeout acts).step id timeout (.move now) =
            (f.run id timeout acts).withMoved id o next := by
          unfold Feed.step
          rw [noticed.outbound]
          dsimp only
          rw [hit']
        rw [drained, run_append, Feed.run, List.foldl_cons, stepped]
        exact intact
      · rw [drained, closed', closed]
        by_cases stopped : next.writer = .stopped
        · simp [Outbound.drain_stopped stopped, stopped]
        · simp [stopped]

/-- A station that lets a writer run does what the writer, and then the far end, could do. -/
theorem runWriter {st : Station} (h : Intact id capacity f c o)
    (here : st.exchange.conns.find? id = some c) :
    ∃ acts, (f.run id st.writeTimeout acts).exchange.outbound? id =
        (st.runWriter id).exchange.outbound? id ∧
      (f.run id st.writeTimeout acts).exchange.isClosed id =
        (st.runWriter id).exchange.isClosed id := by
  obtain ⟨acts, d, intact, closed⟩ := h.drains st.now st.writeTimeout
  refine ⟨acts, ?_⟩
  let drained := o.drain st.now st.writeTimeout c.closed
  have relinked : (st.exchange.setLink id (.client drained)).conns.find? id =
      some { c with link := .client drained } := by
    rw [Exchange.setLink_eq here, Exchange.find?_conns_withConn, if_pos rfl]
  rw [intact.outbound, intact.isClosed, closed]
  unfold Station.runWriter
  rw [here]
  simp only [h.link]
  split
  · next stopped =>
    obtain ⟨hooks, found⟩ := Exchange.find?_close relinked
    change _ = ((st.exchange.setLink id (.client drained)).close id).outbound? id ∧
      _ = ((st.exchange.setLink id (.client drained)).close id).isClosed id
    rw [Exchange.isClosed_of_find? found, Exchange.outbound?, found]
    exact ⟨rfl, by simp [stopped]⟩
  · next going =>
    change _ = (st.exchange.setLink id (.client drained)).outbound? id ∧
      _ = (st.exchange.setLink id (.client drained)).isClosed id
    rw [Exchange.isClosed_of_find? relinked, Exchange.outbound?, relinked]
    exact ⟨rfl, by simp [going]⟩

end Intact

/-- Whatever is called, written and read, in whatever order: the queue keeps within its capacity; a
frame is refused only if the connection is closed or the queue full; the far end gets a front of
what was accepted. Unless a write fails, what has not been written is pending still, a writer that
has come to rest has written everything, and only then it shuts the pipe, which ends all writing.
A write that fails closes the connection, and that stays closed. -/
theorem accepted_arrives (x : Exchange) (id : ConnId) (capacity room : Nat) (stalled : Bool)
    (timeout : Nat) (acts more : List Act) :
    let f := (connected x id capacity room stalled).run id timeout acts
    let later := f.run id timeout more
    ∃ o p, f.exchange.outbound? id = some o ∧ later.exchange.outbound? id = some p ∧
      o.queue.items.length ≤ capacity ∧ o.queue.capacity = capacity ∧
      (∀ frame, f.refusal? id frame = if f.exchange.isClosed id then some .connectionClosed
        else if o.queue.isFull then some .sendFailed else none) ∧
      f.accepted id =
        (passed id timeout (connected x id capacity room stalled) acts).flatMap Frame.bytes ∧
      f.received o <+: f.accepted id ∧
      (f.failed = false → f.written o ++ o.pending = f.accepted id) ∧
      (f.Resting id timeout o → o.pending = [] ∧
        (f.exchange.isClosed id = true → o.pipe.shut = true)) ∧
      (∀ act : Act, act.ofWriter = true → f.step id timeout act = f ∨
        ∃ q, (f.step id timeout act).exchange.outbound? id = some q ∧
          (f.step id timeout act).effort q < f.effort o) ∧
      (o.pipe.shut = true → o.pending = [] ∧ later.written p = f.written o ∧
        later.failed = f.failed ∧ later.accepted id = f.accepted id) ∧
      (f.failed = true ∨ o.pipe.shut = true → f.exchange.isClosed id = true) ∧
      (f.exchange.isClosed id = true → later.exchange.isClosed id = true) := by
  intro f later
  have fresh := Intact.connected x id capacity room stalled
  obtain ⟨c, o, intact, -⟩ := fresh.run timeout acts
  obtain ⟨d, p, intact', onward⟩ := intact.run timeout more
  refine ⟨o, p, intact.outbound, intact'.outbound, ?_, intact.capacity, intact.refusal, ?_, ?_, ?_,
    ?_, fun act => intact.tires, ?_, ?_, ?_⟩
  · rw [← intact.capacity]
    exact o.queue.fits
  · have nothing : (connected x id capacity room stalled).exchange.sentTo id = [] := by
      rw [Exchange.sentTo, fresh.found]
      rfl
    rw [accepted, fresh.sentTo_run, nothing, List.nil_append]
  · rw [intact.accepted]
    exact (f.received_front o).trans intact.front
  · rw [intact.accepted]
    exact intact.order
  · intro resting
    rw [intact.isClosed]
    exact ⟨(intact.rests resting).1, intact.shut.mpr ∘ (intact.rests resting).2⟩
  · intro shut
    have stopped := intact.shut.mp shut
    refine ⟨intact.pending_stopped stopped, onward.written stopped, onward.failed stopped, ?_⟩
    rw [intact.accepted, intact'.accepted, onward.taken (intact.stopped stopped)]
  · rw [intact.isClosed]
    rintro (failed | shut)
    · exact intact.stopped (intact.failed failed)
    · exact intact.stopped (intact.shut.mp shut)
  · rw [intact.isClosed, intact'.isClosed]
    exact onward.closed

end Switchboard.Feed
