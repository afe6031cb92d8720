import Switchboard.Proofs.Bus
import Switchboard.Proofs.Table
import Switchboard.Proofs.Station.Moves

/-!
Settling and the clock are runs: whatever a station does by itself between two calls is a sequence
of moves. So what holds after every run holds when everything has settled.
-/

namespace Switchboard.Station

/-- One station comes from another by moves. -/
def Reaches (st after : Station) : Prop := ∃ moves, after = st.run moves

variable {st mid after : Station} {id : ConnId}

theorem Reaches.refl (st : Station) : Reaches st st := ⟨[], rfl⟩

theorem Reaches.single (st : Station) (m : Move) : Reaches st (st.step m) := ⟨[m], rfl⟩

theorem Reaches.trans (first : Reaches st mid) (second : Reaches mid after) : Reaches st after := by
  obtain ⟨moves, rfl⟩ := first
  obtain ⟨more, rfl⟩ := second
  exact ⟨moves ++ more, (run_append st moves more).symm⟩

/-! ### Sessions -/

def withSessions (st : Station) (sessions : Table ConnId Session) : Station :=
  { st with sessions := sessions }

theorem withSessions_self (st : Station) : st.withSessions st.sessions = st := rfl

theorem serve_withSessions (st : Station) (sessions : Table ConnId Session) (id : ConnId)
    (who : Identity) (e : Envelope) :
    (st.withSessions sessions).serve id who e =
      ((st.serve id who e).1, (st.serve id who e).2.withSessions sessions) := by
  unfold serve withSessions
  dsimp only
  split
  · rfl
  · split <;> rfl

theorem handle_withSessions (st : Station) (sessions : Table ConnId Session) (id : ConnId)
    (entry : EntryPoint) (stage : Stage) (e : Envelope) :
    (st.withSessions sessions).handle id entry stage e =
      ((st.handle id entry stage e).1, (st.handle id entry stage e).2.withSessions sessions) := by
  cases stage with
  | waiting =>
    unfold handle
    dsimp only
    have same : (st.withSessions sessions).hub.tokens = st.hub.tokens := rfl
    rw [same]
    cases authenticate st.hub.tokens entry e with
    | error why => rfl
    | ok who =>
      dsimp only
      split
      · split
        · rfl
        · rw [serve_withSessions]
      · unfold listen join?
        cases entry.topic? <;> rfl
  | chatting who =>
    unfold handle
    dsimp only
    rw [serve_withSessions]
  | listening => rfl

theorem turn_withSessions (st : Station) (sessions : Table ConnId Session) (id : ConnId)
    (s : Session) :
    (st.withSessions sessions).turn id s =
      ((st.turn id s).1, (st.turn id s).2.withSessions sessions) := by
  unfold turn
  split
  · rfl
  · unfold hangUp
    split <;> rfl
  · rfl
  · rw [handle_withSessions]
    cases st.handle id s.entry s.stage _ with
    | mk stage? next => cases stage? <;> rfl

theorem turn_sessions (st : Station) (id : ConnId) (s : Session) :
    (st.turn id s).2.sessions = st.sessions := by
  have shape := congrArg (·.2.sessions) (turn_withSessions st st.sessions id s)
  exact shape

def put (st : Station) (id : ConnId) (s : Session) : Station :=
  st.withSessions (st.sessions.insert id s)

theorem read_put (st : Station) (id : ConnId) (s : Session) (running : s.ended = false) :
    (st.put id s).step (.read id) = (st.turn id s).2.put id (st.turn id s).1 := by
  have found : (st.put id s).sessions.find? id = some s := by
    unfold put withSessions
    rw [Table.find?_insert, if_pos rfl]
  rw [step, read, found]
  dsimp only
  rw [running, put, turn_withSessions]
  unfold put withSessions
  simp only [Bool.false_eq_true, if_false, Table.insert_insert, turn_sessions]

theorem notice_put (st : Station) (id : ConnId) (s : Session)
    (closed : st.exchange.isClosed id = true) :
    (st.put id s).step (.notice id) = st.put id { s with ended := true } := by
  have closed' : (st.put id s).exchange.isClosed id = true := closed
  rw [step, endSessions, if_pos closed', endSessions]
  unfold put withSessions
  simp only [Table.modify, Table.find?_insert, if_true, Table.insert_insert]

theorem runSession_reaches (st : Station) (id : ConnId) (s : Session) (running : s.ended = false) :
    Reaches (st.put id s) ((st.runSession id s).2.put id (st.runSession id s).1) := by
  fun_induction runSession st id s with
  | case1 st s closed =>
    rw [← notice_put st id s closed]
    exact .single _ _
  | case2 st s opened result rest next after ended =>
    rw [← read_put st id s running]
    exact .single _ _
  | case3 st s opened result rest next after going ih =>
    have first := Reaches.single (st.put id s) (.read id)
    rw [read_put st id s running] at first
    exact first.trans (ih (by simpa using going))
  | case4 st s opened other =>
    rw [← read_put st id s running]
    exact .single _ _

theorem runSessions_reaches (st : Station) (ids : List ConnId) : Reaches st (st.runSessions ids) := by
  induction ids generalizing st with
  | nil => exact .refl st
  | cons id ids ih =>
    unfold runSessions
    split
    · exact ih st
    · next s found =>
      split
      · exact ih st
      · next running =>
        have ran := runSession_reaches st id s (by simpa using running)
        have same : st.put id s = st := by
          unfold put withSessions
          rw [Table.insert_of_find? found]
        rw [same] at ran
        exact ran.trans (ih _)

theorem endSessions_reaches (st : Station) (ids : List ConnId) : Reaches st (st.endSessions ids) := by
  induction ids generalizing st with
  | nil => exact .refl st
  | cons id ids ih =>
    have first : Reaches st (st.endSessions [id]) := .single st (.notice id)
    have split : st.endSessions (id :: ids) = (st.endSessions [id]).endSessions ids := by
      simp only [endSessions]
      split <;> rfl
    rw [split]
    exact first.trans (ih _)

/-! ### The dispatcher and the writers -/

theorem dispatchAll_reaches (st : Station) (running : st.loop = .running) (h : Hub) :
    Reaches (st.withHub h) (st.withHub h.dispatchAll) := by
  fun_induction Hub.dispatchAll h with
  | case1 h _ => exact .refl _
  | case2 h event bus next ih =>
    obtain ⟨queue, taken⟩ := Bus.take?_of_next? next
    have first := Reaches.single (st.withHub h) (.dispatch queue)
    have running' : (st.withHub h).loop = .running := running
    have taken' : (st.withHub h).hub.bus.take? queue = some (event, bus) := taken
    rw [step, dispatchOne, if_pos running', taken'] at first
    exact first.trans ih

theorem dispatchAll_drained (h : Hub) : h.dispatchAll.bus.size = 0 := by
  fun_induction Hub.dispatchAll h with
  | case1 h next => exact Bus.size_of_next? next
  | case2 h event bus next ih => exact ih

theorem runLoop_reaches (st : Station) : Reaches st st.runLoop := by
  unfold runLoop
  split
  · exact .refl st
  · next running =>
    have running : st.loop = .running := not_not.mp running
    split
    · next cancelled =>
      have last := Reaches.single st .endLoop
      rwa [step, if_pos ⟨running, Or.inl cancelled⟩] at last
    · have dispatched := dispatchAll_reaches st running st.hub
      dsimp only
      split
      · exact dispatched
      · next alone =>
        have mayEnd : (st.withHub st.hub.dispatchAll).MayEnd := by
          refine ⟨running, Or.inr ⟨?_, ?_, dispatchAll_drained st.hub⟩⟩
          · exact Bool.eq_false_iff.mpr fun held => alone (Or.inl held)
          · exact Bool.eq_false_iff.mpr fun held => alone (Or.inr held)
        have last := Reaches.single (st.withHub st.hub.dispatchAll) .endLoop
        rw [step, if_pos mayEnd] at last
        exact dispatched.trans last

theorem runWriter_reaches (st : Station) (id : ConnId) : Reaches st (st.runWriter id) := by
  unfold runWriter
  split
  · exact .refl st
  · next c found =>
    split
    · exact .refl st
    · next o linked =>
      let drained := o.drain st.now st.writeTimeout c.closed
      have linked : st.step (.relink id fun _ => .client drained) =
          st.withExchange (st.exchange.setLink id (.client drained)) := by
        rw [step, mapLink, found]
      have reaped : (st.withExchange (st.exchange.setLink id (.client drained))).step (.reap id) =
          if drained.writer = .stopped then
            (st.withExchange (st.exchange.setLink id (.client drained))).withHub
              ((st.withExchange (st.exchange.setLink id (.client drained))).hub.close id)
          else st.withExchange (st.exchange.setLink id (.client drained)) := by
        have there : (st.exchange.setLink id (.client drained)).conns.find? id =
            some { c with link := .client drained } := by
          rw [Exchange.setLink, Table.find?_modify, if_pos rfl, found, Option.map_some]
        have there' : (st.withExchange (st.exchange.setLink id (.client drained))).exchange.conns.find?
            id = some { c with link := .client drained } := there
        rw [step, reap, there']
      have first := Reaches.single st (.relink id fun _ => .client drained)
      have second := Reaches.single (st.withExchange (st.exchange.setLink id (.client drained)))
        (.reap id)
      rw [linked] at first
      rw [reaped] at second
      exact first.trans second

theorem runWriters_reaches (st : Station) (ids : List ConnId) : Reaches st (st.runWriters ids) := by
  induction ids generalizing st with
  | nil => exact .refl st
  | cons id ids ih => exact (runWriter_reaches st id).trans (ih _)

theorem settle_reaches (st : Station) : Reaches st st.settle :=
  (runSessions_reaches st _).trans <| (runLoop_reaches _).trans <|
    (runWriters_reaches _ _).trans (endSessions_reaches _ _)

/-! ### The clock -/

theorem setWatches_setWatches (st : Station) (outer : Bool) (ms others : List Monitor) :
    (st.setWatches outer ms).setWatches outer others = st.setWatches outer others := by
  cases outer <;> rfl

theorem watches_setWatches (st : Station) (outer : Bool) (ms : List Monitor) :
    (st.setWatches outer ms).watches outer = ms := by
  cases outer <;> rfl

theorem fire_setWatches (st : Station) (outer : Bool) (ms : List Monitor) (m : Monitor) :
    (st.setWatches outer ms).fire m = ((st.fire m).1, (st.fire m).2.setWatches outer ms) := by
  have same : (st.setWatches outer ms).exchange = st.exchange := by cases outer <;> rfl
  unfold fire
  rw [same]
  cases outer <;> split <;> rfl

theorem probe_setWatches (st : Station) (outer : Bool) (before : List Monitor) (m : Monitor)
    (later : List Monitor) (running : m.ended = false) :
    (st.setWatches outer (before ++ m :: later)).step (.probe outer before.length) =
      (st.fire m).2.setWatches outer (before ++ (st.fire m).1 :: later) := by
  have present : (before ++ m :: later)[before.length]? = some m := by simp
  rw [step, probeOne, watches_setWatches, present]
  dsimp only
  rw [running, fire_setWatches]
  simp [setWatches_setWatches]

/-- The monitors of one list take their turns while the list is written back. -/
theorem probeAll_reaches (st : Station) (outer : Bool) (probed ms : List Monitor) :
    Reaches (st.setWatches outer (probed.reverse ++ ms))
      ((st.probeAll probed ms).2.setWatches outer (st.probeAll probed ms).1) := by
  induction ms generalizing st probed with
  | nil =>
    rw [List.append_nil]
    exact .refl _
  | cons m ms ih =>
    unfold probeAll probe
    by_cases waits : m.ended ∨ m.due ≠ st.now
    · rw [if_pos waits]
      have later := ih st (m :: probed)
      rwa [List.reverse_cons, List.append_assoc] at later
    · rw [if_neg waits]
      have running : m.ended = false := Bool.eq_false_iff.mpr fun ended => waits (Or.inl ended)
      have turn := Reaches.single (st.setWatches outer (probed.reverse ++ m :: ms))
        (.probe outer probed.reverse.length)
      rw [probe_setWatches st outer probed.reverse m ms running] at turn
      have later := ih (st.fire m).2 ((st.fire m).1 :: probed)
      rw [List.reverse_cons, List.append_assoc] at later
      exact turn.trans later

theorem probeAll_setWatches (st : Station) (outer : Bool) (others probed ms : List Monitor) :
    (st.setWatches outer others).probeAll probed ms =
      ((st.probeAll probed ms).1, (st.probeAll probed ms).2.setWatches outer others) := by
  induction ms generalizing st probed with
  | nil => rfl
  | cons m ms ih =>
    have now : (st.setWatches outer others).now = st.now := by cases outer <;> rfl
    unfold probeAll probe
    rw [now]
    by_cases waits : m.ended ∨ m.due ≠ st.now
    · rw [if_pos waits, if_pos waits]
      exact ih st (m :: probed)
    · rw [if_neg waits, if_neg waits, fire_setWatches]
      exact ih (st.fire m).2 ((st.fire m).1 :: probed)

theorem tick_reaches (st : Station) : Reaches st st.tick := by
  let inner := st.probeAll [] st.inner
  let outer := inner.2.probeAll [] inner.2.monitors
  have first : Reaches st (inner.2.setWatches false inner.1) :=
    probeAll_reaches st false [] st.inner
  have second : Reaches (inner.2.setWatches false inner.1)
      ((outer.2.setWatches false inner.1).setWatches true outer.1) := by
    have turns := probeAll_reaches (inner.2.setWatches false inner.1) true [] inner.2.monitors
    rwa [probeAll_setWatches] at turns
  exact (first.trans second).trans (settle_reaches _)

theorem passTime_reaches (st : Station) (clock time : Nat) : Reaches st (st.passTime clock time) := by
  fun_induction passTime st clock time with
  | case1 st clock => exact .single st (.clock time)
  | case2 st clock due _ _ ih =>
    have moved : Reaches st { st with now := due } := .single st (.clock due)
    exact (moved.trans (tick_reaches _)).trans ih
  | case3 st clock => exact .single st (.clock time)

theorem advance_reaches (st : Station) (ms : Nat) : Reaches st (st.advance ms) :=
  passTime_reaches st _ _

/-! ### Far ends -/

theorem receive_reaches (st : Station) (id : ConnId) (bytes : List UInt8) :
    Reaches st (st.receive id bytes).2 := by
  unfold receive
  split
  · exact .refl st
  · next s found =>
    split
    · exact .refl st
    · next more =>
      split
      · exact .refl st
      · have heard := Reaches.single st (.arrive id (.data bytes))
        rw [step, hear, Table.modify, found] at heard
        dsimp only at heard
        rwa [if_neg more] at heard

theorem drop_reaches (st : Station) (id : ConnId) : Reaches st (st.drop id) :=
  Reaches.trans (.single st (.finish id)) (.single _ (.relink id _))

theorem setStalled_reaches (st : Station) (id : ConnId) (stalled : Bool) :
    Reaches st (st.setStalled id stalled) := .single st (.relink id _)

theorem collect_reaches (st : Station) (id : ConnId) : Reaches st (st.collect id).2 := by
  unfold collect
  split
  · exact .refl st
  · next c found =>
    have relinked : ∀ link, Reaches st (st.withExchange (st.exchange.setLink id link)) := by
      intro link
      have linked := Reaches.single st (.relink id fun _ => link)
      rwa [step, mapLink, found] at linked
    split <;> exact relinked _

end Switchboard.Station
