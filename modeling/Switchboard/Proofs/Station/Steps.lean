import Switchboard.Proofs.Station.Effects
import Switchboard.Proofs.Station.Stepped

/-!
One step, part by part: the exchange changes by the deeds of the move or gains a connection, and a
session changes as its far end, its reads and the end of its connection say.
-/

namespace Switchboard.Station

open Exchange (Leads)

variable {st : Station} {id : ConnId}

/-! ### The exchange -/

theorem exchange_withWatch (st : Station) (outer : Bool) (n : Nat) (m : Monitor) :
    (st.withWatch outer n m).exchange = st.exchange := by
  cases outer <;> rfl

/-- Apart from new connections, whatever happens to the exchange are deeds of the move. -/
theorem exchange_step (consistent : st.exchange.Consistent)
    (known : ∀ id s, st.sessions.find? id = some s → st.exchange.Knows id) (m : Move) :
    Leads (st.Does m) st.exchange (st.step m).exchange ∨
      ∃ id entry room stalled link, m = .connect id entry room stalled ∧
        ¬ st.exchange.Knows id ∧ st.step m = st.withClient id entry link := by
  have stepped := step_stepped st m
  generalize st.step m = after at stepped
  cases stepped with
  | connected link unknown => exact Or.inr ⟨_, _, _, _, link, rfl, unknown, rfl⟩
  | read found running turned =>
    exact Or.inl ((turned_leads consistent (known _ _ found) turned).mono fun d reads =>
      .read found running reads)
  | relinked id change link =>
    have linked : Leads (st.Does (.relink id change)) st.exchange
        (st.exchange.perform (.relink id link)) := .single (.relink id change link) _
    exact Or.inl linked
  | reaped id =>
    exact Or.inl ((Hub.close_leads st.hub id).mono fun d shape => shape ▸ .reap id)
  | @pinged outer n w _ x found accepted _ =>
    have pinged : Leads (st.Does (.probe outer n)) st.exchange
        (st.exchange.perform (.send w.conn .probe)) := .single (.ping (List.mem_of_getElem? found)) _
    rw [Exchange.perform_send accepted] at pinged
    rw [exchange_withWatch]
    exact Or.inl pinged
  | @gaveUp outer n w _ found _ =>
    have watching : w ∈ st.watches outer := List.mem_of_getElem? found
    have left : Leads (st.Does (.probe outer n)) st.exchange
        (st.exchange.perform (.leave w.topic w.conn)) := .single (.evict watching) _
    have closed : Leads (st.Does (.probe outer n)) (st.exchange.leave w.topic w.conn).2
        ((st.exchange.leave w.topic w.conn).2.perform (.close w.conn)) :=
      .single (.giveUp watching) _
    rw [exchange_withWatch]
    exact Or.inl (left.trans closed)
  | @dispatched queue event bus _ taken =>
    left
    apply (Hub.dispatch_leads { st.hub with bus := bus } event).mono
    rintro d ⟨frame, written, publishes⟩
    exact .publish taken written publishes
  | _ => exact Or.inl (.refl _)

/-! ### Sessions -/

/-- How a move changes the session of a connection. -/
inductive Becomes (st : Station) (id : ConnId) : Move → Session → Session → Prop
  | same (m : Move) (s : Session) : Becomes st id m s s
  | heard (s : Session) (arrival : Arrival) (more : s.inbox.finished = false) :
    Becomes st id (.arrive id arrival) s (s.arrive arrival)
  | finished (s : Session) : Becomes st id (.finish id) s s.finish
  | turned {s after : Session} {st' : Station} (running : s.ended = false)
    (turned : Turned st id s after st') (shape : st.step (.read id) =
      { st' with sessions := st'.sessions.insert id after }) : Becomes st id (.read id) s after
  | noticed (s : Session) (closed : st.exchange.isClosed id = true) :
    Becomes st id (.notice id) s { s with ended := true }

/-- A turn changes the hub, and starts a monitor at most, for a connection that listens now. -/
theorem turned_eq {after : Station} {s next : Session} (turned : Turned st id s next after) :
    ∃ hub inner, after = { st with hub := hub, inner := inner } ∧
      (hub.tokens = st.hub.tokens ∧ hub.limits = st.hub.limits) ∧ st.hub.bus.Grown hub.bus ∧
      (inner = st.inner ∨
        ∃ m, m.conn = id ∧ next.stage = .listening ∧ inner = st.inner ++ [m]) := by
  cases turned with
  | left _ _ => exact ⟨st.hub.close id, st.inner, rfl, ⟨rfl, rfl⟩, Or.inl rfl, Or.inl rfl⟩
  | rejected fault _ _ _ =>
    refine ⟨st.hub.reject id fault, st.inner, rfl, ?_, ?_, Or.inl rfl⟩
    · rw [Hub.reject_eq]
      exact ⟨rfl, rfl⟩
    · rw [Hub.reject_eq]
      exact Or.inl rfl
  | listening _ _ _ =>
    unfold listen join?
    cases s.entry.topic? with
    | none => exact ⟨st.hub, st.inner, rfl, ⟨rfl, rfl⟩, Or.inl rfl, Or.inl rfl⟩
    | some topic => exact ⟨_, _, rfl, ⟨rfl, rfl⟩, Or.inl rfl, Or.inr ⟨_, rfl, rfl, rfl⟩⟩
  | served _ _ done | dismissed _ _ done =>
    obtain ⟨x, rfl⟩ := serve_hub done
    exact ⟨_, st.inner, rfl, Hub.chat_settings st.hub _ _ _, Hub.chat_bus st.hub _ _ _,
      Or.inl rfl⟩
  | _ => exact ⟨st.hub, st.inner, rfl, ⟨rfl, rfl⟩, Or.inl rfl, Or.inl rfl⟩

theorem turned_sessions {after : Station} {s next : Session} (turned : Turned st id s next after) :
    after.sessions = st.sessions := by
  obtain ⟨hub, inner, rfl, -⟩ := turned_eq turned
  rfl

theorem becomes_same (m : Move) (session? : Option Session) :
    Option.Rel (Becomes st id m) session? session? := by
  cases session? with
  | none => exact .none
  | some s => exact .some (.same m s)

theorem becomes_modify {one : ConnId} {m : Move} {change : Session → Session}
    (becomes : ∀ s, Becomes st one m s (change s)) :
    Option.Rel (Becomes st id m) (st.sessions.find? id)
      ((st.sessions.modify one change).find? id) := by
  rw [Table.find?_modify]
  split
  · next self =>
    subst self
    cases st.sessions.find? one with
    | none => exact .none
    | some s => exact .some (becomes s)
  · exact becomes_same m _

theorem sessions_step (st : Station) (m : Move) (id : ConnId) :
    Option.Rel (Becomes st id m) (st.sessions.find? id) ((st.step m).sessions.find? id) ∨
      ∃ entry room stalled link, m = .connect id entry room stalled ∧ ¬ st.exchange.Knows id ∧
        st.step m = st.withClient id entry link := by
  have stepped := step_stepped st m
  generalize shape : st.step m = after at stepped
  cases stepped with
  | @connected one entry room stalled link unknown =>
    by_cases self : one = id
    · subst self
      exact Or.inr ⟨entry, room, stalled, link, rfl, unknown, rfl⟩
    · left
      rw [withClient, Table.find?_insert, if_neg self]
      exact becomes_same _ _
  | heard one arrival =>
    left
    apply becomes_modify
    intro s
    split
    · exact .same _ s
    · next more => exact .heard s arrival (by simpa using more)
  | finished one => exact Or.inl (becomes_modify .finished)
  | @read one s next after found running turned =>
    left
    rw [turned_sessions turned, Table.find?_insert]
    by_cases self : one = id
    · subst self
      rw [if_pos rfl, found]
      exact .some (.turned running turned shape)
    · rw [if_neg self]
      exact becomes_same _ _
  | noticed closed => exact Or.inl (becomes_modify fun s => .noticed s closed)
  | @pinged outer _ _ _ _ _ _ _ | @gaveUp outer _ _ _ _ _ =>
    left
    cases outer <;> exact becomes_same _ _
  | _ => exact Or.inl (becomes_same _ _)

/-! ### Tokens and monitors -/

theorem settings_step (st : Station) (m : Move) :
    (st.step m).hub.tokens = st.hub.tokens ∧ (st.step m).hub.limits = st.hub.limits := by
  have stepped := step_stepped st m
  generalize st.step m = after at stepped
  cases stepped with
  | read _ _ turned =>
    obtain ⟨hub, inner, rfl, settings, -⟩ := turned_eq turned
    exact settings
  | @pinged outer _ _ _ _ _ _ _ | @gaveUp outer _ _ _ _ _ => cases outer <;> exact ⟨rfl, rfl⟩
  | @dispatched _ event bus _ _ => exact Hub.dispatch_settings { st.hub with bus := bus } event
  | _ => exact ⟨rfl, rfl⟩

theorem tokens_step (st : Station) (m : Move) : (st.step m).hub.tokens = st.hub.tokens :=
  (settings_step st m).1

theorem tokens_run (st : Station) (moves : List Move) :
    (st.run moves).hub.tokens = st.hub.tokens := by
  induction moves generalizing st with
  | nil => rfl
  | cons m moves ih => rw [run_cons, ih, tokens_step]

theorem watches_withWatch {outer which : Bool} {n : Nat} {m after w : Monitor}
    (found : (st.watches outer)[n]? = some m) (same : after.conn = m.conn)
    (member : w ∈ (st.withWatch outer n after).watches which) :
    ∃ v ∈ st.watches which, v.conn = w.conn := by
  by_cases self : outer = which
  · subst self
    have shape : (st.withWatch outer n after).watches outer = (st.watches outer).set n after := by
      cases outer <;> rfl
    rw [shape] at member
    rcases List.mem_or_eq_of_mem_set member with before | rfl
    · exact ⟨w, before, rfl⟩
    · exact ⟨m, List.mem_of_getElem? found, same.symm⟩
  · have shape : (st.withWatch outer n after).watches which = st.watches which := by
      cases outer <;> cases which <;> first | exact absurd rfl self | rfl
    exact ⟨w, shape ▸ member, rfl⟩

theorem watches_step {m : Move} {which : Bool} {w : Monitor}
    (member : w ∈ (st.step m).watches which) :
    (∃ v ∈ st.watches which, v.conn = w.conn) ∨
      (which = false ∧ ∃ s, (st.step m).sessions.find? w.conn = some s ∧ s.stage = .listening) := by
  have stepped := step_stepped st m
  generalize st.step m = after at stepped member
  cases stepped with
  | @read id s next after found running turned =>
    obtain ⟨hub, inner, rfl, -, -, monitors⟩ := turned_eq turned
    cases which with
    | true => exact Or.inl ⟨w, member, rfl⟩
    | false =>
      have member : w ∈ inner := member
      rcases monitors with rfl | ⟨v, watched, listens, rfl⟩
      · exact Or.inl ⟨w, member, rfl⟩
      · rcases List.mem_append.mp member with before | last
        · exact Or.inl ⟨w, before, rfl⟩
        · refine Or.inr ⟨rfl, next, ?_, listens⟩
          rw [List.mem_singleton.mp last, watched, Table.find?_insert, if_pos rfl]
  | @pinged outer n m later x found _ same =>
    left
    have found' : ((st.withExchange x).watches outer)[n]? = some m := by cases outer <;> exact found
    obtain ⟨v, before, watches⟩ := watches_withWatch found' same member
    exact ⟨v, by cases which <;> exact before, watches⟩
  | @gaveUp outer n m later found same =>
    left
    have found' : ((st.withExchange ((st.exchange.leave m.topic m.conn).2.close m.conn)).watches
        outer)[n]? = some m := by cases outer <;> exact found
    obtain ⟨v, before, watches⟩ := watches_withWatch found' same member
    exact ⟨v, by cases which <;> exact before, watches⟩
  | _ => exact Or.inl ⟨w, by cases which <;> exact member, rfl⟩

theorem inner_step {m : Move} {w : Monitor} (member : w ∈ (st.step m).inner) :
    (∃ v ∈ st.inner, v.conn = w.conn) ∨
      ∃ s, (st.step m).sessions.find? w.conn = some s ∧ s.stage = .listening := by
  have member : w ∈ (st.step m).watches false := member
  exact (watches_step member).imp_right And.right

theorem monitors_step {m : Move} (none : st.monitors = []) : (st.step m).monitors = [] := by
  rw [List.eq_nil_iff_forall_not_mem]
  intro w member
  have member : w ∈ (st.step m).watches true := member
  rcases watches_step member with ⟨v, before, -⟩ | ⟨outer, -⟩
  · have before : v ∈ st.monitors := before
    rw [none] at before
    cases before
  · cases outer

end Switchboard.Station
