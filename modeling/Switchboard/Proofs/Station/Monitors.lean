import Switchboard.Proofs.Exchange.Published
import Switchboard.Proofs.Station.Membership
import Switchboard.Proofs.Station.Runs

/-!
Monitors, act by act: which are started, what a turn makes of one, and what the probes of one come
to on a run.
-/

namespace Switchboard

def Session.admitted? (tokens : List TokenEntry) (s : Session) : Option Topic :=
  match s.inbox.next with
  | .got (.ok e) _ =>
    match s.stage with
    | .waiting => if (authenticate tokens s.entry e).isOk then s.entry.topic? else none
    | _ => none
  | _ => none

def Act.turn? : Act → Option (Bool × Nat)
  | .move (.probe outer n) => some (outer, n)
  | _ => none

theorem Act.turn?_eq_some {a : Act} {outer : Bool} {n : Nat} :
    a.turn? = some (outer, n) ↔ a = .move (.probe outer n) := by
  constructor
  · intro turn
    unfold turn? at turn
    split at turn
    · cases turn
      rfl
    · cases turn
  · rintro rfl
    rfl

namespace Station

variable {st after : Station} {id : ConnId} {s next : Session} {who : Identity} {e : Envelope}
  {rest : Inbox} {outer : Bool} {n : Nat} {m w : Monitor} {a : Act} {topic : Topic}

/-! ### Admissions -/

theorem admitted?_speaks (got : s.inbox.next = .got (.ok e) rest)
    (speaks : s.Speaks st.hub.tokens e who) : s.admitted? st.hub.tokens = none := by
  unfold Session.admitted?
  rcases speaks with stage | ⟨waiting, chat, -⟩
  · simp only [got, stage]
  · simp only [got, waiting, chat, EntryPoint.topic?, ite_self]

theorem admitted?_unfit (unfit : ∀ e rest who, s.inbox.next = .got (.ok e) rest →
    ¬ s.Admits st.hub.tokens e who ∧ ¬ s.Speaks st.hub.tokens e who) :
    s.admitted? st.hub.tokens = none := by
  unfold Session.admitted?
  split
  · next e rest got =>
    split
    · next waiting =>
      cases accepted : authenticate st.hub.tokens s.entry e with
      | error why => rfl
      | ok who => exact absurd ⟨waiting, accepted⟩ (unfit e rest who got).1
    · rfl
  · rfl

theorem turned_inner (turned : Turned st id s next after) :
    after.inner = st.inner ++ (s.admitted? st.hub.tokens).toList.map (st.monitorFor id) := by
  cases turned with
  | idle pending =>
    rw [admitted?_unfit fun e rest who got => by rw [pending] at got; cases got]
    exact (List.append_nil _).symm
  | left ended _ =>
    rw [admitted?_unfit fun e rest who got => by rw [ended] at got; cases got]
    exact (List.append_nil _).symm
  | rejected fault _ _ unfit =>
    rw [admitted?_unfit unfit]
    exact (List.append_nil _).symm
  | listening got admits special =>
    have accepted : s.admitted? st.hub.tokens = s.entry.topic? := by
      unfold Session.admitted?
      simp only [got, admits.1, admits.2]
      rfl
    rw [accepted]
    unfold listen join?
    cases s.entry.topic? with
    | none => exact (List.append_nil _).symm
    | some topic => rfl
  | admitted got speaks _ =>
    rw [admitted?_speaks got speaks]
    exact (List.append_nil _).symm
  | served got speaks done | dismissed got speaks done =>
    obtain ⟨x, rfl⟩ := serve_hub done
    rw [admitted?_speaks got speaks]
    exact (List.append_nil _).symm
  | ignored got listens =>
    have none : s.admitted? st.hub.tokens = none := by
      unfold Session.admitted?
      simp only [got, listens]
    rw [none]
    exact (List.append_nil _).symm

theorem turned_monitors (turned : Turned st id s next after) : after.monitors = st.monitors := by
  obtain ⟨hub, inner, rfl, -⟩ := turned_eq turned
  rfl

def admitted? (st : Station) (id : ConnId) : Option Topic :=
  match st.sessions.find? id with
  | some s => if s.ended then none else s.admitted? st.hub.tokens
  | none => none

/-- Who is admitted to what with an act. -/
def admissions (st : Station) : Act → List (Topic × ConnId)
  | .move (.read id) => (st.admitted? id).toList.map fun topic => (topic, id)
  | .enroll id entry =>
    if st.exchange.Knows id then entry.topic?.toList.map fun topic => (topic, id) else []
  | _ => []

def admissionsAll (st : Station) : List Act → List (Topic × ConnId)
  | [] => []
  | a :: acts => st.admissions a ++ (st.act a).admissionsAll acts

theorem admissions_known (sound : st.Sound) (admitted : (topic, id) ∈ st.admissions a) :
    st.exchange.Knows id := by
  unfold admissions at admitted
  split at admitted
  · next one =>
    obtain ⟨other, member, shape⟩ := List.mem_map.mp admitted
    cases shape
    unfold admitted? at member
    split at member
    · next s found => exact sound.known id s found
    · cases member
  · next one entry =>
    split at admitted
    · next known =>
      obtain ⟨other, -, shape⟩ := List.mem_map.mp admitted
      cases shape
      exact known
    · cases admitted
  · cases admitted

/-! ### Turns -/

theorem watches_withExchange (x : Exchange) :
    (st.withExchange x).watches outer = st.watches outer := by
  cases outer <;> rfl

theorem watches_withWatch_other {which : Bool} (different : which ≠ outer) :
    (st.withWatch which n m).watches outer = st.watches outer := by
  cases which <;> cases outer <;> first | exact absurd rfl different | rfl

def afterTurn (st : Station) (m : Monitor) : Monitor := if m.ended then m else (st.fire m).1

theorem probe_idle (idle : ∀ m, (st.watches outer)[n]? = some m → m.ended = true) :
    st.step (.probe outer n) = st := by
  rw [step, probeOne]
  split
  · rfl
  · next m found => exact if_pos (idle m found)

theorem probe_running (found : (st.watches outer)[n]? = some m) (running : m.ended = false) :
    st.step (.probe outer n) =
      (st.fire m).2.setWatches outer ((st.watches outer).set n (st.fire m).1) := by
  rw [step, probeOne, found]
  exact if_neg (Bool.eq_false_iff.mp running)

theorem watches_probe (st : Station) (outer : Bool) (n : Nat) :
    (st.step (.probe outer n)).watches outer = (st.watches outer).modify n st.afterTurn := by
  rw [List.modify_eq_set_getElem?]
  cases found : (st.watches outer)[n]? with
  | none =>
    rw [probe_idle fun m there => by rw [found] at there; cases there]
    rfl
  | some m =>
    rw [Option.map_eq_map, Option.map_some, Option.getD_some, afterTurn]
    cases state : m.ended with
    | true =>
      obtain ⟨inside, same⟩ := List.getElem?_eq_some_iff.mp found
      rw [probe_idle fun w there => by rw [found] at there; cases there; exact state, if_pos rfl,
        ← same, List.set_getElem_self]
    | false =>
      rw [probe_running found state, watches_setWatches]
      rfl

theorem fire_monitor (st : Station) (m : Monitor) :
    (st.fire m).1 = if st.exchange.takes .probe m.conn then { m with due := m.due + m.every }
      else { m with ended := true } := by
  unfold fire Exchange.takes
  cases st.exchange.send m.conn .probe <;> rfl

/-- A turn leaves the connection of its monitor sent one more frame, the probe, or closed. -/
theorem fire_exchange (st : Station) (m : Monitor) :
    (∃ x, st.exchange.send m.conn .probe = .ok x ∧ (st.fire m).2.exchange = x) ∨
      (st.exchange.takes .probe m.conn = false ∧
        (st.fire m).2.exchange = (st.exchange.leave m.topic m.conn).2.close m.conn) := by
  unfold fire
  cases sent : st.exchange.send m.conn .probe with
  | ok x => exact Or.inl ⟨x, rfl, rfl⟩
  | error why => exact Or.inr ⟨Exchange.takes_of_error sent, rfl⟩

/-! ### The monitors of an act -/

def begun (st : Station) (outer : Bool) (a : Act) : List Monitor :=
  match a with
  | .move (.read _) =>
    if outer then [] else (st.admissions a).map fun who => st.monitorFor who.2 who.1
  | .enroll _ _ =>
    if outer then (st.admissions a).map fun who => st.monitorFor who.2 who.1 else []
  | .monitor id topic every => if outer then [Monitor.begin st.now id topic every] else []
  | _ => []

theorem begun_read (st : Station) (id : ConnId) :
    st.begun false (.move (.read id)) = (st.admitted? id).toList.map (st.monitorFor id) := by
  change ((st.admitted? id).toList.map fun topic => (topic, id)).map
    (fun who => st.monitorFor who.2 who.1) = _
  rw [List.map_map]
  rfl

theorem inner_read (st : Station) (id : ConnId) :
    (st.step (.read id)).inner =
      st.inner ++ (st.admitted? id).toList.map (st.monitorFor id) := by
  cases found : st.sessions.find? id with
  | none =>
    rw [step, read, admitted?, found]
    exact (List.append_nil _).symm
  | some s =>
    cases state : s.ended with
    | true =>
      rw [step, read, admitted?, found]
      simp only [state, if_true]
      exact (List.append_nil _).symm
    | false =>
      obtain ⟨next, after, turned, shape⟩ := read_running found state
      have inner := turned_inner turned
      rw [shape, admitted?, found]
      simp only [state]
      exact inner

theorem monitors_read (st : Station) (id : ConnId) :
    (st.step (.read id)).monitors = st.monitors := by
  rcases read_cases st id with same | ⟨s, next, after, -, -, turned, shape⟩
  · rw [step, same]
  · have same := turned_monitors turned
    rw [step, shape]
    exact same

theorem watches_read (st : Station) (outer : Bool) (id : ConnId) :
    (st.step (.read id)).watches outer =
      st.watches outer ++ st.begun outer (.move (.read id)) := by
  cases outer with
  | true => exact (monitors_read st id).trans (List.append_nil _).symm
  | false =>
    rw [begun_read]
    exact inner_read st id

theorem watches_move {m : Move} (unread : ∀ id, m ≠ .read id) (others : ∀ n, m ≠ .probe outer n) :
    (st.step m).watches outer = st.watches outer := by
  have stepped := step_stepped st m
  generalize st.step m = after at stepped
  cases stepped with
  | read _ _ _ => exact absurd rfl (unread _)
  | @pinged which n _ _ _ _ _ _ | @gaveUp which n _ _ _ _ =>
    have different : which ≠ outer := by
      rintro rfl
      exact others n rfl
    rw [watches_withWatch_other different, watches_withExchange]
  | _ => cases outer <;> rfl

theorem watches_act (others : ∀ n, a.turn? ≠ some (outer, n)) :
    (st.act a).watches outer = st.watches outer ++ st.begun outer a := by
  have same : (st.act a).watches outer = st.watches outer → st.begun outer a = [] →
      (st.act a).watches outer = st.watches outer ++ st.begun outer a := by
    intro same none
    rw [same, none, List.append_nil]
  cases a with
  | move m =>
    by_cases reads : ∃ id, m = .read id
    · obtain ⟨id, rfl⟩ := reads
      exact watches_read st outer id
    · apply same
      · apply watches_move fun id shape => reads ⟨id, shape⟩
        rintro n rfl
        exact others n rfl
      · cases m with
        | read id => exact absurd ⟨id, rfl⟩ reads
        | _ => rfl
  | addPeer id allowance? =>
    apply same _ rfl
    rw [act, unlessKnown]
    split
    · rfl
    · cases outer <;> rfl
  | addClient id room stalled =>
    apply same _ rfl
    rw [act, unlessKnown]
    split
    · rfl
    · rcases st.client_cases id room stalled with shape | ⟨link, shape⟩ <;> rw [shape]
      exact watches_withExchange _
  | enroll id entry =>
    rw [act, given, begun, admissions]
    split
    · unfold enroll join?
      cases outer <;> cases entry.topic? <;> simp [watches, withExchange]
    · cases outer <;> simp
  | monitor id topic every => cases outer <;> simp [act, monitor, begun, watches]
  | join _ id | joinRoom _ id | joinAllRooms id | chat _ id _ =>
    apply same _ rfl
    rw [act, given]
    split
    · cases outer <;> rfl
    · rfl
  | _ =>
    apply same _ rfl
    cases outer <;> rfl

/-- Every admission starts a monitor. -/
theorem admission_begins (admitted : (topic, id) ∈ st.admissions a) :
    ∃ outer, st.monitorFor id topic ∈ st.begun outer a ∧ a.turn? = none := by
  have begins : st.monitorFor id topic ∈
      (st.admissions a).map fun who => st.monitorFor who.2 who.1 :=
    List.mem_map.mpr ⟨(topic, id), admitted, rfl⟩
  unfold admissions at admitted
  split at admitted
  · exact ⟨false, begins, rfl⟩
  · exact ⟨true, begins, rfl⟩
  · cases admitted

theorem getElem?_watches_act (found : (st.watches outer)[n]? = some m) :
    ((st.act a).watches outer)[n]? =
      some (if a.turn? = some (outer, n) then st.afterTurn m else m) := by
  by_cases turns : ∃ k, a.turn? = some (outer, k)
  · obtain ⟨k, turn⟩ := turns
    rw [turn, Act.turn?_eq_some.mp turn, act, watches_probe, List.getElem?_modify, found]
    by_cases self : k = n <;> simp [self]
  · have others : ∀ k, a.turn? ≠ some (outer, k) := fun k turn => turns ⟨k, turn⟩
    have inside : n < (st.watches outer).length := (List.getElem?_eq_some_iff.mp found).1
    rw [watches_act others, List.getElem?_append_left inside, found, if_neg (others n)]

theorem getElem?_watches_new (missing : (st.watches outer)[n]? = none)
    (found : ((st.act a).watches outer)[n]? = some m) : m ∈ st.begun outer a := by
  by_cases turns : ∃ k, a.turn? = some (outer, k)
  · obtain ⟨k, turn⟩ := turns
    rw [Act.turn?_eq_some.mp turn, act, watches_probe, List.getElem?_modify, missing] at found
    cases found
  · have others : ∀ k, a.turn? ≠ some (outer, k) := fun k turn => turns ⟨k, turn⟩
    have short := List.getElem?_eq_none_iff.mp missing
    rw [watches_act others, List.getElem?_append_right short] at found
    exact List.mem_of_getElem? found

/-! ### Monitors stay where they are -/

theorem conn_afterTurn (st : Station) (m : Monitor) :
    (st.afterTurn m).conn = m.conn ∧ (st.afterTurn m).topic = m.topic := by
  rw [afterTurn, fire_monitor]
  split
  · exact ⟨rfl, rfl⟩
  · split <;> exact ⟨rfl, rfl⟩

theorem watch_act (member : m ∈ st.watches outer) (a : Act) :
    ∃ w ∈ (st.act a).watches outer, w.conn = m.conn ∧ w.topic = m.topic := by
  obtain ⟨n, found⟩ := List.getElem?_of_mem member
  refine ⟨_, List.mem_of_getElem? (getElem?_watches_act (a := a) found), ?_⟩
  split
  · exact st.conn_afterTurn m
  · exact ⟨rfl, rfl⟩

theorem watch_actAll (member : m ∈ st.watches outer) (acts : List Act) :
    ∃ w ∈ (st.actAll acts).watches outer, w.conn = m.conn ∧ w.topic = m.topic := by
  induction acts generalizing st m with
  | nil => exact ⟨m, member, rfl, rfl⟩
  | cons a acts ih =>
    obtain ⟨v, there, conn, topic⟩ := watch_act member a
    obtain ⟨w, member', conn', topic'⟩ := ih there
    exact ⟨w, member', conn'.trans conn, topic'.trans topic⟩

/-- Whoever has been admitted on a run has a monitor. -/
theorem admitted_actAll {acts : List Act} (admitted : (topic, id) ∈ st.admissionsAll acts) :
    ∃ outer, ∃ m ∈ (st.actAll acts).watches outer, m.conn = id ∧ m.topic = topic := by
  induction acts generalizing st with
  | nil => cases admitted
  | cons a acts ih =>
    rcases List.mem_append.mp admitted with now | later
    · obtain ⟨outer, begins, turnless⟩ := admission_begins now
      have others : ∀ n, a.turn? ≠ some (outer, n) := fun n turn => by
        rw [turnless] at turn
        cases turn
      have there : st.monitorFor id topic ∈ (st.act a).watches outer := by
        rw [watches_act others]
        exact List.mem_append_right _ begins
      obtain ⟨m, member, conn, topic⟩ := watch_actAll there acts
      exact ⟨outer, m, member, conn, topic⟩
    · exact ih later

/-! ### What a run does to a monitor -/

def probed? (st : Station) (outer : Bool) (n : Nat) (a : Act) : Option Bool :=
  if a.turn? = some (outer, n) then
    ((st.watches outer)[n]?.filter fun m => !m.ended).map fun m => st.exchange.takes .probe m.conn
  else none

def probedAll (st : Station) (outer : Bool) (n : Nat) : List Act → List Bool
  | [] => []
  | a :: acts => (st.probed? outer n a).toList ++ (st.act a).probedAll outer n acts

theorem probed?_running (found : (st.watches outer)[n]? = some m) (running : m.ended = false) :
    st.probed? outer n a =
      if a.turn? = some (outer, n) then some (st.exchange.takes .probe m.conn) else none := by
  rw [probed?, found, Option.filter_some, running]
  rfl

theorem probed?_ended (found : (st.watches outer)[n]? = some m) (ended : m.ended = true) :
    st.probed? outer n a = none := by
  rw [probed?, found, Option.filter_some, ended]
  exact ite_self _

theorem probed?_missing (missing : (st.watches outer)[n]? = none) :
    st.probed? outer n a = none := by
  rw [probed?, missing]
  exact ite_self _

theorem ended_actAll (found : (st.watches outer)[n]? = some m) (ended : m.ended = true)
    (acts : List Act) :
    ((st.actAll acts).watches outer)[n]? = some m ∧ st.probedAll outer n acts = [] := by
  induction acts generalizing st with
  | nil => exact ⟨found, rfl⟩
  | cons a acts ih =>
    have kept : ((st.act a).watches outer)[n]? = some m := by
      rw [getElem?_watches_act found, afterTurn, if_pos ended, ite_self]
    rw [probedAll, probed?_ended found ended]
    exact ih kept

/-- A monitor goes on as long as its probes are taken; the first that is refused is the last. -/
theorem running_actAll (found : (st.watches outer)[n]? = some m) (running : m.ended = false)
    (acts : List Act) :
    ∃ taken ended, ((st.actAll acts).watches outer)[n]? =
        some { m with due := m.due + taken * m.every, ended := ended } ∧
      st.probedAll outer n acts =
        List.replicate taken true ++ if ended then [false] else [] := by
  induction acts generalizing st m with
  | nil =>
    refine ⟨0, false, ?_, rfl⟩
    rw [Nat.zero_mul, Nat.add_zero, ← running]
    exact found
  | cons a acts ih =>
    have after := getElem?_watches_act (a := a) found
    rw [probedAll, probed?_running found running]
    by_cases turn : a.turn? = some (outer, n)
    · rw [if_pos turn, afterTurn, if_neg (Bool.eq_false_iff.mp running), fire_monitor] at after
      rw [if_pos turn, Option.toList_some]
      cases takes : st.exchange.takes .probe m.conn with
      | true =>
        rw [takes, if_pos rfl] at after
        obtain ⟨taken, ended, found', probed⟩ := ih after running
        refine ⟨taken + 1, ended, ?_, ?_⟩
        · rw [Nat.succ_mul, Nat.add_comm (taken * m.every), ← Nat.add_assoc]
          exact found'
        · rw [probed]
          rfl
      | false =>
        rw [takes, if_neg Bool.false_ne_true] at after
        obtain ⟨found', silent⟩ := ended_actAll after rfl acts
        refine ⟨0, true, ?_, ?_⟩
        · rw [Nat.zero_mul, Nat.add_zero]
          exact found'
        · rw [silent]
          rfl
    · rw [if_neg turn] at after
      rw [if_neg turn]
      exact ih after running

end Station

end Switchboard
