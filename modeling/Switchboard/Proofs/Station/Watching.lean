import Switchboard.Proofs.Station.Monitors

/-!
Who is watched. Whoever is admitted to the topic of a role has a monitor; it probes at each of its
turns until a probe is refused, and only a closed connection has a monitor that has ended.
-/

namespace Switchboard.Station

variable {st : Station} {id : ConnId} {outer : Bool} {n : Nat} {m : Monitor} {a : Act}
  {topic : Topic}

/-! ### Closed connections -/

theorem refused_actAll (sound : st.Sound) (found : (st.watches outer)[n]? = some m)
    (known : st.exchange.Knows m.conn) (closed : st.exchange.isClosed m.conn = true)
    (acts : List Act) :
    true ∉ st.probedAll outer n acts ∧ (st.actAll acts).exchange.isClosed m.conn = true ∧
      (st.actAll acts).exchange.sentTo m.conn = st.exchange.sentTo m.conn := by
  induction acts generalizing st m with
  | nil => exact ⟨List.not_mem_nil, closed, rfl⟩
  | cons a acts ih =>
    have refused : st.probed? outer n a ≠ some true := by
      cases state : m.ended with
      | true => simp [probed?_ended found state]
      | false =>
        have refused : st.exchange.takes .probe m.conn = false :=
          Exchange.takes_closed closed .probe
        simp [probed?_running found state, refused]
    obtain ⟨closed', same⟩ := closed_act sound a known closed
    have after := getElem?_watches_act (a := a) found
    have conn : (if a.turn? = some (outer, n) then st.afterTurn m else m).conn = m.conn := by
      split
      · exact (st.conn_afterTurn m).1
      · rfl
    obtain ⟨untaken, shut, silent⟩ := ih (sound.act a) after (conn ▸ knows_act sound a known)
      (conn ▸ closed')
    rw [conn] at shut silent
    refine ⟨?_, shut, silent.trans same⟩
    intro member
    rcases List.mem_append.mp member with first | later
    · exact refused (Option.mem_toList.mp first)
    · exact untaken later

theorem closed_actAll (sound : st.Sound) (found : (st.watches outer)[n]? = some m)
    (known : st.exchange.Knows m.conn) (closed : st.exchange.isClosed m.conn = true)
    (acts : List Act) :
    st.probedAll outer n acts = [] ∨ st.probedAll outer n acts = [false] := by
  have untaken := (refused_actAll sound found known closed acts).1
  cases state : m.ended with
  | true => exact Or.inl (ended_actAll found state acts).2
  | false =>
    obtain ⟨taken, ended, -, probed⟩ := running_actAll found state acts
    rw [probed] at untaken ⊢
    cases taken with
    | zero => cases ended <;> simp
    | succ taken => exact absurd List.mem_cons_self untaken

/-! ### One turn -/

/-- What comes of the turn of a monitor: nothing if it has ended; one probe for its connection, or
else the end of both, and nothing for anybody else. -/
structure Turns (st : Station) (outer : Bool) (n : Nat) (m : Monitor) (next : Station) : Prop where
  idle : m.ended = true → next = st
  taken : m.ended = false → st.exchange.takes .probe m.conn = true →
    (next.watches outer)[n]? = some { m with due := m.due + m.every } ∧
      ∀ one, next.exchange.sentTo one =
        if m.conn = one then st.exchange.sentTo one ++ [.probe] else st.exchange.sentTo one
  refused : m.ended = false → st.exchange.takes .probe m.conn = false →
    (next.watches outer)[n]? = some { m with ended := true } ∧
      next.exchange.isClosed m.conn = true ∧ next.exchange.Forgotten m.conn ∧
      ∀ one, next.exchange.sentTo one = st.exchange.sentTo one

theorem turns_probe (sound : st.Sound) (found : (st.watches outer)[n]? = some m) :
    st.Turns outer n m (st.step (.probe outer n)) := by
  have idle : m.ended = true → st.step (.probe outer n) = st := by
    intro ended
    apply probe_idle
    intro w there
    rw [found] at there
    cases there
    exact ended
  have exchange : m.ended = false →
      (st.step (.probe outer n)).exchange = (st.fire m).2.exchange := by
    intro running
    rw [probe_running found running]
    cases outer <;> rfl
  have after : m.ended = false → ((st.step (.probe outer n)).watches outer)[n]? =
      some (if st.exchange.takes .probe m.conn then { m with due := m.due + m.every }
        else { m with ended := true }) := by
    intro running
    rw [watches_probe, List.getElem?_modify, found, ← fire_monitor]
    simp [afterTurn, running]
  refine ⟨idle, ?_, ?_⟩
  · intro running taken
    have after := after running
    rw [taken] at after
    refine ⟨after, fun one => ?_⟩
    rw [exchange running]
    rcases fire_exchange st m with ⟨x, sent, shape⟩ | ⟨refused, -⟩
    · rw [shape]
      exact Exchange.sentTo_send sent one
    · rw [taken] at refused
      cases refused
  · intro running untaken
    have after := after running
    rw [untaken] at after
    rcases fire_exchange st m with ⟨x, sent, -⟩ | ⟨-, shape⟩
    · rw [Exchange.takes_of_ok sent] at untaken
      cases untaken
    · have left := sound.consistent.leave m.topic m.conn
      have closed : (st.step (.probe outer n)).exchange.isClosed m.conn = true := by
        rw [exchange running, shape, Exchange.isClosed_close left, decide_eq_true rfl,
          Bool.true_or]
      refine ⟨after, closed, (sound.step (.probe outer n)).consistent.forgotten closed,
        fun one => ?_⟩
      rw [exchange running, shape, Exchange.sentTo_close left]
      exact (Exchange.SameConns.leave st.exchange m.topic m.conn).sent one

/-! ### Who is watched -/

/-- Whoever starts a monitor has a connection and a period for it, and does so while the clock can
still reach the first probe. -/
def Sensible (st : Station) : Act → Prop
  | .monitor id _ every => st.exchange.Knows id ∧ every ≠ 0 ∧ st.now + every < horizon
  | a => st.admissions a ≠ [] → st.now + st.probePeriod < horizon

def SensibleAll (st : Station) : List Act → Prop
  | [] => True
  | a :: acts => st.Sensible a ∧ (st.act a).SensibleAll acts

theorem limits_act (st : Station) (a : Act) : (st.act a).hub.limits = st.hub.limits := by
  cases a with
  | move m => exact (settings_step st m).2
  | addPeer id allowance? =>
    rw [act, unlessKnown]
    split <;> rfl
  | addClient id room stalled =>
    rw [act, unlessKnown]
    split
    · rfl
    · rcases st.client_cases id room stalled with shape | ⟨link, shape⟩
      · rw [shape]
      · rw [shape]
        rfl
  | chat who id e =>
    rw [act, given]
    split
    · exact (Hub.chat_settings st.hub who id e).2
    · rfl
  | enroll id entry =>
    rw [act, given, enroll, join?]
    split
    · cases entry.topic? <;> rfl
    · rfl
  | join _ id | joinRoom _ id | joinAllRooms id =>
    rw [act, given]
    split <;> rfl
  | dispatch event => exact (Hub.dispatch_settings st.hub event).2
  | _ => rfl

/-- A station whose monitors watch connections that are there, and end with them only. -/
structure Watching (st : Station) : Prop extends st.Sound where
  positive : st.hub.limits.probeIntervalSecs.toNat ≠ 0
  watched : ∀ outer, ∀ m ∈ st.watches outer, st.exchange.Knows m.conn
  spent : ∀ outer, ∀ m ∈ st.watches outer, m.ended = true → st.exchange.isClosed m.conn = true

theorem running_begin {now every : Nat} (positive : every ≠ 0) (reached : now + every < horizon)
    (id : ConnId) (topic : Topic) : (Monitor.begin now id topic every).ended = false := by
  apply decide_eq_false
  rintro (zero | late)
  · exact positive zero
  · exact Nat.not_lt.mpr late reached

theorem reached_of_sensible (sensible : st.Sensible a) (admitted : (topic, id) ∈ st.admissions a) :
    st.now + st.probePeriod < horizon := by
  have some := List.ne_nil_of_mem admitted
  cases a with
  | monitor id topic every => cases admitted
  | _ => exact sensible some

theorem Watching.monitorFor (h : st.Watching) (reached : st.now + st.probePeriod < horizon)
    (id : ConnId) (topic : Topic) : (st.monitorFor id topic).ended = false := by
  have positive := h.positive
  apply running_begin _ reached
  unfold probePeriod
  omega

theorem Watching.begun (h : st.Watching) (sensible : st.Sensible a)
    (begins : m ∈ st.begun outer a) : m.ended = false ∧ st.exchange.Knows m.conn := by
  have admitted : ∀ {ms : List Monitor}, m ∈ ms →
      ms = (st.admissions a).map (fun who => st.monitorFor who.2 who.1) →
      m.ended = false ∧ st.exchange.Knows m.conn := by
    rintro ms member rfl
    obtain ⟨⟨topic, id⟩, admitted, rfl⟩ := List.mem_map.mp member
    have reached := reached_of_sensible sensible admitted
    exact ⟨h.monitorFor reached id topic, admissions_known h.toSound admitted⟩
  unfold Station.begun at begins
  split at begins
  · split at begins
    · cases begins
    · exact admitted begins rfl
  · split at begins
    · exact admitted begins rfl
    · cases begins
  · split at begins
    · rw [List.mem_singleton.mp begins]
      obtain ⟨known, positive, reached⟩ := sensible
      exact ⟨running_begin positive reached _ _, known⟩
    · cases begins
  · cases begins

theorem Watching.act (h : st.Watching) (sensible : st.Sensible a) : (st.act a).Watching where
  toSound := h.toSound.act a
  positive := by
    rw [limits_act]
    exact h.positive
  watched := by
    intro outer w member
    obtain ⟨n, found⟩ := List.getElem?_of_mem member
    apply knows_act h.toSound a
    cases before : (st.watches outer)[n]? with
    | none => exact (h.begun sensible (getElem?_watches_new before found)).2
    | some m =>
      have watched := h.watched outer m (List.mem_of_getElem? before)
      rw [getElem?_watches_act before] at found
      cases found
      split
      · exact (st.conn_afterTurn m).1 ▸ watched
      · exact watched
  spent := by
    intro outer w member ended
    obtain ⟨n, found⟩ := List.getElem?_of_mem member
    cases before : (st.watches outer)[n]? with
    | none =>
      have running := (h.begun sensible (getElem?_watches_new before found)).1
      rw [running] at ended
      cases ended
    | some m =>
      have inside := List.mem_of_getElem? before
      have stays : m.ended = true → (st.act a).exchange.isClosed m.conn = true := fun ended =>
        (closed_act h.toSound a (h.watched outer m inside) (h.spent outer m inside ended)).1
      rw [getElem?_watches_act before] at found
      cases found
      by_cases turn : a.turn? = some (outer, n)
      · rw [if_pos turn] at ended ⊢
        rw [(st.conn_afterTurn m).1]
        cases state : m.ended with
        | true => exact stays state
        | false =>
          rw [afterTurn, if_neg (Bool.eq_false_iff.mp state), fire_monitor] at ended
          cases takes : st.exchange.takes .probe m.conn with
          | true =>
            rw [takes, if_pos rfl, state] at ended
            cases ended
          | false =>
            -- the turn on which it ended was that of a refused probe, which closes the connection
            rw [Act.turn?_eq_some.mp turn]
            exact ((turns_probe h.toSound before).refused state takes).2.1
      · rw [if_neg turn] at ended ⊢
        exact stays ended

theorem Watching.actAll (h : st.Watching) {acts : List Act} (sensible : st.SensibleAll acts) :
    (st.actAll acts).Watching := by
  induction acts generalizing st with
  | nil => exact h
  | cons a acts ih => exact ih (h.act sensible.1) sensible.2

theorem fresh_watching (boot : Nat) (whole : Bool) (tokens : List TokenEntry) {limits : Limits}
    (positive : limits.probeIntervalSecs.toNat ≠ 0) :
    { fresh whole tokens limits with now := boot }.Watching where
  toSound := (fresh_sound whole tokens limits).step (.clock boot)
  positive := positive
  watched := by
    intro outer m member
    cases outer <;> cases member
  spent := by
    intro outer m member
    cases outer <;> cases member

/-! ### The monitors of a run -/

/-- The probes of a monitor that starts on a run: all are taken but for the last one, if it has
ended. -/
theorem Watching.probedAll (h : st.Watching) {acts : List Act} (sensible : st.SensibleAll acts)
    (missing : (st.watches outer)[n]? = none)
    (found : ((st.actAll acts).watches outer)[n]? = some m) :
    ∃ taken, st.probedAll outer n acts =
      List.replicate taken true ++ if m.ended then [false] else [] := by
  induction acts generalizing st with
  | nil =>
    have found : (st.watches outer)[n]? = some m := found
    rw [missing] at found
    cases found
  | cons a acts ih =>
    rw [Station.probedAll, probed?_missing missing]
    cases after : ((st.act a).watches outer)[n]? with
    | none => exact ih (h.act sensible.1) sensible.2 after found
    | some w =>
      have running := (h.begun sensible.1 (getElem?_watches_new missing after)).1
      obtain ⟨taken, ended, found', probed⟩ := running_actAll after running acts
      have same : some m = _ := found.symm.trans found'
      cases same
      exact ⟨taken, probed⟩

/-- After any run, if monitors have a period and the clock reaches their first probes, whoever was
admitted to the topic of a role and is open has a monitor that runs. The probes that a monitor has
offered, one at each of its turns, were all taken but for the last one if it has ended; its
connection is closed then, and a member of nothing. Once a connection is closed, by whomever, each
of its monitors offers one more probe at most, nothing reaches it, and monitors that have ended
stay so. -/
theorem admitted_watched (boot : Nat) (whole : Bool) (tokens : List TokenEntry) (limits : Limits)
    (acts : List Act) (positive : limits.probeIntervalSecs.toNat ≠ 0)
    (sensible : { fresh whole tokens limits with now := boot }.SensibleAll acts) :
    let start := { fresh whole tokens limits with now := boot }
    let st := start.actAll acts
    (∀ topic id, (topic, id) ∈ start.admissionsAll acts → st.exchange.isClosed id = false →
      ∃ outer, ∃ m ∈ st.watches outer, m.conn = id ∧ m.topic = topic ∧ m.ended = false) ∧
      ∀ outer n m, (st.watches outer)[n]? = some m →
        (∃ taken, start.probedAll outer n acts =
          List.replicate taken true ++ if m.ended then [false] else []) ∧
        st.Turns outer n m (st.act (.move (.probe outer n))) ∧
        (m.ended = true → st.exchange.isClosed m.conn = true ∧ st.exchange.Forgotten m.conn ∧
          ∀ later, ((st.actAll later).watches outer)[n]? = some m ∧
            st.probedAll outer n later = []) ∧
        (st.exchange.isClosed m.conn = true → ∀ later,
          (st.probedAll outer n later = [] ∨ st.probedAll outer n later = [false]) ∧
            (st.actAll later).exchange.isClosed m.conn = true ∧
            (st.actAll later).exchange.Forgotten m.conn ∧
            (st.actAll later).exchange.sentTo m.conn = st.exchange.sentTo m.conn) := by
  intro start st
  have watching : start.Watching := fresh_watching boot whole tokens positive
  have h : st.Watching := watching.actAll sensible
  refine ⟨?_, ?_⟩
  · intro topic id admitted opened
    obtain ⟨outer, m, member, rfl, rfl⟩ := admitted_actAll admitted
    refine ⟨outer, m, member, rfl, rfl, ?_⟩
    apply Bool.eq_false_iff.mpr
    intro ended
    rw [h.spent outer m member ended] at opened
    cases opened
  · intro outer n m found
    have member := List.mem_of_getElem? found
    have missing : (start.watches outer)[n]? = none := by cases outer <;> rfl
    refine ⟨watching.probedAll sensible missing found, turns_probe h.toSound found, ?_, ?_⟩
    · intro ended
      have closed := h.spent outer m member ended
      exact ⟨closed, h.consistent.forgotten closed, fun later => ended_actAll found ended later⟩
    · intro closed later
      have known := h.watched outer m member
      obtain ⟨-, shut, silent⟩ := refused_actAll h.toSound found known closed later
      exact ⟨closed_actAll h.toSound found known closed later, shut,
        (h.toSound.actAll later).consistent.forgotten shut, silent⟩

def listening : List Act :=
  [.addPeer 1 none, .enroll 1 .adminNotifications, .move (.probe true 0)]

theorem admitted_watched_listening :
    let start := { fresh true [] .standard with now := 3600000 }
    let st := start.actAll listening
    start.SensibleAll listening ∧ st.exchange.isClosed 1 = false ∧
      ∃ outer, ∃ m ∈ st.watches outer,
        m.conn = 1 ∧ m.topic = .adminNotifications ∧ m.ended = false := by
  intro start st
  have sensible : start.SensibleAll listening := by
    refine ⟨?_, ?_, ?_, trivial⟩
    · intro admits
      exact absurd rfl admits
    · intro _
      decide
    · intro admits
      exact absurd rfl admits
  have opened : st.exchange.isClosed 1 = false := by
    decide +kernel
  refine ⟨sensible, opened, ?_⟩
  exact (admitted_watched 3600000 true [] .standard listening (by decide) sensible).1
    .adminNotifications 1 (by decide +kernel) opened

def patient : Limits := { Limits.standard with probeIntervalSecs := 9223372036854775807 }

/-- Who is admitted under such limits, a second after the machine has been booted, is open, and its
monitor has ended at once. -/
theorem admitted_watched_patient :
    let acts : List Act := [.addPeer 1 none, .enroll 1 .adminNotifications]
    let start := { fresh true [] patient with now := 1000 }
    let st := start.actAll acts
    patient.check = .ok () ∧ patient.probeIntervalSecs ≠ 0 ∧
      (Topic.adminNotifications, 1) ∈ start.admissionsAll acts ∧
      st.exchange.isClosed 1 = false ∧ 1 ∈ st.exchange.membersOf .adminNotifications ∧
      ¬ ∃ outer, ∃ m ∈ st.watches outer, m.ended = false := by
  intro acts start st
  have ended : ∀ outer, ∀ m ∈ st.watches outer, m.ended = true := by
    intro outer
    cases outer <;> decide +kernel
  refine ⟨rfl, by decide, by decide +kernel, by decide +kernel, by decide +kernel, ?_⟩
  rintro ⟨outer, m, member, running⟩
  rw [ended outer m member] at running
  cases running

end Switchboard.Station
