import Switchboard.Proofs.Station.Faithful

/-!
Who gets in where. Members of a topic have been let in at its entry point with the right role; a
connection without a good credential gets at most one error frame and does nothing.
-/

namespace Switchboard

/-- Of which topics a session may be a member: of rooms at chat, of its entry point's topic once it
listens. -/
def Session.Serves (s : Session) : Topic → Prop
  | .room _ => s.entry = .chat
  | topic => s.stage = .listening ∧ s.entry.topic? = some topic

theorem EntryPoint.topic?_injective {entry other : EntryPoint} {topic : Topic}
    (first : entry.topic? = some topic) (second : other.topic? = some topic) : entry = other := by
  cases entry <;> cases first <;> cases other <;> cases second <;> rfl

theorem Session.serves_iff {s : Session} {entry : EntryPoint} {topic : Topic}
    (scope : entry.topic? = some topic) :
    s.Serves topic ↔ s.stage = .listening ∧ s.entry.topic? = some topic := by
  cases entry <;> cases scope <;> rfl

namespace Station

def Serves (st : Station) (id : ConnId) (topic : Topic) : Prop :=
  ∃ s who, st.sessions.find? id = some s ∧ s.Authentic st.hub.tokens who ∧ s.Serves topic

/-- It is closed, and got an error frame and nothing else. -/
def TurnedAway (st : Station) (id : ConnId) : Prop :=
  st.exchange.isClosed id = true ∧
    ∃ fault frame, Frame.ofFault fault = .ok frame ∧ st.exchange.sentTo id = [frame]

structure Screened (st : Station) : Prop where
  faithful : st.Faithful
  members : ∀ topic id, id ∈ st.exchange.membersOf topic → st.Serves id topic
  seats : ∀ id room, st.exchange.seatOf id = some room → st.Authentic id
  strangers : ∀ id, ¬ st.Authentic id → st.exchange.sentTo id = [] ∨ st.TurnedAway id
  watched : ∀ w ∈ st.inner, st.Authentic w.conn
  alone : st.monitors = []

variable {st after : Station} {id : ConnId} {s next : Session} {m : Move} {topic : Topic}
  {room : ConversationId} {frame : Frame} {e : Envelope} {rest : Inbox} {who : Identity}

theorem fresh_screened (whole : Bool) (tokens : List TokenEntry) (limits : Limits) :
    (fresh whole tokens limits).Screened where
  faithful := fun _ _ found => nomatch found
  members := fun _ _ member => nomatch member
  seats := fun _ _ seat => nomatch seat
  strangers := fun _ _ => Or.inl rfl
  watched := fun _ watching => nomatch watching
  alone := rfl

theorem Serves.authentic (serves : st.Serves id topic) : st.Authentic id := by
  obtain ⟨s, who, found, authentic, -⟩ := serves
  exact ⟨s, who, found, authentic⟩

theorem Serves.step (sound : st.Sound) (faithful : st.Faithful) (serves : st.Serves id topic)
    (m : Move) : (st.step m).Serves id topic := by
  obtain ⟨s, who, found, authentic, serves⟩ := serves
  obtain ⟨next, found', becomes⟩ := session_step sound found m
  refine ⟨next, who, found', ?_, ?_⟩
  · rw [tokens_step]
    exact becomes.authentic (faithful id s found) authentic
  · have listens : s.stage = .listening ∧ s.entry.topic? = some topic →
        next.stage = .listening ∧ next.entry.topic? = some topic := by
      rintro ⟨stage, entry⟩
      have past : s.stage ≠ .waiting := by rw [stage]; exact Stage.noConfusion
      exact ⟨(becomes.stage past).trans stage, by rw [becomes.entry, entry]⟩
    cases topic with
    | room k => exact becomes.entry.trans serves
    | _ => exact listens serves

/-! ### Memberships -/

theorem serves_of_speaks (sound : st.Sound) (faithful : st.Faithful)
    (found : st.sessions.find? id = some s) (running : s.ended = false)
    (got : s.inbox.next = .got (.ok e) rest) (speaks : s.Speaks st.hub.tokens e who) (m : Move)
    (room : ConversationId) : (st.step m).Serves id (.room room) := by
  obtain ⟨entry, authentic⟩ := (faithful id s found).authentic_of_speaks running got speaks
  have serves : st.Serves id (.room room) := ⟨s, who, found, authentic, entry⟩
  exact serves.step sound faithful m

theorem serves_of_listen (sound : st.Sound) (faithful : st.Faithful)
    (found : st.sessions.find? id = some s) (running : s.ended = false)
    (got : s.inbox.next = .got (.ok e) rest) (admits : s.Admits st.hub.tokens e who)
    (scope : s.entry.topic? = some topic) : (st.step (.read id)).Serves id topic := by
  have authentic : st.Authentic id :=
    ⟨s, who, found, (faithful id s found).authentic_of_admits running got admits⟩
  obtain ⟨next, after, turned, shape⟩ := read_running found running
  have found' : (st.step (.read id)).sessions.find? id = some next := by
    rw [shape, Table.find?_insert, if_pos rfl]
  obtain ⟨next', who', found'', authentic'⟩ := authentic.step sound faithful (.read id)
  rw [found'] at found''
  cases found''
  have special : s.entry ≠ .chat := by
    intro chat
    rw [chat] at scope
    cases scope
  have stage : next.stage = .listening := by
    cases turned with
    | idle pending => rw [got] at pending; cases pending
    | left ended _ => rw [got] at ended; cases ended
    | rejected _ _ _ unfit => exact absurd admits (unfit _ _ _ got).1
    | listening _ _ _ => rfl
    | admitted _ speaks _ | served _ speaks _ | dismissed _ speaks _ =>
      rcases speaks with stage | ⟨-, chat, -⟩
      · rw [admits.1] at stage
        cases stage
      · exact absurd chat special
    | ignored _ stage => rw [admits.1] at stage; cases stage
  have entry : next.entry.topic? = some topic := by rw [turned.kept.1, scope]
  exact ⟨next, who', found', authentic', (Session.serves_iff scope).mpr ⟨stage, entry⟩⟩

theorem Does.serves_of_join (sound : st.Sound) (faithful : st.Faithful)
    (does : st.Does m (.join topic id)) : (st.step m).Serves id topic := by
  cases does with
  | read found running reads =>
    cases reads with
    | chat got speaks deed =>
      cases deed with
      | attach room _ _ => exact serves_of_speaks sound faithful found running got speaks _ room
      | greet _ _ greets =>
        rcases greets with shape | ⟨frame, -, publishes⟩
        · cases shape
        · exact publishes.elim
      | talk _ _ _ publishes => exact publishes.elim
    | listen got admits scope =>
      exact serves_of_listen sound faithful found running got admits scope
    | tell tells =>
      obtain ⟨fault, frame, -, shape⟩ := tells
      cases shape
  | publish _ _ publishes => exact publishes.elim

/-- A room is moved to only by whoever opened it with a chat frame. -/
theorem Does.of_move (does : st.Does m (.move room id)) :
    m = .read id ∧ ∃ s e rest who store, st.sessions.find? id = some s ∧ s.ended = false ∧
      s.inbox.next = .got (.ok e) rest ∧ s.Speaks st.hub.tokens e who ∧
      e.type? = some .userJoin ∧ st.hub.store.createConversation = .ok (room, store) := by
  cases does with
  | @read one s d found running reads =>
    cases reads with
    | chat got speaks deed =>
      cases deed with
      | greet type created greets =>
        rcases greets with shape | ⟨frame, -, publishes⟩
        · cases shape
          exact ⟨rfl, s, _, _, _, _, found, running, got, speaks, type, created⟩
        · exact publishes.elim
      | talk _ _ _ publishes => exact publishes.elim
    | tell tells =>
      obtain ⟨fault, frame, -, shape⟩ := tells
      cases shape
  | publish _ _ publishes => exact publishes.elim

theorem Screened.members_step (sound : st.Sound) (screened : st.Screened) (m : Move)
    (member : id ∈ (st.step m).exchange.membersOf topic) : (st.step m).Serves id topic := by
  rcases mem_membersOf_step sound member with before | joins | ⟨room, rfl, moves⟩
  · exact (screened.members topic id before).step sound screened.faithful m
  · exact joins.serves_of_join sound screened.faithful
  · obtain ⟨rfl, s, e, rest, who, -, found, running, got, speaks, -⟩ := moves.of_move
    exact serves_of_speaks sound screened.faithful found running got speaks _ room

theorem Screened.seats_step (sound : st.Sound) (screened : st.Screened) (m : Move)
    (seat : (st.step m).exchange.seatOf id = some room) : (st.step m).Authentic id := by
  rcases seatOf_step sound seat with before | moves
  · exact (screened.seats id room before).step sound screened.faithful m
  · obtain ⟨rfl, s, e, rest, who, -, found, running, got, speaks, -⟩ := moves.of_move
    exact (serves_of_speaks sound screened.faithful found running got speaks _ room).authentic

/-! ### Strangers -/

theorem Turned.of_stranger (faithful : s.Faithful st.hub.tokens) (running : s.ended = false)
    (stranger : ∀ who, ¬ s.Authentic st.hub.tokens who) (turned : Turned st id s next after) :
    after = st ∨ ∃ fault, after = st.withHub (st.hub.reject id fault) := by
  have waiting := faithful.waiting_of_not_authentic stranger
  cases turned with
  | idle _ => exact Or.inl rfl
  | left _ past => exact absurd waiting past
  | rejected fault _ _ _ => exact Or.inr ⟨fault, rfl⟩
  | listening got admits _ =>
    exact absurd (faithful.authentic_of_admits running got admits) (stranger _)
  | admitted got speaks _ | served got speaks _ | dismissed got speaks _ =>
    exact absurd (faithful.authentic_of_speaks running got speaks).2 (stranger _)
  | ignored _ _ => exact Or.inl rfl

theorem read_of_stranger (faithful : st.Faithful) (stranger : ¬ st.Authentic id) :
    ∃ hub sessions, st.step (.read id) = { st with hub := hub, sessions := sessions } ∧
      (hub = st.hub ∨ ∃ fault, hub = st.hub.reject id fault) := by
  rcases read_cases st id with same | ⟨s, next, after, found, running, turned, shape⟩
  · exact ⟨st.hub, st.sessions, same, Or.inl rfl⟩
  · have unknown : ∀ who, ¬ s.Authentic st.hub.tokens who :=
      fun who authentic => stranger ⟨s, who, found, authentic⟩
    rcases turned.of_stranger (faithful id s found) running unknown with rfl | ⟨fault, rfl⟩
    · exact ⟨_, _, shape, Or.inl rfl⟩
    · exact ⟨_, _, shape, Or.inr ⟨fault, rfl⟩⟩

/-- Only reads of its own session send to a stranger. -/
theorem Does.not_send (screened : st.Screened) (stranger : ¬ st.Authentic id)
    (other : m ≠ .read id) : ¬ st.Does m (.send id frame) := by
  intro does
  have outsider : ∀ topic, id ∉ st.exchange.membersOf topic :=
    fun topic member => stranger (screened.members topic id member).authentic
  cases does with
  | @read one s d found running reads =>
    cases reads with
    | chat got speaks deed =>
      cases deed with
      | respond _ _ _ => exact other rfl
      | greet _ _ greets =>
        rcases greets with shape | ⟨frame, -, publishes⟩
        · cases shape
        · rcases List.mem_cons.mp publishes.1 with rfl | member
          · exact other rfl
          · exact outsider _ member
      | talk _ _ _ publishes => exact outsider _ publishes.1
    | tell tells =>
      obtain ⟨fault, frame, -, shape⟩ := tells
      cases shape
      exact other rfl
  | @ping outer n w watching =>
    cases outer with
    | false => exact stranger (screened.watched w watching)
    | true =>
      have watching : w ∈ st.monitors := watching
      rw [screened.alone] at watching
      cases watching
  | publish _ _ publishes => exact outsider _ publishes.1

theorem TurnedAway.step (sound : st.Sound) (away : st.TurnedAway id) (m : Move) :
    (st.step m).TurnedAway id := by
  obtain ⟨closed, fault, frame, written, sent⟩ := away
  have known : st.exchange.Knows id := by
    by_contra unknown
    rw [Exchange.sentTo_unknown unknown] at sent
    cases sent
  exact ⟨isClosed_step sound m known closed, fault, frame, written,
    (sentTo_step_of_closed sound m closed).trans sent⟩

theorem sentTo_read_of_stranger (sound : st.Sound) (faithful : st.Faithful)
    (stranger : ¬ st.Authentic id) (none : st.exchange.sentTo id = []) :
    (st.step (.read id)).exchange.sentTo id = [] ∨ (st.step (.read id)).TurnedAway id := by
  obtain ⟨hub, sessions, shape, rfl | ⟨fault, rfl⟩⟩ := read_of_stranger faithful stranger
  · left
    rw [shape]
    exact none
  · have closed := Hub.isClosed_reject sound.consistent id fault
    rcases Hub.sentTo_reject sound.consistent id fault with same | ⟨frame, written, sent⟩
    · left
      rw [shape]
      exact same.trans none
    · right
      rw [shape]
      refine ⟨closed, fault, frame, written, sent.trans ?_⟩
      exact congrArg (· ++ [frame]) none

theorem Screened.strangers_step (sound : st.Sound) (screened : st.Screened) (m : Move)
    (stranger : ¬ (st.step m).Authentic id) :
    (st.step m).exchange.sentTo id = [] ∨ (st.step m).TurnedAway id := by
  have before : ¬ st.Authentic id :=
    fun authentic => stranger (authentic.step sound screened.faithful m)
  rcases screened.strangers id before with none | away
  · by_cases reads : m = .read id
    · subst reads
      exact sentTo_read_of_stranger sound screened.faithful before none
    · left
      rw [sentTo_step_of_unsent sound fun _ => Does.not_send screened before reads]
      exact none
  · exact Or.inr (away.step sound m)

theorem Screened.step (sound : st.Sound) (screened : st.Screened) (m : Move) :
    (st.step m).Screened where
  faithful := screened.faithful.step m
  members := fun _ _ => screened.members_step sound m
  seats := fun _ _ => screened.seats_step sound m
  strangers := fun _ => screened.strangers_step sound m
  watched := by
    intro w watching
    rcases inner_step watching with ⟨v, before, same⟩ | ⟨s, found, stage⟩
    · have authentic := screened.watched v before
      rw [same] at authentic
      exact authentic.step sound screened.faithful m
    · obtain ⟨-, who, authentic⟩ := (screened.faithful.step m w.conn s found).listening stage
      exact ⟨s, who, found, authentic⟩
  alone := monitors_step screened.alone

theorem Screened.run (sound : st.Sound) (screened : st.Screened) (moves : List Move) :
    (st.run moves).Screened := by
  have both : (st.run moves).Sound ∧ (st.run moves).Screened :=
    run_keeps (fun st => st.Sound ∧ st.Screened)
      (fun _ m both => ⟨both.1.step m, both.2.step both.1 m⟩) ⟨sound, screened⟩ moves
  exact both.2

/-! ### Admission -/

theorem allows_of_authenticate {tokens : List TokenEntry} {entry : EntryPoint}
    (accepted : authenticate tokens entry e = .ok who) : entry.allows who.role = true := by
  unfold authenticate at accepted
  split at accepted
  · cases accepted
  · split at accepted
    · cases accepted
    · split at accepted
      · next allowed => cases accepted; exact allowed
      · cases accepted

/-- A member of an entry point's topic was let in there, and still counts as such later. -/
theorem Screened.letIn_of_member (sound : st.Sound) (screened : st.Screened) (entry : EntryPoint)
    (scope : entry.topic? = some topic) (member : id ∈ st.exchange.membersOf topic)
    (more : List Move) :
    ∃ who, (st.run more).LetIn id entry who ∧ entry.allows who.role = true := by
  obtain ⟨s, who, found, authentic, serves⟩ := screened.members topic id member
  obtain ⟨stage, scope'⟩ := (Session.serves_iff scope).mp serves
  obtain rfl : s.entry = entry := EntryPoint.topic?_injective scope' scope
  have letIn : st.LetIn id s.entry who := by
    refine ⟨s, found, rfl, ?_, authentic⟩
    rw [stage]
    exact Stage.noConfusion
  obtain ⟨e, rest, -, accepted⟩ := authentic
  exact ⟨who, letIn.run sound screened.faithful more, allows_of_authenticate accepted⟩

/-- The session of a connection is about to have this envelope served as a chat frame. -/
def Hears (st : Station) (id : ConnId) (e : Envelope) (who : Identity) : Prop :=
  ∃ s rest, st.sessions.find? id = some s ∧ s.ended = false ∧
    s.inbox.next = .got (.ok e) rest ∧ s.Speaks st.hub.tokens e who

theorem Does.of_join_room (does : st.Does m (.join (.room room) id)) :
    m = .read id ∧ ∃ e who, st.Hears id e who ∧ e.type? = some .adminJoin ∧ who.role = .admin := by
  cases does with
  | @read one s d found running reads =>
    cases reads with
    | chat got speaks deed =>
      cases deed with
      | attach _ type admin => exact ⟨rfl, _, _, ⟨s, _, found, running, got, speaks⟩, type, admin⟩
      | greet _ _ greets =>
        rcases greets with shape | ⟨frame, -, publishes⟩
        · cases shape
        · exact publishes.elim
      | talk _ _ _ publishes => exact publishes.elim
    | listen _ _ scope => cases entry : s.entry <;> rw [entry] at scope <;> cases scope
    | tell tells =>
      obtain ⟨fault, frame, -, shape⟩ := tells
      cases shape
  | publish _ _ publishes => exact publishes.elim

/-- Whoever becomes a member of a room is an administrator that joins them all, or has just opened
it. -/
theorem gained_room (sound : st.Sound) (outside : id ∉ st.exchange.membersOf (.room room))
    (inside : id ∈ (st.step m).exchange.membersOf (.room room)) :
    m = .read id ∧ ∃ e who, st.Hears id e who ∧
      ((e.type? = some .adminJoin ∧ who.role = .admin) ∨ (e.type? = some .userJoin ∧
        ∃ store, st.hub.store.createConversation = .ok (room, store))) := by
  rcases mem_membersOf_step sound inside with before | joins | ⟨other, same, moves⟩
  · exact absurd before outside
  · obtain ⟨read, e, who, hears, type, admin⟩ := joins.of_join_room
    exact ⟨read, e, who, hears, Or.inl ⟨type, admin⟩⟩
  · cases same
    obtain ⟨read, s, e, rest, who, store, found, running, got, speaks, type, created⟩ :=
      moves.of_move
    exact ⟨read, e, who, ⟨s, rest, found, running, got, speaks⟩, Or.inr ⟨type, store, created⟩⟩

theorem Hears.authentic (faithful : st.Faithful) (hears : st.Hears id e who) :
    ∃ s, st.sessions.find? id = some s ∧ s.entry = .chat ∧ s.Authentic st.hub.tokens who := by
  obtain ⟨s, rest, found, running, got, speaks⟩ := hears
  obtain ⟨entry, authentic⟩ := (faithful id s found).authentic_of_speaks running got speaks
  exact ⟨s, found, entry, authentic⟩

/-- All chat frames of a session are served for one identity. -/
theorem Hears.same {other : Identity} {e' : Envelope} (sound : st.Sound) (faithful : st.Faithful)
    (hears : st.Hears id e who) (more : List Move) (later : (st.run more).Hears id e' other) :
    other = who := by
  obtain ⟨s, found, -, authentic⟩ := hears.authentic faithful
  obtain ⟨next, found', -, kept, -⟩ := session_run sound faithful found more
  obtain ⟨next', found'', -, authentic'⟩ := later.authentic (faithful.run more)
  rw [found'] at found''
  cases found''
  rw [tokens_run] at authentic'
  exact authentic'.unique (kept who authentic)

theorem store_read_of_stranger (faithful : st.Faithful) (stranger : ¬ st.Authentic id) :
    (st.step (.read id)).hub.store = st.hub.store ∧ (st.step (.read id)).hub.bus = st.hub.bus := by
  obtain ⟨hub, sessions, shape, rfl | ⟨fault, rfl⟩⟩ := read_of_stranger faithful stranger
  · rw [shape]
    exact ⟨rfl, rfl⟩
  · rw [shape, Hub.reject_eq]
    exact ⟨rfl, rfl⟩

/-- Members of a topic were let in at its entry point with the role that it is for. Whoever does not
send a good credential first is a member of nothing, gets an error frame at most, and leaves no
trace. A room is entered by opening it, or by an administrator who asks to be joined. -/
theorem admission_safe (whole : Bool) (tokens : List TokenEntry) (limits : Limits)
    (moves more : List Move) :
    let st := (fresh whole tokens limits).run moves
    let final := st.run more
    (∀ id, (id ∈ st.exchange.membersOf .adminNotifications →
        ∃ who, final.LetIn id .adminNotifications who ∧ who.role = .admin) ∧
      (id ∈ st.exchange.membersOf .adminConversations →
        ∃ who, final.LetIn id .adminConversations who ∧ who.role = .admin) ∧
      (id ∈ st.exchange.membersOf .technicianNotifications →
        ∃ who, final.LetIn id .technicianNotifications who ∧ who.role = .technician)) ∧
    (∀ id, ¬ final.Authentic id →
      (∀ topic, id ∉ st.exchange.membersOf topic ∧ topic ∉ st.exchange.topicsOf id) ∧
      st.exchange.seatOf id = none ∧
      (st.exchange.sentTo id = [] ∨ st.TurnedAway id) ∧
      (st.step (.read id)).hub.store = st.hub.store ∧
      (st.step (.read id)).hub.bus = st.hub.bus) ∧
    (∀ id room m, id ∉ st.exchange.membersOf (.room room) →
      id ∈ (st.step m).exchange.membersOf (.room room) →
      m = .read id ∧ ∃ e who, st.Hears id e who ∧
        ((e.type? = some .adminJoin ∧ who.role = .admin) ∨ (e.type? = some .userJoin ∧
          ∃ store, st.hub.store.createConversation = .ok (room, store)))) ∧
    (∀ id e who, st.Hears id e who →
      (∃ s, st.sessions.find? id = some s ∧ s.entry = .chat ∧ s.Authentic st.hub.tokens who) ∧
      ∀ e' other, final.Hears id e' other → other = who) := by
  intro st final
  have sound : st.Sound := (fresh_sound whole tokens limits).run moves
  have screened : st.Screened :=
    (fresh_screened whole tokens limits).run (fresh_sound whole tokens limits) moves
  refine ⟨?_, ?_, ?_, ?_⟩
  · intro id
    refine ⟨?_, ?_, ?_⟩
    · intro member
      obtain ⟨who, letIn, allowed⟩ :=
        screened.letIn_of_member sound .adminNotifications rfl member more
      exact ⟨who, letIn, by simpa [EntryPoint.allows] using allowed⟩
    · intro member
      obtain ⟨who, letIn, allowed⟩ :=
        screened.letIn_of_member sound .adminConversations rfl member more
      exact ⟨who, letIn, by simpa [EntryPoint.allows] using allowed⟩
    · intro member
      obtain ⟨who, letIn, allowed⟩ :=
        screened.letIn_of_member sound .technicianNotifications rfl member more
      exact ⟨who, letIn, by simpa [EntryPoint.allows] using allowed⟩
  · intro id stranger
    -- whoever is a stranger at the end has been one all along
    have before : ¬ st.Authentic id :=
      fun authentic => stranger (authentic.run sound screened.faithful more)
    have outside : ∀ topic, id ∉ st.exchange.membersOf topic :=
      fun topic member => before (screened.members topic id member).authentic
    refine ⟨?_, ?_, screened.strangers id before, store_read_of_stranger screened.faithful before⟩
    · intro topic
      refine ⟨outside topic, ?_⟩
      rw [← sound.consistent.same topic id]
      exact outside topic
    · rw [Option.eq_none_iff_forall_ne_some]
      exact fun room seat => before (screened.seats id room seat)
  · intro id room m outside inside
    exact gained_room sound outside inside
  · intro id e who hears
    exact ⟨hears.authentic screened.faithful, fun _ _ later =>
      hears.same sound screened.faithful more later⟩

end Station

end Switchboard
