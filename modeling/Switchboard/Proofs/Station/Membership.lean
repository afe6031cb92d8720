import Switchboard.Proofs.Station.Sound

/-!
Who is a member of what. In every state that moves and direct calls can lead to, members and
subscriptions agree, a closed connection has left nothing behind, and a session that is over has its
connection closed.
-/

namespace Switchboard

/-- What can be done to a station from outside besides its moves. Calls that take a connection can
only be made with one that is there. -/
inductive Act
  | move (m : Move)
  | addPeer (id : ConnId) (allowance? : Option Nat)
  | addClient (id : ConnId) (room : Nat) (stalled : Bool)
  | join (topic : Topic) (id : ConnId)
  | leave (topic : Topic) (id : ConnId)
  | publish (topic : Topic) (frame : Frame)
  | send (id : ConnId) (frame : Frame)
  | joinRoom (room : ConversationId) (id : ConnId)
  | leaveRoom (id : ConnId)
  | joinAllRooms (id : ConnId)
  | broadcast (room : ConversationId) (content : String)
  | chat (who : Identity) (id : ConnId) (e : Envelope)
  | enroll (id : ConnId) (entry : EntryPoint)
  | monitor (id : ConnId) (topic : Topic) (every : Nat)
  | close (id : ConnId)
  | dispatch (event : Event)
  | store (store : Store)

namespace Station

open Exchange (Leads)

variable {st : Station} {id : ConnId}

def given (st : Station) (id : ConnId) (after : Station) : Station :=
  if st.exchange.Knows id then after else st

def unlessKnown (st : Station) (id : ConnId) (after : Station) : Station :=
  if st.exchange.Knows id then st else after

def act (st : Station) : Act → Station
  | .move m => st.step m
  | .addPeer id allowance? => st.unlessKnown id (st.addPeer id allowance?)
  | .addClient id room stalled =>
    st.unlessKnown id ((st.addClient id none room stalled).toOption.getD st)
  | .join topic id => st.given id (st.withExchange (st.exchange.join topic id).2)
  | .leave topic id => st.withExchange (st.exchange.leave topic id).2
  | .publish topic frame => st.withExchange (st.exchange.publish topic frame).2
  | .send id frame => st.withExchange (st.exchange.attempt id frame)
  | .joinRoom room id => st.given id (st.withExchange (st.exchange.joinRoom room id).2)
  | .leaveRoom id => st.withExchange (st.exchange.leaveRoom id).2
  | .joinAllRooms id => st.given id (st.withExchange (st.exchange.joinAllRooms id).2)
  | .broadcast room content => st.withExchange (st.exchange.broadcast room content).2
  | .chat who id e => st.given id (st.withHub (st.hub.chat who id e).2)
  | .enroll id entry => st.given id (st.enroll id entry).2
  | .monitor id topic every => (st.monitor id topic every).2
  | .close id => st.withHub (st.hub.close id)
  | .dispatch event => st.withHub (st.hub.dispatch event).2
  | .store store => st.withHub { st.hub with store := store }

def actAll (st : Station) (acts : List Act) : Station := acts.foldl act st

theorem Sound.leads {after : Station} (sound : st.Sound) (sessions : after.sessions = st.sessions)
    (leads : Leads st.exchange.Possible st.exchange after.exchange) : after.Sound := by
  obtain ⟨consistent, knows⟩ := leads.consistent sound.consistent fun _ possible => possible
  refine ⟨consistent, ?_, ?_⟩
  · intro id s found
    rw [sessions] at found
    exact (knows id).mpr (sound.known id s found)
  · intro id s found ended
    rw [sessions] at found
    exact leads.closed sound.consistent (fun _ possible => possible) (sound.closed id s found ended)

theorem Sound.connected {after : Station} (sound : st.Sound) {link : Link}
    (unknown : ¬ st.exchange.Knows id) (sessions : after.sessions = st.sessions)
    (connected : after.exchange = st.exchange.connect id link) : after.Sound := by
  refine ⟨connected ▸ sound.consistent.connect unknown link, ?_, ?_⟩
  · intro one s found
    rw [sessions] at found
    rw [connected]
    exact (Exchange.knows_connect _ id one link).mpr (Or.inr (sound.known one s found))
  · intro one s found ended
    rw [sessions] at found
    have different : id ≠ one := fun self => unknown (self ▸ sound.known one s found)
    rw [connected, Exchange.isClosed_connect]
    simp [different, sound.closed one s found ended]

/-! ### The deeds of an act -/

theorem client_cases (st : Station) (id : ConnId) (room : Nat) (stalled : Bool) :
    let next := (st.addClient id none room stalled).toOption.getD st
    next = st ∨ ∃ link, next = st.withExchange (st.exchange.connect id link) := by
  unfold addClient
  dsimp only
  cases Queue.checkCapacity st.hub.limits.outboundCapacity.toNat with
  | error fault => exact Or.inl rfl
  | ok _ => exact Or.inr ⟨_, rfl⟩

theorem publish_possible {members : List ConnId} {topic : Topic} {frame : Frame} {d : Deed}
    (publishes : d.Publishes members topic frame) (x : Exchange) : x.Possible d := by
  cases d <;> trivial

/-- An act comes to deeds that are possible, and only leaving a room vacates a seat. -/
def MayDo (st : Station) (a : Act) (d : Deed) : Prop :=
  st.exchange.Possible d ∧ ∀ id, d = .vacate id → a = .leaveRoom id

theorem MayDo.of_publishes {members : List ConnId} {topic : Topic} {frame : Frame} {d : Deed}
    (publishes : d.Publishes members topic frame) (a : Act) : st.MayDo a d := by
  refine ⟨publish_possible publishes _, ?_⟩
  rintro id rfl
  exact publishes.elim

theorem MayDo.of_chat {who : Identity} {e : Envelope} {d : Deed} (known : st.exchange.Knows id)
    (deed : st.hub.ChatDeed who id e d) (a : Act) : st.MayDo a d := by
  refine ⟨deed.possible known, ?_⟩
  rintro one rfl
  cases deed with
  | greet type created greets =>
    rcases greets with shape | ⟨frame, -, publishes⟩
    · cases shape
    · exact publishes.elim
  | talk type member written publishes => exact publishes.elim

theorem MayDo.of_does {m : Move} {d : Deed} (sound : st.Sound) (does : st.Does m d) :
    st.MayDo (.move m) d := by
  refine ⟨does.possible sound, ?_⟩
  rintro one rfl
  cases does with
  | read found running reads =>
    cases reads with
    | chat next speaks deed => exact (MayDo.of_chat (sound.known _ _ found) deed _).2 one rfl
    | tell tells =>
      obtain ⟨fault, frame, -, shape⟩ := tells
      cases shape
  | publish taken written publishes => exact publishes.elim

theorem single_leads (a : Act) (d : Deed) (possible : st.exchange.Possible d)
    (stays : ∀ id, d = .vacate id → a = .leaveRoom id) :
    Leads (st.MayDo a) st.exchange (st.exchange.perform d) := .single ⟨possible, stays⟩ _

theorem given_leads {after : Station} {a : Act}
    (next : st.exchange.Knows id → Leads (st.MayDo a) st.exchange after.exchange) :
    Leads (st.MayDo a) st.exchange (st.given id after).exchange := by
  unfold given
  split
  · next known => exact next known
  · exact .refl _

/-- What becomes of an exchange with an act: deeds of it, or a new connection. -/
def Ensues (st : Station) (a : Act) (next : Exchange) : Prop :=
  Leads (st.MayDo a) st.exchange next ∨
    ∃ id link, ¬ st.exchange.Knows id ∧ next = st.exchange.connect id link

theorem unlessKnown_ensues {after : Station} {a : Act}
    (next : ¬ st.exchange.Knows id → st.Ensues a after.exchange) :
    st.Ensues a (st.unlessKnown id after).exchange := by
  unfold unlessKnown
  split
  · exact Or.inl (.refl _)
  · next unknown => exact next unknown

theorem act_ensues (sound : st.Sound) (a : Act) : st.Ensues a (st.act a).exchange := by
  cases a with
  | move m =>
    rcases exchange_step sound.consistent sound.known m with
      leads | ⟨id, entry, room, stalled, link, -, unknown, shape⟩
    · exact Or.inl (leads.mono fun d => MayDo.of_does sound)
    · exact Or.inr ⟨id, link, unknown, congrArg (·.hub.exchange) shape⟩
  | addPeer id allowance? =>
    exact unlessKnown_ensues fun unknown => Or.inr ⟨id, _, unknown, rfl⟩
  | addClient id room stalled =>
    apply unlessKnown_ensues
    intro unknown
    rcases st.client_cases id room stalled with shape | ⟨link, shape⟩ <;> rw [shape]
    · exact Or.inl (.refl _)
    · exact Or.inr ⟨id, link, unknown, rfl⟩
  | join topic id =>
    exact Or.inl (given_leads fun known => single_leads _ (.join topic id) known nofun)
  | leave topic id => exact Or.inl (single_leads _ (.leave topic id) trivial nofun)
  | publish topic frame =>
    exact Or.inl ((Exchange.publish_leads st.exchange topic frame).mono fun d publishes =>
      .of_publishes publishes _)
  | send id frame => exact Or.inl (single_leads _ (.send id frame) trivial nofun)
  | joinRoom room id =>
    refine Or.inl (given_leads fun known => ?_)
    apply (Exchange.joinRoom_leads sound.consistent known room).mono
    rintro d (rfl | ⟨frame, -, publishes⟩)
    · exact ⟨known, nofun⟩
    · exact .of_publishes publishes _
  | leaveRoom id =>
    refine Or.inl ((Exchange.leaveRoom_leads st.exchange id).mono ?_)
    rintro d (rfl | ⟨room, rfl⟩)
    · refine ⟨trivial, ?_⟩
      rintro one shape
      cases shape
      rfl
    · exact ⟨trivial, nofun⟩
  | joinAllRooms id =>
    refine Or.inl (given_leads fun known => ?_)
    apply (Exchange.joinAllRooms_leads st.exchange id).mono
    rintro d ⟨room, -, rfl⟩
    exact ⟨known, nofun⟩
  | broadcast room content =>
    refine Or.inl ((Exchange.broadcast_leads st.exchange room content).mono ?_)
    rintro d ⟨frame, -, publishes⟩
    exact .of_publishes publishes _
  | chat who id e =>
    refine Or.inl (given_leads fun known => ?_)
    exact (Hub.chat_leads sound.consistent known who e).mono fun d deed => .of_chat known deed _
  | enroll id entry =>
    refine Or.inl (given_leads fun known => ?_)
    unfold Station.enroll Station.join?
    cases entry.topic? with
    | none => exact .refl _
    | some topic => exact single_leads _ (.join topic id) known nofun
  | monitor id topic every => exact Or.inl (.refl _)
  | close id => exact Or.inl (single_leads _ (.close id) trivial nofun)
  | dispatch event =>
    refine Or.inl ((Hub.dispatch_leads st.hub event).mono ?_)
    rintro d ⟨frame, -, publishes⟩
    exact .of_publishes publishes _
  | store store => exact Or.inl (.refl _)

theorem sessions_given {after : Station} (id : ConnId) (same : after.sessions = st.sessions) :
    (st.given id after).sessions = st.sessions := by
  unfold given
  split
  · exact same
  · rfl

theorem sessions_unlessKnown {after : Station} (id : ConnId)
    (same : after.sessions = st.sessions) :
    (st.unlessKnown id after).sessions = st.sessions := by
  unfold unlessKnown
  split
  · rfl
  · exact same

theorem sessions_act {a : Act} (calls : ∀ m, a ≠ .move m) :
    (st.act a).sessions = st.sessions := by
  cases a with
  | move m => exact absurd rfl (calls m)
  | addPeer id allowance? => exact sessions_unlessKnown id rfl
  | addClient id room stalled =>
    apply sessions_unlessKnown
    rcases st.client_cases id room stalled with shape | ⟨link, shape⟩
    · rw [shape]
    · rw [shape]
      rfl
  | enroll id entry =>
    apply sessions_given
    unfold Station.enroll Station.join?
    cases entry.topic? <;> rfl
  | join _ id | joinRoom _ id | joinAllRooms id | chat _ id _ => exact sessions_given id rfl
  | _ => rfl

theorem Sound.act (sound : st.Sound) (a : Act) : (st.act a).Sound := by
  by_cases moves : ∃ m, a = .move m
  · obtain ⟨m, rfl⟩ := moves
    exact sound.step m
  · have sessions : (st.act a).sessions = st.sessions :=
      sessions_act fun m shape => moves ⟨m, shape⟩
    rcases act_ensues sound a with leads | ⟨id, link, unknown, shape⟩
    · exact sound.leads sessions (leads.mono fun d may => may.1)
    · exact sound.connected unknown sessions shape

theorem Sound.actAll (sound : st.Sound) (acts : List Act) : (st.actAll acts).Sound := by
  induction acts generalizing st with
  | nil => exact sound
  | cons a acts ih => exact ih (sound.act a)

/-! ### Connections -/

theorem knows_act (sound : st.Sound) (a : Act) (known : st.exchange.Knows id) :
    (st.act a).exchange.Knows id := by
  rcases act_ensues sound a with leads | ⟨one, link, -, shape⟩
  · exact ((leads.consistent sound.consistent fun _ may => may.1).2 id).mpr known
  · rw [shape]
    exact (Exchange.knows_connect _ one id link).mpr (Or.inr known)

/-- Once closed, closed for good, and nothing more is sent. -/
theorem closed_act (sound : st.Sound) (a : Act) (known : st.exchange.Knows id)
    (closed : st.exchange.isClosed id = true) :
    (st.act a).exchange.isClosed id = true ∧
      (st.act a).exchange.sentTo id = st.exchange.sentTo id := by
  rcases act_ensues sound a with leads | ⟨one, link, unknown, shape⟩
  · exact ⟨leads.closed sound.consistent (fun _ may => may.1) closed,
      leads.sentTo_of_closed sound.consistent (fun _ may => may.1) closed⟩
  · have different : one ≠ id := fun self => unknown (self ▸ known)
    rw [shape]
    refine ⟨(Exchange.isClosed_connect _ one id link).trans (by simp [different, closed]), ?_⟩
    exact Exchange.sentTo_connect unknown id link

/-! ### Agreement -/

end Station

/-- Nothing about a connection is left in the exchange. -/
def Exchange.Forgotten (x : Exchange) (id : ConnId) : Prop :=
  (∀ topic, id ∉ x.membersOf topic) ∧ x.topicsOf id = [] ∧ x.seatOf id = none

theorem Exchange.Consistent.forgotten {x : Exchange} {id : ConnId} (h : x.Consistent)
    (closed : x.isClosed id = true) : x.Forgotten id :=
  ⟨h.not_member closed, h.topicsOf_closed closed, (h.gone id closed).2⟩

namespace Station

/-- Members and subscriptions agree all the time, and closed connections are in neither, those of
sessions that have ended among them. -/
theorem membership_agrees (whole : Bool) (tokens : List TokenEntry) (limits : Limits)
    (acts : List Act) :
    let st := (fresh whole tokens limits).actAll acts
    (∀ topic id, id ∈ st.exchange.membersOf topic ↔ topic ∈ st.exchange.topicsOf id) ∧
      (∀ id, st.exchange.isClosed id = true → st.exchange.Forgotten id) ∧
      (∀ id s, st.sessions.find? id = some s → s.ended = true →
        st.exchange.isClosed id = true ∧ st.exchange.Forgotten id) := by
  intro st
  have sound : st.Sound := (fresh_sound whole tokens limits).actAll acts
  refine ⟨sound.consistent.same, fun id => sound.consistent.forgotten, ?_⟩
  intro id s found ended
  have closed := sound.closed id s found ended
  exact ⟨closed, sound.consistent.forgotten closed⟩

end Station

end Switchboard
