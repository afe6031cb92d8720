import Switchboard.Proofs.Exchange.Seating
import Switchboard.Proofs.Station.Openings
import Switchboard.Proofs.Wire.Frame

/-!
What is said in a conversation stays between whoever opened it and the administrators.
-/

namespace Switchboard.Station

/-- Its session was let in at chat as an administrator's. -/
def Administers (st : Station) (id : ConnId) : Prop :=
  ∃ who, st.LetIn id .chat who ∧ who.role = .admin

/-- Nothing has leaked so far: `owns` says who opened which conversation. -/
structure Private (st : Station) (owns : ConnId → ConversationId → Prop) : Prop where
  numbered : st.hub.store.Numbered
  listed : ∀ id room, owns id room → room ∈ st.hub.store.conversations.keys
  single : ∀ room id other, owns id room → owns other room → id = other
  frames : ∀ id frame room, frame ∈ st.exchange.sentTo id → frame.Carries room →
    owns id room ∨ st.Administers id
  seated : st.exchange.Seated st.Administers
  seats : ∀ id room, st.exchange.seatOf id = some room → owns id room

variable {st : Station} {owns : ConnId → ConversationId → Prop} {id other : ConnId} {m : Move}
  {room : ConversationId} {frame : Frame} {e : Envelope} {who : Identity}

theorem fresh_private (whole : Bool) (tokens : List TokenEntry) (limits : Limits) :
    (fresh whole tokens limits).Private fun _ _ => False where
  numbered := Store.empty_numbered
  listed := fun _ _ none => none.elim
  single := fun _ _ _ none => none.elim
  frames := fun _ _ _ sent => nomatch sent
  seated := fun _ _ member => nomatch member
  seats := fun _ _ seat => nomatch seat

/-! ### Administrators -/

theorem Administers.step (sound : st.Sound) (faithful : st.Faithful) (admin : st.Administers id)
    (m : Move) : (st.step m).Administers id := by
  obtain ⟨who, letIn, role⟩ := admin
  exact ⟨who, letIn.run sound faithful [m], role⟩

theorem Hears.administers (faithful : st.Faithful) (hears : st.Hears id e who)
    (type : e.type? = some .adminJoin) (admin : who.role = .admin) :
    (st.step (.read id)).Administers id := by
  have typed : e.type? ≠ none := by
    rw [type]
    exact Option.some_ne_none _
  obtain ⟨s, next, going, after, found, done, stage, shape⟩ := hears.turn typed
  have accepted : st.hub.chat who id e =
      (.ok (), { st.hub with exchange := (st.exchange.joinAllRooms id).2 }) := by
    unfold Hub.chat Envelope.requireType
    rw [type]
    exact if_pos admin
  have goes : going = true := by
    rcases serve_cases st id who e with ⟨hub, -, served⟩ | ⟨why, hub, refused, -⟩
    · rw [served] at done
      cases done
      rfl
    · rw [accepted] at refused
      cases refused
  have found' : (st.step (.read id)).sessions.find? id = some next := by
    rw [shape, Table.find?_insert, if_pos rfl]
  obtain ⟨entry, authentic⟩ := (faithful.step (.read id) id next found').chatting who (stage goes)
  refine ⟨who, ⟨next, found', entry, ?_, authentic⟩, admin⟩
  rw [stage goes]
  exact Stage.noConfusion

theorem Hears.role (faithful : st.Faithful) (hears : st.Hears id e who)
    (admin : st.Administers id) : who.role = .admin := by
  obtain ⟨other, ⟨s, found, -, -, authentic⟩, role⟩ := admin
  obtain ⟨s', found', -, authentic'⟩ := hears.authentic faithful
  rw [found] at found'
  cases found'
  rw [authentic'.unique authentic]
  exact role

/-! ### Deeds -/

def Owning (st : Station) (owns : ConnId → ConversationId → Prop) (m : Move) (id : ConnId)
    (room : ConversationId) : Prop :=
  owns id room ∨ (m = .read id ∧ st.Opens id room)

/-- Who sits in a room or administers it may be sent its frames. -/
theorem Private.member (h : st.Private owns) (member : id ∈ st.exchange.membersOf (.room room)) :
    owns id room ∨ st.Administers id := by
  rcases h.seated id room member with admin | seat
  · exact Or.inr admin
  · exact Or.inl (h.seats id room seat)

theorem Private.of_chat {d : Deed} (h : st.Private owns) (hears : st.Hears other e who)
    (deed : st.hub.ChatDeed who other e d) (shape : d = .send id frame)
    (carries : frame.Carries room) :
    (owns id room ∨ (other = id ∧ st.Opens id room)) ∨ st.Administers id := by
  subst shape
  cases deed with
  | respond type created written =>
    obtain rfl := carries.unique (Or.inr written)
    exact Or.inl (Or.inr ⟨rfl, e, who, _, hears, type, created⟩)
  | greet type created greets =>
    rcases greets with shape | ⟨greeted, written, member, rfl⟩
    · cases shape
    · obtain rfl := carries.unique (Or.inl ⟨_, written⟩)
      rcases List.mem_cons.mp member with rfl | member
      · exact Or.inl (Or.inr ⟨rfl, e, who, _, hears, type, created⟩)
      · rcases h.member member with owned | admin
        · exact Or.inl (Or.inl owned)
        · exact Or.inr admin
  | talk type inside written publishes =>
    obtain ⟨member, rfl⟩ := publishes
    obtain rfl := carries.unique (Or.inl ⟨_, written⟩)
    rcases h.member member with owned | admin
    · exact Or.inl (Or.inl owned)
    · exact Or.inr admin

/-- Chat frames are sent only to those who may have them. -/
theorem Does.licensed (h : st.Private owns) (does : st.Does m (.send id frame))
    (carries : frame.Carries room) : st.Owning owns m id room ∨ st.Administers id := by
  cases does with
  | @read one s d found running reads =>
    cases reads with
    | chat got speaks deed =>
      rcases h.of_chat ⟨s, _, found, running, got, speaks⟩ deed rfl carries with
        (owned | ⟨rfl, opens⟩) | admin
      · exact Or.inl (Or.inl owned)
      · exact Or.inl (Or.inr ⟨rfl, opens⟩)
      · exact Or.inr admin
    | tell tells =>
      obtain ⟨fault, told, written, shape⟩ := tells
      cases shape
      exact absurd carries (Frame.not_carries_of_fault written)
  | ping _ => exact absurd carries Frame.not_carries_probe
  | publish _ written publishes =>
    obtain ⟨-, rfl⟩ := publishes
    exact absurd carries (Frame.not_carries_of_event written)

theorem Does.keepsSeats {d : Deed} (faithful : st.Faithful) (does : st.Does m d) :
    Exchange.KeepsSeats (st.step m).Administers d := by
  cases d with
  | join topic id =>
    cases topic with
    | room room =>
      obtain ⟨rfl, e, who, hears, type, admin⟩ := does.of_join_room
      exact hears.administers faithful type admin
    | _ => trivial
  | vacate id =>
    cases does with
    | read _ _ reads =>
      cases reads with
      | chat _ _ deed =>
        cases deed with
        | greet _ _ greets =>
          rcases greets with shape | ⟨frame, -, publishes⟩
          · cases shape
          · exact publishes.elim
        | talk _ _ _ publishes => exact publishes.elim
      | tell tells =>
        obtain ⟨fault, frame, -, shape⟩ := tells
        cases shape
    | publish _ _ publishes => exact publishes.elim
  | _ => trivial

/-! ### Runs -/

theorem Private.listed_step (h : st.Private owns)
    (owned : st.Owning owns m id room) :
    room ∈ (st.step m).hub.store.conversations.keys := by
  rcases owned with owned | ⟨rfl, opens⟩
  · exact (keys_step st m).subset (h.listed id room owned)
  · rcases store_step st (.read id) with ⟨one, opened, reads, opens', created⟩ | ⟨-, none⟩
    · cases reads
      obtain ⟨e, who, store, -, -, created'⟩ := opens
      rw [created] at created'
      cases created'
      rw [Store.keys_createConversation created, if_neg (h.numbered.fresh created)]
      exact List.mem_append_right _ (List.mem_singleton_self _)
    · exact absurd opens (none id room rfl)

theorem Opens.fresh (h : st.Private owns) (opens : st.Opens id room) : ¬ owns other room := by
  obtain ⟨e, who, store, -, -, created⟩ := opens
  exact fun owned => h.numbered.fresh created (h.listed other room owned)

theorem Private.single_step (h : st.Private owns) (first : st.Owning owns m id room)
    (second : st.Owning owns m other room) : id = other := by
  rcases first with owned | ⟨rfl, opens⟩
  · rcases second with owned' | ⟨-, opens⟩
    · exact h.single room id other owned owned'
    · exact absurd owned (opens.fresh h)
  · rcases second with owned' | ⟨reads, -⟩
    · exact absurd owned' (opens.fresh h)
    · cases reads
      rfl

theorem Private.frames_step (h : st.Private owns) (sound : st.Sound) (faithful : st.Faithful)
    (sent : frame ∈ (st.step m).exchange.sentTo id) (carries : frame.Carries room) :
    st.Owning owns m id room ∨ (st.step m).Administers id := by
  have licensed : st.Owning owns m id room ∨ st.Administers id := by
    rcases mem_sentTo_step sound sent with before | does
    · exact (h.frames id frame room before carries).imp_left Or.inl
    · exact does.licensed h carries
  exact licensed.imp_right fun admin => admin.step sound faithful m

theorem Private.seated_step (h : st.Private owns) (sound : st.Sound) (faithful : st.Faithful)
    (m : Move) : (st.step m).exchange.Seated (st.step m).Administers := by
  have before : st.exchange.Seated (st.step m).Administers := by
    intro id room member
    exact (h.seated id room member).imp_left fun admin => admin.step sound faithful m
  rcases exchange_step sound.consistent sound.known m with leads | ⟨_, _, _, _, link, _, _, shape⟩
  · exact leads.seated sound.consistent (fun _ => Does.possible sound) before
      fun _ => Does.keepsSeats faithful
  · rw [shape] at before ⊢
    exact before

theorem Private.seats_step (h : st.Private owns) (sound : st.Sound)
    (seat : (st.step m).exchange.seatOf id = some room) : st.Owning owns m id room := by
  rcases seatOf_step sound seat with before | moves
  · exact Or.inl (h.seats id room before)
  · obtain ⟨rfl, s, e, rest, who, store, found, running, got, speaks, type, created⟩ :=
      moves.of_move
    exact Or.inr ⟨rfl, e, who, store, ⟨s, rest, found, running, got, speaks⟩, type, created⟩

theorem Private.step (h : st.Private owns) (sound : st.Sound) (faithful : st.Faithful) (m : Move)
    (few : (st.step m).hub.store.conversations.keys.length < 2 ^ 64) :
    (st.step m).Private (st.Owning owns m) where
  numbered := by
    rcases store_step st m with ⟨id, room, -, -, created⟩ | ⟨same, -⟩
    · exact h.numbered.create created few
    · exact same.numbered h.numbered
  listed := fun _ _ => h.listed_step
  single := fun _ _ _ => h.single_step
  frames := fun _ _ _ => h.frames_step sound faithful
  seated := h.seated_step sound faithful m
  seats := fun _ _ => h.seats_step sound

theorem Private.run (h : st.Private owns) (sound : st.Sound) (faithful : st.Faithful)
    (moves : List Move) (few : (st.run moves).hub.store.conversations.keys.length < 2 ^ 64) :
    (st.run moves).Private fun id room => owns id room ∨ st.Opened moves id room := by
  induction moves generalizing st owns with
  | nil =>
    have same : (fun id room => owns id room ∨ st.Opened [] id room) = owns := by
      funext id room
      exact or_false _
    rw [same]
    exact h
  | cons m moves ih =>
    have before : (st.step m).hub.store.conversations.keys.length < 2 ^ 64 :=
      Nat.lt_of_le_of_lt (keys_run (st.step m) moves).length_le few
    have later := ih (h.step sound faithful m before) (sound.step m) (faithful.step m) few
    have same : (fun id room => owns id room ∨ st.Opened (m :: moves) id room) =
        fun id room => st.Owning owns m id room ∨ (st.step m).Opened moves id room := by
      funext id room
      exact propext or_assoc.symm
    rw [same]
    exact later

/-- Frames about a conversation are sent to the one connection that opened it, and to those that
administrators use; a message of anybody else goes to the conversation that its sender opened. -/
theorem chat_confidential (whole : Bool) (tokens : List TokenEntry) (limits : Limits)
    (moves : List Move)
    (few : ((fresh whole tokens limits).run moves).hub.store.conversations.keys.length < 2 ^ 64) :
    let start := fresh whole tokens limits
    let st := start.run moves
    (∀ id frame room, frame ∈ st.exchange.sentTo id → frame.Carries room →
      start.Opened moves id room ∨ st.Administers id) ∧
    (∀ room id other, start.Opened moves id room → start.Opened moves other room → id = other) ∧
    (∀ id, ¬ st.Administers id → ∀ room, id ∈ st.exchange.membersOf (.room room) →
      start.Opened moves id room ∧ st.exchange.seatOf id = some room ∧
      ∀ other, id ∈ st.exchange.membersOf (.room other) → other = room) ∧
    (∀ id e who hub, st.Hears id e who → who.role ≠ .admin → e.type? = some .texting →
      st.hub.chat who id e = (.ok (), hub) →
      ∃ room content frame, start.Opened moves id room ∧ st.exchange.seatOf id = some room ∧
        Frame.ofEnvelope (.texting room content) = .ok frame ∧
        hub.exchange = (st.exchange.publish (.room room) frame).2) := by
  intro start st
  have sound : st.Sound := (fresh_sound whole tokens limits).run moves
  have faithful : st.Faithful := (fresh_screened whole tokens limits).faithful.run moves
  have kept := (fresh_private whole tokens limits).run (fresh_sound whole tokens limits)
    (fresh_screened whole tokens limits).faithful moves few
  have owned : ∀ {id room}, False ∨ start.Opened moves id room → start.Opened moves id room :=
    fun owned => owned.resolve_left id
  have seat : ∀ {id room}, ¬ st.Administers id → id ∈ st.exchange.membersOf (.room room) →
      st.exchange.seatOf id = some room :=
    fun outsider member => (kept.seated _ _ member).resolve_left outsider
  refine ⟨?_, ?_, ?_, ?_⟩
  · intro id frame room sent carries
    exact (kept.frames id frame room sent carries).imp_left owned
  · intro room id other first second
    exact kept.single room id other (Or.inr first) (Or.inr second)
  · intro id outsider room member
    refine ⟨owned (kept.seats id room (seat outsider member)), seat outsider member, ?_⟩
    intro other member'
    have same := (seat outsider member).symm.trans (seat outsider member')
    exact (Option.some.inj same).symm
  · intro id e who hub hears role type accepted
    obtain ⟨room, content, frame, member, written, published⟩ := Hub.texting_ok type accepted
    have outsider : ¬ st.Administers id := fun admin => role (hears.role faithful admin)
    exact ⟨room, content, frame, owned (kept.seats id room (seat outsider member)),
      seat outsider member, written, published⟩

def meeting : List Move :=
  [.connect 1 .chat 4096 false, .connect 2 .chat 4096 false,
    .arrive 1 (.data "\x7b\"msg_type\":\"USER_JOIN\",\"token\":\"guest\"\x7d\n".toUTF8.toList), .read 1,
    .arrive 2 (.data "\x7b\"msg_type\":\"ADMIN_JOIN\",\"token\":\"staff\"\x7d\n".toUTF8.toList), .read 2]

theorem chat_confidential_meeting :
    let start := fresh true [⟨"guest", 7, .user⟩, ⟨"staff", 1, .admin⟩] .standard
    (start.run meeting).hub.store.conversations.keys.length < 2 ^ 64 ∧
    ∀ id frame room, frame ∈ (start.run meeting).exchange.sentTo id → frame.Carries room →
      start.Opened meeting id room ∨ (start.run meeting).Administers id := by
  intro start
  have few : (start.run meeting).hub.store.conversations.keys.length < 2 ^ 64 :=
    Nat.lt_of_le_of_lt (length_keys_run start meeting) (by decide)
  exact ⟨few, (chat_confidential true _ .standard meeting few).1⟩

end Switchboard.Station
