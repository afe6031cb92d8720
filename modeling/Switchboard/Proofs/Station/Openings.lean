import Switchboard.Proofs.Hub.Openings
import Switchboard.Proofs.Station.Admission

/-!
Who opens conversations: a connection that reads the request of a user on chat, and nobody else.
-/

namespace Switchboard.Station

open Store (SameRooms)

/-- With what its session reads now a connection opens this conversation. -/
def Opens (st : Station) (id : ConnId) (room : ConversationId) : Prop :=
  ∃ e who store, st.Hears id e who ∧ e.type? = some .userJoin ∧
    st.hub.store.createConversation = .ok (room, store)

def Opened (st : Station) : List Move → ConnId → ConversationId → Prop
  | [], _, _ => False
  | m :: moves, id, room => (m = .read id ∧ st.Opens id room) ∨ (st.step m).Opened moves id room

variable {st after : Station} {id other : ConnId} {s next : Session} {m : Move}
  {room : ConversationId} {e e' : Envelope} {who who' : Identity}

theorem Hears.unique (first : st.Hears id e who) (second : st.Hears id e' who') :
    e = e' ∧ who = who' := by
  obtain ⟨s, rest, found, -, got, speaks⟩ := first
  obtain ⟨s', rest', found', -, got', speaks'⟩ := second
  rw [found] at found'
  cases found'
  rw [got] at got'
  cases got'
  refine ⟨rfl, ?_⟩
  rcases speaks with stage | ⟨waiting, -, accepted⟩
  · rcases speaks' with stage' | ⟨waiting, -⟩
    · rw [stage] at stage'
      cases stage'
      rfl
    · rw [stage] at waiting
      cases waiting
  · rcases speaks' with stage | ⟨-, -, accepted'⟩
    · rw [waiting] at stage
      cases stage
    · rw [accepted] at accepted'
      cases accepted'
      rfl

/-- A session that hears a chat frame with a type has it served. -/
theorem Hears.turn (hears : st.Hears id e who) (typed : e.type? ≠ none) :
    ∃ s next going after, st.sessions.find? id = some s ∧ st.serve id who e = (going, after) ∧
      (going = true → next.stage = .chatting who) ∧
      st.step (.read id) = { after with sessions := after.sessions.insert id next } := by
  obtain ⟨s, rest, found, running, got, speaks⟩ := hears
  obtain ⟨next, after, turned, shape⟩ := read_running found running
  have same : ∀ {e' rest' who'}, s.inbox.next = .got (.ok e') rest' →
      s.Speaks st.hub.tokens e' who' → e' = e ∧ who' = who := by
    intro e' rest' who' got' speaks'
    exact Hears.unique ⟨s, rest', found, running, got', speaks'⟩
      ⟨s, rest, found, running, got, speaks⟩
  cases turned with
  | idle pending => rw [got] at pending; cases pending
  | left ended _ => rw [got] at ended; cases ended
  | rejected _ _ _ unfit => exact absurd speaks (unfit _ _ _ got).2
  | listening got' admits special =>
    rcases speaks with stage | ⟨-, chat, -⟩
    · rw [admits.1] at stage
      cases stage
    · exact absurd chat special
  | admitted got' speaks' bare =>
    obtain ⟨rfl, -⟩ := same got' speaks'
    exact absurd bare typed
  | served got' speaks' done =>
    obtain ⟨rfl, rfl⟩ := same got' speaks'
    exact ⟨s, _, true, _, found, done, fun _ => rfl, shape⟩
  | dismissed got' speaks' done =>
    obtain ⟨rfl, rfl⟩ := same got' speaks'
    exact ⟨s, _, false, _, found, done, fun going => Bool.noConfusion going, shape⟩
  | ignored got' listens =>
    rcases speaks with stage | ⟨waiting, -⟩
    · rw [listens] at stage
      cases stage
    · rw [listens] at waiting
      cases waiting

theorem Hears.store (hears : st.Hears id e who) (typed : e.type? ≠ none) :
    (st.step (.read id)).hub.store = (st.hub.chat who id e).2.store := by
  obtain ⟨s, next, going, after, -, done, -, shape⟩ := hears.turn typed
  obtain ⟨x, rfl⟩ := serve_hub done
  rw [shape]
  rfl

/-! ### The store -/

theorem store_of_unheard (unheard : ∀ e who, st.Hears id e who → e.type? = none) :
    (st.step (.read id)).hub.store = st.hub.store := by
  rcases read_cases st id with same | ⟨s, next, after, found, running, turned, shape⟩
  · rw [step, same]
  · have kept : after.hub.store = st.hub.store := by
      have served : ∀ {e rest who going}, s.inbox.next = .got (.ok e) rest →
          s.Speaks st.hub.tokens e who → st.serve id who e = (going, after) →
          after.hub.store = st.hub.store := by
        intro e rest who going got speaks done
        have bare := unheard e who ⟨s, rest, found, running, got, speaks⟩
        obtain ⟨x, rfl⟩ := serve_hub done
        change (st.hub.chat who id e).2.store = _
        unfold Hub.chat Envelope.requireType
        rw [bare]
      cases turned with
      | rejected fault _ _ _ =>
        rw [Hub.reject_eq]
        rfl
      | listening _ _ _ =>
        unfold listen join?
        cases s.entry.topic? <;> rfl
      | served got speaks done => exact served got speaks done
      | dismissed got speaks done => exact served got speaks done
      | _ => rfl
    rw [step, shape]
    exact kept

theorem store_of_other (other : ∀ id, m ≠ .read id) :
    SameRooms st.hub.store (st.step m).hub.store := by
  have stepped := step_stepped st m
  generalize st.step m = after at stepped
  cases stepped with
  | read _ _ _ => exact absurd rfl (other _)
  | @pinged outer _ _ _ _ _ _ _ | @gaveUp outer _ _ _ _ _ => cases outer <;> exact .refl _
  | @dispatched _ event bus _ _ => exact Hub.dispatch_store { st.hub with bus := bus } event
  | downed outage => exact ⟨rfl, rfl⟩
  | _ => exact .refl _

/-- A move opens one conversation, or none at all. -/
theorem store_step (st : Station) (m : Move) :
    (∃ id room, m = .read id ∧ st.Opens id room ∧
        st.hub.store.createConversation = .ok (room, (st.step m).hub.store)) ∨
      (SameRooms st.hub.store (st.step m).hub.store ∧
        ∀ id room, m = .read id → ¬ st.Opens id room) := by
  by_cases reads : ∃ id, m = .read id
  · obtain ⟨id, rfl⟩ := reads
    by_cases heard : ∃ e who, st.Hears id e who ∧ e.type? ≠ none
    · obtain ⟨e, who, hears, typed⟩ := heard
      have store := hears.store typed
      rcases Hub.chat_store st.hub who id e with ⟨type, room, created⟩ | ⟨same, none⟩
      · left
        rw [← store] at created
        exact ⟨id, room, rfl, ⟨e, who, _, hears, type, created⟩, created⟩
      · right
        rw [← store] at same
        refine ⟨same, ?_⟩
        rintro one room reads ⟨e', who', opened, hears', type, created⟩
        cases reads
        obtain ⟨rfl, -⟩ := hears.unique hears'
        exact none room opened created type
    · have unheard : ∀ e who, st.Hears id e who → e.type? = none := by
        intro e who hears
        by_contra typed
        exact heard ⟨e, who, hears, typed⟩
      right
      rw [store_of_unheard unheard]
      refine ⟨.refl _, ?_⟩
      rintro one room reads ⟨e, who, opened, hears, type, -⟩
      cases reads
      rw [unheard e who hears] at type
      cases type
  · right
    refine ⟨store_of_other fun id shape => reads ⟨id, shape⟩, ?_⟩
    intro id room shape
    exact absurd ⟨id, shape⟩ reads

theorem keys_step (st : Station) (m : Move) :
    st.hub.store.conversations.keys <+: (st.step m).hub.store.conversations.keys := by
  rcases store_step st m with ⟨id, room, -, -, created⟩ | ⟨same, -⟩
  · rw [Store.keys_createConversation created]
    split
    · exact List.prefix_rfl
    · exact List.prefix_append _ _
  · exact same.keys ▸ List.prefix_rfl

theorem keys_run (st : Station) (moves : List Move) :
    st.hub.store.conversations.keys <+: (st.run moves).hub.store.conversations.keys := by
  induction moves generalizing st with
  | nil => exact List.prefix_rfl
  | cons m moves ih => exact (keys_step st m).trans (ih (st.step m))

theorem length_keys_step (st : Station) (m : Move) :
    (st.step m).hub.store.conversations.keys.length ≤
      st.hub.store.conversations.keys.length + 1 := by
  rcases store_step st m with ⟨id, room, -, -, created⟩ | ⟨same, -⟩
  · rw [Store.keys_createConversation created]
    split
    · exact Nat.le_succ _
    · exact Nat.le_of_eq List.length_append
  · rw [same.keys]
    exact Nat.le_succ _

theorem length_keys_run (st : Station) (moves : List Move) :
    (st.run moves).hub.store.conversations.keys.length ≤
      st.hub.store.conversations.keys.length + moves.length := by
  induction moves generalizing st with
  | nil => exact Nat.le_refl _
  | cons m moves ih =>
    have first := length_keys_step st m
    have later := ih (st.step m)
    rw [run_cons, List.length_cons]
    omega

end Switchboard.Station
