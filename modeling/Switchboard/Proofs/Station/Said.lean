import Switchboard.Proofs.Exchange.Published
import Switchboard.Proofs.Hub.Said
import Switchboard.Proofs.Station.Requests

/-!
The log of a conversation is what its members have said, in order, as long as messages are written
by nobody else.
-/

namespace Switchboard

def Request.WritesMessages : Request → Prop
  | .act (.store _) => True
  | .store (.createMessage ..) => True
  | _ => False

namespace Store

variable {s t u : Store}

/-- The same conversations with the same messages, whether they are active or not. -/
structure SameLogs (s t : Store) : Prop extends SameRooms s t where
  messages : ∀ room, t.messages room = s.messages room

theorem SameLogs.refl (s : Store) : SameLogs s s := ⟨.refl s, fun _ => rfl⟩

theorem SameLogs.of_eq (same : t = s) : SameLogs s t := same ▸ .refl s

theorem SameLogs.of_conversations (last : t.last = s.last)
    (same : t.conversations = s.conversations) : SameLogs s t :=
  ⟨⟨last, by rw [same]⟩, messages_of_conversations same⟩

theorem note_logs (s : Store) (audience : Audience) (n : Notification) :
    SameLogs s (s.note audience n).2 := by
  unfold note
  dsimp only
  split <;> exact .of_conversations rfl rfl

theorem shut_logs (s : Store) (room : ConversationId) : SameLogs s (s.shut room).2 := by
  unfold shut
  split
  · exact .refl s
  · next c found =>
    refine ⟨⟨rfl, Table.keys_insert_of_find? found _⟩, ?_⟩
    intro other
    rw [messages_insert]
    split
    · next same =>
      subst same
      rw [messages, found]
    · rfl

theorem messages_unknown {room : ConversationId} (unknown : room ∉ s.conversations.keys) :
    s.messages room = [] := by
  have none : s.conversations.find? room = none := by
    rwa [Table.mem_keys, Option.not_isSome_iff_eq_none] at unknown
  rw [messages, none]

end Store

theorem Hub.dispatch_logs (h : Hub) (event : Event) :
    Store.SameLogs h.store (h.dispatch event).2.store := by
  have recorded : Store.SameLogs h.store (h.record event).store := by
    cases event with
    | notification audience n => exact h.store.note_logs audience n
    | conversation e => exact .refl _
  unfold dispatch
  dsimp only
  split
  · exact recorded
  · exact recorded

namespace Station

open Store (SameLogs SameRooms)

variable {st : Station} {r : Request} {id : ConnId} {who : Identity} {e : Envelope}

def handled? (st : Station) : Request → Option (ConnId × Identity × Envelope)
  | .act (.chat who id e) => if st.exchange.Knows id then some (id, who, e) else none
  | .act (.move (.read id)) => (st.spoken? id).map fun (who, e) => (id, who, e)
  | _ => none

def opened? (st : Station) (r : Request) : Option ConversationId :=
  match r with
  | .store .createConversation => st.hub.store.createConversation.toOption.map Prod.fst
  | r => (st.handled? r).bind fun (_, _, e) => st.hub.opened? e

/-- What a request adds to the log of a conversation. -/
def kept (st : Station) (r : Request) (room : ConversationId) : List StoredMessage :=
  match st.handled? r with
  | some (id, who, e) => st.hub.kept who id e room
  | none => []

/-! ### The store after a request -/

theorem handled?_cases (handled : st.handled? r = some (id, who, e)) :
    (r = .act (.chat who id e) ∧ st.exchange.Knows id) ∨
      (r = .act (.move (.read id)) ∧ st.spoken? id = some (who, e)) := by
  unfold handled? at handled
  split at handled
  · split at handled
    · next known =>
      cases handled
      exact Or.inl ⟨rfl, known⟩
    · cases handled
  · next one =>
    obtain ⟨⟨who', e'⟩, spoken, same⟩ := Option.map_eq_some_iff.mp handled
    cases same
    exact Or.inr ⟨rfl, spoken⟩
  · cases handled

theorem handled_store (handled : st.handled? r = some (id, who, e)) :
    (st.request r).hub.store = (st.hub.chat who id e).2.store := by
  rcases handled?_cases handled with ⟨rfl, known⟩ | ⟨rfl, spoken⟩
  · rw [request, act, given, if_pos known]
    rfl
  · have hears := hears_of_spoken spoken
    by_cases typed : e.type? = none
    · have unheard : ∀ e' who', st.Hears id e' who' → e'.type? = none := by
        intro e' who' hears'
        rw [(hears'.unique hears).1, typed]
      have silent : st.hub.chat who id e = (.error .noType, st.hub) := by
        rw [Hub.chat, Envelope.requireType, typed]
      rw [silent]
      exact store_of_unheard unheard
    · exact hears.store typed

theorem logs_step_of_other {m : Move} (other : ∀ id, m ≠ .read id) :
    SameLogs st.hub.store (st.step m).hub.store := by
  have stepped := step_stepped st m
  generalize st.step m = after at stepped
  cases stepped with
  | read _ _ _ => exact absurd rfl (other _)
  | @pinged outer _ _ _ _ _ _ _ | @gaveUp outer _ _ _ _ _ => cases outer <;> exact .refl _
  | @dispatched _ event bus _ _ => exact Hub.dispatch_logs { st.hub with bus := bus } event
  | downed outage => exact .of_conversations rfl rfl
  | _ => exact .refl _

theorem store_given {after : Station} (id : ConnId) (same : after.hub.store = st.hub.store) :
    (st.given id after).hub.store = st.hub.store := by
  unfold given
  split
  · exact same
  · rfl

theorem store_unlessKnown {after : Station} (id : ConnId)
    (same : after.hub.store = st.hub.store) :
    (st.unlessKnown id after).hub.store = st.hub.store := by
  unfold unlessKnown
  split
  · rfl
  · exact same

theorem unhandled_logs (plain : ¬ r.WritesMessages) (unhandled : st.handled? r = none)
    (other : r ≠ .store .createConversation) :
    SameLogs st.hub.store (st.request r).hub.store := by
  cases r with
  | store call =>
    cases call with
    | createConversation => exact absurd rfl other
    | createNotification audience n => exact st.hub.store.note_logs audience n
    | createMessage room sender content => exact absurd trivial plain
    | closeConversation room => exact st.hub.store.shut_logs room
  | act a =>
    cases a with
    | move m =>
      by_cases reads : ∃ id, m = .read id
      · obtain ⟨id, rfl⟩ := reads
        apply SameLogs.of_eq
        apply store_of_unheard
        intro e who hears
        by_contra typed
        rw [handled?, hears.spoken typed] at unhandled
        cases unhandled
      · exact logs_step_of_other fun id shape => reads ⟨id, shape⟩
    | chat who id e =>
      have unknown : ¬ st.exchange.Knows id := by
        intro known
        rw [handled?, if_pos known] at unhandled
        cases unhandled
      apply SameLogs.of_eq
      rw [request, act, given, if_neg unknown]
    | dispatch event => exact st.hub.dispatch_logs event
    | store store => exact absurd trivial plain
    | addPeer id allowance? => exact .of_eq (store_unlessKnown id rfl)
    | addClient id room stalled =>
      apply SameLogs.of_eq
      apply store_unlessKnown
      rcases st.client_cases id room stalled with shape | ⟨link, shape⟩
      · rw [shape]
      · rw [shape]
        rfl
    | enroll id entry =>
      apply SameLogs.of_eq
      apply store_given
      unfold enroll join?
      cases entry.topic? <;> rfl
    | join topic id => exact .of_eq (store_given id rfl)
    | joinRoom room id => exact .of_eq (store_given id rfl)
    | joinAllRooms id => exact .of_eq (store_given id rfl)
    | leave _ _ | publish _ _ | send _ _ | leaveRoom _ | broadcast _ _ | monitor _ _ _ | close _ =>
      exact .refl _

theorem opened?_handled (handled : st.handled? r = some (id, who, e)) :
    st.opened? r = st.hub.opened? e := by
  unfold opened?
  split
  · cases handled
  · rw [handled]
    rfl

theorem opened?_unhandled (unhandled : st.handled? r = none)
    (other : r ≠ .store .createConversation) : st.opened? r = none := by
  unfold opened?
  split
  · exact absurd rfl other
  · rw [unhandled]
    rfl

/-- The step: a request empties the log of the conversation that it opens, and adds to another what
is said to it. -/
theorem messages_request (plain : ¬ r.WritesMessages) (room : ConversationId) :
    (st.request r).hub.store.messages room =
      if st.opened? r = some room then [] else st.hub.store.messages room ++ st.kept r room := by
  cases handled : st.handled? r with
  | some spoken =>
    obtain ⟨id, who, e⟩ := spoken
    rw [handled_store handled, opened?_handled handled, kept, handled]
    exact st.hub.logged_chat who id e room
  | none =>
    have nothing : st.kept r room = [] := by rw [kept, handled]
    rw [nothing, List.append_nil]
    by_cases creates : r = .store .createConversation
    · subst creates
      change st.hub.store.openNext.2.messages room =
        if st.hub.store.createConversation.toOption.map Prod.fst = some room then [] else _
      rcases st.hub.store.openNext_cases with ⟨shape, failed⟩ | ⟨place, store, shape, created⟩
      · rw [shape, failed]
        rfl
      · rw [shape, created]
        change store.messages room = if some place = some room then [] else _
        simp only [Option.some_inj, Store.messages_created created]
    · rw [(unhandled_logs plain handled creates).messages, opened?_unhandled handled creates]
      rfl

/-! ### Runs -/

/-- The log of a conversation after a run: it is begun anew when the conversation is opened. -/
def keptAll (st : Station) (room : ConversationId) (log : List StoredMessage) :
    List Request → List StoredMessage
  | [] => log
  | r :: requests =>
    (st.request r).keptAll room
      (if st.opened? r = some room then [] else log ++ st.kept r room) requests

/-- All that is said to a conversation on a run and kept. -/
def sayings (st : Station) (room : ConversationId) : List Request → List StoredMessage
  | [] => []
  | r :: requests => st.kept r room ++ (st.request r).sayings room requests

theorem messages_requestAll (st : Station) (room : ConversationId) (requests : List Request)
    (plain : ∀ r ∈ requests, ¬ r.WritesMessages) :
    (st.requestAll requests).hub.store.messages room =
      st.keptAll room (st.hub.store.messages room) requests := by
  induction requests generalizing st with
  | nil => rfl
  | cons r requests ih =>
    have rest := ih (st.request r) fun r' later => plain r' (List.mem_cons_of_mem r later)
    rw [messages_request (plain r List.mem_cons_self)] at rest
    exact rest

theorem store_request (st : Station) (plain : ¬ r.WritesMessages) :
    (∃ room, st.opened? r = some room ∧
        st.hub.store.createConversation = .ok (room, (st.request r).hub.store)) ∨
      (st.opened? r = none ∧ SameRooms st.hub.store (st.request r).hub.store) := by
  cases handled : st.handled? r with
  | some spoken =>
    obtain ⟨id, who, e⟩ := spoken
    rw [handled_store handled, opened?_handled handled, Hub.opened?]
    rcases Hub.chat_store st.hub who id e with ⟨type, room, created⟩ | ⟨same, none⟩
    · left
      refine ⟨room, ?_, created⟩
      rw [if_pos type, created]
      rfl
    · right
      refine ⟨?_, same⟩
      split
      · next type =>
        cases created : st.hub.store.createConversation with
        | error why => rfl
        | ok result => exact absurd type (none result.1 result.2 created)
      · rfl
  | none =>
    by_cases creates : r = .store .createConversation
    · subst creates
      change (∃ room, st.hub.store.createConversation.toOption.map Prod.fst = some room ∧
        st.hub.store.createConversation = .ok (room, st.hub.store.openNext.2)) ∨
        (st.hub.store.createConversation.toOption.map Prod.fst = none ∧
          SameRooms st.hub.store st.hub.store.openNext.2)
      rcases st.hub.store.openNext_cases with ⟨shape, failed⟩ | ⟨room, store, shape, created⟩
      · rw [shape, failed]
        exact Or.inr ⟨rfl, .refl _⟩
      · rw [shape, created]
        exact Or.inl ⟨room, rfl, rfl⟩
    · right
      exact ⟨opened?_unhandled handled creates, (unhandled_logs plain handled creates).toSameRooms⟩

theorem keys_request (st : Station) (plain : ¬ r.WritesMessages) :
    st.hub.store.conversations.keys <+: (st.request r).hub.store.conversations.keys := by
  rcases store_request st plain with ⟨room, -, created⟩ | ⟨-, same⟩
  · rw [Store.keys_createConversation created]
    split
    · exact List.prefix_rfl
    · exact List.prefix_append _ _
  · exact same.keys ▸ List.prefix_rfl

theorem keys_requestAll (st : Station) (requests : List Request)
    (plain : ∀ r ∈ requests, ¬ r.WritesMessages) :
    st.hub.store.conversations.keys <+: (st.requestAll requests).hub.store.conversations.keys := by
  induction requests generalizing st with
  | nil => exact List.prefix_rfl
  | cons r requests ih =>
    have first := keys_request st (plain r List.mem_cons_self)
    exact first.trans (ih (st.request r) fun r' later => plain r' (List.mem_cons_of_mem r later))

theorem length_keys_requestAll (st : Station) (requests : List Request)
    (plain : ∀ r ∈ requests, ¬ r.WritesMessages) :
    (st.requestAll requests).hub.store.conversations.keys.length ≤
      st.hub.store.conversations.keys.length + requests.length := by
  induction requests generalizing st with
  | nil => exact Nat.le_refl _
  | cons r requests ih =>
    have first : (st.request r).hub.store.conversations.keys.length ≤
        st.hub.store.conversations.keys.length + 1 := by
      rcases store_request st (plain r List.mem_cons_self) with
        ⟨room, -, created⟩ | ⟨-, same⟩
      · rw [Store.keys_createConversation created]
        split
        · exact Nat.le_succ _
        · exact Nat.le_of_eq List.length_append
      · rw [same.keys]
        exact Nat.le_succ _
    calc ((st.request r).requestAll requests).hub.store.conversations.keys.length
      _ ≤ (st.request r).hub.store.conversations.keys.length + requests.length :=
        ih (st.request r) fun r' later => plain r' (List.mem_cons_of_mem r later)
      _ ≤ st.hub.store.conversations.keys.length + 1 + requests.length :=
        Nat.add_le_add_right first _
      _ = st.hub.store.conversations.keys.length + (r :: requests).length := by
        rw [List.length_cons, Nat.add_assoc, Nat.add_comm 1]

/-- While numbers are new when they are given out, no log is ever begun anew. -/
theorem messages_request_numbered (plain : ¬ r.WritesMessages)
    (numbered : st.hub.store.Numbered) (room : ConversationId) :
    (st.request r).hub.store.messages room = st.hub.store.messages room ++ st.kept r room := by
  rw [messages_request plain]
  split
  · next opened =>
    rcases store_request st plain with ⟨place, opened', created⟩ | ⟨unopened, -⟩
    · rw [opened] at opened'
      cases opened'
      have nothing : st.kept r room = [] := by
        cases handled : st.handled? r with
        | none => rw [kept, handled]
        | some spoken =>
          obtain ⟨id, who, e⟩ := spoken
          rw [kept, handled]
          apply Hub.kept_of_unsaid
          apply Hub.said?_of_type
          intro type
          rw [opened?_handled handled, Hub.opened?_of_type] at opened
          · cases opened
          · rw [type]
            exact fun other => nomatch other
      rw [nothing, Store.messages_unknown (numbered.fresh created), List.append_nil]
    · rw [unopened] at opened
      cases opened
  · rfl

theorem numbered_request (plain : ¬ r.WritesMessages) (numbered : st.hub.store.Numbered)
    (few : (st.request r).hub.store.conversations.keys.length < 2 ^ 64) :
    (st.request r).hub.store.Numbered := by
  rcases store_request st plain with ⟨room, -, created⟩ | ⟨-, same⟩
  · exact numbered.create created few
  · exact same.numbered numbered

theorem messages_sayings (st : Station) (room : ConversationId) (requests : List Request)
    (plain : ∀ r ∈ requests, ¬ r.WritesMessages) (numbered : st.hub.store.Numbered)
    (few : (st.requestAll requests).hub.store.conversations.keys.length < 2 ^ 64) :
    (st.requestAll requests).hub.store.messages room =
      st.hub.store.messages room ++ st.sayings room requests := by
  induction requests generalizing st with
  | nil => exact (List.append_nil _).symm
  | cons r requests ih =>
    have first : ¬ r.WritesMessages := plain r List.mem_cons_self
    have later : ∀ r' ∈ requests, ¬ r'.WritesMessages :=
      fun r' member => plain r' (List.mem_cons_of_mem r member)
    have fewer : (st.request r).hub.store.conversations.keys.length < 2 ^ 64 :=
      Nat.lt_of_le_of_lt (keys_requestAll (st.request r) requests later).length_le few
    calc (st.requestAll (r :: requests)).hub.store.messages room
      _ = (st.request r).hub.store.messages room ++ (st.request r).sayings room requests :=
        ih (st.request r) later (numbered_request first numbered fewer) few
      _ = (st.hub.store.messages room ++ st.kept r room) ++
          (st.request r).sayings room requests := by
        rw [messages_request_numbered first numbered]
      _ = st.hub.store.messages room ++ st.sayings room (r :: requests) :=
        List.append_assoc _ _ _

end Station

end Switchboard
