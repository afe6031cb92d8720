import Switchboard.Proofs.Hub.Deeds
import Switchboard.Proofs.Hub.Refusals

/-!
Messages: which chat frames are accepted as one, what becomes of the log of a conversation, and that
a message which is refused leaves no trace.
-/

namespace Switchboard

namespace Store

variable {s t : Store} {room : ConversationId}

/-- Messages to this conversation are stored. -/
def Writable (s : Store) (room : ConversationId) : Prop :=
  s.outage.messages = false ∧ s.isActive? room = some true

instance (s : Store) (room : ConversationId) : Decidable (s.Writable room) :=
  inferInstanceAs (Decidable (_ ∧ _))

theorem messages_created (created : s.createConversation = .ok (room, t))
    (other : ConversationId) :
    t.messages other = if room = other then [] else s.messages other := by
  obtain ⟨-, -, shape⟩ := createConversation_ok created
  calc t.messages other
    _ = { s with conversations := s.conversations.insert room ⟨true, []⟩ }.messages other :=
      messages_of_conversations shape other
    _ = _ := messages_insert s room other ⟨true, []⟩

theorem write_cases (s : Store) (room : ConversationId) (sender : AccountId)
    (content : String) :
    (¬ s.Writable room ∧ ∃ why, s.write room sender content = (.error why, s)) ∨
      s.Writable room ∧ ∃ t, s.write room sender content = (.ok (), t) ∧
        ∀ other, t.messages other =
          s.messages other ++ if room = other then [⟨sender, content⟩] else [] := by
  unfold write Writable isActive?
  by_cases down : s.outage.messages = true
  · left
    rw [if_pos down]
    exact ⟨by simp [down], _, rfl⟩
  · rw [if_neg down]
    cases found : s.conversations.find? room with
    | none =>
      left
      exact ⟨by simp, _, rfl⟩
    | some c =>
      dsimp only
      split
      · next active =>
        right
        refine ⟨by simpa [active] using down, _, rfl, ?_⟩
        intro other
        rw [messages_insert]
        split
        · next same =>
          subst same
          simp [messages, found]
        · simp
      · next inactive =>
        left
        exact ⟨by simp [inactive], _, rfl⟩

end Store

namespace Hub

variable {h next : Hub} {who : Identity} {id : ConnId} {e : Envelope} {room : ConversationId}
  {content : String}

/-! ### What is said -/

/-- The room and the content of a chat frame that is accepted as a message: the room is the one
named, or else the one that the sender sits in. -/
def said? (h : Hub) (who : Identity) (id : ConnId) (e : Envelope) :
    Option (ConversationId × String) :=
  match e.type?, (h.chat who id e).1, e.conversation?.or (h.exchange.seatOf id), e.content? with
  | some .texting, .ok (), some room, some content => some (room, content)
  | _, _, _, _ => none

def opened? (h : Hub) (e : Envelope) : Option ConversationId :=
  if e.type? = some .userJoin then h.store.createConversation.toOption.map Prod.fst else none

def kept (h : Hub) (who : Identity) (id : ConnId) (e : Envelope) (room : ConversationId) :
    List StoredMessage :=
  match h.said? who id e with
  | some (place, content) =>
    if place = room ∧ h.store.Writable room then [⟨who.account, content⟩] else []
  | none => []

theorem said?_of_type (other : e.type? ≠ some .texting) : h.said? who id e = none := by
  unfold said?
  split
  · next type _ _ _ => exact absurd type other
  · rfl

/-- An accepted message goes to a room that its sender is a member of, and to nobody else. -/
theorem said?_talked (said : h.said? who id e = some (room, content)) :
    e.type? = some .texting ∧ (h.chat who id e).1 = .ok () ∧
      id ∈ h.exchange.membersOf (.room room) ∧
      ∃ frame, Frame.ofEnvelope (.texting room content) = .ok frame ∧
        (h.chat who id e).2 = { h.log room who.account content with
          exchange := (h.exchange.publish (.room room) frame).2 } := by
  unfold said? at said
  split at said
  · next place text type accepted found spoken =>
    cases said
    refine ⟨type, accepted, ?_⟩
    have chatted := h.chat_chatted who id e
    generalize h.chat who id e = answered at chatted accepted ⊢
    cases chatted with
    | talked _ place said member written =>
      rw [found] at place
      rw [spoken] at said
      cases place
      cases said
      exact ⟨member, _, written, rfl⟩
    | attached other _ => rw [type] at other; cases other
    | opened other _ _ _ _ => rw [type] at other; cases other
    | _ => cases accepted
  · cases said

/-! ### The log -/

theorem messages_log (h : Hub) (room other : ConversationId) (sender : AccountId)
    (content : String) :
    (h.log room sender content).store.messages other = h.store.messages other ++
      if room = other ∧ h.store.Writable other then [⟨sender, content⟩] else [] := by
  unfold log
  rcases h.store.write_cases room sender content with
    ⟨closed, why, failed⟩ | ⟨writable, store, stored, messages⟩
  · rw [failed, if_neg, List.append_nil]
    rintro ⟨rfl, writable⟩
    exact closed writable
  · rw [stored]
    dsimp only
    rw [messages]
    by_cases same : room = other
    · subst same
      rw [if_pos rfl, if_pos ⟨rfl, writable⟩]
    · rw [if_neg same, if_neg fun both => same both.1]

theorem kept_of_unsaid (unsaid : h.said? who id e = none) : h.kept who id e room = [] := by
  rw [kept, unsaid]

theorem opened?_of_type (other : e.type? ≠ some .userJoin) : h.opened? e = none := by
  rw [opened?, if_neg other]

/-- What a chat frame leaves of the log of a conversation: it may be opened, and then it is empty,
or it is added to. -/
def Logged (h : Hub) (who : Identity) (id : ConnId) (e : Envelope) (store : Store) : Prop :=
  ∀ room, store.messages room =
    if h.opened? e = some room then [] else h.store.messages room ++ h.kept who id e room

theorem logged_created {store : Store} (type : e.type? = some .userJoin)
    (created : h.store.createConversation = .ok (room, store)) : h.Logged who id e store := by
  have opened : h.opened? e = some room := by
    rw [opened?, if_pos type, created]
    rfl
  have unsaid : h.said? who id e = none := by
    apply said?_of_type
    rw [type]
    exact fun other => nomatch other
  intro other
  rw [Store.messages_created created, opened, kept_of_unsaid unsaid, List.append_nil]
  simp only [Option.some_inj]

theorem logged_same (unopened : h.opened? e = none) (unsaid : h.said? who id e = none) :
    h.Logged who id e h.store := by
  intro room
  rw [unopened, if_neg nofun, kept_of_unsaid unsaid, List.append_nil]

theorem logged_chat (h : Hub) (who : Identity) (id : ConnId) (e : Envelope) :
    h.Logged who id e (h.chat who id e).2.store := by
  have chatted := h.chat_chatted who id e
  cases said : h.said? who id e with
  | some spoken =>
    obtain ⟨place, content⟩ := spoken
    obtain ⟨type, -, -, frame, -, shape⟩ := said?_talked said
    have unopened : h.opened? e = none := by
      apply opened?_of_type
      rw [type]
      exact fun other => nomatch other
    intro room
    rw [shape, unopened, if_neg nofun, kept, said]
    exact messages_log h place room who.account content
  | none =>
    generalize answer : h.chat who id e = answered at chatted ⊢
    cases chatted with
    | refused why unopened =>
      apply logged_same ?_ said
      unfold opened?
      split
      · next type =>
        obtain ⟨fault, failed⟩ := unopened type
        rw [failed]
        rfl
      · rfl
    | attached type _ =>
      apply logged_same (opened?_of_type ?_) said
      rw [type]
      exact fun other => nomatch other
    | untold _ type created _ => exact logged_created type created
    | ungreeted _ type created _ _ _ => exact logged_created type created
    | opened type created _ _ _ =>
      obtain ⟨bus, -, shape⟩ := announce_eq _ _
      rw [shape]
      exact logged_created type created
    | talked type place spoken _ _ =>
      -- a message that is accepted has been said
      unfold said? at said
      rw [type, answer, place, spoken] at said
      cases said

/-! ### Refusals -/

/-- Why a message is not accepted: it has no room or no content, its sender is no member, or its
frame is too large. -/
inductive Unsaid (h : Hub) (id : ConnId) (e : Envelope) : Refusal → Prop
  | nowhere (place : e.conversation?.or (h.exchange.seatOf id) = none) :
    Unsaid h id e .noConversation
  | silent {room : ConversationId} (place : e.conversation?.or (h.exchange.seatOf id) = some room)
    (silent : e.content? = none) : Unsaid h id e .noContent
  | outside {room : ConversationId} {content : String}
    (place : e.conversation?.or (h.exchange.seatOf id) = some room)
    (said : e.content? = some content) (stranger : id ∉ h.exchange.membersOf (.room room)) :
    Unsaid h id e (.notInRoom room)
  | long {room : ConversationId} {content : String} {size : Nat}
    (place : e.conversation?.or (h.exchange.seatOf id) = some room)
    (said : e.content? = some content) (member : id ∈ h.exchange.membersOf (.room room))
    (long : Frame.ofEnvelope (.texting room content) = .error (.frameTooLarge size)) :
    Unsaid h id e (.frameTooLarge size)

theorem chat_unsaid {why : Refusal} (type : e.type? = some .texting)
    (refused : (h.chat who id e).1 = .error why) :
    (h.chat who id e).2 = h ∧ h.Unsaid id e why := by
  have shape : h.chat who id e = h.texting who id e := by
    rw [chat, Envelope.requireType, type]
  rw [shape] at refused ⊢
  unfold texting at refused ⊢
  cases place : e.conversation?.or (h.exchange.seatOf id) with
  | none =>
    simp only [place] at refused ⊢
    cases refused
    exact ⟨trivial, .nowhere place⟩
  | some room =>
    cases said : e.content? with
    | none =>
      simp only [place, said] at refused ⊢
      cases refused
      exact ⟨trivial, .silent place said⟩
    | some content =>
      by_cases member : h.exchange.isMember room id = true
      · cases written : Frame.ofEnvelope (.texting room content) with
        | error fault =>
          obtain ⟨-, rfl⟩ := Frame.ofJson_eq_error.mp written
          simp only [place, said, member, written, if_true] at refused ⊢
          cases refused
          exact ⟨trivial, .long place said (Exchange.isMember_iff.mp member) written⟩
        | ok frame =>
          simp only [place, said, member, written, if_true] at refused
          cases refused
      · simp only [place, said, member] at refused ⊢
        cases refused
        exact ⟨rfl, .outside place said (mt Exchange.isMember_iff.mpr member)⟩

end Hub

end Switchboard
