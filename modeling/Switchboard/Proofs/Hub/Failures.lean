import Mathlib
import Switchboard.Proofs.Hub.Newcomers
import Switchboard.Proofs.Hub.Said

/-!
What a chat frame that fails leaves behind: nothing, but for the conversation of a user that could
not be told of it.
-/

namespace Switchboard

namespace Store

/-- The same store with one conversation more, to which nothing has been said. -/
structure Gains (s t : Store) (room : ConversationId) : Prop where
  keys : t.conversations.keys = s.conversations.keys ++ [room]
  fresh : room ∉ s.conversations.keys
  idle : t.conversations.find? room = some ⟨true, []⟩
  others : ∀ other, other ≠ room → t.conversations.find? other = s.conversations.find? other
  messages : ∀ other, t.messages other = s.messages other
  notifications : t.notifications = s.notifications
  outage : t.outage = s.outage

variable {s t : Store} {room : ConversationId}

theorem createConversation_notifications (created : s.createConversation = .ok (room, t)) :
    t.notifications = s.notifications ∧ t.outage = s.outage := by
  have opened := openNext_ok created
  unfold openNext at opened
  split at opened
  · cases opened
  · cases opened
    exact ⟨rfl, rfl⟩

theorem Numbered.gains (h : s.Numbered) (created : s.createConversation = .ok (room, t)) :
    s.Gains t room := by
  have fresh := h.fresh created
  have unknown : s.conversations.find? room = none := by
    rwa [Table.mem_keys, Option.not_isSome_iff_eq_none] at fresh
  have keys := keys_createConversation created
  rw [if_neg fresh] at keys
  obtain ⟨-, -, shape⟩ := createConversation_ok created
  obtain ⟨notifications, outage⟩ := createConversation_notifications created
  refine ⟨keys, fresh, ?_, ?_, ?_, notifications, outage⟩
  · rw [shape, Table.find?_insert, if_pos rfl]
  · intro other different
    rw [shape, Table.find?_insert, if_neg (Ne.symm different)]
  · intro other
    rw [messages_created created]
    split
    · next same => rw [← same, messages, unknown]
    · rfl

end Store

namespace Hub

variable {h next after : Hub} {who : Identity} {id : ConnId} {e : Envelope} {why : Refusal}
  {room : ConversationId} {store : Store}

def Untold (h : Hub) (id : ConnId) (e : Envelope) : Prop :=
  e.type? = some .userJoin ∧ ∃ room store why, h.store.createConversation = .ok (room, store) ∧
    { h with store := store }.sendJoinResponse room id = .error why

theorem chat_failed (failed : h.chat who id e = (.error why, after)) :
    (after = h ∧ (e.type? = some .userJoin → ∃ fault, h.store.createConversation = .error fault)) ∨
      ∃ room store, e.type? = some .userJoin ∧ h.store.createConversation = .ok (room, store) ∧
        { h with store := store }.sendJoinResponse room id = .error why ∧
        after = { h with store := store } := by
  have chatted := h.chat_chatted who id e
  rw [failed] at chatted
  cases chatted with
  | refused _ unopened => exact Or.inl ⟨rfl, unopened⟩
  | untold _ type created unsent => exact Or.inr ⟨_, _, type, created, unsent, rfl⟩
  | @ungreeted room store frame x y _ type created written accepted greeted =>
    -- the greeting is never too large
    obtain ⟨_, -, greets⟩ := x.joinRoom_greets room id
    rw [greets] at greeted
    cases greeted

theorem failed_unchanged (failed : h.chat who id e = (.error why, after))
    (told : ¬ h.Untold id e) : after = h := by
  rcases chat_failed failed with ⟨same, -⟩ | ⟨room, store, type, created, unsent, -⟩
  · exact same
  · exact absurd ⟨type, room, store, why, created, unsent⟩ told

theorem failed_untold (numbered : h.store.Numbered)
    (failed : h.chat who id e = (.error why, after)) (untold : h.Untold id e) :
    ∃ room store, h.store.createConversation = .ok (room, store) ∧ h.store.Gains store room ∧
      after = { h with store := store } := by
  rcases chat_failed failed with ⟨-, unopened⟩ | ⟨room, store, -, created, -, shape⟩
  · obtain ⟨type, room, store, why', created, -⟩ := untold
    obtain ⟨fault, down⟩ := unopened type
    rw [down] at created
    cases created
  · exact ⟨room, store, created, numbered.gains created, shape⟩

theorem opened_of_told (who : Identity) (type : e.type? = some .userJoin)
    (created : h.store.createConversation = .ok (room, store))
    (told : { h with store := store }.sendJoinResponse room id = .ok next) :
    (h.chat who id e).1 = .ok () := by
  cases answer : (h.chat who id e).1 with
  | ok _ => rfl
  | error why =>
    have failed : h.chat who id e = (.error why, (h.chat who id e).2) := Prod.ext answer rfl
    rcases chat_failed failed with ⟨-, unopened⟩ | ⟨room', store', -, created', unsent, -⟩
    · obtain ⟨fault, down⟩ := unopened type
      rw [down] at created
      cases created
    · rw [created] at created'
      cases created'
      rw [told] at unsent
      cases unsent

/-- A chat frame that fails changes nothing, unless a user's conversation was opened and its number
could not be sent; then that conversation stays, empty and active. Once the number has been sent
nothing fails any more. -/
theorem failed_chat_harmless (h : Hub) (numbered : h.store.Numbered) (who : Identity) (id : ConnId)
    (e : Envelope) :
    (∀ why after, h.chat who id e = (.error why, after) →
      (¬ h.Untold id e → after = h) ∧
      (h.Untold id e → ∃ room store, h.store.createConversation = .ok (room, store) ∧
        h.store.Gains store room ∧ after = { h with store := store })) ∧
    ∀ room store next, e.type? = some .userJoin →
      h.store.createConversation = .ok (room, store) →
      { h with store := store }.sendJoinResponse room id = .ok next →
      (h.chat who id e).1 = .ok () := by
  constructor
  · intro why after failed
    exact ⟨failed_unchanged failed, failed_untold numbered failed⟩
  · intro room store next type created told
    exact opened_of_told who type created told

def halfDeaf : Hub :=
  { Hub.fresh [] .standard with
    exchange := (Exchange.empty.connect 1 (.peer ⟨true, none, []⟩)).connect 2 (.peer (.fresh none)) }

theorem failed_chat_harmless_deaf :
    halfDeaf.store.Numbered ∧
      (∃ room store, halfDeaf.store.Gains store room ∧
        (halfDeaf.chat ⟨7, .user⟩ 1 (.ofType .userJoin)).2 = { halfDeaf with store := store }) ∧
      (halfDeaf.chat ⟨7, .user⟩ 1 (.texting 1 "hi")).2 = halfDeaf ∧
      (halfDeaf.chat ⟨7, .user⟩ 2 (.ofType .userJoin)).1 = .ok () := by
  have numbered : halfDeaf.store.Numbered := Store.empty_numbered
  obtain ⟨opening, -⟩ := failed_chat_harmless halfDeaf numbered ⟨7, .user⟩ 1 (.ofType .userJoin)
  obtain ⟨talking, -⟩ := failed_chat_harmless halfDeaf numbered ⟨7, .user⟩ 1 (.texting 1 "hi")
  obtain ⟨-, told⟩ := failed_chat_harmless halfDeaf numbered ⟨7, .user⟩ 2 (.ofType .userJoin)
  have unsent : (halfDeaf.chat ⟨7, .user⟩ 1 (.ofType .userJoin)).1 = .error .brokenPipe := by cbv
  have unheard : (halfDeaf.chat ⟨7, .user⟩ 1 (.texting 1 "hi")).1 = .error (.notInRoom 1) := by cbv
  refine ⟨numbered, ?_, ?_, ?_⟩
  · have untold : halfDeaf.Untold 1 (.ofType .userJoin) := by
      refine ⟨rfl, 1, _, .brokenPipe, rfl, ?_⟩
      cbv
    obtain ⟨room, store, -, gains, shape⟩ := (opening _ _ (Prod.ext unsent rfl)).2 untold
    exact ⟨room, store, gains, shape⟩
  · apply (talking _ _ (Prod.ext unheard rfl)).1
    rintro ⟨type, -⟩
    cases type
  · let store := { Store.empty with last := 1, conversations := Table.empty.insert 1 ⟨true, []⟩ }
    have created : halfDeaf.store.createConversation = .ok (1, store) := rfl
    obtain ⟨frame, -, sends⟩ := { halfDeaf with store := store }.sendJoinResponse_eq 1 2
    exact told 1 store _ rfl created sends

end Hub

end Switchboard
