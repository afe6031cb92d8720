import Mathlib.Algebra.Group.Nat.Defs
import Switchboard.Proofs.Table
import Switchboard.Store

/-!
Conversations are numbered in the order in which they are opened. As long as there are fewer than
`2 ^ 64` of them, every number that is given out is new.
-/

namespace Switchboard.Store

/-- The conversations are those from one to the last one. -/
structure Numbered (s : Store) : Prop where
  count : s.conversations.keys.length = s.last.toNat
  range : ∀ room ∈ s.conversations.keys, 0 < room.toNat ∧ room.toNat ≤ s.last.toNat

structure SameRooms (s next : Store) : Prop where
  last : next.last = s.last
  keys : next.conversations.keys = s.conversations.keys

variable {s next : Store} {room : ConversationId}

theorem empty_numbered : empty.Numbered where
  count := rfl
  range := fun _ listed => nomatch listed

theorem SameRooms.refl (s : Store) : SameRooms s s := ⟨rfl, rfl⟩

theorem SameRooms.numbered (same : SameRooms s next) (h : s.Numbered) : next.Numbered where
  count := by rw [same.keys, same.last, h.count]
  range := by rw [same.keys, same.last]; exact h.range

theorem openNext_cases (s : Store) :
    (s.openNext = (.error .storeDown, s) ∧ s.createConversation = .error .storeDown) ∨
      ∃ room t, s.openNext = (.ok room, t) ∧ s.createConversation = .ok (room, t) := by
  unfold createConversation openNext
  split
  · exact Or.inl ⟨rfl, rfl⟩
  · exact Or.inr ⟨_, _, rfl, rfl⟩

theorem openNext_ok (created : s.createConversation = .ok (room, next)) :
    s.openNext = (.ok room, next) := by
  rcases s.openNext_cases with ⟨-, failed⟩ | ⟨other, t, opened, created'⟩
  · cases created.symm.trans failed
  · cases created.symm.trans created'
    exact opened

theorem createConversation_ok (created : s.createConversation = .ok (room, next)) :
    room = s.last + 1 ∧ next.last = room ∧
      next.conversations = s.conversations.insert room ⟨true, []⟩ := by
  have opened := openNext_ok created
  unfold openNext at opened
  split at opened
  · cases opened
  · cases opened
    exact ⟨rfl, rfl, rfl⟩

theorem keys_createConversation (created : s.createConversation = .ok (room, next)) :
    next.conversations.keys =
      if room ∈ s.conversations.keys then s.conversations.keys
      else s.conversations.keys ++ [room] := by
  rw [(createConversation_ok created).2.2, Table.keys_insert]

theorem toNat_next (last : ConversationId) :
    (last + 1).toNat = last.toNat + 1 ∨ (last.toNat = 2 ^ 64 - 1 ∧ (last + 1).toNat = 0) := by
  have bound := last.toNat_lt
  rw [UInt64.toNat_add, UInt64.toNat_one]
  omega

theorem toNat_next_of_lt {last : ConversationId} (few : last.toNat + 1 < 2 ^ 64) :
    (last + 1).toNat = last.toNat + 1 := by
  rcases toNat_next last with up | ⟨full, -⟩
  · exact up
  · omega

theorem Numbered.fresh (h : s.Numbered) (created : s.createConversation = .ok (room, next)) :
    room ∉ s.conversations.keys := by
  obtain ⟨rfl, -, -⟩ := createConversation_ok created
  intro listed
  have range := h.range _ listed
  rcases toNat_next s.last with up | ⟨-, zero⟩ <;> omega

theorem Numbered.create (h : s.Numbered) (created : s.createConversation = .ok (room, next))
    (few : next.conversations.keys.length < 2 ^ 64) : next.Numbered := by
  have keys := keys_createConversation created
  rw [if_neg (h.fresh created)] at keys
  obtain ⟨rfl, last, -⟩ := createConversation_ok created
  have count : next.conversations.keys.length = s.last.toNat + 1 := by
    rw [keys, List.length_append, h.count, List.length_singleton]
  have up : (s.last + 1).toNat = s.last.toNat + 1 := toNat_next_of_lt (by omega)
  refine ⟨by rw [count, last, up], ?_⟩
  intro room listed
  rw [last, up]
  rw [keys] at listed
  rcases List.mem_append.mp listed with before | latest
  · have range := h.range room before
    omega
  · rw [List.mem_singleton.mp latest, up]
    omega

theorem write_same (s : Store) (room : ConversationId) (sender : AccountId) (content : String) :
    SameRooms s (s.write room sender content).2 := by
  unfold write
  split
  · exact .refl s
  · split
    · exact .refl s
    · next c found =>
      split
      · exact ⟨rfl, Table.keys_insert_of_find? found _⟩
      · exact .refl s

theorem note_same (s : Store) (audience : Audience) (n : Notification) :
    SameRooms s (s.note audience n).2 := by
  unfold note
  dsimp only
  split <;> exact ⟨rfl, rfl⟩

theorem messages_of_conversations (same : next.conversations = s.conversations)
    (room : ConversationId) : next.messages room = s.messages room := by
  rw [messages, messages, same]

theorem messages_insert (s : Store) (room other : ConversationId) (c : Conversation) :
    { s with conversations := s.conversations.insert room c }.messages other =
      if room = other then c.messages else s.messages other := by
  unfold messages
  rw [Table.find?_insert]
  by_cases same : room = other <;> simp [same]

theorem isActive?_insert (s : Store) (room other : ConversationId) (c : Conversation) :
    { s with conversations := s.conversations.insert room c }.isActive? other =
      if room = other then some c.active else s.isActive? other := by
  unfold isActive?
  rw [Table.find?_insert]
  by_cases same : room = other <;> simp [same]

end Switchboard.Store
