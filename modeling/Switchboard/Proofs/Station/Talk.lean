import Switchboard.Proofs.Station.Said

/-!
What is said in a room is heard there. An accepted message is published once to the members of its
room, whether it is stored or not; of a refused one at most its sender is told.
-/

namespace Switchboard

namespace Hub

theorem sentTo_tell (h : Hub) (id : ConnId) (fault : Fault) (one : ConnId) :
    (h.tell id fault).exchange.sentTo one = h.exchange.sentTo one ∨
      one = id ∧ ∃ frame, Frame.ofFault fault = .ok frame ∧
        (h.tell id fault).exchange.sentTo one = h.exchange.sentTo one ++ [frame] := by
  unfold tell
  split
  · exact Or.inl rfl
  · next frame written =>
    split
    · next x accepted =>
      have shape := Exchange.sentTo_send accepted one
      split at shape
      · next self => exact Or.inr ⟨self.symm, frame, written, shape⟩
      · exact Or.inl shape
    · exact Or.inl rfl

end Hub

namespace Station

variable {st : Station} {r : Request} {id : ConnId} {who : Identity} {e : Envelope}
  {room : ConversationId} {content : String}

theorem Sound.request (sound : st.Sound) (r : Request) : (st.request r).Sound := by
  cases r with
  | act a => exact sound.act a
  | store call => exact sound.leads rfl (.refl _)

theorem Sound.requestAll (sound : st.Sound) (requests : List Request) :
    (st.requestAll requests).Sound := by
  induction requests generalizing st with
  | nil => exact sound
  | cons r requests ih => exact ih (sound.request r)

/-! ### Accepted messages -/

theorem handled_accepted (handled : st.handled? r = some (id, who, e)) (typed : e.type? ≠ none)
    (accepted : (st.hub.chat who id e).1 = .ok ()) :
    (st.request r).exchange = (st.hub.chat who id e).2.exchange := by
  rcases handled?_cases handled with ⟨rfl, known⟩ | ⟨rfl, spoken⟩
  · rw [request, act, given, if_pos known]
    rfl
  · obtain ⟨s, next, going, after, -, done, -, shape⟩ := (hears_of_spoken spoken).turn typed
    rcases serve_cases st id who e with ⟨hub, chat, served⟩ | ⟨why, hub, chat, -⟩
    · rw [served] at done
      cases done
      change (st.step (.read id)).exchange = _
      rw [shape, chat]
      rfl
    · rw [chat] at accepted
      cases accepted

theorem said_published (sound : st.Sound) (handled : st.handled? r = some (id, who, e))
    (said : st.hub.said? who id e = some (room, content)) :
    id ∈ st.exchange.membersOf (.room room) ∧
      ∃ frame, Frame.ofEnvelope (.texting room content) = .ok frame ∧
        (st.request r).exchange = (st.exchange.publish (.room room) frame).2 ∧
        st.exchange.Published (st.request r).exchange (.room room) frame := by
  obtain ⟨type, accepted, member, frame, written, shape⟩ := Hub.said?_talked said
  have typed : e.type? ≠ none := by
    rw [type]
    exact Option.some_ne_none _
  have published : (st.request r).exchange = (st.exchange.publish (.room room) frame).2 := by
    rw [handled_accepted handled typed accepted, shape]
    rfl
  refine ⟨member, frame, written, published, ?_⟩
  rw [published]
  exact Exchange.publish_published sound.consistent (.room room) frame

/-! ### Refused messages -/

theorem unsaid_untold (sound : st.Sound) (handled : st.handled? r = some (id, who, e))
    (type : e.type? = some .texting) {why : Refusal}
    (refused : (st.hub.chat who id e).1 = .error why) (one : ConnId) :
    (st.request r).exchange.sentTo one = st.exchange.sentTo one ∨
      one = id ∧ ∃ frame, Frame.ofFault (.refused why) = .ok frame ∧
        (st.request r).exchange.sentTo one = st.exchange.sentTo one ++ [frame] := by
  obtain ⟨same, -⟩ := Hub.chat_unsaid type refused
  rcases handled?_cases handled with ⟨rfl, known⟩ | ⟨rfl, spoken⟩
  · left
    rw [request, act, given, if_pos known, same]
    rfl
  · have typed : e.type? ≠ none := by
      rw [type]
      exact Option.some_ne_none _
    obtain ⟨s, next, going, after, -, done, -, shape⟩ := (hears_of_spoken spoken).turn typed
    change (st.step (.read id)).exchange.sentTo one = _ ∨ _ ∧ ∃ frame, _ ∧
      (st.step (.read id)).exchange.sentTo one = _
    rw [shape]
    have told := st.hub.sentTo_tell id (.refused why) one
    rcases serve_cases st id who e with ⟨hub, chat, -⟩ | ⟨why', hub, chat, served | served⟩
    · rw [chat] at refused
      cases refused
    · rw [chat] at refused same
      cases refused
      obtain rfl : hub = st.hub := same
      rw [served] at done
      cases done
      have closed : (st.hub.reject id (.refused why)).exchange.sentTo one =
          (st.hub.tell id (.refused why)).exchange.sentTo one :=
        Exchange.sentTo_close (Hub.consistent_tell sound.consistent id _) id one
      rw [← closed] at told
      exact told
    · rw [chat] at refused same
      cases refused
      obtain rfl : hub = st.hub := same
      rw [served] at done
      cases done
      exact told

/-! ### The log is faithful -/

/-- On every run on which messages are written by the chat alone, the log of a conversation is what
was accepted for it while it could be written to, since it was opened. And whatever is asked next: a
message that is accepted is published once to the members of its room, and one that is refused is
neither stored nor sent. -/
theorem log_faithful (whole : Bool) (tokens : List TokenEntry) (limits : Limits)
    (requests : List Request) (plain : ∀ r ∈ requests, ¬ r.WritesMessages) :
    let start := fresh whole tokens limits
    let st := start.requestAll requests
    (∀ room, st.hub.store.messages room = start.keptAll room [] requests) ∧
    (st.hub.store.conversations.keys.length < 2 ^ 64 →
      ∀ room, st.hub.store.messages room = start.sayings room requests) ∧
    ∀ r id who e, st.handled? r = some (id, who, e) →
      (∀ room content, st.hub.said? who id e = some (room, content) →
        id ∈ st.exchange.membersOf (.room room) ∧
        ∃ frame, Frame.ofEnvelope (.texting room content) = .ok frame ∧
          (st.request r).exchange = (st.exchange.publish (.room room) frame).2 ∧
          st.exchange.Published (st.request r).exchange (.room room) frame) ∧
      (∀ why, e.type? = some .texting → (st.hub.chat who id e).1 = .error why →
        st.hub.Unsaid id e why ∧ (st.hub.chat who id e).2 = st.hub ∧
        (st.request r).hub.store = st.hub.store ∧
        ∀ one, (st.request r).exchange.sentTo one = st.exchange.sentTo one ∨
          one = id ∧ ∃ frame, Frame.ofFault (.refused why) = .ok frame ∧
            (st.request r).exchange.sentTo one = st.exchange.sentTo one ++ [frame]) := by
  intro start st
  have sound : st.Sound := (fresh_sound whole tokens limits).requestAll requests
  refine ⟨?_, ?_, ?_⟩
  · intro room
    exact messages_requestAll start room requests plain
  · intro few room
    exact messages_sayings start room requests plain Store.empty_numbered few
  · intro r id who e handled
    constructor
    · intro room content said
      exact said_published sound handled said
    · intro why type refused
      obtain ⟨same, unsaid⟩ := Hub.chat_unsaid type refused
      refine ⟨unsaid, same, ?_, unsaid_untold sound handled type refused⟩
      rw [handled_store handled, same]

def talk : List Request :=
  [.act (.addPeer 1 none), .store .createConversation, .act (.joinRoom 1 1),
    .act (.chat ⟨7, .user⟩ 1 (.texting 1 "kept")),
    .act (.move (.down ⟨false, true, false⟩)),
    .act (.chat ⟨7, .user⟩ 1 (.texting 1 "lost")),
    .act (.move (.down .none)), .store (.closeConversation 1),
    .act (.chat ⟨7, .user⟩ 1 (.texting 1 "late"))]

theorem log_faithful_talk :
    let start := fresh true [] .standard
    (∀ r ∈ talk, ¬ r.WritesMessages) ∧
      (start.requestAll talk).hub.store.conversations.keys.length < 2 ^ 64 ∧
      ∀ room, (start.requestAll talk).hub.store.messages room = start.sayings room talk := by
  intro start
  have plain : ∀ r ∈ talk, ¬ r.WritesMessages := by
    simp [talk, Request.WritesMessages]
  have few : (start.requestAll talk).hub.store.conversations.keys.length < 2 ^ 64 :=
    Nat.lt_of_le_of_lt (length_keys_requestAll start talk plain) (by decide)
  exact ⟨plain, few, (log_faithful true [] .standard talk plain).2.1 few⟩

end Station

end Switchboard
