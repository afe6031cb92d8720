import Switchboard.Proofs.Store

/-!
Calls of the store, each with its answer, and all that one call may do to a store that is up.
-/

namespace Switchboard

inductive StoreCall
  | createConversation
  | createNotification (audience : Audience) (n : Notification)
  | createMessage (room : ConversationId) (sender : AccountId) (content : String)
  | closeConversation (room : ConversationId)

namespace StoreCall

def creates : StoreCall → Bool
  | createConversation => true
  | _ => false

def room? : StoreCall → Option ConversationId
  | createMessage room _ _ | closeConversation room => some room
  | createConversation | createNotification _ _ => none

end StoreCall

namespace Store

def call (s : Store) : StoreCall → Store
  | .createConversation => s.openNext.2
  | .createNotification audience n => (s.note audience n).2
  | .createMessage room sender content => (s.write room sender content).2
  | .closeConversation room => (s.shut room).2

def callAll (s : Store) (calls : List StoreCall) : Store := calls.foldl call s

theorem callAll_append (s : Store) (calls more : List StoreCall) :
    s.callAll (calls ++ more) = (s.callAll calls).callAll more :=
  List.foldl_append

abbrev Answer := Except Refusal (Option ConversationId)

def answer (s : Store) : StoreCall → Answer
  | .createConversation => s.openNext.1.map some
  | .createNotification audience n => (s.note audience n).1.map fun _ => none
  | .createMessage room sender content => (s.write room sender content).1.map fun _ => none
  | .closeConversation room => (s.shut room).1.map fun _ => none

def enter (s : Store) (room : ConversationId) (c : Conversation) : Store :=
  { s with conversations := s.conversations.insert room c }

/-- What a call is answered, and the store after it. -/
inductive Outcome (s : Store) : StoreCall → Answer → Store → Prop
  | opened : Outcome s .createConversation (.ok (some (s.last + 1)))
      { s.enter (s.last + 1) ⟨true, []⟩ with last := s.last + 1 }
  | noted (audience : Audience) (n : Notification) :
    Outcome s (.createNotification audience n) (.ok none)
      { s with
        notifications := s.notifications ++ [(audience, n)]
        asked := s.asked ++ [(audience, n)] }
  | posted {room : ConversationId} {c : Conversation} (sender : AccountId) (content : String)
    (found : s.conversations.find? room = some c) (active : c.active = true) :
    Outcome s (.createMessage room sender content) (.ok none)
      (s.enter room { c with messages := c.messages ++ [⟨sender, content⟩] })
  | closed {room : ConversationId} {c : Conversation}
    (found : s.conversations.find? room = some c) :
    Outcome s (.closeConversation room) (.ok none) (s.enter room { c with active := false })
  | missing {call : StoreCall} {room : ConversationId} (named : call.room? = some room)
    (absent : s.conversations.find? room = none) :
    Outcome s call (.error (.conversationMissing room)) s
  | inactive {room : ConversationId} {c : Conversation} (sender : AccountId) (content : String)
    (found : s.conversations.find? room = some c) (inactive : c.active = false) :
    Outcome s (.createMessage room sender content) (.error (.conversationInactive room)) s

theorem outcome {s : Store} (up : s.outage = .none) (call : StoreCall) :
    s.Outcome call (s.answer call) (s.call call) := by
  cases call with
  | createConversation =>
    have opened : s.openNext =
        (.ok (s.last + 1), { s.enter (s.last + 1) ⟨true, []⟩ with last := s.last + 1 }) :=
      if_neg (by simp [up, Outage.none])
    rw [answer, Store.call, opened]
    exact .opened
  | createNotification audience n =>
    have noted : s.note audience n = (.ok (), { s with
        notifications := s.notifications ++ [(audience, n)]
        asked := s.asked ++ [(audience, n)] }) :=
      if_neg (by simp [up, Outage.none])
    rw [answer, Store.call, noted]
    exact .noted audience n
  | createMessage room sender content =>
    have working : ¬ s.outage.messages = true := by simp [up, Outage.none]
    rw [answer, Store.call, write, if_neg working]
    cases found : s.conversations.find? room with
    | none => exact .missing rfl found
    | some c =>
      dsimp only
      by_cases active : c.active = true
      · rw [if_pos active]
        exact .posted sender content found active
      · rw [if_neg active]
        exact .inactive sender content found (by simpa using active)
  | closeConversation room =>
    rw [answer, Store.call, shut]
    cases found : s.conversations.find? room with
    | none => exact .missing rfl found
    | some c => exact .closed found

theorem exists_outcome {s : Store} (up : s.outage = .none) (call : StoreCall) :
    ∃ answer t, s.answer call = answer ∧ s.call call = t ∧ s.Outcome call answer t :=
  ⟨s.answer call, s.call call, rfl, rfl, outcome up call⟩

theorem outcome_of_answer {s : Store} {call : StoreCall} {answer : Answer}
    (up : s.outage = .none) (answered : s.answer call = answer) :
    ∃ t, s.call call = t ∧ s.Outcome call answer t :=
  ⟨s.call call, rfl, answered ▸ outcome up call⟩

end Store

end Switchboard
