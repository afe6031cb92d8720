import Switchboard.Proofs.Station.Openings
import Switchboard.Proofs.Station.Membership
import Switchboard.Proofs.Store.Calls

/-!
What can be asked of a station: its moves, direct calls, and calls of the store by others. Every
call has its answer; what a session answers a chat frame that it reads is one of them.
-/

namespace Switchboard

/-! ### The frame that a session serves -/

def Session.spoken? (tokens : List TokenEntry) (s : Session) : Option (Identity × Envelope) :=
  match s.inbox.next with
  | .got (.ok e) _ =>
    match s.stage with
    | .waiting =>
      if s.entry = .chat ∧ e.type?.isSome then
        (authenticate tokens .chat e).toOption.map fun who => (who, e)
      else none
    | .chatting who => some (who, e)
    | .listening => none
  | _ => none

namespace Station

def spoken? (st : Station) (id : ConnId) : Option (Identity × Envelope) :=
  match st.sessions.find? id with
  | some s => if s.ended then none else s.spoken? st.hub.tokens
  | none => none

variable {st : Station} {id : ConnId} {e : Envelope} {who : Identity}

theorem hears_of_spoken (spoken : st.spoken? id = some (who, e)) : st.Hears id e who := by
  unfold spoken? at spoken
  split at spoken
  · next s found =>
    split at spoken
    · cases spoken
    · next running =>
      unfold Session.spoken? at spoken
      split at spoken
      · next e' rest next =>
        split at spoken
        · next waiting =>
          split at spoken
          · next chat =>
            cases accepted : authenticate st.hub.tokens .chat e' with
            | error why => rw [accepted] at spoken; cases spoken
            | ok who' =>
              rw [accepted] at spoken
              cases spoken
              refine ⟨s, rest, found, by simpa using running, next, ?_⟩
              exact Or.inr ⟨waiting, chat.1, accepted⟩
          · cases spoken
        · next who' stage =>
          cases spoken
          exact ⟨s, rest, found, by simpa using running, next, Or.inl stage⟩
        · cases spoken
      · cases spoken
  · cases spoken

theorem Hears.spoken (hears : st.Hears id e who) (typed : e.type? ≠ none) :
    st.spoken? id = some (who, e) := by
  obtain ⟨s, rest, found, running, next, speaks⟩ := hears
  unfold spoken? Session.spoken?
  simp only [found, running, next]
  rcases speaks with stage | ⟨waiting, chat, accepted⟩
  · simp [stage]
  · simp [waiting, chat, accepted, Option.isSome_iff_ne_none.mpr typed, Except.toOption]

end Station

/-! ### Requests -/

inductive Request
  | act (a : Act)
  | store (call : StoreCall)

/-! ### Answers -/

def Move.Answer : Move → Type
  | .read _ => Option (Except Refusal Unit)
  | .enqueue _ => Except Refusal Unit
  | .dispatch _ => Option Report
  | .runDispatcher => Bool
  | _ => Unit

def Act.Answer : Act → Type
  | .move m => m.Answer
  | .join .. | .leave .. | .leaveRoom _ => Bool
  | .publish .. | .dispatch _ => Report
  | .send .. | .chat .. => Except Refusal Unit
  | .joinRoom .. | .broadcast .. => Except Refusal Report
  | .joinAllRooms _ | .monitor .. => Nat
  | .enroll .. => Option Nat
  | .addPeer .. | .addClient .. | .close _ | .store _ => Unit

def Request.Answer : Request → Type
  | .act a => a.Answer
  | .store .createConversation => Except Refusal ConversationId
  | .store _ => Except Refusal Unit

namespace Station

def served? (st : Station) (id : ConnId) : Option (Except Refusal Unit) :=
  (st.spoken? id).map fun (who, e) => (st.hub.chat who id e).1

def dispatched? (st : Station) (queue : QueueName) : Option Report :=
  if st.loop = .running then
    (st.hub.bus.take? queue).map fun (event, bus) => ({ st.hub with bus := bus }.dispatch event).1
  else none

def answerMove (st : Station) : (m : Move) → m.Answer
  | .read id => st.served? id
  | .enqueue event => (st.enqueue event).1
  | .dispatch queue => st.dispatched? queue
  | .runDispatcher => st.runDispatcher.isSome
  | .connect .. | .arrive .. | .finish _ | .notice _ | .relink .. | .reap _ | .probe .. | .clock _
  | .endLoop | .cancel | .dropDispatcher | .dropNotifier | .down _ => ()

def answerAct (st : Station) : (a : Act) → a.Answer
  | .move m => st.answerMove m
  | .join topic id => (st.exchange.join topic id).1
  | .leave topic id => (st.exchange.leave topic id).1
  | .publish topic frame => (st.exchange.publish topic frame).1
  | .send id frame => (st.exchange.send id frame).map fun _ => ()
  | .joinRoom room id => (st.exchange.joinRoom room id).1
  | .leaveRoom id => (st.exchange.leaveRoom id).1
  | .joinAllRooms id => (st.exchange.joinAllRooms id).1
  | .broadcast room content => (st.exchange.broadcast room content).1
  | .chat who id e => (st.hub.chat who id e).1
  | .enroll id entry => (st.enroll id entry).1
  | .monitor id topic every => (st.monitor id topic every).1
  | .dispatch event => (st.hub.dispatch event).1
  | .addPeer .. | .addClient .. | .close _ | .store _ => ()

/-- What a request is answered in this state. -/
def answer (st : Station) : (r : Request) → r.Answer
  | .act a => st.answerAct a
  | .store .createConversation => st.hub.store.openNext.1
  | .store (.createNotification audience n) => (st.hub.store.note audience n).1
  | .store (.createMessage room sender content) => (st.hub.store.write room sender content).1
  | .store (.closeConversation room) => (st.hub.store.shut room).1

def withStore (st : Station) (s : Store) : Station := { st with hub := { st.hub with store := s } }

def request (st : Station) : Request → Station
  | .act a => st.act a
  | .store call => st.withStore (st.hub.store.call call)

def requestAll (st : Station) (requests : List Request) : Station := requests.foldl request st

end Station

end Switchboard
