import Switchboard.Hub.Basic
import Switchboard.Proofs.Amid
import Switchboard.Proofs.Exchange.Apart
import Switchboard.Proofs.Hub.Chatted

/-!
Failures are isolated: whatever happens to one connection, while the exchange is used and events are
dispatched, no other connection can tell.
-/

namespace Switchboard

/-- What may happen to a connection outside of the calls: its link changes, and with it which frames
can be sent, or it is closed. -/
inductive Incident
  | relink (link : Link)
  | close

def Exchange.befall (x : Exchange) (id : ConnId) : Incident → Exchange
  | .relink link => x.setLink id link
  | .close => x.close id

def Exchange.befallAll (x : Exchange) (id : ConnId) (incidents : List Incident) : Exchange :=
  incidents.foldl (fun x => x.befall id) x

inductive Operation
  | join (topic : Topic) (id : ConnId)
  | leave (topic : Topic) (id : ConnId)
  | publish (topic : Topic) (frame : Frame)
  | joinRoom (room : ConversationId) (id : ConnId)
  | leaveRoom (id : ConnId)
  | joinAllRooms (id : ConnId)
  | broadcast (room : ConversationId) (content : String)
  | dispatch (event : Event)
  | befall (id : ConnId) (incident : Incident)

namespace Hub

def withExchange (h : Hub) (x : Exchange) : Hub := { h with exchange := x }

def operate (h : Hub) : Operation → Hub
  | .join topic id => h.withExchange (h.exchange.join topic id).2
  | .leave topic id => h.withExchange (h.exchange.leave topic id).2
  | .publish topic frame => h.withExchange (h.exchange.publish topic frame).2
  | .joinRoom room id => h.withExchange (h.exchange.joinRoom room id).2
  | .leaveRoom id => h.withExchange (h.exchange.leaveRoom id).2
  | .joinAllRooms id => h.withExchange (h.exchange.joinAllRooms id).2
  | .broadcast room content => h.withExchange (h.exchange.broadcast room content).2
  | .dispatch event => (h.dispatch event).2
  | .befall id incident => h.withExchange (h.exchange.befall id incident)

/-- The operations in their order; before each of them, and after the last, something happens to the
connection. -/
def operateAmid (h : Hub) (c : ConnId) (incidents : Nat → List Incident)
    (operations : List Operation) : Hub :=
  runAmid operate (fun n h => h.withExchange (h.exchange.befallAll c (incidents n))) h operations

/-- Apart from one connection the exchanges agree, and so does everything else. -/
def AgreeBut (c : ConnId) (h h' : Hub) : Prop :=
  ∃ x, h.exchange.AgreeBut c x ∧ h' = h.withExchange x

variable {c : ConnId} {h h' : Hub}

theorem agreeBut_equivalence (c : ConnId) : Equivalence (AgreeBut c) where
  refl h := ⟨h.exchange, .refl c h.exchange, rfl⟩
  symm := by
    rintro h h' ⟨x, agree, rfl⟩
    exact ⟨h.exchange, agree.symm, rfl⟩
  trans := by
    rintro h h' h'' ⟨x, agree, rfl⟩ ⟨y, agree', rfl⟩
    exact ⟨y, agree.trans agree', rfl⟩

/-! ### What happens to the connection -/

theorem befall_self (x : Exchange) (c : ConnId) (incident : Incident) :
    x.AgreeBut c (x.befall c incident) := by
  cases incident with
  | relink link => exact .setLink_self x c link
  | close => exact .close_self x c

theorem befallAll_self (x : Exchange) (c : ConnId) (incidents : List Incident) :
    x.AgreeBut c (x.befallAll c incidents) := by
  induction incidents generalizing x with
  | nil => exact .refl c x
  | cons incident incidents ih => exact (befall_self x c incident).trans (ih _)

/-! ### Operations -/

theorem record_withExchange (h : Hub) (x : Exchange) (event : Event) :
    (h.withExchange x).record event = (h.record event).withExchange x := by
  cases event <;> rfl

theorem AgreeBut.publish (agree : h.AgreeBut c h') (topic : Topic) (frame : Frame) :
    (h.withExchange (h.exchange.publish topic frame).2).AgreeBut c
      (h'.withExchange (h'.exchange.publish topic frame).2) := by
  obtain ⟨x, agree, rfl⟩ := agree
  exact ⟨_, agree.publish topic frame, rfl⟩

theorem AgreeBut.dispatch (agree : h.AgreeBut c h') (event : Event) :
    (h.dispatch event).2.AgreeBut c (h'.dispatch event).2 := by
  obtain ⟨x, agree, rfl⟩ := agree
  have recorded : (h.record event).AgreeBut c ((h.withExchange x).record event) := by
    obtain ⟨store, -, shape⟩ := h.record_eq event
    rw [record_withExchange, shape]
    exact ⟨x, agree, rfl⟩
  unfold Hub.dispatch
  dsimp only
  cases event.frame with
  | error why => exact recorded
  | ok frame => exact recorded.publish event.topic frame

theorem AgreeBut.befall (agree : h.AgreeBut c h') (id : ConnId) (incident : Incident) :
    (h.withExchange (h.exchange.befall id incident)).AgreeBut c
      (h'.withExchange (h'.exchange.befall id incident)) := by
  obtain ⟨x, agree, rfl⟩ := agree
  refine ⟨_, ?_, rfl⟩
  cases incident with
  | relink link => exact agree.setLink id link
  | close => exact agree.close id

theorem AgreeBut.operate (agree : h.AgreeBut c h') (operation : Operation) :
    (h.operate operation).AgreeBut c (h'.operate operation) := by
  cases operation with
  | publish topic frame => exact agree.publish topic frame
  | dispatch event => exact agree.dispatch event
  | befall id incident => exact agree.befall id incident
  | join topic id =>
    obtain ⟨x, agree, rfl⟩ := agree
    exact ⟨_, agree.join topic id, rfl⟩
  | leave topic id =>
    obtain ⟨x, agree, rfl⟩ := agree
    exact ⟨_, agree.leave topic id, rfl⟩
  | joinRoom room id =>
    obtain ⟨x, agree, rfl⟩ := agree
    exact ⟨_, agree.joinRoom room id, rfl⟩
  | leaveRoom id =>
    obtain ⟨x, agree, rfl⟩ := agree
    exact ⟨_, agree.leaveRoom id, rfl⟩
  | joinAllRooms id =>
    obtain ⟨x, agree, rfl⟩ := agree
    exact ⟨_, agree.joinAllRooms id, rfl⟩
  | broadcast room content =>
    obtain ⟨x, agree, rfl⟩ := agree
    exact ⟨_, agree.broadcast room content, rfl⟩

theorem agreeBut_operateAmid (h : Hub) (c : ConnId) (own other : Nat → List Incident)
    (operations : List Operation) :
    (h.operateAmid c own operations).AgreeBut c (h.operateAmid c other operations) := by
  have unseen : ∀ (incidents : Nat → List Incident) n (h : Hub),
      h.AgreeBut c (h.withExchange (h.exchange.befallAll c (incidents n))) :=
    fun incidents n h => ⟨_, befallAll_self h.exchange c (incidents n), rfl⟩
  apply runAmid_related (agreeBut_equivalence c)
  · intro h h' operation agree
    exact agree.operate operation
  · exact unseen own
  · exact unseen other
  · exact (agreeBut_equivalence c).refl h

/-- Two runs of the same operations, between which one connection is relinked and closed in
different ways. After every step no other connection can tell them apart, and neither the known
topics nor the store tell them apart. -/
theorem failures_isolated (h : Hub) (c : ConnId) (own other : Nat → List Incident)
    (operations : List Operation) (n : Nat) :
    let p := h.operateAmid c own (operations.take n)
    let q := h.operateAmid c other (operations.take n)
    (∀ one, one ≠ c →
      p.exchange.sentTo one = q.exchange.sentTo one ∧
      p.exchange.topicsOf one = q.exchange.topicsOf one ∧
      (∀ topic, one ∈ p.exchange.membersOf topic ↔ one ∈ q.exchange.membersOf topic) ∧
      p.exchange.seatOf one = q.exchange.seatOf one ∧
      p.exchange.isClosed one = q.exchange.isClosed one) ∧
    (∀ topic, p.exchange.isKnown topic = q.exchange.isKnown topic) ∧
    p.store.notifications = q.store.notifications := by
  intro p q
  obtain ⟨x, agree, same⟩ : p.AgreeBut c q := agreeBut_operateAmid h c own other (operations.take n)
  rw [same]
  refine ⟨?others, ?known, rfl⟩
  case others =>
    intro one different
    have conn := agree.conns one different
    refine ⟨?_, agree.topicsOf_eq different, agree.member_iff different, agree.seats one different,
      ?_⟩
    · simp only [Exchange.sentTo, withExchange, conn]
    · simp only [Exchange.isClosed, withExchange, conn]
  case known =>
    intro topic
    exact agree.isKnown_eq topic

end Hub

end Switchboard
