import Switchboard.Proofs.Hub.Persistence
import Switchboard.Proofs.Station.Requests

/-!
Delivery does not depend on persistence. Two stations of which only the stores fare differently do
the same, and answer the same.
-/

namespace Switchboard

/-- What may happen to a store: writes of either kind begin to fail or recover, and conversations
are closed. -/
inductive Mishap
  | failing (notifications messages : Bool)
  | closed (room : ConversationId)

namespace Store

variable {s t : Store}

def suffer (s : Store) : Mishap → Store
  | .failing notifications messages =>
    { s with outage := { s.outage with notifications := notifications, messages := messages } }
  | .closed room => (s.shut room).2

def sufferAll (s : Store) (mishaps : List Mishap) : Store := mishaps.foldl suffer s

theorem suffer_alike (s : Store) (mishap : Mishap) : s.Alike (s.suffer mishap) := by
  cases mishap with
  | failing _ _ => exact ⟨⟨rfl, rfl⟩, rfl⟩
  | closed room => exact s.shut_alike room

theorem sufferAll_alike (s : Store) (mishaps : List Mishap) : s.Alike (s.sufferAll mishaps) := by
  induction mishaps generalizing s with
  | nil => exact alike_equivalence.refl s
  | cons mishap mishaps ih => exact alike_equivalence.trans (suffer_alike s mishap) (ih _)

theorem Alike.call (alike : s.Alike t) (call : StoreCall) : (s.call call).Alike (t.call call) := by
  have meet : ∀ {s' t'}, s.Alike s' → t.Alike t' → s'.Alike t' :=
    fun left right => related_meet alike_equivalence left alike right
  cases call with
  | createConversation =>
    unfold Store.call
    rcases alike.openNext with ⟨why, left, right⟩ | ⟨room, s', t', left, right, later⟩
    · rw [left, right]
      exact alike
    · rw [left, right]
      exact later
  | createNotification audience n => exact meet (s.note_alike audience n) (t.note_alike audience n)
  | createMessage room sender content =>
    exact meet (s.write_alike room sender content) (t.write_alike room sender content)
  | closeConversation room => exact meet (s.shut_alike room) (t.shut_alike room)

end Store

/-- A direct write to the store, which answers whether the store takes it. -/
def Request.WritesStore : Request → Prop
  | .store .createConversation => False
  | .store _ => True
  | .act _ => False

namespace Station

/-- Stations that differ in what their stores hold, and in nothing else. -/
def Alike (st st' : Station) : Prop := ∃ s, st.hub.store.Alike s ∧ st' = st.withStore s

variable {st st' : Station} {h h' : Hub}

theorem alike_equivalence : Equivalence Alike where
  refl st := ⟨st.hub.store, Store.alike_equivalence.refl _, rfl⟩
  symm := by
    rintro st st' ⟨s, alike, rfl⟩
    exact ⟨st.hub.store, Store.alike_equivalence.symm alike, rfl⟩
  trans := by
    rintro st st' st'' ⟨s, alike, rfl⟩ ⟨t, alike', rfl⟩
    exact ⟨t, Store.alike_equivalence.trans alike alike', rfl⟩

theorem Alike.hub (alike : st.Alike st') : st.hub.Alike st'.hub := by
  obtain ⟨s, stores, rfl⟩ := alike
  exact ⟨s, stores, rfl⟩

theorem Alike.withHub (alike : st.Alike st') (hubs : h.Alike h') :
    (st.withHub h).Alike (st'.withHub h') := by
  obtain ⟨s, -, rfl⟩ := alike
  obtain ⟨t, stores, rfl⟩ := hubs
  exact ⟨t, stores, rfl⟩

theorem Alike.exchange_eq (alike : st.Alike st') : st'.exchange = st.exchange :=
  alike.hub.exchange_eq

theorem Alike.exchanged (alike : st.Alike st') (x : Exchange) :
    (st.withExchange x).Alike (st'.withExchange x) :=
  alike.withHub (alike.hub.exchanged x)

theorem Alike.closed (alike : st.Alike st') (id : ConnId) :
    (st.withHub (st.hub.close id)).Alike (st'.withHub (st'.hub.close id)) :=
  alike.withHub (alike.hub.close id)

theorem Alike.rejected (alike : st.Alike st') (id : ConnId) (fault : Fault) :
    (st.withHub (st.hub.reject id fault)).Alike (st'.withHub (st'.hub.reject id fault)) :=
  alike.withHub (alike.hub.reject id fault)

/-! ### Sessions -/

theorem Alike.serve (alike : st.Alike st') (id : ConnId) (who : Identity) (e : Envelope) :
    Echo Alike (st.serve id who e) (st'.serve id who e) := by
  have chatted := alike.hub.chat who id e
  unfold Station.serve
  generalize st.hub.chat who id e = left at chatted ⊢
  generalize st'.hub.chat who id e = right at chatted ⊢
  obtain ⟨result, hub⟩ := left
  obtain ⟨result', hub'⟩ := right
  obtain ⟨rfl, hubs⟩ : result = result' ∧ hub.Alike hub' := ⟨chatted.answer, chatted.after⟩
  cases result with
  | ok _ => exact ⟨rfl, alike.withHub hubs⟩
  | error why =>
    dsimp only
    split
    · exact ⟨rfl, alike.withHub (hubs.reject id _)⟩
    · exact ⟨rfl, alike.withHub (hubs.tell id _)⟩

theorem Alike.listen (alike : st.Alike st') (id : ConnId) (entry : EntryPoint) :
    (st.listen id entry).Alike (st'.listen id entry) := by
  obtain ⟨s, stores, rfl⟩ := alike
  unfold Station.listen join?
  cases entry.topic? with
  | none => exact ⟨s, stores, rfl⟩
  | some topic => exact ⟨s, stores, rfl⟩

theorem Alike.tokens_eq (alike : st.Alike st') : st'.hub.tokens = st.hub.tokens := by
  obtain ⟨s, -, rfl⟩ := alike
  rfl

theorem Alike.handle (alike : st.Alike st') (id : ConnId) (entry : EntryPoint) (stage : Stage)
    (e : Envelope) : Echo Alike (st.handle id entry stage e) (st'.handle id entry stage e) := by
  unfold Station.handle
  cases stage with
  | waiting =>
    rw [alike.tokens_eq]
    cases authenticate st.hub.tokens entry e with
    | error why => exact ⟨rfl, alike.rejected id _⟩
    | ok who =>
      dsimp only
      split
      · split
        · exact ⟨rfl, alike⟩
        · have served := alike.serve id who e
          exact ⟨by simp only [served.answer], served.after⟩
      · exact ⟨rfl, alike.listen id entry⟩
  | chatting who =>
    have served := alike.serve id who e
    exact ⟨by simp only [served.answer], served.after⟩
  | listening => exact ⟨rfl, alike⟩

theorem Alike.hangUp (alike : st.Alike st') (id : ConnId) (stage : Stage) :
    (st.hangUp id stage).Alike (st'.hangUp id stage) := by
  cases stage with
  | waiting => exact alike.rejected id _
  | chatting who => exact alike.closed id
  | listening => exact alike.closed id

theorem Alike.turn (alike : st.Alike st') (id : ConnId) (s : Session) :
    Echo Alike (st.turn id s) (st'.turn id s) := by
  unfold Station.turn
  cases s.inbox.next with
  | pending inbox => exact ⟨rfl, alike⟩
  | ended => exact ⟨rfl, alike.hangUp id s.stage⟩
  | got result inbox =>
    cases result with
    | error fault => exact ⟨rfl, alike.rejected id fault⟩
    | ok e =>
      have handled := alike.handle id s.entry s.stage e
      dsimp only
      generalize st.handle id s.entry s.stage e = left at handled ⊢
      generalize st'.handle id s.entry s.stage e = right at handled ⊢
      obtain ⟨stage, after⟩ := left
      obtain ⟨stage', after'⟩ := right
      obtain ⟨rfl, later⟩ : stage = stage' ∧ after.Alike after' :=
        ⟨handled.answer, handled.after⟩
      cases stage with
      | none => exact ⟨rfl, later⟩
      | some stage => exact ⟨rfl, later⟩

theorem Alike.sessioned (alike : st.Alike st')
    (change : Table ConnId Session → Table ConnId Session) :
    Alike { st with sessions := change st.sessions }
      { st' with sessions := change st'.sessions } := by
  obtain ⟨s, stores, rfl⟩ := alike
  exact ⟨s, stores, rfl⟩

theorem Alike.sessions_eq (alike : st.Alike st') : st'.sessions = st.sessions := by
  obtain ⟨s, -, rfl⟩ := alike
  rfl

theorem Alike.read (alike : st.Alike st') (id : ConnId) : (st.read id).Alike (st'.read id) := by
  unfold Station.read
  rw [alike.sessions_eq]
  cases st.sessions.find? id with
  | none => exact alike
  | some s =>
    dsimp only
    split
    · exact alike
    · have turned := alike.turn id s
      rw [← turned.answer]
      exact turned.after.sessioned fun sessions => sessions.insert id (st.turn id s).1

/-! ### Moves -/

theorem Alike.addClient (alike : st.Alike st') (id : ConnId) (entryPoint? : Option EntryPoint)
    (room : Nat) (stalled : Bool) :
    (∃ fault, st.addClient id entryPoint? room stalled = .error fault ∧
        st'.addClient id entryPoint? room stalled = .error fault) ∨
      ∃ next next', st.addClient id entryPoint? room stalled = .ok next ∧
        st'.addClient id entryPoint? room stalled = .ok next' ∧ next.Alike next' := by
  obtain ⟨s, stores, rfl⟩ := alike
  unfold Station.addClient withStore
  dsimp only
  cases Queue.checkCapacity st.hub.limits.outboundCapacity.toNat with
  | error fault => exact Or.inl ⟨fault, rfl, rfl⟩
  | ok _ =>
    right
    cases entryPoint? with
    | none => exact ⟨_, _, rfl, rfl, s, stores, rfl⟩
    | some entry => exact ⟨_, _, rfl, rfl, s, stores, rfl⟩

theorem Alike.connectClient (alike : st.Alike st') (id : ConnId) (entry : EntryPoint) (room : Nat)
    (stalled : Bool) :
    (st.connectClient id entry room stalled).Alike (st'.connectClient id entry room stalled) := by
  unfold Station.connectClient
  rw [alike.exchange_eq]
  split
  · exact alike
  · rcases alike.addClient id (some entry) room stalled with
      ⟨fault, left, right⟩ | ⟨next, next', left, right, added⟩
    · rw [left, right]
      exact alike
    · rw [left, right]
      exact added

theorem Alike.fire (alike : st.Alike st') (m : Monitor) : Echo Alike (st.fire m) (st'.fire m) := by
  unfold Station.fire
  rw [alike.exchange_eq]
  cases st.exchange.send m.conn .probe with
  | error _ => exact ⟨rfl, alike.exchanged _⟩
  | ok x => exact ⟨rfl, alike.exchanged x⟩

theorem Alike.watches_eq (alike : st.Alike st') (outer : Bool) :
    st'.watches outer = st.watches outer := by
  obtain ⟨s, -, rfl⟩ := alike
  cases outer <;> rfl

theorem Alike.setWatches (alike : st.Alike st') (outer : Bool) (ms : List Monitor) :
    (st.setWatches outer ms).Alike (st'.setWatches outer ms) := by
  obtain ⟨s, stores, rfl⟩ := alike
  cases outer with
  | true => exact ⟨s, stores, rfl⟩
  | false => exact ⟨s, stores, rfl⟩

theorem Alike.probeOne (alike : st.Alike st') (outer : Bool) (n : Nat) :
    (st.probeOne outer n).Alike (st'.probeOne outer n) := by
  unfold Station.probeOne
  rw [alike.watches_eq]
  cases (st.watches outer)[n]? with
  | none => exact alike
  | some m =>
    dsimp only
    split
    · exact alike
    · have fired := alike.fire m
      rw [← fired.answer]
      exact fired.after.setWatches outer _

theorem Alike.loop_eq (alike : st.Alike st') : st'.loop = st.loop := by
  obtain ⟨s, -, rfl⟩ := alike
  rfl

theorem Alike.bus_eq (alike : st.Alike st') : st'.hub.bus = st.hub.bus := by
  obtain ⟨s, -, rfl⟩ := alike
  rfl

theorem Alike.taken (alike : st.Alike st') (bus : Bus) (event : Event) :
    Echo Hub.Alike ({ st.hub with bus := bus }.dispatch event)
      ({ st'.hub with bus := bus }.dispatch event) := by
  obtain ⟨s, stores, rfl⟩ := alike
  apply Hub.Alike.dispatch
  exact ⟨s, stores, rfl⟩

theorem Alike.dispatchOne (alike : st.Alike st') (queue : QueueName) :
    (st.dispatchOne queue).Alike (st'.dispatchOne queue) := by
  unfold Station.dispatchOne
  rw [alike.loop_eq, alike.bus_eq]
  split
  · cases st.hub.bus.take? queue with
    | none => exact alike
    | some hit =>
      obtain ⟨event, bus⟩ := hit
      exact alike.withHub (alike.taken bus event).after
  · exact alike

theorem Alike.mapLink (alike : st.Alike st') (id : ConnId) (change : Link → Link) :
    (st.mapLink id change).Alike (st'.mapLink id change) := by
  unfold Station.mapLink
  rw [alike.exchange_eq]
  cases st.exchange.conns.find? id with
  | none => exact alike
  | some c => exact alike.exchanged _

theorem Alike.reap (alike : st.Alike st') (id : ConnId) : (st.reap id).Alike (st'.reap id) := by
  unfold Station.reap
  rw [alike.exchange_eq]
  split
  · exact alike
  · split
    · exact alike
    · split
      · exact alike.closed id
      · exact alike

theorem Alike.endSessions (alike : st.Alike st') (ids : List ConnId) :
    (st.endSessions ids).Alike (st'.endSessions ids) := by
  induction ids generalizing st st' with
  | nil => exact alike
  | cons id ids ih =>
    unfold Station.endSessions
    rw [alike.exchange_eq]
    split
    · apply ih
      exact alike.sessioned fun sessions => sessions.modify id fun s => { s with ended := true }
    · exact ih alike

theorem Alike.enqueue (alike : st.Alike st') (event : Event) :
    Echo Alike (st.enqueue event) (st'.enqueue event) := by
  obtain ⟨s, stores, rfl⟩ := alike
  unfold Station.enqueue withStore
  cases st.hub.bus.enqueue event with
  | error _ => exact ⟨rfl, s, stores, rfl⟩
  | ok bus => exact ⟨rfl, s, stores, rfl⟩

theorem Alike.step (alike : st.Alike st') (m : Move) : (st.step m).Alike (st'.step m) := by
  have shape := alike
  obtain ⟨s, stores, rfl⟩ := shape
  cases m with
  | connect id entry room stalled => exact alike.connectClient id entry room stalled
  | arrive id arrival => exact ⟨s, stores, rfl⟩
  | finish id => exact ⟨s, stores, rfl⟩
  | read id => exact alike.read id
  | notice id => exact alike.endSessions [id]
  | relink id change => exact alike.mapLink id change
  | reap id => exact alike.reap id
  | probe outer n => exact alike.probeOne outer n
  | clock time => exact ⟨s, stores, rfl⟩
  | enqueue event =>
    change Alike (if st.notifier then _ else _) (if st.notifier then _ else _)
    split
    · exact (alike.enqueue event).after
    · exact alike
  | dispatch queue => exact alike.dispatchOne queue
  | endLoop =>
    change Alike (if st.MayEnd then _ else _) (if st.MayEnd then _ else _)
    split
    · exact ⟨s, stores, rfl⟩
    · exact alike
  | runDispatcher =>
    change Alike (st.runDispatcher.getD _) ((st.withStore s).runDispatcher.getD _)
    unfold runDispatcher
    rw [alike.loop_eq]
    split
    · exact ⟨s, stores, rfl⟩
    · exact alike
  | cancel => exact ⟨s, stores, rfl⟩
  | dropDispatcher =>
    change Alike st.dropDispatcher (st.withStore s).dropDispatcher
    unfold dropDispatcher
    rw [alike.loop_eq]
    split
    · exact ⟨s, stores, rfl⟩
    · exact alike
  | dropNotifier => exact ⟨s, stores, rfl⟩
  | down outage =>
    exact ⟨{ s with outage := outage }, ⟨⟨stores.last, stores.keys⟩, rfl⟩, rfl⟩

/-! ### Requests -/

theorem Alike.given {after after' : Station} (alike : st.Alike st') (id : ConnId)
    (next : after.Alike after') : (st.given id after).Alike (st'.given id after') := by
  unfold Station.given
  rw [alike.exchange_eq]
  split
  · exact next
  · exact alike

theorem Alike.unlessKnown {after after' : Station} (alike : st.Alike st') (id : ConnId)
    (next : after.Alike after') : (st.unlessKnown id after).Alike (st'.unlessKnown id after') := by
  unfold Station.unlessKnown
  rw [alike.exchange_eq]
  split
  · exact alike
  · exact next

theorem Alike.enroll (alike : st.Alike st') (id : ConnId) (entry : EntryPoint) :
    Echo Alike (st.enroll id entry) (st'.enroll id entry) := by
  obtain ⟨s, stores, rfl⟩ := alike
  unfold Station.enroll join?
  cases entry.topic? with
  | none => exact ⟨rfl, s, stores, rfl⟩
  | some topic => exact ⟨rfl, s, stores, rfl⟩

theorem Alike.act (alike : st.Alike st') (a : Act) : (st.act a).Alike (st'.act a) := by
  have same := alike.exchange_eq
  cases a with
  | move m => exact alike.step m
  | addPeer id allowance? =>
    apply alike.unlessKnown id
    unfold addPeer
    rw [same]
    exact alike.exchanged _
  | addClient id room stalled =>
    apply alike.unlessKnown id
    rcases alike.addClient id none room stalled with
      ⟨fault, left, right⟩ | ⟨next, next', left, right, added⟩
    · rw [left, right]
      exact alike
    · rw [left, right]
      exact added
  | join topic id =>
    rw [Station.act, Station.act, same]
    exact alike.given id (alike.exchanged _)
  | leave topic id =>
    rw [Station.act, Station.act, same]
    exact alike.exchanged _
  | publish topic frame =>
    rw [Station.act, Station.act, same]
    exact alike.exchanged _
  | send id frame =>
    rw [Station.act, Station.act, same]
    exact alike.exchanged _
  | joinRoom room id =>
    rw [Station.act, Station.act, same]
    exact alike.given id (alike.exchanged _)
  | leaveRoom id =>
    rw [Station.act, Station.act, same]
    exact alike.exchanged _
  | joinAllRooms id =>
    rw [Station.act, Station.act, same]
    exact alike.given id (alike.exchanged _)
  | broadcast room content =>
    rw [Station.act, Station.act, same]
    exact alike.exchanged _
  | chat who id e => exact alike.given id (alike.withHub (alike.hub.chat who id e).after)
  | enroll id entry => exact alike.given id (alike.enroll id entry).after
  | monitor id topic every =>
    obtain ⟨s, stores, rfl⟩ := alike
    exact ⟨s, stores, rfl⟩
  | close id => exact alike.closed id
  | dispatch event => exact alike.withHub (alike.hub.dispatch event).after
  | store store =>
    obtain ⟨s, -, rfl⟩ := alike
    exact ⟨store, Store.alike_equivalence.refl store, rfl⟩

theorem Alike.request (alike : st.Alike st') (r : Request) :
    (st.request r).Alike (st'.request r) := by
  cases r with
  | act a => exact alike.act a
  | store call =>
    obtain ⟨s, stores, rfl⟩ := alike
    exact ⟨s.call call, stores.call call, rfl⟩

/-! ### Answers -/

theorem Alike.served?_eq (alike : st.Alike st') (id : ConnId) : st.served? id = st'.served? id := by
  unfold served? spoken?
  rw [alike.sessions_eq, alike.tokens_eq]
  split
  · next s _ =>
    split
    · rfl
    · cases s.spoken? st.hub.tokens with
      | none => rfl
      | some said => exact congrArg some (alike.hub.chat said.1 id said.2).answer
  · rfl

theorem Alike.dispatched?_eq (alike : st.Alike st') (queue : QueueName) :
    st.dispatched? queue = st'.dispatched? queue := by
  unfold dispatched?
  rw [alike.loop_eq, alike.bus_eq]
  split
  · cases st.hub.bus.take? queue with
    | none => rfl
    | some hit => exact congrArg some (alike.taken hit.2 hit.1).answer
  · rfl

theorem Alike.runDispatcher_eq (alike : st.Alike st') :
    st.runDispatcher.isSome = st'.runDispatcher.isSome := by
  unfold runDispatcher
  rw [alike.loop_eq]
  split <;> rfl

theorem Alike.answerMove (alike : st.Alike st') (m : Move) :
    st.answerMove m = st'.answerMove m := by
  cases m with
  | read id => exact alike.served?_eq id
  | enqueue event => exact (alike.enqueue event).answer
  | dispatch queue => exact alike.dispatched?_eq queue
  | runDispatcher => exact alike.runDispatcher_eq
  | _ => rfl

theorem Alike.answerAct (alike : st.Alike st') (a : Act) : st.answerAct a = st'.answerAct a := by
  have same : ∀ {β : Type} (ask : Exchange → β), ask st.exchange = ask st'.exchange :=
    fun ask => congrArg ask alike.exchange_eq.symm
  cases a with
  | move m => exact alike.answerMove m
  | join topic id => exact same fun x => (x.join topic id).1
  | leave topic id => exact same fun x => (x.leave topic id).1
  | publish topic frame => exact same fun x => (x.publish topic frame).1
  | send id frame => exact same fun x => (x.send id frame).map fun _ => ()
  | joinRoom room id => exact same fun x => (x.joinRoom room id).1
  | leaveRoom id => exact same fun x => (x.leaveRoom id).1
  | joinAllRooms id => exact same fun x => (x.joinAllRooms id).1
  | broadcast room content => exact same fun x => (x.broadcast room content).1
  | chat who id e => exact (alike.hub.chat who id e).answer
  | enroll id entry => exact (alike.enroll id entry).answer
  | monitor id topic every =>
    obtain ⟨s, -, rfl⟩ := alike
    rfl
  | dispatch event => exact (alike.hub.dispatch event).answer
  | addPeer _ _ | addClient _ _ _ | close _ | store _ => rfl

theorem Alike.answer (alike : st.Alike st') (r : Request) (kept : ¬ r.WritesStore) :
    st.answer r = st'.answer r := by
  cases r with
  | act a => exact alike.answerAct a
  | store call =>
    cases call with
    | createConversation =>
      obtain ⟨s, stores, rfl⟩ := alike
      unfold Station.answer
      rcases stores.openNext with ⟨why, left, right⟩ | ⟨room, t, t', left, right, -⟩
      · rw [left]
        exact (congrArg Prod.fst right).symm
      · rw [left]
        exact (congrArg Prod.fst right).symm
    | _ => exact absurd trivial kept

/-! ### Runs -/

def suffer (st : Station) (mishaps : List Mishap) : Station :=
  st.withStore (st.hub.store.sufferAll mishaps)

def requestAmid (st : Station) (mishaps : Nat → List Mishap) (requests : List Request) : Station :=
  runAmid request (fun n st => st.suffer (mishaps n)) st requests

theorem suffer_alike (st : Station) (mishaps : List Mishap) : st.Alike (st.suffer mishaps) :=
  ⟨_, st.hub.store.sufferAll_alike mishaps, rfl⟩

theorem alike_requestAmid (st : Station) (own other : Nat → List Mishap)
    (requests : List Request) :
    (st.requestAmid own requests).Alike (st.requestAmid other requests) := by
  apply runAmid_related alike_equivalence
  · intro st st' r alike
    exact alike.request r
  · exact fun n st => st.suffer_alike (own n)
  · exact fun n st => st.suffer_alike (other n)
  · exact alike_equivalence.refl st

/-- Two runs of the same requests, between which notifications and messages fail to be stored and
conversations are closed in different ways. After every step the stations are the same but for what
their stores hold, and whatever is asked of them next they answer the same. -/
theorem delivery_independent (st : Station) (own other : Nat → List Mishap)
    (requests : List Request) (n : Nat) :
    let p := st.requestAmid own (requests.take n)
    let q := st.requestAmid other (requests.take n)
    (∀ id, p.exchange.sentTo id = q.exchange.sentTo id) ∧
      p.exchange = q.exchange ∧ p.hub.bus = q.hub.bus ∧
      (∃ s, q = p.withStore s ∧ s.last = p.hub.store.last ∧
        s.conversations.keys = p.hub.store.conversations.keys ∧
        s.outage.conversations = p.hub.store.outage.conversations) ∧
      ∀ r : Request, ¬ r.WritesStore → p.answer r = q.answer r := by
  intro p q
  have alike : p.Alike q := st.alike_requestAmid own other (requests.take n)
  have exchange := alike.exchange_eq
  refine ⟨?_, exchange.symm, alike.bus_eq.symm, ?_, alike.answer⟩
  · intro id
    rw [exchange]
  · obtain ⟨s, stores, same⟩ := alike
    exact ⟨s, same, stores.last, stores.keys, stores.failing⟩

end Station

end Switchboard
