import Mathlib.Data.Finset.Card
import Mathlib.Data.Finset.Image
import Switchboard.Proofs.Exchange.Evicting

/-!
The topics of an exchange, as one relation. A ledger keeps the pairs of topics and connections in
one set, and the topics that were ever joined in another; it has no members or subscriptions that
must agree, no hooks and no order. The exchange answers whatever it is asked as the ledger does.
-/

namespace Switchboard

/-- `present` are the connections that there are; `frames` has what each was sent, in order. -/
structure Ledger where
  pairs : Finset (Topic × ConnId)
  known : Finset Topic
  present : Finset ConnId
  closed : Finset ConnId
  frames : ConnId → List Frame

namespace Ledger

/-- What may be done with topics, and what may happen to connections meanwhile: their links change,
and with them which frames can be sent. -/
inductive Act
  | connect (id : ConnId) (link : Link)
  | relink (id : ConnId) (link : Link)
  | join (topic : Topic) (id : ConnId)
  | leave (topic : Topic) (id : ConnId)
  | publish (topic : Topic) (frame : Frame)
  | close (id : ConnId)

inductive Answer
  | nothing
  | told (yes : Bool)
  | reported (report : Report)
  deriving DecidableEq, Repr

def empty : Ledger := ⟨∅, ∅, ∅, ∅, fun _ => []⟩

def audience (l : Ledger) (topic : Topic) : Finset ConnId :=
  (l.pairs.filter fun pair => pair.1 = topic).image Prod.snd

def expel (l : Ledger) (ids : Finset ConnId) : Ledger :=
  { l with
    pairs := l.pairs.filter fun pair => pair.2 ∉ ids
    closed := l.closed ∪ ids }

/-- Enters an act; `takes` says of each connection whether a frame can be sent to it. -/
def enter (l : Ledger) (takes : ConnId → Bool) : Act → Answer × Ledger
  | .connect id _ => (.nothing, { l with present := insert id l.present })
  | .relink _ _ => (.nothing, l)
  | .join topic id =>
    if id ∈ l.present then
      (.told (decide ((topic, id) ∉ l.pairs)), { l with
        known := insert topic l.known
        pairs := if id ∈ l.closed then l.pairs else insert (topic, id) l.pairs })
    else (.nothing, l)
  | .leave topic id =>
    (.told (decide ((topic, id) ∈ l.pairs)), { l with pairs := l.pairs.erase (topic, id) })
  | .publish topic frame =>
    let taking := (l.audience topic).filter fun id => takes id = true
    let refusing := (l.audience topic).filter fun id => takes id = false
    (.reported ⟨taking.card, refusing.card⟩, { l with
      frames := fun id => if id ∈ taking then l.frames id ++ [frame] else l.frames id }.expel
        refusing)
  | .close id => (.nothing, if id ∈ l.present then l.expel {id} else l)

def enterAll (l : Ledger) : List (Act × (ConnId → Bool)) → List Answer × Ledger
  | [] => ([], l)
  | (act, takes) :: acts =>
    let (answer, l) := l.enter takes act
    let (answers, l) := l.enterAll acts
    (answer :: answers, l)

theorem mem_audience {l : Ledger} {topic : Topic} {id : ConnId} :
    id ∈ l.audience topic ↔ (topic, id) ∈ l.pairs := by
  simp [audience]

end Ledger

namespace Exchange

open Ledger (Act Answer)

/-- What an act does, and what it answers. Only connections that exist can join, and every one is
connected once. -/
def enter (x : Exchange) : Act → Answer × Exchange
  | .connect id link => (.nothing, if x.Knows id then x else x.connect id link)
  | .relink id link => (.nothing, x.setLink id link)
  | .join topic id =>
    if x.Knows id then
      let (new, x) := x.join topic id
      (.told new, x)
    else (.nothing, x)
  | .leave topic id =>
    let (left, x) := x.leave topic id
    (.told left, x)
  | .publish topic frame =>
    let (report, x) := x.publish topic frame
    (.reported report, x)
  | .close id => (.nothing, x.close id)

def enterAll (x : Exchange) : List Act → List Answer × Exchange
  | [] => ([], x)
  | act :: acts =>
    let (answer, x) := x.enter act
    let (answers, x) := x.enterAll acts
    (answer :: answers, x)

/-- Relinking is all it takes for a send to an open connection to come out either way. -/
theorem takes_relinked {x : Exchange} {id : ConnId} (opened : x.isClosed id = false)
    (takes : Bool) (frame : Frame) :
    (x.setLink id (.peer ⟨!takes, none, []⟩)).takes frame id = takes := by
  cases found : x.conns.find? id with
  | none =>
    rw [isClosed, found] at opened
    cases opened
  | some c =>
    rw [isClosed_of_find? found] at opened
    rw [setLink_eq found, takes_eq, find?_conns_withConn, if_pos rfl]
    cases takes <;> simp [Conn.send, opened, Peer.send, Except.map, Except.isOk, Except.toBool]

def outcome (x : Exchange) : Act → ConnId → Bool
  | .publish _ frame => x.takes frame
  | _ => fun _ => false

def outcomes (x : Exchange) : List Act → List (Act × (ConnId → Bool))
  | [] => []
  | act :: acts => (act, x.outcome act) :: (x.enter act).2.outcomes acts

/-! ### Answers and known topics -/

section answers

variable (x : Exchange) (topic other : Topic) (id one : ConnId)

theorem answer_leave : (x.leave topic id).1 = decide (id ∈ x.membersOf topic) := by
  unfold leave
  by_cases member : id ∈ x.membersOf topic <;> simp [member]

theorem mem_keys_join :
    other ∈ (x.join topic id).2.members.keys ↔ other = topic ∨ other ∈ x.members.keys := by
  rw [← (AgreeBut.join_self x topic id).known, keys_enlist]
  split
  · next known =>
    constructor
    · exact Or.inr
    · rintro (rfl | before)
      · exact known
      · exact before
  · rw [List.mem_append, List.mem_singleton, or_comm]

theorem isKnown_iff : x.isKnown topic = true ↔ topic ∈ x.members.keys :=
  (Table.mem_keys x.members topic).symm

theorem mem_rooms (room : ConversationId) : room ∈ x.rooms ↔ .room room ∈ x.members.keys := by
  unfold rooms
  rw [List.mem_filterMap]
  constructor
  · rintro ⟨topic, known, shape⟩
    cases topic with
    | room other =>
      cases shape
      exact known
    | _ => cases shape
  · intro known
    exact ⟨.room room, known, rfl⟩

end answers

/-! ### The same relation -/

/-- The exchange is consistent, and a ledger has the same in it. -/
structure Booked (x : Exchange) (l : Ledger) : Prop extends x.Consistent where
  pairs : ∀ topic id, id ∈ x.membersOf topic ↔ (topic, id) ∈ l.pairs
  known : ∀ topic, topic ∈ x.members.keys ↔ topic ∈ l.known
  present : ∀ id, x.Knows id ↔ id ∈ l.present
  closed : ∀ id, x.Knows id → (x.isClosed id = true ↔ id ∈ l.closed)
  frames : ∀ id, x.sentTo id = l.frames id
  inside : l.closed ⊆ l.present

namespace Booked

variable {x : Exchange} {l : Ledger} {topic : Topic} {id : ConnId} {frame : Frame}

theorem empty : Exchange.empty.Booked .empty where
  toConsistent := empty_consistent
  pairs := by
    intro topic id
    exact iff_of_false List.not_mem_nil (Finset.notMem_empty (topic, id))
  known := by
    intro topic
    simp [Exchange.empty, Ledger.empty, Table.keys, Table.empty]
  present := by
    intro id
    exact iff_of_false Bool.false_ne_true (Finset.notMem_empty id)
  closed := by
    intro id known
    cases known
  frames := fun _ => rfl
  inside := fun _ => id

theorem audience (h : x.Booked l) (topic : Topic) :
    (x.membersOf topic).toFinset = l.audience topic := by
  ext id
  rw [List.mem_toFinset, h.pairs, Ledger.mem_audience]

theorem connect (h : x.Booked l) (unknown : ¬ x.Knows id) (link : Link) :
    (x.connect id link).Booked { l with present := insert id l.present } where
  toConsistent := h.toConsistent.connect unknown link
  pairs := h.pairs
  known := h.known
  present := by
    intro one
    rw [knows_connect, Finset.mem_insert, h.present, eq_comm]
  closed := by
    intro one known
    rw [isClosed_connect]
    split
    · next self =>
      subst self
      have outside : id ∉ l.closed := fun closed => unknown ((h.present id).mpr (h.inside closed))
      simp [outside]
    · next different =>
      rw [knows_connect] at known
      exact h.closed one (known.resolve_left different)
  frames := by
    intro one
    rw [sentTo_connect unknown, h.frames]
  inside := h.inside.trans (Finset.subset_insert id l.present)

theorem relink (h : x.Booked l) (id : ConnId) (link : Link) : (x.setLink id link).Booked l where
  toConsistent := h.toConsistent.setLink id link
  pairs := h.pairs
  known := h.known
  present := by
    intro one
    rw [knows_setLink, h.present]
  closed := by
    intro one known
    rw [isClosed_setLink]
    exact h.closed one ((knows_setLink x id one link).mp known)
  frames := by
    intro one
    rw [sentTo_setLink, h.frames]
  inside := h.inside

theorem join (h : x.Booked l) (known : x.Knows id) (topic : Topic) :
    (x.join topic id).2.Booked { l with
      known := insert topic l.known
      pairs := if id ∈ l.closed then l.pairs else insert (topic, id) l.pairs } where
  toConsistent := h.toConsistent.join known topic
  pairs := by
    intro other one
    rw [mem_membersOf_join h.toConsistent known, h.pairs]
    by_cases closed : id ∈ l.closed
    · have shut := (h.closed id known).mpr closed
      simp [closed, shut]
    · have opened : x.isClosed id = false := by
        rw [← Bool.not_eq_true]
        exact fun shut => closed ((h.closed id known).mp shut)
      simp [closed, opened, or_comm]
  known := by
    intro other
    rw [mem_keys_join, Finset.mem_insert, h.known]
  present := by
    intro one
    rw [(SameConns.join x topic id).knows, h.present]
  closed := by
    intro one known
    rw [(SameConns.join x topic id).closed]
    exact h.closed one (((SameConns.join x topic id).knows one).mp known)
  frames := by
    intro one
    rw [(SameConns.join x topic id).sent, h.frames]
  inside := h.inside

theorem leave (h : x.Booked l) (topic : Topic) (id : ConnId) :
    (x.leave topic id).2.Booked { l with pairs := l.pairs.erase (topic, id) } where
  toConsistent := h.toConsistent.leave topic id
  pairs := by
    intro other one
    rw [membersOf_leave, Finset.mem_erase, ← h.pairs]
    by_cases here : topic = other
    · subst here
      simp [(h.members topic).mem_erase_iff]
    · simp [here, Ne.symm here]
  known := by
    intro other
    rw [keys_leave, h.known]
  present := by
    intro one
    rw [(SameConns.leave x topic id).knows, h.present]
  closed := by
    intro one known
    rw [(SameConns.leave x topic id).closed]
    exact h.closed one (((SameConns.leave x topic id).knows one).mp known)
  frames := by
    intro one
    rw [(SameConns.leave x topic id).sent, h.frames]
  inside := h.inside

theorem close (h : x.Booked l) (known : x.Knows id) : (x.close id).Booked (l.expel {id}) where
  toConsistent := h.toConsistent.close id
  pairs := by
    intro topic one
    rw [membersOf_close h.toConsistent, (h.members topic).mem_erase_iff, h.pairs]
    simp [Ledger.expel, and_comm]
  known := by
    intro topic
    rw [keys_close]
    exact h.known topic
  present := by
    intro one
    exact (knows_perform h.toConsistent (.close id) one).trans (h.present one)
  closed := by
    intro one known'
    have before := (knows_perform h.toConsistent (.close id) one).mp known'
    rw [isClosed_close h.toConsistent, Bool.or_eq_true, h.closed one before]
    simp [Ledger.expel, eq_comm]
  frames := by
    intro one
    rw [sentTo_close h.toConsistent]
    exact h.frames one
  inside := by
    intro one closed
    rw [Ledger.expel, Finset.mem_union, Finset.mem_singleton] at closed
    rcases closed with before | rfl
    · exact h.inside before
    · exact (h.present one).mp known

/-! ### Publishing -/

theorem mem_refusing (h : x.Booked l) (topic : Topic) (frame : Frame) (id : ConnId) :
    id ∈ x.refusers topic frame ↔
      id ∈ (l.audience topic).filter fun id => x.takes frame id = false := by
  rw [mem_refusers, Finset.mem_filter, Ledger.mem_audience, h.pairs]

theorem report (h : x.Booked l) (topic : Topic) (frame : Frame) :
    (x.publish topic frame).1 =
      ⟨((l.audience topic).filter fun id => x.takes frame id = true).card,
        ((l.audience topic).filter fun id => x.takes frame id = false).card⟩ := by
  have counted : ∀ p : ConnId → Bool, ((x.membersOf topic).filter p).length =
      ((l.audience topic).filter fun id => p id = true).card := by
    intro p
    rw [← h.audience, ← List.toFinset_filter (x.membersOf topic) p,
      List.toFinset_card_of_nodup ((h.members topic).filter p)]
  rw [report_publish h.toConsistent, counted, refusers, counted]
  simp only [Bool.not_eq_true']

theorem knows_of_member (h : x.Booked l) (member : id ∈ x.membersOf topic) : x.Knows id := by
  by_contra unknown
  exact h.not_member (isClosed_unknown unknown) topic member

theorem publish (h : x.Booked l) (topic : Topic) (frame : Frame) :
    (x.publish topic frame).2.Booked (l.enter (x.takes frame) (.publish topic frame)).2 where
  toConsistent := h.toConsistent.publish topic frame
  pairs := by
    intro other one
    rw [membersOf_publish h.toConsistent, List.mem_filter, decide_eq_true_iff, h.mem_refusing,
      h.pairs]
    simp only [Ledger.enter, Ledger.expel, Finset.mem_filter]
  known := by
    intro other
    rw [keys_publish]
    exact h.known other
  present := by
    intro one
    rw [knows_publish h.toConsistent]
    exact h.present one
  closed := by
    intro one known
    rw [knows_publish h.toConsistent] at known
    rw [isClosed_published h.toConsistent, Bool.or_eq_true, decide_eq_true_iff, h.mem_refusing,
      h.closed one known, or_comm]
    simp only [Ledger.enter, Ledger.expel, Finset.mem_union]
  frames := by
    intro one
    have published := publish_published h.toConsistent topic frame
    simp only [Ledger.enter, Ledger.expel, Finset.mem_filter, Ledger.mem_audience, ← h.pairs]
    by_cases member : one ∈ x.membersOf topic
    · cases takes : x.takes frame one with
      | true => simp [member, published.taken one member takes, h.frames]
      | false =>
        have refuses : ¬ x.takes frame one := by simp [takes]
        simp [member, (published.refused one member refuses).1, h.frames]
    · simp [member, published.others one member, h.frames]
  inside := by
    intro one closed
    simp only [Ledger.enter, Ledger.expel, Finset.mem_union] at closed
    rcases closed with before | refuses
    · exact h.inside before
    · rw [← h.mem_refusing, mem_refusers] at refuses
      exact (h.present one).mp (h.knows_of_member refuses.1)

/-! ### Every act -/

theorem enter (h : x.Booked l) (act : Act) :
    (x.enter act).1 = (l.enter (x.outcome act) act).1 ∧
      (x.enter act).2.Booked (l.enter (x.outcome act) act).2 := by
  cases act with
  | connect id link =>
    refine ⟨rfl, ?_⟩
    unfold Exchange.enter Ledger.enter
    dsimp only
    split
    · next known =>
      rw [Finset.insert_eq_of_mem ((h.present id).mp known)]
      exact h
    · next unknown => exact h.connect unknown link
  | relink id link => exact ⟨rfl, h.relink id link⟩
  | join topic id =>
    unfold Exchange.enter Ledger.enter
    by_cases known : x.Knows id
    · simp only [known, (h.present id).mp known, if_true]
      refine ⟨?_, h.join known topic⟩
      rw [answer_join]
      simp only [h.pairs]
    · have absent : id ∉ l.present := fun present => known ((h.present id).mpr present)
      simp only [known, absent, if_false]
      exact ⟨trivial, h⟩
  | leave topic id =>
    unfold Exchange.enter Ledger.enter
    refine ⟨?_, h.leave topic id⟩
    dsimp only
    rw [answer_leave]
    simp only [h.pairs]
  | publish topic frame =>
    refine ⟨?_, h.publish topic frame⟩
    exact congrArg Answer.reported (h.report topic frame)
  | close id =>
    refine ⟨rfl, ?_⟩
    unfold Exchange.enter Ledger.enter
    dsimp only
    split
    · next present => exact h.close ((h.present id).mpr present)
    · next absent =>
      have unknown : ¬ x.Knows id := fun known => absent ((h.present id).mp known)
      rw [close_of_closed (isClosed_unknown unknown)]
      exact h

/-- The run: the ledger is told what has come of each send, and nothing else. -/
theorem enterAll (h : x.Booked l) (acts : List Act) :
    (x.enterAll acts).1 = (l.enterAll (x.outcomes acts)).1 ∧
      (x.enterAll acts).2.Booked (l.enterAll (x.outcomes acts)).2 := by
  induction acts generalizing x l with
  | nil => exact ⟨rfl, h⟩
  | cons act acts ih =>
    obtain ⟨answer, booked⟩ := h.enter act
    obtain ⟨answers, booked⟩ := ih booked
    exact ⟨congrArg₂ List.cons answer answers, booked⟩

theorem count (h : x.Booked l) (topic : Topic) : x.count topic = (l.audience topic).card := by
  rw [Exchange.count, ← h.audience, List.toFinset_card_of_nodup (h.members topic)]

theorem contains (h : x.Booked l) (topic : Topic) (id : ConnId) :
    x.contains topic id = true ↔ (topic, id) ∈ l.pairs := by
  rw [contains_iff, h.pairs]

end Booked

/-- Whatever is done with topics and connections, and whatever comes of the sends: the exchange
gives the answers of the ledger, and whatever it is asked then is in the ledger too. -/
theorem refines_ledger (acts : List Act) :
    let x := (empty.enterAll acts).2
    let l := (Ledger.empty.enterAll (empty.outcomes acts)).2
    (empty.enterAll acts).1 = (Ledger.empty.enterAll (empty.outcomes acts)).1 ∧
      (∀ topic id, x.contains topic id = true ↔ (topic, id) ∈ l.pairs) ∧
      (∀ topic, x.count topic = (l.audience topic).card) ∧
      (∀ topic, x.isKnown topic = true ↔ topic ∈ l.known) ∧
      (∀ room, room ∈ x.rooms ↔ .room room ∈ l.known) ∧
      (∀ id topic, topic ∈ x.topicsOf id ↔ (topic, id) ∈ l.pairs) ∧
      (∀ id, x.sentTo id = l.frames id) ∧
      (∀ id, x.Knows id ↔ id ∈ l.present) ∧
      (∀ id, x.Knows id → (x.isClosed id = true ↔ id ∈ l.closed)) := by
  intro x l
  obtain ⟨answers, booked⟩ := Booked.empty.enterAll acts
  refine ⟨answers, booked.contains, booked.count, ?_, ?_, ?_, booked.frames, booked.present,
    booked.closed⟩
  · intro topic
    rw [isKnown_iff]
    exact booked.known topic
  · intro room
    rw [mem_rooms]
    exact booked.known (.room room)
  · intro id topic
    rw [← booked.same]
    exact booked.pairs topic id

end Exchange

end Switchboard
