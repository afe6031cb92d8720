import Switchboard.Proofs.Exchange.Pieces
import Switchboard.Proofs.Exchange.Standing

/-!
Many calls at once. Each goes on piece by piece, and the pieces of all of them come in any order.
Between the pieces the two views of membership may differ, and the hook of a connection may be
missing; what there is to do yet makes up for it.
-/

namespace Switchboard

theorem Exchange.standing_mark (x : Exchange) (id : ConnId) (c : Conn) (closed : Bool)
    (hooks : Hooks Cleanup) (one : ConnId) : (x.mark id c closed hooks).standing one =
      if id = one then some (closed, hooks) else x.standing one :=
  x.standing_withConn id _ one

/-- An exchange with the calls in progress: for each of them what there is to do yet. `joined` are
the connections that have ever been made members of something. -/
structure Crowd where
  exchange : Exchange
  calls : List (List Piece)
  joined : List ConnId

namespace Crowd

/-- What may be called; `watch` is anything else that leaves a hook with a connection. -/
inductive Job
  | join (topic : Topic) (id : ConnId)
  | leave (topic : Topic) (id : ConnId)
  | publish (topic : Topic) (frame : Frame)
  | close (id : ConnId)
  | watch (id : ConnId)

def Job.pieces : Job → List Piece
  | join topic id => [.enlist topic id]
  | leave topic id => [.leave topic id]
  | publish topic frame => [.snapshot topic frame]
  | close id => [.swap id]
  | watch id => [.attach id .vacateRoom]

def Job.whole (x : Exchange) : Job → Exchange
  | join topic id => (x.join topic id).2
  | leave topic id => (x.leave topic id).2
  | publish topic frame => (x.publish topic frame).2
  | close id => x.close id
  | watch id => x.attach id .vacateRoom

theorem Job.unbroken (x : Exchange) (job : Job) : Piece.Unbroken job.pieces x (job.whole x) := by
  cases job with
  | join topic id => exact .join x topic id
  | leave topic id => exact .leave x topic id
  | publish topic frame => exact .publish x topic frame
  | close id => exact .close x id
  | watch id => exact .attach x id .vacateRoom

def Job.Possible (x : Exchange) : Job → Prop
  | join _ id | watch id => x.Knows id
  | _ => True

instance (x : Exchange) (job : Job) : Decidable (job.Possible x) := by
  cases job <;> unfold Job.Possible <;> infer_instance

inductive Act
  | connect (id : ConnId) (link : Link)
  | relink (id : ConnId) (link : Link)
  | call (job : Job)
  | go (call : Nat)

def empty : Crowd := ⟨.empty, [], []⟩

def piece? (s : Crowd) : Act → Option Piece
  | .go call => s.calls[call]?.bind List.head?
  | _ => none

def joining : Piece → List ConnId
  | .enlist _ id => [id]
  | _ => []

def step (s : Crowd) : Act → Crowd
  | .connect id link =>
    if s.exchange.Knows id then s else { s with exchange := s.exchange.connect id link }
  | .relink id link => { s with exchange := s.exchange.setLink id link }
  | .call job =>
    if job.Possible s.exchange then { s with calls := s.calls ++ [job.pieces] } else s
  | .go call =>
    match s.calls[call]? with
    | some (piece :: pieces) =>
      let (more, x) := piece.run s.exchange
      ⟨x, s.calls.set call (more ++ pieces), joining piece ++ s.joined⟩
    | _ => s

def run (s : Crowd) (acts : List Act) : Crowd := acts.foldl step s

/-- No call is in progress. -/
def Idle (s : Crowd) : Prop := s.calls.flatten = []

def answer (s : Crowd) (topic : Topic) (id : ConnId) (act : Act) : List Bool :=
  if s.piece? act = some (.enlist topic id) then [(s.exchange.join topic id).1] else []

def answers (topic : Topic) (id : ConnId) (s : Crowd) : List Act → List Bool
  | [] => []
  | act :: acts => s.answer topic id act ++ answers topic id (s.step act) acts

/-- Nobody calls for a connection to leave a topic, nor is it evicted there. -/
def Stays (topic : Topic) (id : ConnId) (s : Crowd) : List Act → Prop
  | [] => True
  | act :: acts => s.piece? act ≠ some (.leave topic id) ∧ Stays topic id (s.step act) acts

/-! ### What the pieces to come make up for -/

variable {x y : Exchange} {piece : Piece} {todo more : List Piece} {joined : List ConnId}
  {topic : Topic} {id : ConnId}

/-- What is subscribed to is a membership. The other way round this is true as well, but for what
is going to be dropped. -/
structure Linked (x : Exchange) (todo : List Piece) (joined : List ConnId) : Prop where
  mirrored : ∀ topic id, topic ∈ x.topicsOf id → id ∈ x.membersOf topic
  covered : ∀ topic id, id ∈ x.membersOf topic → topic ∈ x.topicsOf id ∨ .drop topic id ∈ todo
  members : ∀ topic, (x.membersOf topic).Nodup
  topics : ∀ id, (x.topicsOf id).Nodup
  entered : ∀ topic id, id ∈ x.membersOf topic → id ∈ joined

namespace Linked

theorem keep (h : Linked x todo joined) (members : y.members = x.members)
    (subscriptions : y.subscriptions = x.subscriptions)
    (drops : ∀ topic id, .drop topic id ∈ todo → .drop topic id ∈ more) :
    Linked y more joined := by
  have members' : y.membersOf = x.membersOf := by
    unfold Exchange.membersOf
    rw [members]
  have topics' : y.topicsOf = x.topicsOf := by
    unfold Exchange.topicsOf
    rw [subscriptions]
  exact {
    mirrored := by
      rw [members', topics']
      exact h.mirrored
    covered := by
      intro topic id member
      rw [members'] at member
      rw [topics']
      exact (h.covered topic id member).imp_right (drops topic id)
    members := by
      rw [members']
      exact h.members
    topics := by
      rw [topics']
      exact h.topics
    entered := by
      rw [members']
      exact h.entered }

theorem pass (h : Linked x (piece :: todo) joined) (other : ∀ topic id, .drop topic id ≠ piece) :
    Linked x todo joined :=
  h.keep rfl rfl fun topic id member => (List.mem_cons.mp member).resolve_left (other topic id)

theorem add (h : Linked x todo joined) (more : List Piece) : Linked x (more ++ todo) joined :=
  h.keep rfl rfl fun _ _ => List.mem_append_right more

theorem enlist (h : Linked x todo joined) (topic : Topic) (id : ConnId) :
    Linked (x.enlist topic id).2 todo (id :: joined) where
  mirrored := by
    intro other one
    rw [Exchange.mem_topicsOf_enlist, Exchange.mem_membersOf_enlist]
    rintro (before | ⟨here, self, -⟩)
    · exact Or.inl (h.mirrored other one before)
    · exact Or.inr ⟨here, self⟩
  covered := by
    intro other one
    rw [Exchange.mem_topicsOf_enlist, Exchange.mem_membersOf_enlist]
    rintro (before | ⟨rfl, rfl⟩)
    · exact (h.covered other one before).imp_left Or.inl
    · by_cases member : one ∈ x.membersOf other
      · exact (h.covered other one member).imp_left Or.inl
      · exact Or.inl (Or.inr ⟨rfl, rfl, member⟩)
  members := by
    intro other
    rw [Exchange.membersOf_enlist]
    split
    · next added =>
      obtain ⟨rfl, stranger⟩ := added
      rw [← List.concat_eq_append]
      exact (h.members topic).concat stranger
    · exact h.members other
  topics := by
    intro one
    rw [Exchange.topicsOf_enlist]
    split
    · exact (h.topics one).insert
    · exact h.topics one
  entered := by
    intro other one
    rw [Exchange.mem_membersOf_enlist]
    rintro (before | ⟨-, rfl⟩)
    · exact List.mem_cons_of_mem id (h.entered other one before)
    · exact List.mem_cons_self

theorem leave (h : Linked x (piece :: todo) joined) (topic : Topic) (id : ConnId)
    (own : ∀ other one, piece = .drop other one → other = topic ∧ one = id) :
    Linked (x.leave topic id).2 todo joined where
  mirrored := by
    intro other one
    rw [Exchange.mem_topicsOf_leave h.topics, Exchange.mem_membersOf_leave h.members]
    rintro ⟨before, kept⟩
    have member := h.mirrored other one before
    refine ⟨member, ?_⟩
    rintro ⟨rfl, rfl⟩
    exact kept ⟨rfl, rfl, member⟩
  covered := by
    intro other one
    rw [Exchange.mem_topicsOf_leave h.topics, Exchange.mem_membersOf_leave h.members]
    rintro ⟨before, kept⟩
    rcases h.covered other one before with subscribed | dropped
    · exact Or.inl ⟨subscribed, fun ⟨here, self, _⟩ => kept ⟨here, self⟩⟩
    · rcases List.mem_cons.mp dropped with this | later
      · exact absurd (own other one this.symm) kept
      · exact Or.inr later
  members := by
    intro other
    rw [Exchange.membersOf_leave]
    split
    · exact (h.members other).erase id
    · exact h.members other
  topics := by
    intro one
    rw [Exchange.topicsOf_leave]
    split
    · exact (h.topics one).erase topic
    · exact h.topics one
  entered := by
    intro other one
    rw [Exchange.mem_membersOf_leave h.members]
    rintro ⟨before, -⟩
    exact h.entered other one before

theorem unsubscribe (h : Linked x (.clean id .forgetTopics :: todo) joined) :
    Linked (x.unsubscribe id).2 ((x.topicsOf id).map (.drop · id) ++ todo) joined where
  mirrored := by
    intro topic one
    rw [Exchange.topicsOf_unsubscribe]
    split
    · exact fun nothing => absurd nothing List.not_mem_nil
    · exact h.mirrored topic one
  covered := by
    intro topic one member
    rw [Exchange.topicsOf_unsubscribe, List.mem_append, List.mem_map]
    rcases h.covered topic one member with subscribed | dropped
    · split
      · next self => exact Or.inr (Or.inl ⟨topic, self ▸ subscribed, by rw [self]⟩)
      · exact Or.inl subscribed
    · rcases List.mem_cons.mp dropped with this | later
      · cases this
      · exact Or.inr (Or.inr later)
  members := h.members
  topics := by
    intro one
    rw [Exchange.topicsOf_unsubscribe]
    split
    · exact List.nodup_nil
    · exact h.topics one
  entered := h.entered

end Linked

/-! ### Hooks on their way -/

/-- Whether a piece is on its way to have a connection forgotten, as the hook that joining leaves. -/
def forgets (id : ConnId) : Piece → Bool
  | .attach one .forgetTopics | .clean one .forgetTopics => one = id
  | _ => false

/-- What there must be about a connection for a piece to come up. -/
def Fits (x : Exchange) : Piece → Prop
  | .enlist _ id | .attach id _ => (x.standing id).isSome
  | .drop _ id | .clean id _ | .fire id => ∃ hooks, x.standing id = some (true, hooks)
  | _ => True

/-- Whoever has a subscription has one hook that forgets it, waiting or on its way; nobody else has
any. Hooks are let go by closing only. -/
structure Watched (x : Exchange) (todo : List Piece) (joined : List ConnId) : Prop where
  owed : ∀ id, (x.waiting id).count .forgetTopics + todo.countP (forgets id) =
    if (x.subscriptions.find? id).isSome then 1 else 0
  waits : ∀ id closed hooks, x.standing id = some (closed, hooks) →
    (hooks.pending? = none ∧ closed = true) ∨
      ∃ acts : List Cleanup, hooks.pending? = some (acts.map .plain)
  fires : ∀ id hooks, x.standing id = some (true, hooks) →
    hooks.pending? = none ∨ .fire id ∈ todo
  fits : ∀ piece ∈ todo, Fits x piece
  seen : ∀ id ∈ joined, ∃ closed hooks, x.standing id = some (closed, hooks) ∧
    (closed = true ∨ (x.subscriptions.find? id).isSome)

def Lasting (x y : Exchange) : Prop :=
  ∀ id closed hooks, x.standing id = some (closed, hooks) →
    ∃ closed' hooks', y.standing id = some (closed', hooks') ∧ (closed = true → closed' = true)

theorem Lasting.of_standing (same : y.standing = x.standing) : Lasting x y := by
  intro id closed hooks stands
  exact ⟨closed, hooks, by rw [same, stands], fun closed => closed⟩

theorem Lasting.refl (x : Exchange) : Lasting x x := .of_standing rfl

theorem Lasting.trans {z : Exchange} (first : Lasting x y) (second : Lasting y z) :
    Lasting x z := by
  intro id closed hooks stands
  obtain ⟨closed', hooks', stands', still⟩ := first id closed hooks stands
  obtain ⟨closed'', hooks'', stands'', still'⟩ := second id closed' hooks' stands'
  exact ⟨closed'', hooks'', stands'', still' ∘ still⟩

theorem Lasting.mark {c : Conn} (found : x.conns.find? id = some c) {closed : Bool}
    (closes : c.closed = true → closed = true) (hooks : Hooks Cleanup) :
    Lasting x (x.mark id c closed hooks) := by
  intro one closed' hooks' stands
  rw [Exchange.standing_mark]
  split
  · next self =>
    subst self
    rw [Exchange.standing_of_find? found, Option.some_inj, Prod.mk.injEq] at stands
    exact ⟨closed, hooks, rfl, stands.1 ▸ closes⟩
  · exact ⟨closed', hooks', stands, fun closed => closed⟩

theorem Lasting.connect (unknown : ¬ x.Knows id) (link : Link) :
    Lasting x (x.connect id link) := by
  intro one closed hooks stands
  refine ⟨closed, hooks, ?_, fun closed => closed⟩
  rw [Exchange.standing_connect, if_neg, stands]
  rintro rfl
  rw [Exchange.standing_unknown unknown] at stands
  cases stands

theorem Fits.mono (lasting : Lasting x y) (fits : Fits x piece) : Fits y piece := by
  have known : ∀ id, (x.standing id).isSome → (y.standing id).isSome := by
    intro id some
    obtain ⟨⟨closed, hooks⟩, stands⟩ := Option.isSome_iff_exists.mp some
    obtain ⟨closed', hooks', stands', -⟩ := lasting id closed hooks stands
    rw [stands']
    rfl
  have shut : ∀ id, (∃ hooks, x.standing id = some (true, hooks)) →
      ∃ hooks, y.standing id = some (true, hooks) := by
    rintro id ⟨hooks, stands⟩
    obtain ⟨closed', hooks', stands', still⟩ := lasting id true hooks stands
    exact ⟨hooks', by rw [stands', still rfl]⟩
  cases piece with
  | enlist topic id | attach id act => exact known id fits
  | drop topic id | clean id act | fire id => exact shut id fits
  | _ => trivial

namespace Watched

theorem keep (h : Watched x todo joined) (standing : y.standing = x.standing)
    (subscriptions : ∀ id, (y.subscriptions.find? id).isSome = (x.subscriptions.find? id).isSome)
    (count : ∀ id, more.countP (forgets id) = todo.countP (forgets id))
    (fires : ∀ id, .fire id ∈ todo → .fire id ∈ more)
    (fits : ∀ piece ∈ more, piece ∈ todo ∨ Fits x piece) : Watched y more joined where
  owed := by
    intro id
    rw [subscriptions, count, Exchange.waiting, standing]
    exact h.owed id
  waits := by
    rw [standing]
    exact h.waits
  fires := by
    intro id hooks stands
    rw [standing] at stands
    exact (h.fires id hooks stands).imp_right (fires id)
  fits := by
    intro piece member
    apply Fits.mono (.of_standing standing)
    rcases fits piece member with before | fits
    · exact h.fits piece before
    · exact fits
  seen := by
    intro id member
    rw [standing, subscriptions]
    exact h.seen id member

theorem pass (h : Watched x (piece :: todo) joined) (other : ∀ id, .fire id ≠ piece)
    (idle : ∀ id, forgets id piece = false) : Watched x todo joined := by
  refine h.keep rfl (fun _ => rfl) ?_ ?_ ?_
  · intro id
    rw [List.countP_cons_of_neg (by simp [idle])]
  · exact fun id member => (List.mem_cons.mp member).resolve_left (other id)
  · exact fun piece member => Or.inl (List.mem_cons_of_mem _ member)

theorem mark (h : Watched x (piece :: todo) joined) {c : Conn} {closed : Bool}
    {hooks : Hooks Cleanup} (found : x.conns.find? id = some c)
    (closes : c.closed = true → closed = true)
    (own : hooks.waiting.count .forgetTopics + more.countP (forgets id) =
      c.hooks.waiting.count .forgetTopics + [piece].countP (forgets id))
    (others : ∀ one, one ≠ id → more.countP (forgets one) = [piece].countP (forgets one))
    (waits : (hooks.pending? = none ∧ closed = true) ∨
      ∃ acts : List Cleanup, hooks.pending? = some (acts.map .plain))
    (fires : closed = true → hooks.pending? = none ∨ .fire id ∈ more ++ todo)
    (fire : ∀ one, piece = .fire one → one = id)
    (fits : ∀ piece ∈ more, Fits (x.mark id c closed hooks) piece) :
    Watched (x.mark id c closed hooks) (more ++ todo) joined := by
  have stands := Exchange.standing_of_find? found
  have marked := x.standing_mark id c closed hooks
  have lasting : Lasting x (x.mark id c closed hooks) := .mark found closes hooks
  constructor
  -- each connection is owed as many hooks as before: what the piece stood for, `more` stands for
  · intro one
    have owed := h.owed one
    rw [← List.singleton_append, List.countP_append] at owed
    rw [List.countP_append]
    change _ = if (x.subscriptions.find? one).isSome then 1 else 0
    by_cases self : one = id
    · subst self
      rw [Exchange.waiting_of_standing stands] at owed
      rw [Exchange.waiting_of_standing ((marked one).trans (if_pos rfl))]
      omega
    · have same : (x.mark id c closed hooks).waiting one = x.waiting one := by
        rw [Exchange.waiting, marked, if_neg (Ne.symm self), Exchange.waiting]
      rw [same, others one self]
      omega
  · intro one closed' hooks' stands'
    rw [marked] at stands'
    split at stands'
    · cases stands'
      exact waits
    · exact h.waits one closed' hooks' stands'
  · intro one hooks' stands'
    rw [marked] at stands'
    split at stands'
    · next self =>
      cases stands'
      exact self ▸ fires rfl
    · next different =>
      refine (h.fires one hooks' stands').imp_right fun member => ?_
      rcases List.mem_cons.mp member with this | later
      · exact absurd (fire one this.symm).symm different
      · exact List.mem_append_right more later
  · intro piece member
    rcases List.mem_append.mp member with new | old
    · exact fits piece new
    · exact (h.fits piece (List.mem_cons_of_mem _ old)).mono lasting
  · intro one member
    obtain ⟨closed', hooks', stands', still⟩ := h.seen one member
    obtain ⟨closed'', hooks'', stands'', shut⟩ := lasting one closed' hooks' stands'
    exact ⟨closed'', hooks'', stands'', still.imp_left shut⟩

theorem connect (h : Watched x todo joined) (unknown : ¬ x.Knows id) (link : Link) :
    Watched (x.connect id link) todo joined := by
  have absent := Exchange.standing_unknown unknown
  have connected := x.standing_connect id link
  have lasting := Lasting.connect unknown link
  constructor
  · intro one
    have owed := h.owed one
    have same : (x.connect id link).waiting one = x.waiting one := by
      unfold Exchange.waiting
      rw [connected]
      by_cases self : id = one
      · rw [if_pos self, ← self, absent]
        rfl
      · rw [if_neg self]
    rw [same]
    exact owed
  · intro one closed hooks stands
    rw [connected] at stands
    split at stands
    · cases stands
      exact Or.inr ⟨[], rfl⟩
    · exact h.waits one closed hooks stands
  · intro one hooks stands
    rw [connected] at stands
    split at stands
    · cases stands
    · exact h.fires one hooks stands
  · exact fun piece member => (h.fits piece member).mono lasting
  · intro one member
    obtain ⟨closed, hooks, stands, still⟩ := h.seen one member
    obtain ⟨closed', hooks', stands', shut⟩ := lasting one closed hooks stands
    exact ⟨closed', hooks', stands', still.imp_left shut⟩

theorem join (h : Watched x todo joined)
    (new : ∃ closed hooks, x.standing id = some (closed, hooks) ∧
      (closed = true ∨ (x.subscriptions.find? id).isSome)) : Watched x todo (id :: joined) :=
  { h with
    seen := by
      intro one member
      rcases List.mem_cons.mp member with rfl | before
      · exact new
      · exact h.seen one before }

theorem add (h : Watched x todo joined) (fits : ∀ piece ∈ more, Fits x piece)
    (idle : ∀ piece ∈ more, ∀ id, forgets id piece = false) : Watched x (more ++ todo) joined := by
  refine h.keep rfl (fun _ => rfl) ?_ ?_ ?_
  · intro id
    have none : more.countP (forgets id) = 0 := by
      rw [List.countP_eq_zero]
      intro piece member
      simp [idle piece member]
    rw [List.countP_append, none, Nat.zero_add]
  · exact fun id member => List.mem_append_right more member
  · intro piece member
    exact (List.mem_append.mp member).symm.imp_right (fits piece)

theorem relist (h : Watched x todo joined) (conns : y.conns = x.conns)
    (subscriptions : ∀ id, (y.subscriptions.find? id).isSome = (x.subscriptions.find? id).isSome) :
    Watched y todo joined :=
  h.keep (Exchange.standing_of_conns conns) subscriptions (fun _ => rfl) (fun _ => id)
    fun _ => Or.inl

/-- A connection that is made a member for the first time is owed a hook. -/
theorem enlistFirst (h : Watched x (.enlist topic id :: todo) joined)
    (stranger : id ∉ x.membersOf topic) (none : x.subscriptions.find? id = .none) :
    Watched (x.enlist topic id).2 (.attach id .forgetTopics :: todo) joined where
  owed := by
    intro one
    have owed := h.owed one
    have standing : (x.enlist topic id).2.standing = x.standing :=
      Exchange.standing_of_conns (x.conns_enlist topic id)
    have waiting : (x.enlist topic id).2.waiting one = x.waiting one := by
      rw [Exchange.waiting, standing, Exchange.waiting]
    rw [List.countP_cons_of_neg (by simp [forgets])] at owed
    rw [waiting, Exchange.find?_subscriptions_enlist]
    by_cases self : one = id
    · subst self
      rw [none] at owed
      simp only [stranger, forgets, decide_true, List.countP_cons_of_pos, not_false_eq_true,
        and_self, if_true, Option.isSome_some]
      simp only [Option.isSome_none, Bool.false_eq_true, if_false] at owed
      omega
    · simpa [self, Ne.symm self, forgets] using owed
  waits := by
    rw [Exchange.standing_of_conns (x.conns_enlist topic id)]
    exact h.waits
  fires := by
    intro one hooks stands
    rw [Exchange.standing_of_conns (x.conns_enlist topic id)] at stands
    simpa using h.fires one hooks stands
  fits := by
    intro piece member
    apply Fits.mono (.of_standing (Exchange.standing_of_conns (x.conns_enlist topic id)))
    rcases List.mem_cons.mp member with rfl | before
    · exact h.fits (.enlist topic id) List.mem_cons_self
    · exact h.fits piece (List.mem_cons_of_mem _ before)
  seen := by
    intro one member
    rw [Exchange.standing_of_conns (x.conns_enlist topic id), Exchange.find?_subscriptions_enlist]
    obtain ⟨closed, hooks, stands, still⟩ := h.seen one member
    refine ⟨closed, hooks, stands, still.imp_right fun subscribed => ?_⟩
    split
    · rfl
    · exact subscribed

theorem fired (h : Watched x (.fire id :: todo) joined) {c : Conn}
    (found : x.conns.find? id = some c) (none : c.hooks.pending? = .none) :
    Watched x todo joined where
  owed := by
    intro one
    have owed := h.owed one
    rwa [List.countP_cons_of_neg (by simp [forgets])] at owed
  waits := h.waits
  fires := by
    intro one hooks stands
    by_cases self : one = id
    · subst self
      rw [Exchange.standing_of_find? found, Option.some_inj, Prod.mk.injEq] at stands
      exact Or.inl (stands.2 ▸ none)
    · refine (h.fires one hooks stands).imp_right fun member => ?_
      rcases List.mem_cons.mp member with this | later
      · cases this
        exact absurd rfl self
      · exact later
  fits := fun piece member => h.fits piece (List.mem_cons_of_mem _ member)
  seen := h.seen

/-- With its subscription gone a connection needs no hook. -/
theorem unsubscribe (h : Watched x (.clean id .forgetTopics :: todo) joined) :
    Watched (x.unsubscribe id).2 ((x.topicsOf id).map (.drop · id) ++ todo) joined where
  owed := by
    intro one
    have owed := h.owed one
    have none : ((x.topicsOf id).map (.drop · id)).countP (forgets one) = 0 := by
      rw [List.countP_map, List.countP_eq_zero]
      simp [forgets]
    rw [List.countP_append, none, Nat.zero_add]
    change (x.waiting one).count .forgetTopics + _ =
      if ((x.subscriptions.erase id).find? one).isSome then 1 else 0
    rw [Table.find?_erase]
    by_cases self : one = id
    · subst self
      rw [List.countP_cons_of_pos (by simp [forgets])] at owed
      rw [if_pos rfl, if_neg (by simp)]
      split at owed <;> omega
    · rw [List.countP_cons_of_neg (by simp [forgets, Ne.symm self])] at owed
      rw [if_neg (Ne.symm self)]
      exact owed
  waits := h.waits
  fires := by
    intro one hooks stands
    simpa using h.fires one hooks stands
  fits := by
    intro piece member
    rcases List.mem_append.mp member with new | old
    · obtain ⟨topic, -, rfl⟩ := List.mem_map.mp new
      exact h.fits (.clean id .forgetTopics) List.mem_cons_self
    · exact h.fits piece (List.mem_cons_of_mem _ old)
  seen := by
    intro one member
    obtain ⟨closed, hooks, stands, still⟩ := h.seen one member
    refine ⟨closed, hooks, stands, ?_⟩
    by_cases self : id = one
    · subst self
      obtain ⟨hooks', shut⟩ : ∃ hooks, x.standing id = some (true, hooks) :=
        h.fits (.clean id .forgetTopics) List.mem_cons_self
      rw [shut] at stands
      cases stands
      exact Or.inl rfl
    · change closed = true ∨ ((x.subscriptions.erase id).find? one).isSome
      rw [Table.find?_erase, if_neg self]
      exact still

end Watched

end Crowd

end Switchboard
