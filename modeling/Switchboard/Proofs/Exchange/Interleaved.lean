import Mathlib.Data.List.Perm.Basic
import Switchboard.Proofs.Exchange.Crowd

/-!
Whatever calls are made at once, and in whatever order their pieces come: as soon as none is in
progress the exchange is as if they had been made one after the other.
-/

namespace Switchboard.Crowd

variable {x : Exchange} {piece : Piece} {todo more : List Piece} {joined : List ConnId}
  {topic : Topic} {id : ConnId}

/-! ### Every piece -/

structure Sound (x : Exchange) (todo : List Piece) (joined : List ConnId) : Prop extends
  Linked x todo joined, Watched x todo joined

namespace Sound

theorem enlist (h : Sound x (.enlist topic id :: todo) joined) :
    Sound ((Piece.enlist topic id).run x).2 (((Piece.enlist topic id).run x).1 ++ todo)
      (id :: joined) := by
  have linked := (h.toLinked.pass (by simp)).enlist topic id
  have watched := h.toWatched.pass (by simp) (by simp [forgets])
  have standing := Exchange.standing_of_conns (x.conns_enlist topic id)
  have known : (x.standing id).isSome := h.fits (.enlist topic id) List.mem_cons_self
  have new : ∃ closed hooks, (x.enlist topic id).2.standing id = some (closed, hooks) ∧
      (closed = true ∨ ((x.enlist topic id).2.subscriptions.find? id).isSome) := by
    rw [standing, Exchange.find?_subscriptions_enlist]
    by_cases member : id ∈ x.membersOf topic
    · simpa [member] using watched.seen id (h.entered topic id member)
    · obtain ⟨⟨closed, hooks⟩, stands⟩ := Option.isSome_iff_exists.mp known
      exact ⟨closed, hooks, stands, Or.inr (by simp [member])⟩
  rw [Piece.run_enlist]
  split
  · next first =>
    exact ⟨linked.add [.attach id .forgetTopics],
      (h.toWatched.enlistFirst first.1 first.2).join new⟩
  · next later =>
    refine ⟨linked, (watched.relist (x.conns_enlist topic id) ?_).join new⟩
    intro one
    rw [Exchange.find?_subscriptions_enlist]
    split
    · next added =>
      obtain ⟨rfl, stranger⟩ := added
      cases found : x.subscriptions.find? id with
      | none => exact absurd ⟨stranger, found⟩ later
      | some topics => rfl
    · rfl

theorem leave (h : Sound x (piece :: todo) joined) (topic : Topic) (id : ConnId)
    (own : ∀ other one, piece = .drop other one → other = topic ∧ one = id)
    (other : ∀ id, .fire id ≠ piece) (idle : ∀ id, forgets id piece = false) :
    Sound (x.leave topic id).2 todo joined := by
  refine ⟨h.toLinked.leave topic id own,
    (h.toWatched.pass other idle).relist (x.conns_leave topic id) ?_⟩
  intro one
  rw [Exchange.find?_subscriptions_leave]
  split
  · rw [Option.isSome_map]
  · rfl

theorem mark (h : Sound x (piece :: todo) joined) (other : ∀ topic id, .drop topic id ≠ piece)
    {c : Conn} {closed : Bool} {hooks : Hooks Cleanup}
    (watched : Watched (x.mark id c closed hooks) (more ++ todo) joined) :
    Sound (x.mark id c closed hooks) (more ++ todo) joined :=
  ⟨(h.toLinked.pass other).keep rfl rfl fun _ _ => List.mem_append_right more, watched⟩

theorem attach {act : Cleanup} (h : Sound x (.attach id act :: todo) joined) :
    Sound ((Piece.attach id act).run x).2 (((Piece.attach id act).run x).1 ++ todo) joined := by
  have known : (x.standing id).isSome := h.fits (.attach id act) List.mem_cons_self
  rw [Exchange.standing, Option.isSome_map] at known
  obtain ⟨c, found⟩ := Option.isSome_iff_exists.mp known
  have stands := Exchange.standing_of_find? found
  rw [Piece.run, found]
  dsimp only
  rcases h.waits id c.closed c.hooks stands with ⟨fired, closed⟩ | ⟨acts, waits⟩
  · rw [Hooks.register_fired fired]
    apply h.mark (by simp)
    refine h.toWatched.mark found (fun closed => closed) ?_ ?_ (Or.inl ⟨fired, closed⟩)
      (fun _ => Or.inl fired) (by simp) ?_
    · cases act <;> simp [forgets]
    · intro one different
      cases act <;> simp [forgets]
    · intro piece member
      obtain rfl := List.mem_singleton.mp member
      exact ⟨c.hooks, by rw [Exchange.standing_mark, if_pos rfl, closed]⟩
  · rw [Hooks.register_waits waits]
    apply h.mark (by simp)
    refine h.toWatched.mark found (fun closed => closed) ?_ ?_ (Or.inr ⟨_, rfl⟩) ?_ (by simp)
      (by simp)
    · rw [Hooks.waiting_plain rfl, Hooks.waiting_plain waits]
      cases act <;> simp [forgets]
    · intro one different
      cases act <;> simp [forgets, Ne.symm different]
    · intro closed
      rw [closed] at stands
      rcases h.fires id c.hooks stands with fired | member
      · rw [waits] at fired
        cases fired
      · exact Or.inr (List.mem_of_ne_of_mem (by simp) member)

theorem swap (h : Sound x (.swap id :: todo) joined) :
    Sound ((Piece.swap id).run x).2 (((Piece.swap id).run x).1 ++ todo) joined := by
  have same : Sound x todo joined :=
    ⟨h.toLinked.pass (by simp), h.toWatched.pass (by simp) (by simp [forgets])⟩
  rw [Piece.run]
  cases found : x.conns.find? id with
  | none => exact same
  | some c =>
    dsimp only
    split
    · exact same
    · next opened =>
      have stands := Exchange.standing_of_find? found
      apply h.mark (by simp)
      refine h.toWatched.mark found (fun _ => rfl) (by simp [forgets]) (by simp [forgets]) ?_
        (fun _ => Or.inr List.mem_cons_self) (by simp) ?_
      · rcases h.waits id c.closed c.hooks stands with ⟨-, closed⟩ | waits
        · exact absurd closed opened
        · exact Or.inr waits
      · intro piece member
        obtain rfl := List.mem_singleton.mp member
        exact ⟨c.hooks, by rw [Exchange.standing_mark, if_pos rfl]⟩

theorem count_clean (id one : ConnId) (acts : List Cleanup) :
    (acts.map (Piece.clean id)).countP (forgets one) =
      if id = one then acts.count .forgetTopics else 0 := by
  induction acts with
  | nil => simp
  | cons act acts ih =>
    rw [List.map_cons, List.countP_cons, ih]
    cases act <;> by_cases self : id = one <;> simp [forgets, self]

theorem fire (h : Sound x (.fire id :: todo) joined) :
    Sound ((Piece.fire id).run x).2 (((Piece.fire id).run x).1 ++ todo) joined := by
  obtain ⟨hooks, stands⟩ : ∃ hooks, x.standing id = some (true, hooks) :=
    h.fits (.fire id) List.mem_cons_self
  obtain ⟨c, found, marks⟩ := Option.map_eq_some_iff.mp stands
  obtain ⟨closed, rfl⟩ := Prod.mk.injEq .. ▸ marks
  rw [Piece.run, found]
  dsimp only
  rcases h.waits id true c.hooks stands with ⟨fired, -⟩ | ⟨acts, waits⟩
  · rw [Hooks.fire?, fired]
    exact ⟨h.toLinked.pass (by simp), h.toWatched.fired found fired⟩
  · rw [Hooks.fire?_waiting waits]
    apply h.mark (by simp)
    refine h.toWatched.mark found (fun closed => closed) ?_ ?_ (Or.inl ⟨rfl, closed⟩)
      (fun _ => Or.inl rfl) (by simp) ?_
    · rw [Hooks.waiting_fired rfl, Hooks.waiting_plain waits, count_clean, if_pos rfl]
      simp [forgets]
    · intro one different
      rw [count_clean, if_neg (Ne.symm different)]
      simp [forgets]
    · intro piece member
      obtain ⟨act, -, rfl⟩ := List.mem_map.mp member
      exact ⟨⟨none⟩, by rw [Exchange.standing_mark, if_pos rfl, closed]⟩

theorem offer {frame : Frame} {failed ids : List ConnId}
    (h : Sound x (.offer topic frame failed ids :: todo) joined) :
    Sound ((Piece.offer topic frame failed ids).run x).2
      (((Piece.offer topic frame failed ids).run x).1 ++ todo) joined := by
  have linked := h.toLinked.pass (by simp)
  have watched := h.toWatched.pass (by simp) (by simp [forgets])
  cases ids with
  | nil =>
    rw [Piece.run]
    have evicting : ∀ piece : Piece,
        piece ∈ failed.reverse.flatMap (fun id => [.leave topic id, .swap id]) →
        ∃ id, piece = .leave topic id ∨ piece = .swap id := by
      intro piece member
      obtain ⟨id, -, here⟩ := List.mem_flatMap.mp member
      exact ⟨id, by simpa using here⟩
    refine ⟨linked.add _, watched.add ?_ ?_⟩
    · intro piece member
      obtain ⟨id, rfl | rfl⟩ := evicting piece member <;> trivial
    · intro piece member
      obtain ⟨id, rfl | rfl⟩ := evicting piece member <;> exact fun _ => rfl
  | cons id ids =>
    rw [Piece.run]
    cases sent : x.send id frame with
    | error why => exact ⟨linked.add _, watched.add (by simp [Fits]) (by simp [forgets])⟩
    | ok y =>
      have standing := Exchange.standing_send sent
      obtain ⟨c, k, -, -, -, -, -, rfl⟩ := Exchange.send_ok sent
      exact ⟨(linked.add _).keep rfl rfl fun _ _ member => member,
        (watched.add (by simp [Fits]) (by simp [forgets])).keep standing (fun _ => rfl)
          (fun _ => rfl) (fun _ member => member) fun _ => Or.inl⟩

theorem run (h : Sound x (piece :: todo) joined) :
    Sound (piece.run x).2 ((piece.run x).1 ++ todo) (joining piece ++ joined) := by
  cases piece with
  | enlist topic id => exact h.enlist
  | attach id act => exact h.attach
  | leave topic id => exact h.leave topic id (by simp) (by simp) (by simp [forgets])
  | drop topic id => exact h.leave topic id (by simp_all) (by simp) (by simp [forgets])
  | clean id act =>
    cases act with
    | forgetTopics => exact ⟨h.toLinked.unsubscribe, h.toWatched.unsubscribe⟩
    | vacateRoom =>
      exact ⟨(h.toLinked.pass (by simp)).keep rfl rfl fun _ _ member => member,
        (h.toWatched.pass (by simp) (by simp [forgets])).relist rfl fun _ => rfl⟩
  | swap id => exact h.swap
  | fire id => exact h.fire
  | snapshot topic frame =>
    rw [Piece.run]
    exact ⟨(h.toLinked.pass (by simp)).add _,
      (h.toWatched.pass (by simp) (by simp [forgets])).add (by simp [Fits]) (by simp [forgets])⟩
  | offer topic frame failed ids => exact h.offer

theorem perm (h : Sound x todo joined) (same : todo.Perm more) : Sound x more joined := by
  refine ⟨h.toLinked.keep rfl rfl fun _ _ => same.mem_iff.mp,
    h.toWatched.keep rfl (fun _ => rfl) ?_ (fun _ => same.mem_iff.mp) ?_⟩
  · intro id
    exact (same.countP_eq _).symm
  · exact fun piece member => Or.inl (same.mem_iff.mpr member)

theorem call (h : Sound x todo joined) {job : Job} (possible : job.Possible x) :
    Sound x (job.pieces ++ todo) joined := by
  have known : ∀ id, x.Knows id → (x.standing id).isSome := fun id => (x.knows_standing id).mp
  refine ⟨h.toLinked.add _, h.toWatched.add ?_ ?_⟩
  · intro piece member
    cases job <;> obtain rfl := List.mem_singleton.mp member
    · exact known _ possible
    · trivial
    · trivial
    · trivial
    · exact known _ possible
  · intro piece member
    cases job <;> obtain rfl := List.mem_singleton.mp member <;> exact fun _ => rfl

end Sound

/-! ### Every run -/

/-- The exchange of a crowd, with all the pieces to come. -/
def Steady (s : Crowd) : Prop := Sound s.exchange s.calls.flatten s.joined

theorem empty_steady : empty.Steady where
  mirrored := by
    intro topic id subscribed
    cases subscribed
  covered := by
    intro topic id member
    cases member
  members := fun _ => List.nodup_nil
  topics := fun _ => List.nodup_nil
  entered := by
    intro topic id member
    cases member
  owed := fun _ => rfl
  waits := by
    intro id closed hooks stands
    cases stands
  fires := by
    intro id hooks stands
    cases stands
  fits := by
    intro piece member
    cases member
  seen := by
    intro id member
    cases member

theorem perm_call {calls : List (List Piece)} {call : Nat} {pieces : List Piece}
    (found : calls[call]? = some pieces) (others : List Piece) :
    calls.flatten.Perm (pieces ++ (calls.eraseIdx call).flatten) ∧
      (calls.set call others).flatten.Perm (others ++ (calls.eraseIdx call).flatten) := by
  obtain ⟨inside, here⟩ := List.getElem?_eq_some_iff.mp found
  constructor
  · have shape := (List.getElem_cons_eraseIdx_perm inside).symm.flatten
    rwa [here] at shape
  · exact (List.set_perm_cons_eraseIdx inside others).flatten

theorem Steady.step {s : Crowd} (h : s.Steady) (act : Act) : (s.step act).Steady := by
  cases act with
  | connect id link =>
    unfold Crowd.step
    dsimp only
    split
    · exact h
    · next unknown =>
      exact ⟨h.toLinked.keep rfl rfl fun _ _ member => member, h.toWatched.connect unknown link⟩
  | relink id link =>
    exact ⟨h.toLinked.keep rfl rfl fun _ _ member => member,
      h.toWatched.keep (s.exchange.standing_setLink id link) (fun _ => rfl) (fun _ => rfl)
        (fun _ member => member) fun _ => Or.inl⟩
  | call job =>
    unfold Crowd.step
    dsimp only
    split
    · next possible =>
      apply (Sound.call h possible).perm
      simpa using List.perm_append_comm
    · exact h
  | go call =>
    unfold Crowd.step
    dsimp only
    split
    · next piece pieces found =>
      obtain ⟨before, after⟩ := perm_call found ((piece.run s.exchange).1 ++ pieces)
      rw [List.cons_append] at before
      have moved := Sound.run (Sound.perm h before)
      rw [← List.append_assoc] at moved
      exact moved.perm after.symm
    · exact h

theorem Steady.run {s : Crowd} (h : s.Steady) (acts : List Act) : (s.run acts).Steady := by
  induction acts generalizing s with
  | nil => exact h
  | cons act acts ih => exact ih (h.step act)

/-! ### No call in progress -/

/-- With no piece to come that makes up for anything, nothing is amiss. -/
theorem Sound.settled (h : Sound x [] joined) :
    (∀ topic id, topic ∈ x.topicsOf id ↔ id ∈ x.membersOf topic) ∧
      (∀ id, x.isClosed id = true →
        x.subscriptions.find? id = none ∧ ∀ topic, id ∉ x.membersOf topic) ∧
      ∀ id ∈ joined, x.isClosed id = false → (x.waiting id).count .forgetTopics = 1 := by
  have mirrored : ∀ topic id, topic ∈ x.topicsOf id ↔ id ∈ x.membersOf topic := by
    intro topic id
    constructor
    · exact h.mirrored topic id
    · exact fun member => (h.covered topic id member).resolve_right List.not_mem_nil
  refine ⟨mirrored, ?_, ?_⟩
  · intro id closed
    have nothing : x.waiting id = [] := by
      rw [Exchange.isClosed_standing] at closed
      cases stands : x.standing id with
      | none => rw [Exchange.waiting, stands]
      | some standing =>
        rw [stands] at closed
        obtain ⟨closed', hooks⟩ := standing
        cases closed
        rw [Exchange.waiting_of_standing stands]
        exact Hooks.waiting_fired ((h.fires id hooks stands).resolve_right List.not_mem_nil)
    have unsubscribed : x.subscriptions.find? id = none := by
      have owed := h.owed id
      rw [nothing] at owed
      rw [← Option.not_isSome_iff_eq_none]
      intro subscribed
      simp [subscribed] at owed
    refine ⟨unsubscribed, ?_⟩
    intro topic member
    rw [← mirrored, Exchange.topicsOf, unsubscribed] at member
    cases member
  · intro id member opened
    obtain ⟨closed, hooks, stands, still⟩ := h.seen id member
    rw [Exchange.isClosed_standing, stands] at opened
    have subscribed := still.resolve_left (by simp [show closed = false from opened])
    have owed := h.owed id
    rw [if_pos subscribed] at owed
    exact owed

/-! ### Joins of one connection -/

theorem Lasting.run (x : Exchange) (piece : Piece) : Lasting x (piece.run x).2 := by
  cases piece with
  | enlist topic id =>
    rw [Piece.run_enlist]
    exact .of_standing (Exchange.standing_of_conns (x.conns_enlist topic id))
  | attach id act =>
    rw [Piece.run]
    cases found : x.conns.find? id with
    | none => exact .refl x
    | some c => exact .mark found (fun closed => closed) _
  | leave topic id | drop topic id =>
    exact .of_standing (Exchange.standing_of_conns (x.conns_leave topic id))
  | clean id act => cases act <;> exact .refl x
  | swap id =>
    rw [Piece.run]
    cases found : x.conns.find? id with
    | none => exact .refl x
    | some c =>
      dsimp only
      split
      · exact .refl x
      · exact .mark found (fun _ => rfl) _
  | fire id =>
    rw [Piece.run]
    cases found : x.conns.find? id with
    | none => exact .refl x
    | some c =>
      dsimp only
      cases c.hooks.fire? with
      | none => exact .refl x
      | some fired => exact .mark found (fun closed => closed) _
  | snapshot topic frame => exact .refl x
  | offer topic frame failed ids =>
    cases ids with
    | nil => exact .refl x
    | cons id ids =>
      rw [Piece.run]
      cases sent : x.send id frame with
      | error why => exact .refl x
      | ok y => exact .of_standing (Exchange.standing_send sent)

def Lists : Piece → Prop
  | .enlist _ _ | .leave _ _ | .drop _ _ => True
  | _ => False

theorem members_run (other : ¬ Lists piece) : (piece.run x).2.membersOf = x.membersOf := by
  cases piece with
  | enlist topic id => exact absurd trivial other
  | leave topic id => exact absurd trivial other
  | drop topic id => exact absurd trivial other
  | attach id act =>
    rw [Piece.run]
    cases x.conns.find? id <;> rfl
  | clean id act => cases act <;> rfl
  | swap id =>
    rw [Piece.run]
    cases x.conns.find? id with
    | none => rfl
    | some c =>
      dsimp only
      split <;> rfl
  | fire id =>
    rw [Piece.run]
    cases x.conns.find? id with
    | none => rfl
    | some c =>
      dsimp only
      cases c.hooks.fire? <;> rfl
  | snapshot topic frame => rfl
  | offer topic frame failed ids =>
    cases ids with
    | nil => rfl
    | cons id ids =>
      rw [Piece.run]
      cases sent : x.send id frame with
      | error why => rfl
      | ok y =>
        obtain ⟨c, k, -, -, -, -, -, rfl⟩ := Exchange.send_ok sent
        rfl

/-- Only leaving a topic and being dropped from it ends a membership. -/
theorem stays_run (h : Linked x todo joined) (stays : piece ≠ .leave topic id)
    (kept : piece ≠ .drop topic id) (member : id ∈ x.membersOf topic) :
    id ∈ (piece.run x).2.membersOf topic := by
  by_cases lists : Lists piece
  · cases piece with
    | enlist other one =>
      rw [Piece.run_enlist]
      exact Exchange.mem_membersOf_enlist.mpr (Or.inl member)
    | leave other one =>
      refine (Exchange.mem_membersOf_leave h.members).mpr ⟨member, ?_⟩
      rintro ⟨rfl, rfl⟩
      exact stays rfl
    | drop other one =>
      refine (Exchange.mem_membersOf_leave h.members).mpr ⟨member, ?_⟩
      rintro ⟨rfl, rfl⟩
      exact kept rfl
    | _ => cases lists
  · rwa [members_run lists]

theorem stranger_run (h : Linked x todo joined) (other : piece ≠ .enlist topic id)
    (stranger : id ∉ x.membersOf topic) : id ∉ (piece.run x).2.membersOf topic := by
  by_cases lists : Lists piece
  · cases piece with
    | enlist there one =>
      rw [Piece.run_enlist, Exchange.mem_membersOf_enlist, not_or]
      refine ⟨stranger, ?_⟩
      rintro ⟨rfl, rfl⟩
      exact other rfl
    | leave there one | drop there one =>
      exact fun member => stranger ((Exchange.mem_membersOf_leave h.members).mp member).1
    | _ => cases lists
  · rwa [members_run lists]

section answers

variable {s : Crowd} {act : Act} {acts : List Act}

theorem step_some (next : s.piece? act = some piece) :
    piece ∈ s.calls.flatten ∧ (s.step act).exchange = (piece.run s.exchange).2 := by
  cases act with
  | go call =>
    unfold piece? at next
    obtain ⟨pieces, found, head⟩ := Option.bind_eq_some_iff.mp next
    obtain ⟨rest, rfl⟩ := List.head?_eq_some_iff.mp head
    refine ⟨List.mem_flatten.mpr ⟨_, List.mem_of_getElem? found, List.mem_cons_self⟩, ?_⟩
    unfold step
    dsimp only
    rw [found]
  | _ => cases next

theorem step_none (next : s.piece? act = none) :
    (s.step act).exchange.members = s.exchange.members ∧
      Lasting s.exchange (s.step act).exchange := by
  cases act with
  | connect id link =>
    unfold step
    dsimp only
    split
    · exact ⟨rfl, .refl _⟩
    · next unknown => exact ⟨rfl, .connect unknown link⟩
  | relink id link => exact ⟨rfl, .of_standing (s.exchange.standing_setLink id link)⟩
  | call job =>
    unfold step
    dsimp only
    split <;> exact ⟨rfl, .refl _⟩
  | go call =>
    unfold piece? at next
    unfold step
    dsimp only at next ⊢
    split
    · next piece pieces found =>
      rw [found] at next
      cases next
    · exact ⟨rfl, .refl _⟩

theorem Lasting.step (s : Crowd) (act : Act) : Lasting s.exchange (s.step act).exchange := by
  cases next : s.piece? act with
  | none => exact (step_none next).2
  | some piece =>
    rw [(step_some next).2]
    exact .run s.exchange piece

theorem Lasting.runAll (s : Crowd) (acts : List Act) : Lasting s.exchange (s.run acts).exchange := by
  induction acts generalizing s with
  | nil => exact .refl _
  | cons act acts ih => exact (Lasting.step s act).trans (ih (s.step act))

theorem Steady.not_dropped (h : s.Steady) (act : Act) (topic : Topic) (acts : List Act)
    (opened : (s.run acts).exchange.isClosed id = false) :
    s.piece? act ≠ some (.drop topic id) := by
  intro next
  obtain ⟨hooks, stands⟩ : ∃ hooks, s.exchange.standing id = some (true, hooks) :=
    h.fits (.drop topic id) (step_some next).1
  obtain ⟨closed, hooks', stands', still⟩ := Lasting.runAll s acts id true hooks stands
  rw [Exchange.isClosed_standing, stands', still rfl] at opened
  cases opened

theorem Steady.member_step (h : s.Steady) (stays : s.piece? act ≠ some (.leave topic id))
    (kept : s.piece? act ≠ some (.drop topic id)) (member : id ∈ s.exchange.membersOf topic) :
    id ∈ (s.step act).exchange.membersOf topic := by
  cases next : s.piece? act with
  | none =>
    unfold Exchange.membersOf
    rwa [(step_none next).1]
  | some piece =>
    rw [next] at stays kept
    rw [(step_some next).2]
    exact stays_run h.toLinked (fun same => stays (congrArg some same))
      (fun same => kept (congrArg some same)) member

/-- Those who join a member again are told so. -/
theorem Steady.answers_member (h : s.Steady) (stays : Stays topic id s acts)
    (opened : (s.run acts).exchange.isClosed id = false)
    (member : id ∈ s.exchange.membersOf topic) :
    ∃ count, answers topic id s acts = List.replicate count false := by
  induction acts generalizing s with
  | nil => exact ⟨0, rfl⟩
  | cons act acts ih =>
    have kept := h.not_dropped act topic (act :: acts) opened
    obtain ⟨count, rest⟩ := ih (h.step act) stays.2 opened (h.member_step stays.1 kept member)
    rw [answers, answer, rest, Exchange.answer_join]
    split
    · exact ⟨count + 1, by simp [member, List.replicate_succ]⟩
    · exact ⟨count, rfl⟩

/-- Of those who join a connection, the first is told that it is new there, and nobody else. -/
theorem Steady.answers_stranger (h : s.Steady) (stays : Stays topic id s acts)
    (opened : (s.run acts).exchange.isClosed id = false)
    (stranger : id ∉ s.exchange.membersOf topic) :
    answers topic id s acts = [] ∨
      ∃ count, answers topic id s acts = true :: List.replicate count false := by
  induction acts generalizing s with
  | nil => exact Or.inl rfl
  | cons act acts ih =>
    rw [answers, answer, Exchange.answer_join]
    split
    · next joins =>
      have member : id ∈ (s.step act).exchange.membersOf topic := by
        rw [(step_some joins).2, Piece.run_enlist]
        exact Exchange.mem_membersOf_enlist.mpr (Or.inr ⟨rfl, rfl⟩)
      obtain ⟨count, rest⟩ := (h.step act).answers_member stays.2 opened member
      exact Or.inr ⟨count, by simp [rest, stranger]⟩
    · next other =>
      refine ih (h.step act) stays.2 opened ?_
      cases next : s.piece? act with
      | none =>
        unfold Exchange.membersOf
        rwa [(step_none next).1]
      | some piece =>
        rw [(step_some next).2]
        rw [next] at other
        exact stranger_run h.toLinked (fun same => other (congrArg some same)) stranger

end answers

/-- Whatever is called at once, and in whatever order the pieces of the calls come. Whenever no call
is in progress, members and subscriptions are the same relation, a closed connection has neither,
and an open one that ever joined has one hook that will have it forgotten. Of all who join a
connection to a topic while it is open and does not leave, exactly the first is told that it is new
there. -/
theorem interleaved (acts more : List Act) :
    let s := empty.run acts
    (s.Idle →
      (∀ topic id, topic ∈ s.exchange.topicsOf id ↔ id ∈ s.exchange.membersOf topic) ∧
      (∀ id, s.exchange.isClosed id = true →
        s.exchange.subscriptions.find? id = none ∧ ∀ topic, id ∉ s.exchange.membersOf topic) ∧
      ∀ id ∈ s.joined, s.exchange.isClosed id = false →
        (s.exchange.waiting id).count .forgetTopics = 1) ∧
      ∀ topic id, id ∉ s.exchange.membersOf topic →
        (s.run more).exchange.isClosed id = false → Stays topic id s more →
        answers topic id s more = [] ∨
          ∃ count, answers topic id s more = true :: List.replicate count false := by
  intro s
  have steady : s.Steady := empty_steady.run acts
  constructor
  · intro idle
    have settled : Sound s.exchange [] s.joined := idle ▸ steady
    exact settled.settled
  · exact fun topic id stranger opened stays => steady.answers_stranger stays opened stranger

/-- A close that falls between the two pieces of a join: the hook is run when it is left. -/
example :
    let s := empty.run [.connect 1 (.peer (.fresh none)), .call (.join .adminNotifications 1), .go 0,
      .call (.close 1), .go 1, .go 1, .go 0, .go 0, .go 0]
    s.calls = [[], []] ∧ s.exchange.membersOf .adminNotifications = [] ∧
      s.exchange.topicsOf 1 = [] := by
  decide

end Switchboard.Crowd
