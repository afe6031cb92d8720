import Switchboard.Proofs.Station.Steps

/-!
What holds of a station between any two moves: its exchange is consistent, its sessions have
connections, and a session that is over has its connection closed.
-/

namespace Switchboard.Station

open Exchange (Leads)

structure Sound (st : Station) : Prop where
  consistent : st.exchange.Consistent
  known : ∀ id s, st.sessions.find? id = some s → st.exchange.Knows id
  closed : ∀ id s, st.sessions.find? id = some s → s.ended = true → st.exchange.isClosed id = true

variable {st : Station} {m : Move} {d : Deed} {id : ConnId} {topic : Topic} {room : ConversationId}
  {frame : Frame}

theorem fresh_sound (whole : Bool) (tokens : List TokenEntry) (limits : Limits) :
    (fresh whole tokens limits).Sound where
  consistent := Exchange.empty_consistent
  known := fun _ _ found => nomatch found
  closed := fun _ _ found => nomatch found

/-! ### Moves -/

theorem Reads.possible {s : Session} (known : st.exchange.Knows id)
    (reads : st.Reads id s d) : st.exchange.Possible d := by
  cases reads with
  | chat _ _ deed => exact deed.possible known
  | listen _ _ _ => exact known
  | tell tells =>
    obtain ⟨fault, frame, -, rfl⟩ := tells
    trivial
  | hangUp => trivial

theorem Does.possible (sound : st.Sound) (does : st.Does m d) : st.exchange.Possible d := by
  cases does with
  | read found _ reads => exact reads.possible (sound.known _ _ found)
  | publish _ _ publishes => cases d <;> trivial
  | _ => trivial

theorem knows_step (sound : st.Sound) (m : Move) (known : st.exchange.Knows id) :
    (st.step m).exchange.Knows id := by
  rcases exchange_step sound.consistent sound.known m with leads | ⟨one, _, _, _, link, _, _, shape⟩
  · exact ((leads.consistent sound.consistent fun _ => Does.possible sound).2 id).mpr known
  · rw [shape]
    exact (Exchange.knows_connect _ one id link).mpr (Or.inr known)

theorem isClosed_step (sound : st.Sound) (m : Move) (known : st.exchange.Knows id)
    (closed : st.exchange.isClosed id = true) : (st.step m).exchange.isClosed id = true := by
  rcases exchange_step sound.consistent sound.known m with
    leads | ⟨one, _, _, _, link, _, unknown, shape⟩
  · exact leads.closed sound.consistent (fun _ => Does.possible sound) closed
  · have different : one ≠ id := fun self => unknown (self ▸ known)
    rw [shape]
    exact (Exchange.isClosed_connect _ one id link).trans (by simp [different, closed])

theorem Becomes.closed {s after : Session} (sound : st.Sound)
    (found : st.sessions.find? id = some s) (becomes : st.Becomes id m s after)
    (ended : after.ended = true) : (st.step m).exchange.isClosed id = true := by
  have known := sound.known id s found
  cases becomes with
  | same m s => exact isClosed_step sound m known (sound.closed id s found ended)
  | heard s arrival _ => exact isClosed_step sound _ known (sound.closed id s found ended)
  | finished s => exact isClosed_step sound _ known (sound.closed id s found ended)
  | turned running turned shape =>
    have closed := turned_closed sound.consistent known running turned ended
    rw [shape]
    exact closed
  | noticed s closed => exact isClosed_step sound _ known closed

theorem Sound.step (sound : st.Sound) (m : Move) : (st.step m).Sound where
  consistent := by
    rcases exchange_step sound.consistent sound.known m with
      leads | ⟨id, _, _, _, link, _, unknown, shape⟩
    · exact (leads.consistent sound.consistent fun _ => Does.possible sound).1
    · rw [shape]
      exact sound.consistent.connect unknown link
  known := by
    intro id after found
    rcases sessions_step st m id with becomes | ⟨entry, _, _, link, _, _, shape⟩
    · rw [found] at becomes
      cases before : st.sessions.find? id with
      | none => rw [before] at becomes; cases becomes
      | some s => exact knows_step sound m (sound.known id s before)
    · rw [shape]
      exact (Exchange.knows_connect _ id id link).mpr (Or.inl rfl)
  closed := by
    intro id after found ended
    rcases sessions_step st m id with becomes | ⟨entry, _, _, link, _, _, shape⟩
    · rw [found] at becomes
      cases before : st.sessions.find? id with
      | none => rw [before] at becomes; cases becomes
      | some s =>
        rw [before] at becomes
        cases becomes with
        | some becomes => exact becomes.closed sound before ended
    · rw [shape, withClient, Table.find?_insert, if_pos rfl] at found
      cases found
      cases ended

/-! ### What a move adds -/

theorem mem_membersOf_step (sound : st.Sound) (member : id ∈ (st.step m).exchange.membersOf topic) :
    id ∈ st.exchange.membersOf topic ∨ st.Does m (.join topic id) ∨
      ∃ room, topic = .room room ∧ st.Does m (.move room id) := by
  rcases exchange_step sound.consistent sound.known m with leads | ⟨_, _, _, _, link, _, _, shape⟩
  · exact leads.mem_membersOf sound.consistent (fun _ => Does.possible sound) member
  · rw [shape] at member
    exact Or.inl member

theorem seatOf_step (sound : st.Sound) (seat : (st.step m).exchange.seatOf id = some room) :
    st.exchange.seatOf id = some room ∨ st.Does m (.move room id) := by
  rcases exchange_step sound.consistent sound.known m with leads | ⟨_, _, _, _, link, _, _, shape⟩
  · exact leads.seatOf sound.consistent (fun _ => Does.possible sound) seat
  · rw [shape] at seat
    exact Or.inl seat

theorem mem_sentTo_step (sound : st.Sound) (sent : frame ∈ (st.step m).exchange.sentTo id) :
    frame ∈ st.exchange.sentTo id ∨ st.Does m (.send id frame) := by
  rcases exchange_step sound.consistent sound.known m with
    leads | ⟨_, _, _, _, link, _, unknown, shape⟩
  · exact leads.mem_sentTo sound.consistent (fun _ => Does.possible sound) sent
  · have same := Exchange.sentTo_connect unknown id link
    rw [shape] at sent
    exact Or.inl (same ▸ sent)

theorem sentTo_step_of_unsent (sound : st.Sound) (unsent : ∀ frame, ¬ st.Does m (.send id frame)) :
    (st.step m).exchange.sentTo id = st.exchange.sentTo id := by
  rcases exchange_step sound.consistent sound.known m with
    leads | ⟨_, _, _, _, link, _, unknown, shape⟩
  · exact leads.sentTo_of_unsent sound.consistent (fun _ => Does.possible sound) unsent
  · rw [shape]
    exact Exchange.sentTo_connect unknown id link

theorem sentTo_step_of_closed (sound : st.Sound) (m : Move)
    (closed : st.exchange.isClosed id = true) :
    (st.step m).exchange.sentTo id = st.exchange.sentTo id := by
  rcases exchange_step sound.consistent sound.known m with
    leads | ⟨_, _, _, _, link, _, unknown, shape⟩
  · exact leads.sentTo_of_closed sound.consistent (fun _ => Does.possible sound) closed
  · rw [shape]
    exact Exchange.sentTo_connect unknown id link

theorem Sound.run (sound : st.Sound) (moves : List Move) : (st.run moves).Sound :=
  run_keeps Sound (fun _ m sound => sound.step m) sound moves

end Switchboard.Station
