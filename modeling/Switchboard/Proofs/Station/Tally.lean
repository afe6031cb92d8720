import Mathlib
import Switchboard.Proofs.Exchange.Tally
import Switchboard.Proofs.Station.Membership

/-!
How many hooks wait with the connections of a station. At most one is there for all topics; one more
is there for each seat that was given up since the connection came, and one for the seat it has now.
-/

namespace Switchboard.Station

open Exchange (Leads)

variable {st : Station} {stale : ConnId → Cleanup → Nat} {id : ConnId}

/-- Seats of a connection that are given up with an act while it stays. -/
def gaveUp (st : Station) (a : Act) (id : ConnId) : Nat :=
  match a with
  | .leaveRoom one => if one = id then st.exchange.needs id .vacateRoom else 0
  | _ => 0

def gaveUpAll (st : Station) : List Act → ConnId → Nat
  | [], _ => 0
  | a :: acts, id => st.gaveUp a id + (st.act a).gaveUpAll acts id

/-- Only hooks for seats go stale. -/
def staleAfter (seats : ConnId → Nat) (id : ConnId) : Cleanup → Nat
  | .forgetTopics => 0
  | .vacateRoom => seats id

variable {seats : ConnId → Nat}

/-- The exchange is tallied, with so many seats given up; by nobody unknown. -/
structure Tallied (seats : ConnId → Nat) (st : Station) : Prop extends st.Sound where
  tallied : st.exchange.Tallied (staleAfter seats)
  unused : ∀ id, ¬ st.exchange.Knows id → seats id = 0

theorem fresh_tallied (whole : Bool) (tokens : List TokenEntry) (limits : Limits) :
    (fresh whole tokens limits).Tallied fun _ => 0 where
  toSound := fresh_sound whole tokens limits
  tallied := Exchange.empty_tallied
  unused := fun _ _ => rfl

theorem gaveUp_unknown (sound : st.Sound) (unknown : ¬ st.exchange.Knows id) (a : Act) :
    st.gaveUp a id = 0 := by
  have seatless := (sound.consistent.gone id (Exchange.isClosed_unknown unknown)).2
  unfold gaveUp
  split
  · simp [Exchange.needs, seatless]
  · rfl

theorem staleAfter_leaveRoom (x : Exchange) (seats : ConnId → Nat) (id : ConnId) :
    (fun one act => staleAfter seats one act +
        if id = one ∧ act = Cleanup.vacateRoom then x.needs one act else 0) =
      staleAfter fun one => seats one + if id = one then x.needs one .vacateRoom else 0 := by
  funext one act
  cases act <;> simp [staleAfter]

theorem Tallied.act (h : st.Tallied seats) (a : Act) :
    (st.act a).Tallied fun id => seats id + st.gaveUp a id where
  toSound := h.toSound.act a
  tallied := by
    by_cases leaves : ∃ id, a = .leaveRoom id
    · obtain ⟨id, rfl⟩ := leaves
      have left := h.tallied.leaveRoom id
      rw [staleAfter_leaveRoom] at left
      exact left
    · have stays : ∀ id, a ≠ .leaveRoom id := fun id shape => leaves ⟨id, shape⟩
      have same : (fun id => seats id + st.gaveUp a id) = seats := by
        funext id
        cases a with
        | leaveRoom one => exact absurd rfl (stays one)
        | _ => rfl
      rw [same]
      rcases act_ensues h.toSound a with leads | ⟨id, link, unknown, shape⟩
      · exact leads.tallied h.tallied (fun d may => may.1) fun d may id vacates =>
          stays id (may.2 id vacates)
      · rw [shape]
        apply h.tallied.connect unknown
        intro kind
        cases kind with
        | forgetTopics => rfl
        | vacateRoom => exact h.unused id unknown
  unused := by
    intro id unknown
    have before : ¬ st.exchange.Knows id := fun known => unknown (knows_act h.toSound a known)
    rw [h.unused id before, gaveUp_unknown h.toSound before]

theorem Tallied.actAll (h : st.Tallied seats) (acts : List Act) :
    (st.actAll acts).Tallied fun id => seats id + st.gaveUpAll acts id := by
  induction acts generalizing st seats with
  | nil => exact h
  | cons a acts ih =>
    have rest := ih (h.act a)
    simp only [Nat.add_assoc] at rest
    exact rest

theorem Tallied.pendingHooks (h : st.Tallied seats) (id : ConnId) :
    st.exchange.pendingHooks id =
      if st.exchange.isClosed id then 0
      else st.exchange.needs id .forgetTopics + st.exchange.needs id .vacateRoom + seats id := by
  split
  · next closed => exact h.consistent.pendingHooks_closed closed
  · next opened =>
    have opened : st.exchange.isClosed id = false := by simpa using opened
    have topics : (st.exchange.waiting id).count .forgetTopics =
        st.exchange.needs id .forgetTopics := h.tallied.tally id opened .forgetTopics
    have rooms : (st.exchange.waiting id).count .vacateRoom =
        st.exchange.needs id .vacateRoom + seats id := h.tallied.tally id opened .vacateRoom
    rw [Exchange.pendingHooks_eq, topics, rooms, Nat.add_assoc]

/-- The hooks of a connection are two at most, but for those of the seats that it gave up. -/
theorem pending_hooks (whole : Bool) (tokens : List TokenEntry) (limits : Limits)
    (acts : List Act) (id : ConnId) :
    let start := fresh whole tokens limits
    let x := (start.actAll acts).exchange
    (x.pendingHooks id =
        if x.isClosed id then 0
        else x.needs id .forgetTopics + x.needs id .vacateRoom + start.gaveUpAll acts id) ∧
      x.pendingHooks id ≤ 2 + start.gaveUpAll acts id := by
  intro start x
  have tallied := (fresh_tallied whole tokens limits).actAll acts
  have counted : x.pendingHooks id =
      if x.isClosed id then 0
      else x.needs id .forgetTopics + x.needs id .vacateRoom + start.gaveUpAll acts id := by
    have counted := tallied.pendingHooks id
    rwa [Nat.zero_add] at counted
  refine ⟨counted, ?_⟩
  have topics := x.needs_le id .forgetTopics
  have rooms := x.needs_le id .vacateRoom
  rw [counted]
  split <;> omega

def rejoining : List Act := [.addPeer 1 none, .joinRoom 5 1, .leaveRoom 1, .joinRoom 6 1]

/-- A third hook waits with an open connection that left a room and joined another. -/
theorem pending_hooks_rejoining :
    let x := ((fresh true [] .standard).actAll rejoining).exchange
    x.isClosed 1 = false ∧ x.pendingHooks 1 = 3 := by
  constructor
  · cbv
  · cbv

end Switchboard.Station
