import Mathlib.Data.List.Nodup
import Switchboard.Proofs.Exchange.Views
import Switchboard.Proofs.Hooks

/-!
What holds of an exchange whenever no call is in progress. The two views of membership agree; every
open connection has the hooks that will clean up after it; a closed one has left nothing behind.
-/

namespace Switchboard.Exchange

/-- Members and subscriptions are one relation, seen from its two sides. -/
structure Mirrored (x : Exchange) : Prop where
  same : ∀ topic id, id ∈ x.membersOf topic ↔ topic ∈ x.topicsOf id
  members : ∀ topic, (x.membersOf topic).Nodup
  topics : ∀ id, (x.topicsOf id).Nodup

/-- Which hooks wait with an open connection. -/
structure Hooked (x : Exchange) (id : ConnId) (c : Conn) (acts : List Cleanup) : Prop where
  waiting : c.hooks.pending? = some (acts.map .plain)
  forgets : (x.subscriptions.find? id).isSome → .forgetTopics ∈ acts
  vacates : (x.seatOf id).isSome → .vacateRoom ∈ acts

structure Consistent (x : Exchange) : Prop extends Mirrored x where
  hooked : ∀ id c, x.conns.find? id = some c → c.closed = false → ∃ acts, Hooked x id c acts
  fired : ∀ id c, x.conns.find? id = some c → c.closed = true → c.hooks.pending? = none
  gone : ∀ id, x.isClosed id = true →
    x.subscriptions.find? id = none ∧ x.seatOf id = none

variable {x : Exchange} {topic other : Topic} {id one : ConnId}

theorem Mirrored.leave (h : x.Mirrored) (topic : Topic) (id : ConnId) :
    (x.leave topic id).2.Mirrored where
  same := by
    intro t c
    rw [membersOf_leave, topicsOf_leave]
    by_cases member : id ∈ x.membersOf topic
    · by_cases there : topic = t <;> by_cases self : id = c
      · subst there self
        simp [member, (h.members topic).mem_erase_iff, (h.topics id).mem_erase_iff]
      · subst there
        simp [self, Ne.symm self, (h.members topic).mem_erase_iff, h.same]
      · subst self
        simp [there, Ne.symm there, member, (h.topics id).mem_erase_iff, h.same]
      · simp [there, self, h.same]
    · by_cases there : topic = t
      · subst there
        rw [List.erase_of_not_mem member]
        simp [member, h.same]
      · simp [there, member, h.same]
  members := by
    intro t
    rw [membersOf_leave]
    split
    · exact (h.members t).erase id
    · exact h.members t
  topics := by
    intro c
    rw [topicsOf_leave]
    split
    · exact (h.topics c).erase topic
    · exact h.topics c

/-! ### Forgetting -/

theorem membersOf_forget (h : x.Mirrored) (id : ConnId) (topic : Topic) :
    (x.forget id).membersOf topic = (x.membersOf topic).erase id := by
  let bare : Exchange := { x with subscriptions := x.subscriptions.erase id }
  change (bare.leaveAll id (x.topicsOf id)).membersOf topic = _
  rw [membersOf_leaveAll topic id (x := bare) h.members]
  split
  · rfl
  · next outside =>
    rw [← h.same] at outside
    exact (List.erase_of_not_mem outside).symm

theorem find?_subscriptions_forget (x : Exchange) (id one : ConnId) :
    (x.forget id).subscriptions.find? one =
      if id = one then none else x.subscriptions.find? one := by
  let bare : Exchange := { x with subscriptions := x.subscriptions.erase id }
  have erased : bare.subscriptions.find? id = none := by simp [bare]
  change (bare.leaveAll id (x.topicsOf id)).subscriptions.find? one = _
  rw [find?_subscriptions_leaveAll one erased, Table.find?_erase]

theorem topicsOf_forget (x : Exchange) (id one : ConnId) :
    (x.forget id).topicsOf one = if id = one then [] else x.topicsOf one := by
  unfold topicsOf
  rw [find?_subscriptions_forget]
  split <;> rfl

@[simp] theorem conns_forget (x : Exchange) (id : ConnId) : (x.forget id).conns = x.conns :=
  conns_leaveAll { x with subscriptions := x.subscriptions.erase id } id (x.topicsOf id)

@[simp] theorem seats_forget (x : Exchange) (id : ConnId) : (x.forget id).seats = x.seats :=
  seats_leaveAll { x with subscriptions := x.subscriptions.erase id } id (x.topicsOf id)

theorem Mirrored.forget (h : x.Mirrored) (id : ConnId) : (x.forget id).Mirrored where
  same := by
    intro t c
    rw [membersOf_forget h, topicsOf_forget, (h.members t).mem_erase_iff, h.same]
    by_cases self : id = c
    · simp [self]
    · simp [self, Ne.symm self]
  members := by
    intro t
    rw [membersOf_forget h]
    exact (h.members t).erase id
  topics := by
    intro c
    rw [topicsOf_forget]
    split
    · exact List.nodup_nil
    · exact h.topics c

/-! ### Running hooks -/

theorem Mirrored.clean (h : x.Mirrored) (id : ConnId) (act : Cleanup) :
    (x.clean id act).Mirrored := by
  cases act with
  | forgetTopics => exact h.forget id
  | vacateRoom => exact ⟨h.same, h.members, h.topics⟩

theorem conns_clean (x : Exchange) (id : ConnId) (act : Cleanup) :
    (x.clean id act).conns = x.conns := by
  cases act with
  | forgetTopics => exact conns_forget x id
  | vacateRoom => rfl

theorem Mirrored.cleanAll (h : x.Mirrored) (id : ConnId) (acts : List Cleanup) :
    (x.cleanAll id acts).Mirrored := by
  induction acts generalizing x with
  | nil => exact h
  | cons act acts ih => exact ih (h.clean id act)

theorem conns_cleanAll (x : Exchange) (id : ConnId) (acts : List Cleanup) :
    (x.cleanAll id acts).conns = x.conns := by
  induction acts generalizing x with
  | nil => rfl
  | cons act acts ih => rw [Exchange.cleanAll, ih, conns_clean]

theorem membersOf_cleanAll (h : x.Mirrored) (id : ConnId) (acts : List Cleanup) (topic : Topic) :
    (x.cleanAll id acts).membersOf topic =
      if .forgetTopics ∈ acts then (x.membersOf topic).erase id else x.membersOf topic := by
  induction acts generalizing x with
  | nil => rfl
  | cons act acts ih =>
    rw [Exchange.cleanAll, ih (h.clean id act)]
    cases act with
    | forgetTopics =>
      have gone : id ∉ (x.membersOf topic).erase id := (h.members topic).not_mem_erase
      rw [show x.clean id .forgetTopics = x.forget id from rfl, membersOf_forget h]
      simp [List.erase_of_not_mem gone]
    | vacateRoom => simp [show (x.clean id .vacateRoom).membersOf topic = x.membersOf topic from rfl]

theorem find?_subscriptions_cleanAll (x : Exchange) (id one : ConnId) (acts : List Cleanup) :
    (x.cleanAll id acts).subscriptions.find? one =
      if .forgetTopics ∈ acts ∧ id = one then none else x.subscriptions.find? one := by
  induction acts generalizing x with
  | nil => simp [Exchange.cleanAll]
  | cons act acts ih =>
    rw [Exchange.cleanAll, ih]
    cases act with
    | forgetTopics =>
      rw [show x.clean id .forgetTopics = x.forget id from rfl, find?_subscriptions_forget]
      by_cases self : id = one <;> simp [self]
    | vacateRoom =>
      have same : (x.clean id .vacateRoom).subscriptions = x.subscriptions := rfl
      simp [same]

theorem seatOf_cleanAll (x : Exchange) (id one : ConnId) (acts : List Cleanup) :
    (x.cleanAll id acts).seatOf one =
      if .vacateRoom ∈ acts ∧ id = one then none else x.seatOf one := by
  induction acts generalizing x with
  | nil => simp [Exchange.cleanAll]
  | cons act acts ih =>
    rw [Exchange.cleanAll, ih]
    cases act with
    | forgetTopics =>
      have same : (x.clean id .forgetTopics).seatOf one = x.seatOf one :=
        congrArg (Table.find? · one) (seats_forget x id)
      simp [same]
    | vacateRoom =>
      have erased : (x.clean id .vacateRoom).seatOf one = if id = one then none else x.seatOf one :=
        Table.find?_erase x.seats id one
      rw [erased]
      by_cases self : id = one <;> simp [self]

end Switchboard.Exchange
