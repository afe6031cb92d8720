import Switchboard.Json.Basic

/-!
The members of an object in byte order, the last of those with equal keys.
-/

namespace Switchboard.Json

variable {α : Type} {members ordered : List (String × Json)}

/-- The keys in byte order, and no two the same. -/
def Ascending (members : List (String × α)) : Prop := members.Pairwise fun a b => a.1 < b.1

theorem Ascending.eq_of_key {members : List (String × α)} (ascending : Ascending members)
    {a b : String × α} (first : a ∈ members) (second : b ∈ members) (key : a.1 = b.1) : a = b := by
  induction ascending with
  | nil => cases first
  | cons before _ ih =>
    rcases List.mem_cons.mp first with rfl | earlier <;>
      rcases List.mem_cons.mp second with rfl | later
    · rfl
    · exact absurd (before b later) (key ▸ String.lt_irrefl _)
    · exact absurd (before a earlier) (key ▸ String.lt_irrefl _)
    · exact ih earlier later

theorem Ascending.nodup {members : List (String × α)} (ascending : Ascending members) :
    members.Nodup := by
  apply ascending.imp
  intro a b less same
  exact String.ne_of_lt less (congrArg Prod.fst same)

theorem keepLast_ascending {members : List (String × α)} (ascending : Ascending members) :
    keepLast members = members := by
  induction ascending with
  | nil => rfl
  | @cons m members before _ ih =>
    rw [keepLast, List.foldr_cons, ← keepLast, ih]
    cases members with
    | nil => rfl
    | cons next members =>
      exact if_neg (String.ne_of_lt (before next List.mem_cons_self))

theorem ofMembers_perm (ascending : Ascending ordered) (perm : ordered.Perm members) :
    ofMembers members = .object ordered := by
  have sorted : members.mergeSort (fun a b => decide (a.1 ≤ b.1)) = ordered := by
    refine @List.Perm.eq_of_pairwise _ (fun a b => decide (a.1 ≤ b.1)) _ _ ?_ ?_ ?_ ?_
    · intro a b first second le ge
      have key := String.le_antisymm (of_decide_eq_true le) (of_decide_eq_true ge)
      have member : a ∈ ordered := perm.mem_iff.mpr ((List.mergeSort_perm _ _).mem_iff.mp first)
      exact ascending.eq_of_key member second key
    · refine List.pairwise_mergeSort ?_ ?_ members
      · intro a b c
        simpa using String.le_trans
      · intro a b
        simpa using String.le_total a.1 b.1
    · exact ascending.imp fun less => decide_eq_true (String.not_lt.mp (String.lt_asymm less))
    · exact (List.mergeSort_perm _ _).trans perm.symm
  rw [ofMembers, sorted, keepLast_ascending ascending]

theorem Ascending.ext {members : List (String × Json)} (first : Ascending ordered)
    (second : Ascending members) (same : ∀ m, m ∈ ordered ↔ m ∈ members) : ordered = members := by
  refine List.Perm.eq_of_pairwise ?_ first second ?_
  · exact fun a b _ _ less greater => absurd greater (String.lt_asymm less)
  · exact (List.perm_ext_iff_of_nodup first.nodup second.nodup).mpr same

/-! ### The last of equal keys -/

/-- Of the members that were written, the last with each key, in byte order. -/
structure Settled (written ordered : List (String × Json)) : Prop where
  ascending : Ascending ordered
  last : ∀ m, m ∈ ordered ↔ (written.filter (·.1 = m.1)).getLast? = some m

theorem Settled.mem {written : List (String × Json)} {m : String × Json}
    (settled : Settled written ordered) (member : m ∈ ordered) : m ∈ written :=
  (List.mem_filter.mp (List.mem_of_getLast? ((settled.last m).mp member))).1

section KeepLast

variable {members tail : List (String × α)} {m next : String × α}

theorem mem_keepLast (member : m ∈ keepLast members) : m ∈ members := by
  induction members with
  | nil => exact member
  | cons first members ih =>
    rw [keepLast, List.foldr_cons, ← keepLast] at member
    split at member
    · rw [List.mem_singleton] at member
      exact member ▸ List.mem_cons_self
    · split at member
      · exact List.mem_cons_of_mem _ (ih member)
      · rcases List.mem_cons.mp member with rfl | behind
        · exact List.mem_cons_self
        · exact List.mem_cons_of_mem _ (ih behind)

theorem keepLast_cons (m : String × α) (members : List (String × α)) :
    keepLast (m :: members) =
      match keepLast members with
      | [] => [m]
      | next :: _ => if m.1 = next.1 then keepLast members else m :: keepLast members := rfl

theorem head?_keepLast (members : List (String × α)) :
    (keepLast members).head?.map Prod.fst = members.head?.map Prod.fst := by
  cases members with
  | nil => rfl
  | cons m members =>
    rw [keepLast_cons]
    cases kept : keepLast members with
    | nil => rfl
    | cons next tail =>
      dsimp only
      by_cases same : m.1 = next.1
      · rw [if_pos same, List.head?_cons, List.head?_cons, Option.map_some, Option.map_some, same]
      · rw [if_neg same, List.head?_cons, List.head?_cons]

theorem lt_of_keepLast (sorted : (m :: members).Pairwise (·.1 ≤ ·.1))
    (kept : keepLast members = next :: tail) (other : m.1 ≠ next.1) :
    ∀ n ∈ members, m.1 < n.1 := by
  intro n member
  have head := head?_keepLast members
  rw [kept] at head
  obtain ⟨before, later⟩ := List.pairwise_cons.mp sorted
  cases members with
  | nil => cases member
  | cons first members =>
    have key : next.1 = first.1 := by simpa using head
    have lowest : first.1 ≤ n.1 := by
      rcases List.mem_cons.mp member with rfl | member
      · exact String.le_refl _
      · exact (List.pairwise_cons.mp later).1 n member
    refine Decidable.byContradiction fun notLess => other ?_
    have under : first.1 ≤ m.1 := String.le_trans lowest (String.not_lt.mp notLess)
    exact (String.le_antisymm (before first List.mem_cons_self) under).trans key.symm

theorem ascending_keepLast (sorted : members.Pairwise (·.1 ≤ ·.1)) :
    Ascending (keepLast members) := by
  induction members with
  | nil => exact List.Pairwise.nil
  | cons m members ih =>
    have later := ih (List.pairwise_cons.mp sorted).2
    rw [keepLast_cons]
    cases kept : keepLast members with
    | nil => exact List.pairwise_singleton _ _
    | cons next tail =>
      dsimp only
      split
      · exact kept ▸ later
      · next other =>
        have less := lt_of_keepLast sorted kept other
        exact List.pairwise_cons.mpr
          ⟨fun n member => less n (mem_keepLast (kept ▸ member)), kept ▸ later⟩

theorem mem_keepLast_iff (sorted : members.Pairwise (·.1 ≤ ·.1)) :
    m ∈ keepLast members ↔ (members.filter (·.1 = m.1)).getLast? = some m := by
  induction members with
  | nil => simp [keepLast]
  | cons first members ih =>
    have later := ih (List.pairwise_cons.mp sorted).2
    rw [keepLast_cons]
    cases kept : keepLast members with
    | nil =>
      have none : members = [] := by
        have head := head?_keepLast members
        rw [kept] at head
        simpa using head.symm
      subst none
      by_cases same : first.1 = m.1
      · simp [same, eq_comm]
      · have distinct : m ≠ first := fun equal => same (equal ▸ rfl)
        simp [same, distinct]
    | cons next tail =>
      dsimp only
      rw [← kept]
      split
      · next same =>
        -- a neighbour has the key of the first, which therefore is not kept
        rw [later]
        by_cases key : first.1 = m.1
        · have again : next ∈ members.filter (·.1 = m.1) := by
            have member : next ∈ members := mem_keepLast (kept ▸ List.mem_cons_self)
            simp [member, ← same, key]
          rw [List.filter_cons_of_pos (by simpa using key),
            List.getLast?_cons_of_ne_nil (List.ne_nil_of_mem again)]
        · rw [List.filter_cons_of_neg (by simpa using key)]
      · next other =>
        -- the keys are in order, so that the first one does not come again
        have less := lt_of_keepLast sorted kept other
        by_cases key : first.1 = m.1
        · have alone : members.filter (·.1 = m.1) = [] := by
            rw [List.filter_eq_nil_iff]
            intro n member
            have := String.ne_of_lt (less n member)
            simp [← key, this.symm]
          have absent : m ∉ keepLast members := fun member =>
            String.ne_of_lt (less m (mem_keepLast member)) key
          rw [List.filter_cons_of_pos (by simpa using key), alone, List.mem_cons]
          simp [absent, eq_comm]
        · have distinct : m ≠ first := fun equal => key (equal ▸ rfl)
          rw [List.filter_cons_of_neg (by simpa using key), List.mem_cons, later]
          simp [distinct]

end KeepLast

theorem filter_mergeSort (key : String) (members : List (String × α)) :
    (members.mergeSort fun a b => decide (a.1 ≤ b.1)).filter (·.1 = key) =
      members.filter (·.1 = key) := by
  have equal : (members.filter (·.1 = key)).Pairwise fun a b => decide (a.1 ≤ b.1) := by
    refine List.pairwise_of_forall_mem_list fun a first b second => ?_
    have first : a.1 = key := by simpa using (List.mem_filter.mp first).2
    have second : b.1 = key := by simpa using (List.mem_filter.mp second).2
    simp [first, second]
  have inside := List.sublist_mergeSort (fun a b c => by simpa using String.le_trans)
    (fun a b => by simpa using String.le_total a.1 b.1) equal List.filter_sublist
  have again := inside.filter (·.1 = key)
  rw [List.filter_filter] at again
  simp only [Bool.and_self] at again
  exact (again.eq_of_length ((List.mergeSort_perm _ _).filter _).length_eq.symm).symm

theorem settled_ofMembers (written : List (String × Json)) :
    ∃ ordered, ofMembers written = .object ordered ∧ Settled written ordered := by
  have sorted : (written.mergeSort fun a b => decide (a.1 ≤ b.1)).Pairwise (·.1 ≤ ·.1) :=
    (List.pairwise_mergeSort (fun a b c => by simpa using String.le_trans)
      (fun a b => by simpa using String.le_total a.1 b.1) written).imp of_decide_eq_true
  refine ⟨_, rfl, ascending_keepLast sorted, fun m => ?_⟩
  rw [mem_keepLast_iff sorted, filter_mergeSort]

theorem Settled.ofMembers {written : List (String × Json)} (settled : Settled written ordered) :
    ofMembers written = .object ordered := by
  obtain ⟨kept, result, same⟩ := settled_ofMembers written
  have equal : kept = ordered := same.ascending.ext settled.ascending fun m =>
    (same.last m).trans (settled.last m).symm
  rw [result, equal]

theorem Ascending.settled (ascending : Ascending members) : Settled members members := by
  obtain ⟨ordered, result, settled⟩ := settled_ofMembers members
  rw [ofMembers_perm ascending (List.Perm.refl members)] at result
  cases result
  exact settled

end Switchboard.Json
