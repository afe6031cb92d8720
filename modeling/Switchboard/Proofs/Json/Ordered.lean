import Switchboard.Proofs.Json.RoundTrip

/-!
Values whose objects have their members in byte order. All that is read is of this kind, and
sorting changes nothing about it.
-/

namespace Switchboard.Json

variable {j : Json} {depth : Nat}

/-- The keys of every object, at whatever depth, are in byte order and no two the same. -/
inductive Ordered : Json → Prop
  | null : Ordered null
  | bool (b : Bool) : Ordered (bool b)
  | number (n : Number) : Ordered (number n)
  | string (s : String) : Ordered (string s)
  | array {items : List Json} (inner : ∀ item ∈ items, Ordered item) : Ordered (array items)
  | object {members : List (String × Json)} (ascending : Ascending members)
    (inner : ∀ m ∈ members, Ordered m.2) : Ordered (object members)

theorem sorted_object (members : List (String × Json)) :
    ∃ ordered, (object members).sorted = object ordered ∧ Ascending ordered ∧
      ∀ m ∈ ordered, ∃ source ∈ members, m = (source.1, source.2.sorted) := by
  obtain ⟨ordered, result, settled⟩ := settled_ofMembers (members.map fun m => (m.1, m.2.sorted))
  refine ⟨ordered, ?_, settled.ascending, fun m member => ?_⟩
  · rw [sorted, result]
  · obtain ⟨source, inside, same⟩ := List.mem_map.mp (settled.mem member)
    exact ⟨source, inside, same.symm⟩

theorem ordered_sorted (j : Json) : j.sorted.Ordered := by
  induction j using sorted.induct with
  | case1 => rw [sorted]; exact .null
  | case2 b => rw [sorted]; exact .bool b
  | case3 n => rw [sorted]; exact .number n
  | case4 s => rw [sorted]; exact .string s
  | case5 items ih =>
    rw [sorted]
    refine .array fun item member => ?_
    obtain ⟨source, inside, rfl⟩ := List.mem_map.mp member
    exact ih source inside
  | case6 members ih =>
    obtain ⟨ordered, shape, ascending, source⟩ := sorted_object members
    rw [shape]
    refine .object ascending fun m member => ?_
    obtain ⟨origin, inside, rfl⟩ := source m member
    exact ih origin inside

theorem Ordered.sorted_eq (ordered : j.Ordered) : j.sorted = j := by
  induction ordered with
  | null => rw [sorted]
  | bool b => rw [sorted]
  | number n => rw [sorted]
  | string s => rw [sorted]
  | array _ ih => rw [sorted, List.map_congr_left ih, List.map_id']
  | @object members ascending _ ih =>
    have same : ∀ m ∈ members, (m.1, m.2.sorted) = m := by
      intro m member
      rw [ih m member]
    rw [sorted, List.map_congr_left same, List.map_id']
    exact ofMembers_perm ascending (List.Perm.refl members)

theorem Plain.sorted (plain : j.Plain depth) : j.sorted.Plain depth := by
  induction plain with
  | null => rw [Json.sorted]; exact .null
  | bool b => rw [Json.sorted]; exact .bool b
  | int exact => rw [Json.sorted]; exact .int exact
  | string s => rw [Json.sorted]; exact .string s
  | array _ ih =>
    rw [Json.sorted]
    refine .array fun item member => ?_
    obtain ⟨source, inside, rfl⟩ := List.mem_map.mp member
    exact ih source inside
  | @object depth members _ ih =>
    obtain ⟨ordered, shape, -, source⟩ := sorted_object members
    rw [shape]
    refine .object fun m member => ?_
    obtain ⟨origin, inside, rfl⟩ := source m member
    exact ih origin inside

end Switchboard.Json
