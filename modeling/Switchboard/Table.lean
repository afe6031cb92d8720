/-!
Finite tables: at most one entry per key, in order of first entry. Every operation is pinned down
by what it does to `find?` and to the keys.
-/

namespace Switchboard

namespace Entries

variable {κ ν : Type} [DecidableEq κ]

def find? (k : κ) : List (κ × ν) → Option ν
  | [] => none
  | e :: es => if e.1 = k then some e.2 else find? k es

def put (k : κ) (v : ν) : List (κ × ν) → List (κ × ν)
  | [] => [(k, v)]
  | e :: es => if e.1 = k then (k, v) :: es else e :: put k v es

def drop (k : κ) (es : List (κ × ν)) : List (κ × ν) :=
  es.filter fun e => decide (e.1 ≠ k)

theorem find?_put (k j : κ) (v : ν) (es : List (κ × ν)) :
    find? j (put k v es) = if k = j then some v else find? j es := by
  induction es with
  | nil => simp [put, find?]
  | cons e es ih => by_cases h : e.1 = k <;> by_cases hj : k = j <;> grind [put, find?]

theorem find?_drop (k j : κ) (es : List (κ × ν)) :
    find? j (drop k es) = if k = j then none else find? j es := by
  induction es with
  | nil => simp [drop, find?]
  | cons e es ih => by_cases h : e.1 = k <;> grind [drop, find?]

theorem keys_put (k : κ) (v : ν) (es : List (κ × ν)) :
    (put k v es).map Prod.fst =
      if k ∈ es.map Prod.fst then es.map Prod.fst else es.map Prod.fst ++ [k] := by
  induction es with
  | nil => simp [put]
  | cons e es ih => by_cases h : e.1 = k <;> grind [put]

theorem keys_drop (k : κ) (es : List (κ × ν)) :
    (drop k es).map Prod.fst = (es.map Prod.fst).filter fun j => decide (j ≠ k) := by
  simp [drop, List.filter_map, Function.comp_def]

theorem find?_isSome (k : κ) (es : List (κ × ν)) :
    (find? k es).isSome = decide (k ∈ es.map Prod.fst) := by
  induction es with
  | nil => simp [find?]
  | cons e es ih => by_cases h : e.1 = k <;> grind [find?]

end Entries

/-- A finite map that remembers the order in which its keys were first entered. -/
structure Table (κ ν : Type) where
  entries : List (κ × ν)
  nodup : (entries.map Prod.fst).Nodup

namespace Table

variable {κ ν : Type} [DecidableEq κ]

def empty : Table κ ν := ⟨[], .nil⟩

instance : Inhabited (Table κ ν) := ⟨empty⟩

def keys (t : Table κ ν) : List κ := t.entries.map Prod.fst

def find? (t : Table κ ν) (k : κ) : Option ν := Entries.find? k t.entries

def contains (t : Table κ ν) (k : κ) : Bool := (t.find? k).isSome

/-- Replaces the entry of `k` in place, or enters it last. -/
def insert (t : Table κ ν) (k : κ) (v : ν) : Table κ ν where
  entries := Entries.put k v t.entries
  nodup := by
    rw [Entries.keys_put]
    have h := t.nodup
    split
    · exact h
    · grind [List.nodup_append]

def erase (t : Table κ ν) (k : κ) : Table κ ν where
  entries := Entries.drop k t.entries
  nodup := by
    rw [Entries.keys_drop]
    exact t.nodup.sublist List.filter_sublist

def modify (t : Table κ ν) (k : κ) (f : ν → ν) : Table κ ν :=
  match t.find? k with
  | some v => t.insert k (f v)
  | none => t

/-- Later entries of one key replace earlier ones. -/
def ofList (es : List (κ × ν)) : Table κ ν := es.foldl (fun t e => t.insert e.1 e.2) empty

@[simp] theorem find?_insert (t : Table κ ν) (k j : κ) (v : ν) :
    (t.insert k v).find? j = if k = j then some v else t.find? j :=
  Entries.find?_put k j v t.entries

@[simp] theorem find?_erase (t : Table κ ν) (k j : κ) :
    (t.erase k).find? j = if k = j then none else t.find? j :=
  Entries.find?_drop k j t.entries

theorem find?_modify (t : Table κ ν) (k j : κ) (f : ν → ν) :
    (t.modify k f).find? j = if k = j then (t.find? j).map f else t.find? j := by
  unfold modify
  split <;> grind [find?_insert]

theorem mem_keys (t : Table κ ν) (k : κ) : k ∈ t.keys ↔ (t.find? k).isSome := by
  rw [find?, Entries.find?_isSome, keys, decide_eq_true_iff]

end Table

end Switchboard
