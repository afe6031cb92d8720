import Switchboard.Table

/-!
Tables that are equal: entering a key twice, entering what is there already, and entries from a
list.
-/

namespace Switchboard

namespace Entries

variable {κ ν : Type} [DecidableEq κ]

theorem put_put (k : κ) (v w : ν) (es : List (κ × ν)) : put k w (put k v es) = put k w es := by
  induction es with
  | nil => simp [put]
  | cons e es ih =>
    by_cases same : e.1 = k
    · simp [put, same]
    · simp [put, same, ih]

theorem put_of_find? {k : κ} {v : ν} {es : List (κ × ν)} (found : find? k es = some v) :
    put k v es = es := by
  induction es with
  | nil => cases found
  | cons e es ih =>
    unfold find? at found
    unfold put
    split at found
    · next same =>
      cases found
      rw [if_pos same, ← same]
    · next different => rw [if_neg different, ih found]

theorem find?_of_not_mem {k : κ} {es : List (κ × ν)} (absent : k ∉ es.map Prod.fst) :
    find? k es = none := by
  rw [← Option.not_isSome_iff_eq_none, find?_isSome, decide_eq_true_iff]
  exact absent

theorem find?_concat {k : κ} {es : List (κ × ν)} (absent : k ∉ es.map Prod.fst) (v : ν) :
    find? k (es ++ [(k, v)]) = some v := by
  induction es with
  | nil => simp [find?]
  | cons e es ih =>
    rw [List.map_cons, List.mem_cons, not_or] at absent
    rw [List.cons_append, find?, if_neg (Ne.symm absent.1), ih absent.2]

theorem put_concat {k : κ} {es : List (κ × ν)} (absent : k ∉ es.map Prod.fst) (v w : ν) :
    put k w (es ++ [(k, v)]) = es ++ [(k, w)] := by
  induction es with
  | nil => simp [put]
  | cons e es ih =>
    rw [List.map_cons, List.mem_cons, not_or] at absent
    rw [List.cons_append, put, if_neg (Ne.symm absent.1), ih absent.2, List.cons_append]

end Entries

namespace Table

variable {κ ν : Type}

theorem ext_entries {t u : Table κ ν} (same : t.entries = u.entries) : t = u := by
  cases t
  cases u
  cases same
  rfl

variable [DecidableEq κ]

theorem ofList_concat (es : List (κ × ν)) (k : κ) (v : ν) :
    ofList (es ++ [(k, v)]) = (ofList es).insert k v := by
  rw [ofList, List.foldl_append]
  rfl

theorem insert_insert (t : Table κ ν) (k : κ) (v w : ν) :
    (t.insert k v).insert k w = t.insert k w :=
  ext_entries (Entries.put_put k v w t.entries)

theorem insert_of_find? {t : Table κ ν} {k : κ} {v : ν} (found : t.find? k = some v) :
    t.insert k v = t :=
  ext_entries (Entries.put_of_find? found)

theorem keys_insert (t : Table κ ν) (k : κ) (v : ν) :
    (t.insert k v).keys = if k ∈ t.keys then t.keys else t.keys ++ [k] :=
  Entries.keys_put k v t.entries

theorem keys_insert_of_find? {t : Table κ ν} {k : κ} {v : ν} (found : t.find? k = some v) (w : ν) :
    (t.insert k w).keys = t.keys := by
  have present : k ∈ t.keys := by
    rw [mem_keys, found]
    rfl
  rw [keys_insert, if_pos present]

end Table

end Switchboard
