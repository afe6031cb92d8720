import Switchboard.Proofs.Table
import Switchboard.Proofs.Toml.Lines

/-!
The tables that lines build: pairs go to the end of the table whose header stands above them,
headers open tables at the end of the document and items extend a list of tables there.
-/

namespace Switchboard.Toml

variable {key : String} {root inner : Members} {header : List String} {pairs : List Pair}
variable {items : List Toml}

theorem enter_append {before after : List Line} {state middle : Members × List String}
    (first : before.foldlM Line.enter state = .ok middle) :
    (before ++ after).foldlM Line.enter state = after.foldlM Line.enter middle := by
  rw [List.foldlM_append, first]
  rfl

/-! ### Pairs -/

def Leads (header : List String) (around : Members → Members) : Prop :=
  ∀ (change : Origin → Members → Except Clash Members) (inner inner' : Members),
    change .header inner = .ok inner' →
    within .header change [] header .header (around inner) = .ok (around inner')

theorem leads_root : Leads [] fun inner => inner := fun _ _ _ changed => changed

theorem leads_table (absent : key ∉ root.map Prod.fst) :
    Leads [key] fun inner => root ++ [(key, .table .header inner)] := by
  intro change inner inner' changed
  have opened : within .header change ([] ++ [key]) [] .header inner = .ok inner' := changed
  rw [within]
  simp only [Entries.find?_concat absent, opened, Entries.put_concat absent]
  rfl

theorem leads_item (absent : key ∉ root.map Prod.fst) :
    Leads [key] fun inner => root ++ [(key, .tables (items ++ [.table .header inner]))] := by
  intro change inner inner' changed
  have opened : within .header change ([] ++ [key]) [] .header inner = .ok inner' := changed
  rw [within]
  simp only [Entries.find?_concat absent, List.getLast?_concat, List.dropLast_concat, opened,
    Entries.put_concat absent]
  rfl

theorem assign_new {taken : String → Clash} {value : Toml} (absent : key ∉ inner.map Prod.fst) :
    assign .dotted taken ⟨[], key⟩ value .header inner = .ok (inner ++ [(key, value)]) := by
  rw [assign, within, if_neg (by simp), Entries.find?_of_not_mem absent]
  rfl

theorem enter_pairs {around : Members → Members} (leads : Leads header around) (inner : Members)
    (distinct : ((inner ++ pairs.map Pair.member).map Prod.fst).Nodup) :
    (pairs.map Line.pair).foldlM Line.enter (around inner, header) =
      .ok (around (inner ++ pairs.map Pair.member), header) := by
  induction pairs generalizing inner with
  | nil => rw [List.map_nil, List.map_nil, List.append_nil]; rfl
  | cons p pairs ih =>
    rw [List.map_cons, List.append_cons] at distinct
    have absent : p.key ∉ inner.map Prod.fst := by
      rw [List.append_assoc, List.map_append] at distinct
      exact fun member => (List.nodup_append.mp distinct).2.2 p.key member p.key
        List.mem_cons_self rfl
    have entered : Line.enter (around inner, header) (.pair p) =
        .ok (around (inner ++ [p.member]), header) := by
      rw [Line.enter]
      dsimp only
      rw [leads _ _ _ (assign_new absent)]
      rfl
    have next := ih _ distinct
    rw [← List.append_cons] at next
    rw [List.map_cons, List.foldlM_cons, entered, List.map_cons]
    exact next

theorem keys_members (pairs : List Pair) :
    (pairs.map Pair.member).map Prod.fst = pairs.map Pair.key := List.map_map

/-! ### Tables -/

theorem openTable_new (absent : key ∉ root.map Prod.fst) :
    openTable ⟨[], key⟩ root = .ok (root ++ [(key, .table .header [])]) := by
  rw [openTable, within, Entries.find?_of_not_mem absent]

theorem enter_table (absent : key ∉ root.map Prod.fst) (distinct : (pairs.map Pair.key).Nodup) :
    (Line.header key :: pairs.map Line.pair).foldlM Line.enter (root, header) =
      .ok (root ++ [(key, .table .header (pairs.map Pair.member))], [key]) := by
  have opened : Line.enter (root, header) (.header key) =
      .ok (root ++ [(key, .table .header [])], [key]) := by
    rw [Line.enter, openTable_new absent]
    rfl
  rw [List.foldlM_cons, opened]
  exact enter_pairs (leads_table absent) [] (by rwa [List.nil_append, keys_members])

/-! ### Lists of tables -/

def listed (key : String) (root : Members) : List Toml → Members
  | [] => root
  | item :: items => root ++ [(key, .tables (item :: items))]

theorem listed_concat (key : String) (root : Members) (items : List Toml) (item : Toml) :
    listed key root (items ++ [item]) = root ++ [(key, .tables (items ++ [item]))] := by
  cases items <;> rfl

theorem openItem_listed (absent : key ∉ root.map Prod.fst) :
    openItem ⟨[], key⟩ (listed key root items) =
      .ok (listed key root (items ++ [.table .header []])) := by
  rw [openItem, within, listed_concat]
  cases items with
  | nil =>
    rw [listed, Entries.find?_of_not_mem absent]
    rfl
  | cons item items =>
    rw [listed, Entries.find?_concat absent]
    exact congrArg Except.ok (Entries.put_concat absent _ _)

theorem enter_item (absent : key ∉ root.map Prod.fst) (distinct : (pairs.map Pair.key).Nodup) :
    (Line.item key :: pairs.map Line.pair).foldlM Line.enter (listed key root items, header) =
      .ok (listed key root (items ++ [.table .header (pairs.map Pair.member)]), [key]) := by
  have opened : Line.enter (listed key root items, header) (.item key) =
      .ok (root ++ [(key, .tables (items ++ [.table .header []]))], [key]) := by
    rw [Line.enter, openItem_listed absent, listed_concat]
    rfl
  rw [List.foldlM_cons, opened, listed_concat]
  exact enter_pairs (leads_item absent) [] (by rwa [List.nil_append, keys_members])

theorem enter_items (absent : key ∉ root.map Prod.fst) (items : List Toml)
    (tables : List (List Pair)) (distinct : ∀ pairs ∈ tables, (pairs.map Pair.key).Nodup) :
    ((tables.flatMap fun pairs => Line.item key :: pairs.map Line.pair).foldlM Line.enter
        (listed key root items, header)).map Prod.fst =
      .ok (listed key root (items ++ tables.map fun pairs =>
        .table .header (pairs.map Pair.member))) := by
  induction tables generalizing items header with
  | nil => rw [List.map_nil, List.append_nil]; rfl
  | cons pairs tables ih =>
    obtain ⟨first, more⟩ := List.forall_mem_cons.mp distinct
    rw [List.flatMap_cons, enter_append (enter_item absent first)]
    exact (ih _ more).trans (by rw [List.map_cons, ← List.append_cons])

end Switchboard.Toml
