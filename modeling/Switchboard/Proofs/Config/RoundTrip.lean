import Switchboard.Config.File
import Switchboard.Proofs.Toml.Tables

/-!
What is written for a configuration is read as the same configuration.
-/

namespace Switchboard

open Shape Toml

/-! ### What is written, line by line -/

def stringPair (key s : String) : Pair := ⟨key, stringText s, .string s⟩

def numberPair (key : String) (n : UInt64) : Pair := ⟨key, Config.numberText n, .int n.toNat⟩

def Listen.pairs (l : Listen) : List Pair :=
  [stringPair "chat" l.chat, stringPair "admin_notifications" l.adminNotifications,
    stringPair "admin_conversations" l.adminConversations,
    stringPair "technician_notifications" l.technicianNotifications]

def Limits.pairs (l : Limits) : List Pair :=
  [numberPair "queue_capacity" l.queueCapacity, numberPair "outbound_capacity" l.outboundCapacity,
    numberPair "write_timeout_ms" l.writeTimeoutMs,
    numberPair "probe_interval_secs" l.probeIntervalSecs]

def TokenEntry.pairs (t : TokenEntry) : List Pair :=
  [stringPair "token" t.token, numberPair "account_id" t.account, stringPair "role" t.role.name]

theorem Listen.keys_distinct (l : Listen) : (l.pairs.map Pair.key).Nodup := by
  show ["chat", "admin_notifications", "admin_conversations", "technician_notifications"].Nodup
  decide

theorem Limits.keys_distinct (l : Limits) : (l.pairs.map Pair.key).Nodup := by
  show ["queue_capacity", "outbound_capacity", "write_timeout_ms", "probe_interval_secs"].Nodup
  decide

theorem TokenEntry.keys_distinct (t : TokenEntry) : (t.pairs.map Pair.key).Nodup := by
  show ["token", "account_id", "role"].Nodup
  decide

theorem fair_stringPair {key : String} (bare : IsBare key) (s : String) :
    (Line.pair (stringPair key s)).Fair := ⟨bare, .string s⟩

theorem fair_numberPair {key : String} (bare : IsBare key) {n : UInt64}
    (small : n.toNat < 2 ^ 63) : (Line.pair (numberPair key n)).Fair := ⟨bare, .int small⟩

theorem Listen.fair_pairs (l : Listen) : ∀ p ∈ l.pairs, (Line.pair p).Fair := by
  simp only [Listen.pairs, List.forall_mem_cons]
  exact ⟨fair_stringPair (by decide) _, fair_stringPair (by decide) _,
    fair_stringPair (by decide) _, fair_stringPair (by decide) _, nofun⟩

theorem Limits.fair_pairs {l : Limits} (queue : l.queueCapacity.toNat < 2 ^ 63)
    (outbound : l.outboundCapacity.toNat < 2 ^ 63) (write : l.writeTimeoutMs.toNat < 2 ^ 63)
    (probe : l.probeIntervalSecs.toNat < 2 ^ 63) : ∀ p ∈ l.pairs, (Line.pair p).Fair := by
  simp only [Limits.pairs, List.forall_mem_cons]
  exact ⟨fair_numberPair (by decide) queue, fair_numberPair (by decide) outbound,
    fair_numberPair (by decide) write, fair_numberPair (by decide) probe, nofun⟩

theorem TokenEntry.fair_pairs {t : TokenEntry} (account : t.account.toNat < 2 ^ 63) :
    ∀ p ∈ t.pairs, (Line.pair p).Fair := by
  simp only [TokenEntry.pairs, List.forall_mem_cons]
  exact ⟨fair_stringPair (by decide) _, fair_numberPair (by decide) account,
    fair_stringPair (by decide) _, nofun⟩

namespace Config

def head (c : Config) : List Pair :=
  stringPair "id" c.id ::
    if c.tokens.isEmpty then [⟨"tokens", ['[', ']'], .array []⟩] else []

def lines (c : Config) : List Line :=
  c.head.map .pair ++ ((.header "listen" :: c.listen.pairs.map .pair) ++
    ((.header "limits" :: c.limits.pairs.map .pair) ++
      (c.tokens.map TokenEntry.pairs).flatMap fun pairs => .item "tokens" :: pairs.map .pair))

def root (c : Config) : Members :=
  c.head.map Pair.member ++ [("listen", .table .header (c.listen.pairs.map Pair.member))] ++
    [("limits", .table .header (c.limits.pairs.map Pair.member))]

def members (c : Config) : Members :=
  listed "tokens" c.root ((c.tokens.map TokenEntry.pairs).map fun pairs =>
    .table .header (pairs.map Pair.member))

theorem text_eq (c : Config) : c.text = c.lines.flatMap Line.text := by
  have tokens : c.tokens.flatMap tokenText = (c.tokens.map TokenEntry.pairs).flatMap fun pairs =>
      itemLine "tokens" ++ pairs.flatMap fun p => pairLine p.key p.text := by
    rw [List.flatMap_map]
    congr 1
    funext t
    simp [TokenEntry.pairs, tokenText, stringPair, numberPair]
  rw [Config.text, tokens]
  cases empty : c.tokens.isEmpty <;>
  · simp [lines, head, empty, Listen.pairs, Limits.pairs, listenText, limitsText, stringPair,
      numberPair, Line.text, List.flatMap_map, List.flatMap_assoc]

theorem fair_lines {c : Config} (small : ∀ n ∈ c.numbers, n.toNat < 2 ^ 63) :
    ∀ line ∈ c.lines, line.Fair := by
  simp only [numbers, List.forall_mem_append, List.forall_mem_cons, List.forall_mem_map] at small
  obtain ⟨⟨queue, outbound, write, probe, -⟩, accounts⟩ := small
  have head : ∀ p ∈ c.head, (Line.pair p).Fair := by
    rw [head, List.forall_mem_cons]
    refine ⟨fair_stringPair (by decide) c.id, ?_⟩
    split
    · exact List.forall_mem_singleton.mpr ⟨by decide, .empty⟩
    · exact nofun
  have tokens : ∀ pairs ∈ c.tokens.map TokenEntry.pairs, ∀ p ∈ pairs, (Line.pair p).Fair :=
    List.forall_mem_map.mpr fun t member => TokenEntry.fair_pairs (accounts t member)
  have block (above : Line) {pairs : List Pair} (fair : above.Fair)
      (all : ∀ p ∈ pairs, (Line.pair p).Fair) :
      ∀ line ∈ above :: pairs.map Line.pair, line.Fair :=
    List.forall_mem_cons.mpr ⟨fair, List.forall_mem_map.mpr all⟩
  simp only [lines, List.forall_mem_append]
  refine ⟨List.forall_mem_map.mpr head,
    block (.header "listen") (show IsBare "listen" by decide) c.listen.fair_pairs,
    block (.header "limits") (show IsBare "limits" by decide)
      (Limits.fair_pairs queue outbound write probe), ?_⟩
  intro line member
  obtain ⟨pairs, inside, member⟩ := List.mem_flatMap.mp member
  exact block (.item "tokens") (show IsBare "tokens" by decide) (tokens pairs inside) line member

theorem keys_head (c : Config) :
    c.head.map Pair.key = "id" :: if c.tokens.isEmpty then ["tokens"] else [] := by
  unfold head
  split <;> rfl

theorem enter_lines (c : Config) :
    (c.lines.foldlM Line.enter ([], [])).map Prod.fst = .ok c.members := by
  have distinct : (c.head.map Pair.key).Nodup := by
    rw [keys_head]
    split <;> decide
  have listen : "listen" ∉ (c.head.map Pair.member).map Prod.fst := by
    rw [keys_members, keys_head]
    split <;> decide
  have limits : "limits" ∉ (c.head.map Pair.member ++
      [("listen", Toml.table .header (c.listen.pairs.map Pair.member))]).map Prod.fst := by
    rw [List.map_append, keys_members, keys_head]
    split <;> simp
  have head : (c.head.map Line.pair).foldlM Line.enter ([], []) =
      .ok (c.head.map Pair.member, []) := by
    have entered := enter_pairs leads_root [] (by rwa [List.nil_append, keys_members])
    exact entered
  rw [lines, enter_append head, enter_append (enter_table listen c.listen.keys_distinct),
    enter_append (enter_table limits c.limits.keys_distinct)]
  cases tokens : c.tokens with
  | nil =>
    rw [members, tokens]
    rfl
  | cons t ts =>
    have absent : "tokens" ∉ c.root.map Prod.fst := by
      rw [root, List.map_append, List.map_append, keys_members, keys_head, tokens]
      simp
    have distinct : ∀ pairs ∈ c.tokens.map TokenEntry.pairs, (pairs.map Pair.key).Nodup := by
      intro pairs member
      obtain ⟨t, -, rfl⟩ := List.mem_map.mp member
      exact t.keys_distinct
    rw [← tokens]
    exact enter_items absent [] _ distinct

end Config

/-! ### Reading the records -/

theorem format_word (expected : String) (n : UInt64) :
    Toml.format.word expected (.int n.toNat) = .ok n := by
  show (if 0 ≤ (n.toNat : Int) ∧ (n.toNat : Int).toNat < Nat.pow 2 64 then
    Except.ok (n.toNat : Int).toNat.toUInt64 else _) = _
  rw [if_pos ⟨Int.natCast_nonneg _, n.toNat_lt⟩, Int.toNat_natCast]
  exact congrArg Except.ok UInt64.ofNat_toNat

theorem Shape.Record.enterAll_concat {α δ τ : Type} (r : Record α δ τ)
    (members : List (String × α)) (m : String × α) :
    r.enterAll (members ++ [m]) = r.enterAll members >>= fun draft => r.enter draft m.1 m.2 := by
  rw [Record.enterAll, List.foldlM_append]
  congr 1
  funext draft
  exact bind_pure _

theorem read_table {δ τ : Type} (r : Record Toml δ τ) (origin : Origin) (members : Members) :
    r.read Toml.format (.table origin members) = r.ofMembers members := rfl

theorem Listen.read_pairs (l : Listen) :
    (Listen.record Toml.format).read Toml.format (.table .header (l.pairs.map Pair.member)) =
      .ok l := rfl

theorem Limits.read_pairs (l : Limits) :
    (Limits.record Toml.format).read Toml.format (.table .header (l.pairs.map Pair.member)) =
      .ok l := by
  have entered : (Limits.record Toml.format).enterAll (l.pairs.map Pair.member) = .ok l := by
    simp [Record.enterAll, Limits.record, Limits.enter, format_word, Limits.pairs, numberPair,
      Pair.member, bind, Except.bind, pure, Except.pure]
  rw [read_table, Record.ofMembers, entered]
  rfl

theorem Role.read_name (role : Role) :
    Toml.format.choice (Role.all.map fun r => (r.name, r)) (.string role.name) = .ok role := by
  cases role <;> rfl

theorem TokenEntry.read_pairs (t : TokenEntry) :
    (TokenEntry.record Toml.format).read Toml.format (.table .header (t.pairs.map Pair.member)) =
      .ok t := by
  have token : Toml.format.string (.string t.token) = .ok t.token := rfl
  have entered : (TokenEntry.record Toml.format).enterAll (t.pairs.map Pair.member) =
      .ok ⟨some t.token, some t.account, some t.role⟩ := by
    simp [Record.enterAll, TokenEntry.record, TokenEntry.enter, format_word, TokenEntry.pairs,
      numberPair, stringPair, Pair.member, Role.read_name, token, bind, Except.bind, pure,
      Except.pure]
  rw [read_table, Record.ofMembers, entered]
  rfl

namespace Config

theorem read_tokens (tokens : List TokenEntry) :
    ((tokens.map TokenEntry.pairs).map fun pairs =>
      Toml.table .header (pairs.map Pair.member)).mapM
        ((TokenEntry.record Toml.format).read Toml.format) = .ok tokens := by
  induction tokens with
  | nil => rfl
  | cons t tokens ih =>
    simp only [List.map_cons, List.mapM_cons, t.read_pairs, ih]
    rfl

theorem enterAll_root (c : Config) :
    (record Toml.format).enterAll c.root = .ok ⟨some c.id, some c.listen, c.limits, []⟩ := by
  have listen := c.listen.read_pairs
  have limits := c.limits.read_pairs
  have name : Toml.format.string (.string c.id) = .ok c.id := rfl
  have none (item : Toml → Except Mismatch TokenEntry) :
      Toml.format.list item (.array []) = .ok [] := rfl
  unfold root head
  split <;>
    simp [Record.enterAll, record, enter, stringPair, Pair.member, listen, limits, name, none, bind,
      Except.bind, pure, Except.pure]

theorem read_members (c : Config) :
    (record Toml.format).read Toml.format (.table .header c.members) = .ok c := by
  have entered : (record Toml.format).enterAll c.members =
      .ok ⟨some c.id, some c.listen, c.limits, c.tokens⟩ := by
    cases shape : c.tokens with
    | nil =>
      rw [members, shape]
      exact enterAll_root c
    | cons t ts =>
      have last : enter Toml.format ⟨some c.id, some c.listen, c.limits, []⟩ "tokens"
          (.tables (((t :: ts).map TokenEntry.pairs).map fun pairs =>
            .table .header (pairs.map Pair.member))) =
          .ok ⟨some c.id, some c.listen, c.limits, t :: ts⟩ := by
        have tokens := read_tokens (t :: ts)
        rw [enter, if_neg (by decide), if_neg (by decide), if_neg (by decide), if_pos rfl]
        show ((List.mapM _ _ : Except Mismatch (List TokenEntry)) >>= fun tokens => _) = _
        rw [tokens]
        rfl
      rw [members, shape]
      show (record Toml.format).enterAll (c.root ++ [("tokens", Toml.tables _)]) = _
      rw [Record.enterAll_concat, enterAll_root]
      exact last
  rw [read_table, Record.ofMembers, entered]
  rfl

/-- A valid configuration with numbers that fit can be written, and is read back from its text and
from its file, whatever stands in its strings and however many tokens it has. -/
theorem ofFile_toText (c : Config) (valid : c.limits.check = .ok ())
    (small : ∀ n ∈ c.numbers, n.toNat < 2 ^ 63) :
    ∃ text, c.toText = .ok text ∧ ofText text = .ok c ∧
      ofFile (some (Text.encode text)) = .ok c := by
  have written : c.toText = .ok (String.ofList c.text) := by
    rw [toText, if_pos]
    exact List.all_eq_true.mpr fun n member => decide_eq_true (small n member)
  have parsed : Toml.read (String.ofList c.text) = .ok (.table .header c.members) := by
    rw [text_eq, read_lines (fair_lines small), enter_lines]
    rfl
  have read : ofText (String.ofList c.text) = .ok c := by
    rw [ofText, parsed]
    dsimp only
    rw [read_members]
    dsimp only
    rw [valid]
    rfl
  refine ⟨_, written, read, ?_⟩
  rw [ofFile, Text.decode?_encode]
  exact read

theorem ofFile_toText_quoted :
    let c : Config := ⟨"\"\"\" ''' \\ \n \x00\x7f\"\"", ⟨"", "\"quoted\"", "\n'\"", "''\\\n''"⟩,
      ⟨1, 2, 3, 9223372036854775807⟩, [⟨"\r\n\t", 0, .admin⟩, ⟨"Ä\u2028", 7, .user⟩]⟩
    c.limits.check = .ok () ∧ (∀ n ∈ c.numbers, n.toNat < 2 ^ 63) ∧
      ∃ text, c.toText = .ok text ∧ ofText text = .ok c ∧
        ofFile (some (Text.encode text)) = .ok c :=
  ⟨rfl, by simp [numbers], ofFile_toText _ rfl (by simp [numbers])⟩

end Config

end Switchboard
