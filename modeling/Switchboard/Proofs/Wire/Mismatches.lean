import Switchboard.Proofs.Decimal
import Switchboard.Proofs.Json.Short
import Switchboard.Proofs.Json.Spelled
import Switchboard.Wire.Envelope

/-!
How long a message can be about a value that is no envelope: it quotes at most one string of the
value.
-/

namespace Switchboard

open Json (spelled spelled_append spelled_le)

variable {n : Nat}

/-! ### Numbers -/

theorem spelled_nat_le (count : Nat) {k : Nat} (positive : 0 < count) (small : k < 10 ^ count) :
    spelled (toString k) ≤ 6 * count := by
  have digits : (toString k).length = (Nat.toDigits 10 k).length := by
    rw [← String.length_toList]
    exact congrArg List.length String.toList_ofList
  have few := (Nat.length_toDigits_le_iff (by decide) positive).mpr small
  have bytes := spelled_le (toString k)
  omega

theorem spelled_int_le {k : Int} (small : k.natAbs < 10 ^ 20) : spelled (toString k) ≤ 121 := by
  cases k with
  | ofNat k => exact Nat.le_trans (spelled_nat_le 20 (by decide) small) (by decide)
  | negSucc k =>
    have shape : toString (Int.negSucc k) = "-" ++ toString (k + 1) := rfl
    have minus : spelled "-" = 1 := rfl
    have digits : spelled (toString (k + 1)) ≤ 6 * 20 := spelled_nat_le 20 (by decide) small
    rw [shape, spelled_append, minus]
    omega

namespace Shape

/-! ### Messages -/

def Found.Modest (n : Nat) : Found → Prop
  | int k => k.natAbs < 10 ^ 20
  | float text => text.length ≤ Decimal.digitLimit + 13
  | string s => s.length ≤ n
  | _ => True

def Mismatch.Modest (n : Nat) : Mismatch → Prop
  | invalidType found expected | invalidValue found expected =>
    found.Modest n ∧ expected.length ≤ 50
  | invalidLength length expected => length ≤ n ∧ expected.length ≤ 50
  | missingField name => name.length ≤ 50
  | unknownVariant name known => name.length ≤ n ∧ known = MessageType.all.map MessageType.name
  | notATag => True

theorem Found.Modest.spelled_text {found : Found} (modest : found.Modest n) :
    spelled found.text ≤ 11 * n + 8500 := by
  -- a double takes the most that does not depend on `n`: six bytes for each of its digits
  cases found with
  | null | list | record => exact Nat.le_trans (by decide) (Nat.le_add_left 8500 _)
  | bool b => cases b <;> exact Nat.le_trans (by decide) (Nat.le_add_left 8500 _)
  | int k =>
    have shape : (Found.int k).text = "integer `" ++ toString k ++ "`" := rfl
    have around : spelled "integer `" = 9 ∧ spelled "`" = 1 := ⟨rfl, rfl⟩
    have digits := spelled_int_le modest
    rw [shape, spelled_append, spelled_append]
    omega
  | float text =>
    have shape : (Found.float text).text = "floating point `" ++ text ++ "`" := rfl
    have around : spelled "floating point `" = 16 ∧ spelled "`" = 1 := ⟨rfl, rfl⟩
    have few : text.length ≤ 1413 := modest
    have bytes := spelled_le text
    simp only [shape, spelled_append]
    omega
  | string s =>
    have shape : (Found.string s).text = "string " ++ Text.quoted s := rfl
    have around : spelled "string " = 7 := rfl
    have short : s.length ≤ n := modest
    have bytes := Json.spelled_quoted_le s
    rw [shape, spelled_append]
    omega

theorem Found.Modest.spelled_expected {found : Found} {expected : String} (modest : found.Modest n)
    (opening : String) (few : expected.length ≤ 50) :
    spelled (opening ++ found.text ++ ", expected " ++ expected) ≤
      spelled opening + 11 * n + 8811 := by
  have between : spelled ", expected " = 11 := rfl
  have quoted := modest.spelled_text
  have bytes := spelled_le expected
  simp only [spelled_append]
  omega

theorem Mismatch.Modest.spelled_message {m : Mismatch} (modest : m.Modest n)
    (readable : n < 10 ^ 20) : spelled m.message ≤ 11 * n + 9000 := by
  cases m with
  | invalidType found expected =>
    have opening : spelled "invalid type: " = 14 := rfl
    have bytes := modest.1.spelled_expected "invalid type: " modest.2
    exact Nat.le_trans bytes (by omega)
  | invalidValue found expected =>
    have opening : spelled "invalid value: " = 15 := rfl
    have bytes := modest.1.spelled_expected "invalid value: " modest.2
    exact Nat.le_trans bytes (by omega)
  | invalidLength length expected =>
    have shape : (Mismatch.invalidLength length expected).message =
        "invalid length " ++ toString length ++ ", expected " ++ expected := rfl
    have around : spelled "invalid length " = 15 ∧ spelled ", expected " = 11 :=
      ⟨rfl, rfl⟩
    have digits := spelled_nat_le 20 (by decide) (Nat.lt_of_le_of_lt modest.1 readable)
    have bytes := spelled_le expected
    have few := modest.2
    simp only [shape, spelled_append]
    omega
  | missingField name =>
    have shape : (Mismatch.missingField name).message = "missing field `" ++ name ++ "`" := rfl
    have around : spelled "missing field `" = 15 ∧ spelled "`" = 1 := ⟨rfl, rfl⟩
    have bytes := spelled_le name
    have few : name.length ≤ 50 := modest
    simp only [shape, spelled_append]
    omega
  | unknownVariant name known =>
    obtain ⟨short, rfl⟩ := modest
    let names := ", ".intercalate ((MessageType.all.map MessageType.name).map fun k => s!"`{k}`")
    have shape : (Mismatch.unknownVariant name (MessageType.all.map MessageType.name)).message =
        "unknown variant `" ++ name ++ "`, expected one of " ++ names := rfl
    have around : spelled "unknown variant `" = 17 ∧ spelled "`, expected one of " = 19 ∧
        spelled names ≤ 100 := ⟨rfl, rfl, by decide⟩
    have bytes := spelled_le name
    simp only [shape, spelled_append]
    omega
  | notATag => exact Nat.le_trans (by decide) (Nat.le_add_left 9000 _)

end Shape

/-! ### Reading an envelope -/

namespace Json

open Shape

variable {v : Json} {m : Mismatch}

theorem Short.modest_found (short : v.Short n) : v.found.Modest n := by
  cases short with
  | int word => exact Nat.lt_of_le_of_lt word (by decide)
  | float x =>
    change (String.ofList (Decimal.briefText x)).length ≤ _
    rw [String.length_ofList]
    exact Decimal.length_briefText_le x
  | string short => exact short
  | _ => trivial

theorem Short.of_member? {w : Json} {key : String} (short : v.Short n)
    (found : v.member? key = some w) : w.Short n := by
  unfold member? at found
  split at found
  · obtain ⟨m, hit, rfl⟩ := Option.map_eq_some_iff.mp found
    cases short with
    | object _ inner => exact inner m (List.mem_of_find?_eq_some hit)
  · cases found

theorem Short.modest_mistyped {τ : Type} {expected : String} (short : v.Short n)
    (few : expected.length ≤ 50)
    (failed : (format.mistyped v expected : Except Mismatch τ) = .error m) :
    m.Modest n := by
  cases failed
  exact ⟨short.modest_found, few⟩

theorem Short.modest_string (short : v.Short n) (failed : format.string v = .error m) :
    m.Modest n := by
  unfold Format.string at failed
  split at failed
  · cases failed
  · exact short.modest_mistyped (by decide) failed

theorem Short.modest_word (short : v.Short n) (failed : format.word "u64" v = .error m) :
    m.Modest n := by
  unfold Format.word at failed
  split at failed
  · next k shown =>
    split at failed
    · cases failed
    · cases failed
      have found := short.modest_found
      rw [Json.found, show v.view = .int k from shown] at found
      exact ⟨found, by decide⟩
  · exact short.modest_mistyped (by decide) failed

theorem Short.modest_tag (short : v.Short n) (failed : v.tag = .error m) : m.Modest n := by
  unfold tag at failed
  split at failed
  · cases failed
  · cases failed
  · cases failed
  · cases failed
    exact ⟨trivial, by decide⟩
  · cases failed
    exact ⟨short.modest_found, by decide⟩

theorem Short.of_tag {name : String} {alone : Except Mismatch Unit} (short : v.Short n)
    (tagged : v.tag = .ok (name, alone)) :
    name.length ≤ n ∧ ∀ m, alone = .error m → m.Modest n := by
  unfold tag at tagged
  split at tagged
  · cases tagged
    cases short with
    | string short => exact ⟨short, fun m failed => nomatch failed⟩
  · cases tagged
    cases short with
    | object keys _ => exact ⟨keys _ List.mem_cons_self, fun m failed => nomatch failed⟩
  · cases tagged
    cases short with
    | object keys inner =>
      refine ⟨keys _ List.mem_cons_self, fun m failed => ?_⟩
      cases failed
      exact ⟨(inner _ List.mem_cons_self).modest_found, by decide⟩
  · cases tagged
  · cases tagged

theorem Short.modest_choice (short : v.Short n)
    (failed : format.choice (MessageType.all.map fun t => (t.name, t)) v = .error m) :
    m.Modest n := by
  unfold Format.choice at failed
  split at failed
  · next tagged =>
    cases failed
    exact short.modest_tag tagged
  · next name alone tagged =>
    obtain ⟨named, inner⟩ := short.of_tag tagged
    split at failed
    · cases failed
      exact ⟨named, by rw [List.map_map]; rfl⟩
    · cases alone with
      | ok _ => cases failed
      | error e =>
        cases failed
        exact inner m rfl

theorem modest_optional {τ : Type} {read : Json → Except Mismatch τ}
    (inner : read v = .error m → m.Modest n) (failed : format.optional read v = .error m) :
    m.Modest n := by
  unfold Format.optional at failed
  split at failed
  · cases failed
  · cases given : read v with
    | ok _ =>
      rw [given] at failed
      cases failed
    | error e =>
      rw [given] at failed
      cases failed
      exact inner given

end Json

theorem foldlM_error {ε δ α : Type} {f : δ → α → Except ε δ} {items : List α} {draft : δ} {e : ε}
    (failed : items.foldlM f draft = .error e) :
    ∃ draft, ∃ item ∈ items, f draft item = .error e := by
  induction items generalizing draft with
  | nil => cases failed
  | cons item items ih =>
    rw [List.foldlM_cons] at failed
    cases entered : f draft item with
    | error e =>
      rw [entered] at failed
      cases failed
      exact ⟨draft, item, List.mem_cons_self, entered⟩
    | ok next =>
      rw [entered] at failed
      obtain ⟨before, item, inside, entered⟩ := ih failed
      exact ⟨before, item, List.mem_cons_of_mem _ inside, entered⟩

namespace Envelope

open Json Shape

variable {v : Json} {m : Mismatch}

theorem modest_enter {e : Envelope} {name : String} (short : v.Short n)
    (failed : enter e name v = .error m) : m.Modest n := by
  unfold enter at failed
  have of_bind : ∀ {τ : Type} {read : Except Mismatch τ} {f : τ → Envelope},
      (read >>= fun x => pure (f x)) = .error m → read = .error m := by
    intro τ read f failed
    cases read <;> cases failed
    rfl
  split at failed
  · exact modest_optional short.modest_choice (of_bind failed)
  · split at failed
    · exact modest_optional short.modest_string (of_bind failed)
    · split at failed
      · exact modest_optional short.modest_word (of_bind failed)
      · split at failed
        · exact modest_optional short.modest_string (of_bind failed)
        · cases failed

theorem modest_enterAll {members : List (String × Json)} (short : ∀ m ∈ members, m.2.Short n)
    (failed : record.enterAll members = .error m) : m.Modest n := by
  obtain ⟨draft, member, inside, entered⟩ := foldlM_error failed
  exact modest_enter (short member inside) entered

theorem modest_read (short : v.Short n) (failed : record.read Json.format v = .error m) :
    m.Modest n := by
  have whole := short
  cases short with
  | object _ inner =>
    change record.ofMembers _ = _ at failed
    unfold Record.ofMembers at failed
    split at failed
    · next entered =>
      cases failed
      exact modest_enterAll inner entered
    · cases failed
  | @array items few inner =>
    change record.ofItems true items = _ at failed
    unfold Record.ofItems at failed
    split at failed
    · next entered =>
      cases failed
      refine modest_enterAll (fun member inside => ?_) entered
      exact inner _ (List.of_mem_zip inside).2
    · split at failed
      · next finished => cases finished
      · split at failed
        · cases failed
          exact ⟨few, by decide⟩
        · cases failed
  | _ => exact whole.modest_mistyped (by decide) failed

end Envelope

end Switchboard
