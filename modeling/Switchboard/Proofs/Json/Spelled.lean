import Switchboard.Proofs.Json.Scalars
import Switchboard.Text.Utf8

/-!
How many bytes a text takes up between the quotes of a JSON string: at most six for each character,
and at most eleven if it has been quoted for a message before.
-/

namespace Switchboard

namespace Json

variable {cs ds : List Char} {c : Char}

/-! ### Bytes -/

theorem foldl_utf8Size (n : Nat) (cs : List Char) :
    cs.foldl (fun n c => n + c.utf8Size) n = n + byteLength cs := by
  induction cs generalizing n with
  | nil => rfl
  | cons c cs ih =>
    rw [byteLength, List.foldl_cons, List.foldl_cons, ih, ih, Nat.zero_add, Nat.add_assoc]

@[simp] theorem byteLength_nil : byteLength [] = 0 := rfl

@[simp] theorem byteLength_cons : byteLength (c :: cs) = c.utf8Size + byteLength cs := by
  rw [byteLength, List.foldl_cons, foldl_utf8Size, Nat.zero_add]

@[simp] theorem byteLength_append : byteLength (cs ++ ds) = byteLength cs + byteLength ds := by
  rw [byteLength, List.foldl_append, foldl_utf8Size, ← byteLength]

theorem utf8ByteSize_ofList (cs : List Char) : (String.ofList cs).utf8ByteSize = byteLength cs := by
  rw [← Text.length_encode, Text.encode_ofList]
  induction cs with
  | nil => rfl
  | cons c cs ih =>
    rw [List.flatMap_cons, List.length_append, ih, String.length_utf8EncodeChar, byteLength_cons]

theorem byteLength_toList (s : String) : byteLength s.toList = s.utf8ByteSize := by
  rw [← utf8ByteSize_ofList, String.ofList_toList]

theorem byteLength_le (cs : List Char) : byteLength cs ≤ 4 * cs.length := by
  induction cs with
  | nil => exact Nat.le_refl _
  | cons c cs ih =>
    have := c.utf8Size_le_four
    simp only [byteLength_cons, List.length_cons]
    omega

theorem length_le_byteLength (cs : List Char) : cs.length ≤ byteLength cs := by
  induction cs with
  | nil => exact Nat.le_refl _
  | cons c cs ih =>
    have := c.utf8Size_pos
    simp only [byteLength_cons, List.length_cons]
    omega

/-! ### Strings as they are written -/

def spelled (s : String) : Nat := byteLength (s.toList.flatMap escape)

theorem spelled_ofList (cs : List Char) :
    spelled (String.ofList cs) = byteLength (cs.flatMap escape) := by
  rw [spelled, String.toList_ofList]

@[simp] theorem spelled_append (s t : String) : spelled (s ++ t) = spelled s + spelled t := by
  rw [spelled, String.toList_append, List.flatMap_append, byteLength_append]
  rfl

theorem spelled_letters (n : Nat) : spelled (String.ofList (List.replicate n 'x')) = n := by
  rw [spelled_ofList]
  induction n with
  | zero => rfl
  | succ n ih =>
    have letter : byteLength (escape 'x') = 1 := rfl
    rw [List.replicate_succ, List.flatMap_cons, byteLength_append, ih, letter, Nat.add_comm]

theorem byteLength_stringText (s : String) : byteLength (stringText s) = spelled s + 2 := by
  have quote : '"'.utf8Size = 1 := rfl
  simp only [stringText, spelled, byteLength_cons, byteLength_append, byteLength_nil, quote,
    List.cons_append]
  omega

theorem byteLength_escape_le (c : Char) : byteLength (escape c) ≤ 6 := by
  rcases escape_cases c with ⟨d, shape, -, -⟩ | ⟨shape, control⟩ | ⟨shape, -⟩
  · have := d.utf8Size_le_four
    have slash : '\\'.utf8Size = 1 := rfl
    simp only [shape, byteLength_cons, byteLength_nil, slash]
    omega
  · have padded : ∀ n < 0x20, byteLength ('\\' :: 'u' :: Text.paddedHex false 4 n) ≤ 6 := by decide
    rw [shape]
    exact padded _ control
  · have := c.utf8Size_le_four
    simp only [shape, byteLength_cons, byteLength_nil]
    omega

theorem byteLength_flatMap_le (f : Char → List Char) (n : Nat) (each : ∀ c, byteLength (f c) ≤ n)
    (cs : List Char) : byteLength (cs.flatMap f) ≤ n * cs.length := by
  induction cs with
  | nil => exact Nat.le_refl _
  | cons c cs ih =>
    have := each c
    rw [List.flatMap_cons, byteLength_append, List.length_cons, Nat.mul_succ]
    omega

theorem spelled_le (s : String) : spelled s ≤ 6 * s.length := by
  rw [← String.length_toList]
  exact byteLength_flatMap_le escape 6 byteLength_escape_le s.toList

theorem length_le_utf8ByteSize (s : String) : s.length ≤ s.utf8ByteSize := by
  rw [← byteLength_toList, ← String.length_toList]
  exact length_le_byteLength s.toList

theorem spelled_le_size (s : String) : spelled s ≤ 6 * s.utf8ByteSize :=
  Nat.le_trans (spelled_le s) (Nat.mul_le_mul_left 6 (length_le_utf8ByteSize s))

/-! ### Texts quoted for a message -/

theorem spelled_quoted (s : String) :
    spelled (Text.quoted s) =
      byteLength (s.toList.flatMap fun c => (Text.quotedChar c).flatMap escape) + 4 := by
  have quote : byteLength (escape '"') = 2 := rfl
  rw [Text.quoted, spelled_ofList, List.flatMap_append, List.flatMap_cons, List.flatMap_assoc]
  simp only [byteLength_append, List.flatMap_cons, List.flatMap_nil, List.append_nil, quote]
  omega

theorem byteLength_escape_digit (n : Nat) :
    ∀ d ∈ Nat.toDigits 16 n, byteLength (escape d) = 1 := by
  have one : ∀ k < 16, byteLength (escape k.digitChar) = 1 := by decide
  induction n using Nat.strongRecOn with
  | ind n ih =>
    intro d member
    by_cases small : n < 16
    · rw [Nat.toDigits_of_lt_base small, List.mem_singleton] at member
      exact member ▸ one n small
    · rw [Nat.toDigits_of_base_le (by omega) (by omega), List.mem_append,
        List.mem_singleton] at member
      rcases member with front | rfl
      · exact ih (n / 16) (by omega) d front
      · exact one _ (Nat.mod_lt n (by omega))

theorem byteLength_hexDigits_le (c : Char) :
    byteLength ((Text.hexDigits false c.toNat).flatMap escape) ≤ 6 := by
  have digits : byteLength ((Nat.toDigits 16 c.toNat).flatMap escape) =
      (Nat.toDigits 16 c.toNat).length := by
    have one := byteLength_escape_digit c.toNat
    generalize Nat.toDigits 16 c.toNat = ds at one
    induction ds with
    | nil => rfl
    | cons d ds ih =>
      have later := ih fun d member => one d (List.mem_cons_of_mem _ member)
      rw [List.flatMap_cons, byteLength_append, one d List.mem_cons_self, later, List.length_cons,
        Nat.add_comm]
  have point : c.toNat < 16 ^ 6 := by
    have value : c.toNat = c.val.toNat := rfl
    rcases c.valid with below | above <;> omega
  have few : (Nat.toDigits 16 c.toNat).length ≤ 6 :=
    (Nat.length_toDigits_le_iff (by omega) (by omega)).mpr point
  exact digits ▸ few

theorem byteLength_quotedChar_le (c : Char) :
    byteLength ((Text.quotedChar c).flatMap escape) ≤ 11 := by
  unfold Text.quotedChar
  split
  · decide
  · decide
  · decide
  · decide
  · decide
  · decide
  · split
    · have front : byteLength (['\\', 'u', '\x7b'].flatMap escape) = 4 := rfl
      have back : byteLength (['\x7d'].flatMap escape) = 1 := rfl
      have := byteLength_hexDigits_le c
      rw [List.flatMap_append, List.flatMap_append, byteLength_append, byteLength_append, front,
        back]
      omega
    · have := byteLength_escape_le c
      rw [List.flatMap_singleton]
      omega

theorem spelled_quoted_le (s : String) : spelled (Text.quoted s) ≤ 11 * s.length + 4 := by
  have each := byteLength_flatMap_le _ 11 byteLength_quotedChar_le s.toList
  rw [spelled_quoted, ← String.length_toList]
  exact Nat.add_le_add_right each 4

end Json

end Switchboard
