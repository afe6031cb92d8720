/-!
Texts as bytes. Every text has one encoding, and bytes that are none are no text.
-/

namespace Switchboard.Text

def encode (text : String) : List UInt8 := text.toByteArray.data.toList

def decode? (bytes : List UInt8) : Option String := String.fromUTF8? ⟨bytes.toArray⟩

theorem decode?_encode (text : String) : decode? (encode text) = some text := by
  have read : String.fromUTF8? text.toByteArray = some text := by
    rw [String.fromUTF8?, dif_pos text.isValidUTF8]
    rfl
  exact read

theorem encode_of_decode? {bytes : List UInt8} {text : String} (hit : decode? bytes = some text) :
    encode text = bytes := by
  unfold decode? String.fromUTF8? at hit
  split at hit <;> cases hit
  rfl

theorem length_encode (text : String) : (encode text).length = text.utf8ByteSize := rfl

theorem encode_ofList (cs : List Char) :
    encode (String.ofList cs) = cs.flatMap String.utf8EncodeChar := by
  rw [encode, String.toByteArray_ofList, List.utf8Encode, List.data_toByteArray,
    List.toList_toArray]

theorem toNat_of_mem_encodeChar {c : Char} {b : UInt8} (member : b ∈ String.utf8EncodeChar c)
    (small : b.toNat < 128) : c.toNat = b.toNat := by
  have value : c.val.toNat = c.toNat := rfl
  simp only [String.utf8EncodeChar, value] at member
  split at member
  · rw [List.mem_singleton.mp member, UInt8.toNat_ofNat']
    omega
  · exfalso
    split at member
    · simp only [List.mem_cons, List.not_mem_nil, or_false] at member
      rcases member with rfl | rfl <;> simp only [UInt8.toNat_ofNat'] at small <;> omega
    · split at member
      · simp only [List.mem_cons, List.not_mem_nil, or_false] at member
        rcases member with rfl | rfl | rfl <;> simp only [UInt8.toNat_ofNat'] at small <;> omega
      · simp only [List.mem_cons, List.not_mem_nil, or_false] at member
        rcases member with rfl | rfl | rfl | rfl <;> simp only [UInt8.toNat_ofNat'] at small <;> omega

theorem getLast?_of_encode {text : String} {b : UInt8} (last : (encode text).getLast? = some b)
    (small : b.toNat < 128) : ∃ c, text.toList.getLast? = some c ∧ c.toNat = b.toNat := by
  rw [← String.ofList_toList (s := text), encode_ofList] at last
  rcases List.eq_nil_or_concat text.toList with none | ⟨front, c, whole⟩
  · rw [none] at last
    cases last
  · rw [List.concat_eq_append] at whole
    rw [whole, List.flatMap_append, List.flatMap_singleton, List.getLast?_append] at last
    have some : (String.utf8EncodeChar c).getLast?.isSome :=
      List.getLast?_isSome.mpr String.utf8EncodeChar_ne_nil
    rw [Option.or_of_isSome some] at last
    refine ⟨c, by rw [whole, List.getLast?_concat], ?_⟩
    exact toNat_of_mem_encodeChar (List.mem_of_getLast? last) small

theorem not_mem_encode {cs : List Char} {b : UInt8} (control : b.toNat < 0x20)
    (printable : ∀ c ∈ cs, 0x20 ≤ c.toNat) : b ∉ encode (String.ofList cs) := by
  intro member
  rw [encode_ofList] at member
  obtain ⟨c, source, inside⟩ := List.mem_flatMap.mp member
  have same := toNat_of_mem_encodeChar inside (by omega)
  have := printable c source
  omega

end Switchboard.Text
