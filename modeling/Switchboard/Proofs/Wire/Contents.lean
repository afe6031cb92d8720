import Switchboard.Proofs.Json.Short
import Switchboard.Proofs.Json.Spelled
import Switchboard.Proofs.Wire.Lines
import Switchboard.Proofs.Wire.Shapes

/-!
What an envelope says is no longer than the line that it is read from.
-/

namespace Switchboard

open Json (byteLength)

variable {n : Nat} {v : Json}

theorem Json.Short.member? {key : String} {member : Json} (short : v.Short n)
    (found : v.member? key = some member) : member.Short n := by
  cases short with
  | object _ inner =>
    obtain ⟨m, first, rfl⟩ := Option.map_eq_some_iff.mp found
    exact inner m (List.mem_of_find?_eq_some first)
  | _ => cases found

namespace Envelope

def Modest (n : Nat) (e : Envelope) : Prop :=
  ∀ content, e.content? = some content → content.length ≤ n

theorem Describes.modest {e : Envelope} (describes : Describes v e) (short : v.Short n) :
    e.Modest n := by
  intro content said
  suffices inside : (Json.string content).Short n by
    cases inside
    assumption
  cases describes with
  | object filled =>
    have given := filled.content
    rw [said] at given
    obtain ⟨_, found, rfl⟩ := given
    exact short.member? found
  | array few filled =>
    have given := filled.content
    rw [said] at given
    obtain ⟨_, found, rfl⟩ := given
    cases short with
    | array _ inner => exact inner _ (List.mem_of_getElem? found)

theorem modest_of_parse {text : String} {e : Envelope} (parsed : parse text = .ok e) :
    e.Modest text.length := by
  obtain ⟨value, read, describes⟩ := parse_eq_ok.mp parsed
  exact describes.modest (Json.read_short read)

end Envelope

namespace Line

theorem byteLength_of_decode? {line : List UInt8} {text : String}
    (decoded : Text.decode? line = some text) : byteLength text.toList = line.length := by
  rw [Json.byteLength_toList, ← Text.length_encode, Text.encode_of_decode? decoded]

theorem trim_le (cs : List Char) : byteLength (Text.trim cs) ≤ byteLength cs := by
  obtain ⟨front, back, split, -, -⟩ := Text.trim_split cs
  conv => rhs; rw [split]
  simp only [Json.byteLength_append]
  omega

def text? (line : List UInt8) : Option String :=
  (Text.decode? line).map fun text => String.ofList (Text.trim text.toList)

variable {line : List UInt8} {text : String} {e : Envelope}

/-- A line is refused as bytes, or it is what the text on it says. -/
theorem read?_cases {result : Except Fault Envelope} (read : read? line = some result) :
    result = .error (.refused .notUtf8) ∨ result = .error (.refused .lineTooLong) ∨
      ∃ text, text? line = some text ∧ Envelope.parse text = result := by
  unfold read? at read
  split at read
  · exact Or.inl (Option.some.inj read).symm
  · next whole decoded =>
    have given : text? line = some (String.ofList (Text.trim whole.toList)) := by
      rw [text?, decoded, Option.map_some]
    split at read
    · exact Or.inr (Or.inl (Option.some.inj read).symm)
    · split at read
      · cases read
      · exact Or.inr (Or.inr ⟨_, given, Option.some.inj read⟩)

theorem text?_of_read? (read : read? line = some (.ok e)) :
    ∃ text, text? line = some text ∧ Envelope.parse text = .ok e := by
  rcases read?_cases read with garbled | long | said
  · cases garbled
  · cases long
  · exact said

theorem says_of_text? (given : text? line = some text) (something : text.toList ≠ [])
    (fits : line.length < limit ∨ line.getLast? = some newline) :
    Says line (some (Envelope.parse text)) := by
  obtain ⟨whole, decoded, rfl⟩ := Option.map_eq_some_iff.mp given
  obtain ⟨front, back, apart, before, behind⟩ := Text.trim_split whole.toList
  rw [String.toList_ofList] at something
  exact .said (Text.encode_of_decode? decoded) fits apart before behind something
    (fun _ => Text.head?_trim whole.toList) (fun _ => Text.getLast?_trim whole.toList)

theorem text?_le (given : text? line = some text) : text.utf8ByteSize ≤ line.length := by
  obtain ⟨whole, decoded, rfl⟩ := Option.map_eq_some_iff.mp given
  rw [Json.utf8ByteSize_ofList, ← byteLength_of_decode? decoded]
  exact trim_le whole.toList

theorem text?_lt (given : text? line = some text) (ended : line.getLast? = some newline) :
    text.utf8ByteSize < line.length := by
  obtain ⟨whole, decoded, rfl⟩ := Option.map_eq_some_iff.mp given
  obtain ⟨front, back, split, -, -⟩ := Text.trim_split whole.toList
  rw [Json.utf8ByteSize_ofList, ← byteLength_of_decode? decoded]
  rw [← Text.encode_of_decode? decoded] at ended
  obtain ⟨c, last, same⟩ := Text.getLast?_of_encode ended (by decide)
  have blank : Text.isBlank c := by
    rw [Text.isBlank, same]
    decide
  apply Nat.lt_of_le_of_ne (trim_le whole.toList)
  intro all
  have bytes : byteLength whole.toList =
      byteLength front + byteLength (Text.trim whole.toList) + byteLength back := by
    conv => lhs; rw [split]
    rw [Json.byteLength_append, Json.byteLength_append]
  have before : front = [] := by
    have := Json.length_le_byteLength front
    exact List.eq_nil_of_length_eq_zero (by omega)
  have behind : back = [] := by
    have := Json.length_le_byteLength back
    exact List.eq_nil_of_length_eq_zero (by omega)
  rw [before, behind, List.nil_append, List.append_nil] at split
  rw [split] at last
  exact Text.getLast?_trim whole.toList last blank

theorem modest_of_read? (read : read? line = some (.ok e)) : e.Modest line.length := by
  obtain ⟨text, given, parsed⟩ := text?_of_read? read
  intro content said
  calc content.length ≤ text.length := Envelope.modest_of_parse parsed content said
    _ ≤ text.utf8ByteSize := Json.length_le_utf8ByteSize text
    _ ≤ line.length := text?_le given

end Line

end Switchboard
