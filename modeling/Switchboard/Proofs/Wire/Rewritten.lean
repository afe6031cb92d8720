import Mathlib
import Switchboard.Proofs.Json.Concise
import Switchboard.Proofs.Wire.Envelope
import Switchboard.Proofs.Wire.Payloads

/-!
An envelope that was read from an object is written in no more bytes than the object had, and to
read and write it once more changes nothing.
-/

namespace Switchboard

variable {text : String} {e : Envelope} {frame : Frame}

namespace Json

variable {members : List (String × Json)} {key : String} {value : Json}

theorem mem_of_member? (found : (object members).member? key = some value) :
    (key, value) ∈ members := by
  obtain ⟨m, first, rfl⟩ := Option.map_eq_some_iff.mp found
  have named : m.1 = key := by simpa using List.find?_some first
  exact named ▸ List.mem_of_find?_eq_some first

end Json

namespace Envelope

theorem mem_of_optionally {α : Type} {members : List (String × Json)} {m : String × Json}
    {key : String} {Is : Json → α → Prop} {f : α → Json} {x? : Option α}
    (is : ∀ value x, Is value x → value = f x)
    (filled : Optionally Is ((Json.object members).member? key) x?)
    (member : m ∈ (x?.map fun x => (key, f x)).toList) : m ∈ members := by
  cases x? with
  | none => cases member
  | some x =>
    obtain ⟨value, found, shape⟩ := filled
    rw [is value x shape] at found
    rw [List.mem_singleton.mp member]
    exact Json.mem_of_member? found

theorem Describes.mem {members : List (String × Json)} {m : String × Json}
    (describes : Describes (.object members) e) (member : m ∈ e.ordered) : m ∈ members := by
  cases describes with
  | object filled =>
    rcases List.mem_append.mp member with content | member
    · exact mem_of_optionally (fun _ _ => id) filled.content content
    rcases List.mem_append.mp member with conversation | member
    · exact mem_of_optionally (fun _ _ => id) filled.conversation conversation
    rcases List.mem_append.mp member with type | token
    · exact mem_of_optionally (fun _ _ => id) filled.type type
    · exact mem_of_optionally (fun _ _ => id) filled.token token

/-- Some of the fields of an envelope, or all of them, are written in no more bytes than the object
has that it was read from. -/
theorem Describes.part_le {members : List (String × Json)} {part : Envelope}
    (describes : Describes (.object members) e) (isText : Json.IsText text (.object members))
    (inside : ∀ m ∈ part.ordered, m ∈ e.ordered) :
    part.toJson.write.utf8ByteSize ≤ text.utf8ByteSize := by
  have perm := part.ordered_perm
  have plain := part.plain_toJson 0
  rw [toJson_eq] at plain ⊢
  apply isText.kept_le
  · intro m member
    exact describes.mem (inside m (perm.mem_iff.mpr member))
  · exact perm.nodup part.ordered_ascending.nodup
  · cases plain with
    | object inner => exact inner

/-! ### Reading and writing -/

/-- Reads an envelope and writes it as a frame. -/
def rewrite (text : String) : Except Fault Frame := do
  let e ← parse text
  (Frame.ofEnvelope e).mapError Fault.refused

theorem rewrite_of_parse (parsed : parse text = .ok e) (written : Frame.ofEnvelope e = .ok frame) :
    rewrite text = .ok frame := by
  rw [rewrite, parsed]
  show (Frame.ofEnvelope e).mapError Fault.refused = .ok frame
  rw [written]
  rfl

/-- An envelope out of an object grows no longer when it is written, and what is written of it is
read as the same envelope, and so written as before. -/
theorem rewrite_shrinks (text : String) (e : Envelope) (members : List (String × Json))
    (object : Json.IsText text (.object members)) (parsed : parse text = .ok e) :
    let body := e.toJson.write
    body.utf8ByteSize ≤ text.utf8ByteSize ∧ parse body = .ok e ∧
      (body.utf8ByteSize + 1 ≤ Frame.limit →
        let frame : Frame := ⟨body.push '\n'⟩
        rewrite text = .ok frame ∧ parse frame.text = .ok e ∧ rewrite frame.text = .ok frame) := by
  have describes : Describes (.object members) e := describes_of_parse parsed object
  refine ⟨describes.part_le object fun _ => id, e.parse_write, ?_⟩
  intro fits frame
  have written : Frame.ofEnvelope e = .ok frame := Frame.ofJson_eq_ok.mpr ⟨fits, rfl⟩
  have again : parse frame.text = .ok e :=
    parse_of_describes e.isText_write.push_newline e.describes_ordered
  exact ⟨rewrite_of_parse parsed written, again, rewrite_of_parse again written⟩

def spaced : Json.Member :=
  { Json.writtenMember ("content", .null) with
    toItem := ⟨⟨[' '], List.forall_mem_singleton.mpr rfl⟩, ['"', '\\', '/', '"'], Json.noGap,
      .string "/"⟩ }

def strange : Json.Member :=
  { Json.writtenMember ("n", .null) with
    toItem := ⟨Json.noGap, ['n', 'u', 'l', 'l'], Json.noGap, .null⟩ }

theorem rewrite_shrinks_spelling :
    let text := "\x7b\"content\": \"\\/\",\"n\":null\x7d"
    let e : Envelope := ⟨none, some "/", none, none⟩
    let members : List (String × Json) := [("content", .string "/"), ("n", .null)]
    let frame : Frame := ⟨"\x7b\"content\":\"/\"\x7d\n"⟩
    Json.IsText text (.object members) ∧ parse text = .ok e ∧
      e.toJson.write.utf8ByteSize ≤ text.utf8ByteSize ∧ rewrite text = .ok frame ∧
      rewrite frame.text = .ok frame := by
  intro text e members frame
  have slash : Json.Spells ['\\', '/'] ['/'] := .cons (.escaped rfl) .nil
  have each : ∀ m ∈ [spaced, strange], Json.Denotes 126 m.body m.value := by
    intro m member
    rcases List.mem_pair.mp member with rfl | rfl
    · exact .string slash
    · exact .null
  have ascending : Json.Ascending members := List.pairwise_pair.mpr (by decide)
  have object : Json.IsText text (.object members) := by
    refine ⟨⟨Json.noGap, _, Json.noGap, _⟩, ?_, rfl,
      .object (List.cons_ne_nil _ _) each ascending.settled⟩
    cbv
  have describes : Describes (.object members) e :=
    .object ⟨Or.inl rfl, ⟨_, rfl, rfl⟩, Or.inl rfl, Or.inl rfl⟩
  have parsed := parse_of_describes object describes
  obtain ⟨fewer, -, again⟩ := rewrite_shrinks text e members object parsed
  have same : (⟨e.toJson.write.push '\n'⟩ : Frame) = frame := by cbv
  obtain ⟨first, -, second⟩ := again (by cbv)
  rw [same] at first second
  exact ⟨object, parsed, fewer, first, second⟩

end Envelope

end Switchboard
