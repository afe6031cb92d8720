import Mathlib
import Switchboard.Proofs.Wire.Contents
import Switchboard.Proofs.Wire.Envelope
import Switchboard.Proofs.Wire.Payloads
import Switchboard.Proofs.Wire.Reader

/-!
Envelopes that are written as frames are read back, however the bytes are cut into chunks.
-/

namespace Switchboard

namespace Line

variable {closed : Bool} {body rest : List UInt8}

theorem first_newline (inner : newline ∉ body) (short : body.length < limit) :
    First closed (body ++ newline :: rest) (body ++ [newline]) rest where
  whole := by simp
  nonempty := by simp
  ended := Or.inl (Or.inl (by simp))
  shortest := by
    intro front back whole some ended
    refine Nat.le_of_not_lt fun shorter => ?_
    have inside : front.length ≤ body.length := by
      rw [List.length_append, List.length_singleton] at shorter
      omega
    have front_of_body : front <+: body :=
      List.prefix_of_prefix_length_le (whole ▸ List.prefix_append front back)
        (List.prefix_append body _) inside
    rcases ended with (ends | full) | ⟨-, none⟩
    · exact inner (front_of_body.mem (List.mem_of_getLast? ends))
    · omega
    · have length := congrArg List.length whole
      rw [none, List.append_nil, List.length_append, List.length_cons] at length
      omega

theorem first_last (inner : newline ∉ body) (short : body.length < limit) (nonempty : body ≠ []) :
    First true body body [] where
  whole := List.append_nil body
  nonempty := nonempty
  ended := Or.inr ⟨rfl, rfl⟩
  shortest := by
    intro front back whole some ended
    rcases ended with (ends | full) | ⟨-, none⟩
    · exact absurd (whole ▸ List.mem_append_left back (List.mem_of_getLast? ends)) inner
    · have length := congrArg List.length whole
      rw [List.length_append] at length
      omega
    · rw [none, List.append_nil] at whole
      exact Nat.le_of_eq (congrArg List.length whole.symm)

theorem text?_braces {inner : List Char} (back : List Char) {bytes : List UInt8}
    (blank : ∀ c ∈ back, Text.isBlank c)
    (encoded : Text.encode (String.ofList ('\x7b' :: inner ++ ['\x7d'] ++ back)) = bytes) :
    text? bytes = some (String.ofList ('\x7b' :: inner ++ ['\x7d'])) := by
  have trimmed : Text.trim ([] ++ ('\x7b' :: inner ++ ['\x7d']) ++ back) =
      '\x7b' :: inner ++ ['\x7d'] := by
    apply Text.trim_append (List.forall_mem_nil _) blank (by simp)
    · intro c head
      cases head
      decide
    · intro c last
      rw [List.getLast?_concat] at last
      cases last
      decide
  rw [List.nil_append] at trimmed
  rw [← encoded, text?, Text.decode?_encode, Option.map_some, String.toList_ofList, trimmed]

theorem says_braces {inner : List Char} (back : List Char) {bytes : List UInt8}
    (blank : ∀ c ∈ back, Text.isBlank c)
    (encoded : Text.encode (String.ofList ('\x7b' :: inner ++ ['\x7d'] ++ back)) = bytes)
    (fits : bytes.length < limit ∨ bytes.getLast? = some newline) :
    Says bytes (some (Envelope.parse (String.ofList ('\x7b' :: inner ++ ['\x7d'])))) :=
  says_of_text? (text?_braces back blank encoded) (by simp) fits

end Line

namespace Envelope

variable {e : Envelope} {frame : Frame} {es : List Envelope} {frames : List Frame}
  {bytes : List UInt8}

def line (e : Envelope) : List UInt8 := Text.encode e.toJson.write

theorem newline_not_mem_line (e : Envelope) : Line.newline ∉ e.line :=
  e.toJson.newline_not_mem_bytes

theorem text_braces (e : Envelope) : ∃ inner, e.toJson.text = '\x7b' :: inner ++ ['\x7d'] := by
  rw [toJson, Json.text_object, Json.bracketed]
  exact ⟨_, rfl⟩

theorem line_ne_nil (e : Envelope) : e.line ≠ [] := by
  obtain ⟨inner, shape⟩ := e.text_braces
  rw [line, Json.write, Text.encode_ofList, shape, List.cons_append, List.flatMap_cons]
  exact fun none => String.utf8EncodeChar_ne_nil (List.append_eq_nil_iff.mp none).1

theorem says_text (e : Envelope) (back : List Char) (blank : ∀ c ∈ back, Text.isBlank c)
    (encoded : Text.encode (String.ofList (e.toJson.text ++ back)) = bytes)
    (fits : bytes.length < Line.limit ∨ bytes.getLast? = some Line.newline) :
    Line.Says bytes (some (.ok e)) := by
  obtain ⟨inner, shape⟩ := e.text_braces
  rw [← e.parse_write, Json.write]
  rw [shape] at encoded ⊢
  exact Line.says_braces back blank encoded fits

theorem bytes_of_ofEnvelope (written : Frame.ofEnvelope e = .ok frame) :
    frame.bytes = e.line ++ [Line.newline] ∧ e.line.length < Frame.limit :=
  Frame.bytes_of_ofJson written

theorem first_frame {closed : Bool} {rest : List UInt8} (written : Frame.ofEnvelope e = .ok frame) :
    Line.First closed (frame.bytes ++ rest) frame.bytes rest := by
  obtain ⟨shape, short⟩ := bytes_of_ofEnvelope written
  rw [shape, List.append_assoc]
  exact Line.first_newline e.newline_not_mem_line (Nat.lt_succ_of_lt short)

theorem says_line (e : Envelope) : Line.Says (e.line ++ [Line.newline]) (some (.ok e)) :=
  e.says_text ['\n'] (List.forall_mem_singleton.mpr rfl) (Line.encode_newline e.toJson.text)
    (Or.inr List.getLast?_concat)

theorem text?_line (e : Envelope) : Line.text? (e.line ++ [Line.newline]) = some e.toJson.write := by
  obtain ⟨inner, shape⟩ := e.text_braces
  have encoded := Line.encode_newline e.toJson.text
  rw [Envelope.line, Json.write]
  rw [shape] at encoded ⊢
  exact Line.text?_braces ['\n'] (List.forall_mem_singleton.mpr rfl) encoded

theorem cut?_line (short : e.line.length < Line.limit) (rest : List UInt8) :
    Line.cut? (e.line ++ Line.newline :: rest) = some (e.line ++ [Line.newline], rest) :=
  Line.cut?_of_first (Line.first_newline e.newline_not_mem_line short)

theorem says_frame (written : Frame.ofEnvelope e = .ok frame) :
    Line.Says frame.bytes (some (.ok e)) := by
  rw [(bytes_of_ofEnvelope written).1]
  exact e.says_line

theorem reference_frame {closed : Bool} {rest : List UInt8} {results : List (Except Fault Envelope)}
    (written : Frame.ofEnvelope e = .ok frame) (later : Line.Reference closed rest results) :
    Line.Reference closed (frame.bytes ++ rest) (.ok e :: results) :=
  .line (first_frame written) (says_frame written) later

/-- An inbox that holds a frame reads its envelope next. -/
theorem next_frame {inbox : Inbox} {rest : List UInt8} (written : Frame.ofEnvelope e = .ok frame)
    (holds : inbox.held = frame.bytes ++ rest) :
    inbox.next = .got (.ok e) { inbox with held := rest } := by
  have cut := Line.cut?_of_first (holds ▸ first_frame written)
  rw [Inbox.next_line cut, (says_frame written).read?_eq]

theorem reference_last (written : Frame.ofEnvelope e = .ok frame) :
    Line.Reference true e.line [.ok e] := by
  obtain ⟨-, short⟩ := bytes_of_ofEnvelope written
  have first := Line.first_last e.newline_not_mem_line (Nat.lt_succ_of_lt short) e.line_ne_nil
  have said : Line.Says e.line (some (.ok e)) := by
    refine e.says_text [] (fun _ none => nomatch none) ?_ (Or.inl (Nat.lt_succ_of_lt short))
    rw [List.append_nil]
    rfl
  exact .line first said Line.reference_nil

theorem reference_frames (written : es.mapM Frame.ofEnvelope = .ok frames)
    (whole : bytes = frames.flatMap Frame.bytes ∨
      bytes ++ [Line.newline] = frames.flatMap Frame.bytes) :
    Line.Reference true bytes (es.map .ok) := by
  induction es generalizing frames bytes with
  | nil =>
    cases written
    rcases whole with rfl | whole
    · exact Line.reference_nil
    · exact absurd whole (by simp)
  | cons e es ih =>
    rw [List.mapM_cons] at written
    cases first : Frame.ofEnvelope e with
    | error e => rw [first] at written; cases written
    | ok frame =>
      rw [first] at written
      cases more : es.mapM Frame.ofEnvelope with
      | error e => rw [more] at written; cases written
      | ok later =>
        rw [more] at written
        cases written
        rw [List.flatMap_cons] at whole
        rcases whole with rfl | whole
        · exact reference_frame first (ih more (Or.inl rfl))
        · rcases List.eq_nil_or_concat (later.flatMap Frame.bytes) with none | ⟨front, b, split⟩
          · -- nothing is written behind this frame
            obtain ⟨shape, -⟩ := bytes_of_ofEnvelope first
            rw [none, List.append_nil, shape] at whole
            obtain rfl := List.append_cancel_right whole
            have nothing := (ih more (Or.inl none.symm)).unique Line.reference_nil
            rw [List.map_cons, nothing]
            exact reference_last first
          · rw [List.concat_eq_append] at split
            rw [split, ← List.append_assoc] at whole
            obtain ⟨rfl, last⟩ := List.append_inj' whole rfl
            rw [← last] at split
            exact reference_frame first (ih more (Or.inr split.symm))

/-- Frames yield the envelopes that they were written from, and then nothing, in whatever chunks
their bytes come. -/
theorem frames_yield_envelopes (es : List Envelope) (frames : List Frame) (chunks : List (List UInt8))
    (written : es.mapM Frame.ofEnvelope = .ok frames)
    (whole : chunks.flatten = frames.flatMap Frame.bytes ∨
      chunks.flatten ++ [Line.newline] = frames.flatMap Frame.bytes) :
    (Inbox.ofArrivals (chunks.map .data)).Yields (es.map .ok) := by
  obtain ⟨said, more, yields, reference, resumes⟩ :=
    Inbox.yields_chunks chunks [] rfl rfl (iff_of_true rfl rfl)
  cases resumes
  rw [List.append_nil, List.append_nil] at yields
  rwa [(reference_frames written whole).unique reference]

theorem frames_yield_envelopes_cut :
    let es := [Envelope.credential "\u00e9", Envelope.texting 7 "a\nb"]
    let frames : List Frame := [⟨"\x7b\"token\":\"\u00e9\"\x7d\n"⟩,
      ⟨"\x7b\"msg_type\":\"TEXTING\",\"content\":\"a\\nb\",\"conversation_id\":7\x7d\n"⟩]
    let bytes := frames.flatMap Frame.bytes
    let chunks := [bytes.take 11, (bytes.drop 11).take 20, (bytes.drop 31).dropLast]
    es.mapM Frame.ofEnvelope = .ok frames ∧ chunks.flatten ++ [Line.newline] = bytes ∧
      (Inbox.ofArrivals (chunks.map .data)).Yields (es.map .ok) := by
  intro es frames bytes chunks
  have written : es.mapM Frame.ofEnvelope = .ok frames := by cbv
  have whole : chunks.flatten ++ [Line.newline] = bytes := by cbv
  exact ⟨written, whole, frames_yield_envelopes es frames chunks written (Or.inr whole)⟩

end Envelope

end Switchboard
