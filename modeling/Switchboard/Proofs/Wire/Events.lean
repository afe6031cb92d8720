import Mathlib
import Switchboard.Event
import Switchboard.Proofs.Json.Ordered
import Switchboard.Proofs.Wire.Shapes

/-!
Events and error frames survive the wire: what is written as a frame is read as an equal record.
-/

namespace Switchboard

open Json (Ascending Ordered Plain)

/-! ### Frames as values -/

namespace Json

variable {δ τ : Type} {record : Shape.Record Json δ τ} {value : Json} {x : τ} {frame : Frame}

theorem read_object {members : List (String × Json)} {draft : δ}
    (entered : record.enterAll members = .ok draft) (finished : record.finish draft = .ok x) :
    record.read format (.object members) = .ok x := by
  show record.ofMembers members = .ok x
  rw [Shape.Record.ofMembers, entered]
  dsimp only
  rw [finished]
  rfl

/-- A frame is read as the value that it was written from, with all members in byte order. -/
theorem readAs_frame (plain : value.Plain 127) (written : Frame.ofJson value = .ok frame)
    (reads : record.read format value.sorted = .ok x) : readAs record frame.text = .ok x := by
  obtain ⟨-, rfl⟩ := Frame.ofJson_eq_ok.mp written
  have read : Json.read (value.write.push '\n') = .ok value.sorted :=
    read_complete (isText_write plain).push_newline
  rw [readAs, read]
  dsimp only
  rw [reads]
  rfl

theorem plain_word (n : UInt64) (depth : Nat) : Plain depth (.number (.int n.toNat)) := by
  have := n.toNat_lt
  exact .int ⟨by omega, by omega⟩

theorem format_word (n : UInt64) (expected : String) :
    format.word expected (.number (.int n.toNat)) = .ok n := word_iff.mpr rfl

theorem ascending_keys {α : Type} {members : List (String × α)}
    (keys : (members.map Prod.fst).Pairwise (· < ·)) : Ascending members :=
  List.pairwise_map.mp keys

theorem format_string (s : String) : format.string (.string s) = .ok s := string_iff.mpr rfl

end Json

/-! ### Notifications -/

namespace Notification

theorem plain_toJson {n : Notification} (plain : n.data.Plain 126) : n.toJson.Plain 127 := by
  refine .object fun m member => ?_
  simp only [List.mem_cons, List.not_mem_nil, or_false] at member
  rcases member with rfl | rfl | rfl | rfl
  · exact Json.plain_word n.account 126
  · exact .string n.title
  · exact .string n.body
  · exact plain

theorem sorted_toJson (n : Notification) :
    n.toJson.sorted = .object [("account_id", .number (.int n.account.toNat)),
      ("body", .string n.body), ("data", n.data.sorted), ("title", .string n.title)] := by
  rw [toJson, Json.sorted]
  simp only [List.map_cons, List.map_nil, Json.sorted]
  apply Json.ofMembers_perm
  · exact Json.ascending_keys
      (show ["account_id", "body", "data", "title"].Pairwise (· < ·) by decide)
  · exact (@List.perm_append_comm _ [_, _] [_]).cons _

theorem read_sorted (n : Notification) :
    record.read Json.format n.toJson.sorted = .ok { n with data := n.data.sorted } := by
  rw [sorted_toJson]
  have entered : record.enterAll [("account_id", .number (.int n.account.toNat)),
      ("body", .string n.body), ("data", n.data.sorted), ("title", .string n.title)] =
      .ok ⟨some n.account, some n.title, some n.body, n.data.sorted⟩ := by
    simp [Shape.Record.enterAll, record, enter, Json.format_word, Json.format_string]
    rfl
  exact Json.read_object entered rfl

theorem parse_frame {n : Notification} {frame : Frame} (plain : n.data.Plain 126)
    (written : Frame.ofJson n.toJson = .ok frame) :
    parse frame.text = .ok { n with data := n.data.sorted } :=
  Json.readAs_frame (plain_toJson plain) written n.read_sorted

theorem text_toJson (n : Notification) :
    ∃ front, n.toJson.text = front ++ n.data.text ++ ['\x7d'] := by
  refine ⟨'\x7b' :: Json.memberText ("account_id", .number (.int n.account.toNat)) ++
    ',' :: Json.memberText ("title", .string n.title) ++
    ',' :: Json.memberText ("body", .string n.body) ++ ',' :: Json.stringText "data" ++ [':'], ?_⟩
  rw [toJson, Json.text_object, Json.bracketed]
  simp [Json.memberText]

end Notification

/-! ### Conversation events and error frames -/

namespace ConversationEvent

theorem plain_toJson (e : ConversationEvent) : e.toJson.Plain 127 := by
  refine .object fun m member => ?_
  simp only [List.mem_cons, List.not_mem_nil, or_false] at member
  rcases member with rfl | rfl | rfl
  · exact Json.plain_word e.conversation 126
  · exact Json.plain_word e.account 126
  · exact .string e.content

theorem sorted_toJson (e : ConversationEvent) :
    e.toJson.sorted = .object [("account_id", .number (.int e.account.toNat)),
      ("content", .string e.content),
      ("conversation_id", .number (.int e.conversation.toNat))] := by
  rw [toJson, Json.sorted]
  simp only [List.map_cons, List.map_nil, Json.sorted]
  apply Json.ofMembers_perm
  · exact Json.ascending_keys
      (show ["account_id", "content", "conversation_id"].Pairwise (· < ·) by decide)
  · exact @List.perm_append_comm _ [_, _] [_]

theorem read_sorted (e : ConversationEvent) :
    record.read Json.format e.toJson.sorted = .ok e := by
  rw [sorted_toJson]
  have entered : record.enterAll [("account_id", .number (.int e.account.toNat)),
      ("content", .string e.content),
      ("conversation_id", .number (.int e.conversation.toNat))] =
      .ok ⟨some e.conversation, some e.account, some e.content⟩ := by
    simp [Shape.Record.enterAll, record, enter, Json.format_word, Json.format_string]
    rfl
  exact Json.read_object entered rfl

theorem parse_frame {e : ConversationEvent} {frame : Frame}
    (written : Frame.ofJson e.toJson = .ok frame) : parse frame.text = .ok e :=
  Json.readAs_frame e.plain_toJson written e.read_sorted

end ConversationEvent

namespace ErrorFrame

theorem plain_toJson (e : ErrorFrame) : e.toJson.Plain 127 := by
  refine .object fun m member => ?_
  simp only [List.mem_cons, List.not_mem_nil, or_false] at member
  rcases member with rfl | rfl
  · exact .string e.error
  · exact .string e.code

theorem sorted_toJson (e : ErrorFrame) :
    e.toJson.sorted = .object [("code", .string e.code), ("error", .string e.error)] := by
  rw [toJson, Json.sorted]
  simp only [List.map_cons, List.map_nil, Json.sorted]
  apply Json.ofMembers_perm
  · exact Json.ascending_keys (show ["code", "error"].Pairwise (· < ·) by decide)
  · exact List.Perm.swap _ _ _

theorem read_sorted (e : ErrorFrame) : record.read Json.format e.toJson.sorted = .ok e := by
  rw [sorted_toJson]
  have entered : record.enterAll [("code", .string e.code), ("error", .string e.error)] =
      .ok ⟨some e.error, some e.code⟩ := by
    simp [Shape.Record.enterAll, record, enter, Json.format_string]
    rfl
  exact Json.read_object entered rfl

theorem parse_frame {e : ErrorFrame} {frame : Frame} (written : Frame.ofJson e.toJson = .ok frame) :
    parse frame.text = .ok e :=
  Json.readAs_frame e.plain_toJson written e.read_sorted

end ErrorFrame

/-! ### All events -/

/-- Events and error frames that can be written are read as they were. Data hold whole numbers only
and have at most 126 brackets open at a time; whatever the order in which their members were given,
they are held, and stand in the frame, with all keys in byte order. -/
theorem Event.frames_read :
    (∀ (audience : Audience) (account : AccountId) (title body : String) (data : Json)
        (frame : Frame), data.Plain 126 →
      let n : Notification := ⟨account, title, body, data.sorted⟩
      (Event.notification audience n).frame = .ok frame →
        Notification.parse frame.text = .ok n ∧ n.data.Ordered ∧
          ∃ front, frame.text.toList = front ++ n.data.text ++ ['\x7d', '\n']) ∧
      (∀ data : Json, data.Ordered → data.sorted = data) ∧
      (∀ (e : ConversationEvent) (frame : Frame), (Event.conversation e).frame = .ok frame →
        ConversationEvent.parse frame.text = .ok e) ∧
      ∀ (e : ErrorFrame) (frame : Frame), Frame.ofJson e.toJson = .ok frame →
        ErrorFrame.parse frame.text = .ok e := by
  refine ⟨?_, fun data => Ordered.sorted_eq, fun e frame => ConversationEvent.parse_frame,
    fun e frame => ErrorFrame.parse_frame⟩
  intro audience account title body data frame plain n written
  have ordered : n.data.Ordered := Json.ordered_sorted data
  have parsed := Notification.parse_frame (n := n) plain.sorted written
  rw [ordered.sorted_eq] at parsed
  refine ⟨parsed, ordered, ?_⟩
  obtain ⟨front, shape⟩ := n.text_toJson
  obtain ⟨-, rfl⟩ := Frame.ofJson_eq_ok.mp written
  refine ⟨front, ?_⟩
  simp [Json.write, shape]

theorem Event.frames_read_nested :
    let data : Json :=
      .object [("z", .array [.number (.int (-1))]), ("\n", .object [("\"", .null)])]
    let n : Notification := ⟨7, "t", "b", data.sorted⟩
    let frame : Frame := ⟨"\x7b\"account_id\":7,\"title\":\"t\",\"body\":\"b\"," ++
      "\"data\":\x7b\"\\n\":\x7b\"\\\"\":null\x7d,\"z\":[-1]\x7d\x7d\n"⟩
    data.Plain 126 ∧ (Event.notification .admin n).frame = .ok frame ∧
      Notification.parse frame.text = .ok n := by
  intro data n frame
  have plain : data.Plain 126 := by
    refine .object fun m member => ?_
    rcases List.mem_pair.mp member with rfl | rfl
    · refine .array fun item member => ?_
      rw [List.mem_singleton.mp member]
      exact .int ⟨by decide, by decide⟩
    · refine .object fun m member => ?_
      rw [List.mem_singleton.mp member]
      exact .null
  have written : (Event.notification .admin n).frame = .ok frame := by cbv
  exact ⟨plain, written, (frames_read.1 .admin 7 "t" "b" data frame plain written).1⟩

end Switchboard
