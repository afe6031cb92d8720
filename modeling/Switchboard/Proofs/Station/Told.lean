import Switchboard.Proofs.Hub.Refusals
import Switchboard.Proofs.Station.Tasks
import Switchboard.Proofs.Wire.Refused
import Switchboard.Proofs.Wire.RoundTrip

/-!
Whether a client is told why it is refused. A session puts the error frame into the queue of its
connection if there is room for it there; but a fault that quotes a long line has no error frame,
and then the session goes on or ends without a word.
-/

namespace Switchboard

open Json (spelled)

namespace Exchange

variable {x : Exchange} {id : ConnId}

/-- The connection of a client is open, its writer at work, and its queue not full. -/
def HasRoom (x : Exchange) (id : ConnId) : Prop :=
  ∃ c o, x.conns.find? id = some c ∧ c.link = .client o ∧ c.closed = false ∧ o.writer ≠ .stopped ∧
    o.queue.isFull = false

/-- One frame is put at the end of a connection's queue, and nothing else changes. -/
def Queues (x : Exchange) (id : ConnId) (frame : Frame) (y : Exchange) : Prop :=
  ∃ c o queue, x.conns.find? id = some c ∧ c.link = .client o ∧
    queue.items = o.queue.items ++ [frame] ∧ queue.capacity = o.queue.capacity ∧
    y = { x with conns :=
      x.conns.insert id { c with link := .client { o with queue }, taken := frame :: c.taken } }

theorem HasRoom.send (room : x.HasRoom id) (frame : Frame) :
    ∃ y, x.send id frame = .ok y ∧ x.Queues id frame y := by
  obtain ⟨c, o, found, link, opened, running, free⟩ := room
  have pushes : (o.queue.push? frame).isSome = true := by rw [Queue.push?_isSome, free]; rfl
  obtain ⟨queue, pushed⟩ := Option.isSome_iff_exists.mp pushes
  obtain ⟨items, capacity⟩ := Queue.items_push pushed
  have sent := Conn.send_client link opened running frame
  rw [pushed] at sent
  refine ⟨_, ?_, c, o, queue, found, link, items, capacity, rfl⟩
  rw [Exchange.send, found]
  dsimp only
  rw [sent]

end Exchange

namespace Hub

variable {h : Hub} {id : ConnId} {fault : Fault}

theorem tell_of_room {frame : Frame} (room : h.exchange.HasRoom id)
    (written : Frame.ofFault fault = .ok frame) :
    ∃ told, h.exchange.Queues id frame told ∧ h.tell id fault = { h with exchange := told } := by
  obtain ⟨told, sent, queued⟩ := room.send frame
  refine ⟨told, queued, ?_⟩
  rw [tell, written]
  dsimp only
  rw [sent]

theorem tell_of_untellable (untellable : ¬ fault.Tellable) : h.tell id fault = h := by
  unfold tell
  split
  · rfl
  · next frame written => exact absurd ⟨frame, written⟩ untellable

end Hub

namespace Station

variable {st : Station} {id : ConnId} {s : Session} {fault : Fault} {hub : Hub}

def Leaves (st : Station) (id : ConnId) (s : Session) (hub : Hub) : Prop :=
  ((st.turn id s).1.ended = s.ended ∧ (st.turn id s).2 = st.withHub hub) ∨
    ((st.turn id s).1.ended = true ∧ (st.turn id s).2 = st.withHub (hub.close id))

theorem handle_speaks {e : Envelope} {who : Identity} (id : ConnId)
    (speaks : s.Speaks st.hub.tokens e who)
    (called : s.stage = .waiting → e.type? ≠ none) :
    st.handle id s.entry s.stage e =
      (if (st.serve id who e).1 then some (.chatting who) else none, (st.serve id who e).2) := by
  rcases speaks with chatting | ⟨waiting, entry, accepted⟩
  · rw [chatting]
    rfl
  · have typed : e.type?.isNone = false := by
      cases type : e.type? with
      | none => exact absurd type (called waiting)
      | some _ => rfl
    rw [waiting, entry]
    simp [handle, accepted, typed]

theorem Reports.leaves (reports : st.Reports id s fault hub) :
    st.Leaves id s (hub.tell id fault) := by
  cases reports with
  | early waiting next =>
    right
    rw [turn, next]
    dsimp only
    rw [waiting]
    exact ⟨rfl, rfl⟩
  | unreadable next =>
    right
    rw [turn, next]
    exact ⟨rfl, rfl⟩
  | @stranger e rest why next waiting denied =>
    have handled : st.handle id s.entry s.stage e =
        (none, st.withHub (st.hub.reject id (.refused why))) := by
      rw [waiting]
      simp only [handle, denied]
    right
    rw [turn, next]
    dsimp only
    rw [handled]
    exact ⟨rfl, rfl⟩
  | @failed e rest who why hub next speaks called answered =>
    have handled := handle_speaks id speaks called
    rcases serve_cases st id who e with ⟨_, chatted, _⟩ | ⟨_, _, chatted, served | served⟩
    · cases answered.symm.trans chatted
    · cases answered.symm.trans chatted
      rw [served] at handled
      right
      rw [turn, next]
      dsimp only
      rw [handled]
      exact ⟨rfl, rfl⟩
    · cases answered.symm.trans chatted
      rw [served] at handled
      left
      rw [turn, next]
      dsimp only
      rw [handled]
      exact ⟨rfl, rfl⟩

theorem Reports.tellable (reports : st.Reports id s fault hub) :
    fault.Tellable ∨ (∃ message, fault = .io message) ∨
      ∃ line, line <:+: s.inbox.unread ∧ line.length ≤ Line.limit ∧
        Line.read? line = some (.error fault) ∧ 94000 < line.length ∧ fault.Quotes := by
  cases reports with
  | early _ _ => exact Or.inl (Refusal.Brief.tellable trivial)
  | unreadable next =>
    rcases Inbox.line_of_next next with ⟨trouble, failed⟩ | ⟨line, inside, short, read⟩
    · cases failed
      cases trouble with
      | invalid => exact Or.inl (Refusal.Brief.tellable trivial)
      | other message => exact Or.inr (Or.inl ⟨message, rfl⟩)
    · rcases Line.read?_error short read with tellable | ⟨long, quotes⟩
      · exact Or.inl tellable
      · exact Or.inr (Or.inr ⟨line, inside, short, read, long, quotes⟩)
  | stranger _ _ denied => exact Or.inl (authenticate_brief denied).tellable
  | failed next _ _ answered =>
    rcases Inbox.line_of_next next with ⟨_, failed⟩ | ⟨line, _, short, read⟩
    · cases failed
    · exact Or.inl (Hub.chat_tellable short read answered)

/-- With room for it, the error frame of a fault is queued; without an error frame nothing is. -/
theorem Reports.told (reports : st.Reports id s fault hub) (room : hub.exchange.HasRoom id) :
    (∃ frame told, Frame.ofFault fault = .ok frame ∧ hub.exchange.Queues id frame told ∧
      st.Leaves id s { hub with exchange := told }) ∨
    (¬ fault.Tellable ∧ st.Leaves id s hub) := by
  have leaves := reports.leaves
  by_cases tellable : fault.Tellable
  · obtain ⟨frame, written⟩ := tellable
    obtain ⟨told, queued, shape⟩ := Hub.tell_of_room room written
    exact Or.inl ⟨frame, told, written, queued, shape ▸ leaves⟩
  · rw [Hub.tell_of_untellable tellable] at leaves
    exact Or.inr ⟨tellable, leaves⟩

/-- A fault has an error frame if its message has room in one. That is so for what is wrong with a
line, unless the line is long and the fault quotes from it, and for all that the hub refuses in an
envelope. A session whose connection has room puts the error frame of what it reports into the queue
before it closes or goes on; it says nothing only where there is no such frame. -/
theorem refusals_told (line : List UInt8) (e : Envelope) (st : Station) (id : ConnId) (s : Session)
    (fault : Fault) (hub : Hub) :
    (fault.Tellable ↔ spelled fault.message + spelled fault.wireCode.name + 23 ≤ Frame.limit) ∧
    (line.length ≤ Line.limit → Line.read? line = some (.error fault) →
      fault.Tellable ∨ (94000 < line.length ∧ fault.Quotes)) ∧
    (line.length ≤ Line.limit → Line.read? line = some (.ok e) →
      (∀ tokens entry why, authenticate tokens entry e = .error why →
        (Fault.refused why).Tellable) ∧
      (∀ who why after, hub.chat who id e = (.error why, after) →
        (Fault.refused why).Tellable)) ∧
    (st.Reports id s fault hub → hub.exchange.HasRoom id →
      (∃ frame told, Frame.ofFault fault = .ok frame ∧ hub.exchange.Queues id frame told ∧
        st.Leaves id s { hub with exchange := told }) ∨
      (¬ fault.Tellable ∧ st.Leaves id s hub ∧ ((∃ message, fault = .io message) ∨
        ∃ line, line <:+: s.inbox.unread ∧ line.length ≤ Line.limit ∧
          Line.read? line = some (.error fault) ∧ 94000 < line.length ∧ fault.Quotes))) := by
  refine ⟨fault.tellable_iff, Line.read?_error, fun short read => ⟨?_, ?_⟩, fun reports room => ?_⟩
  · intro tokens entry why denied
    exact (authenticate_brief denied).tellable
  · intro who why after answered
    exact Hub.chat_tellable short read answered
  · rcases reports.told room with told | ⟨untellable, leaves⟩
    · exact Or.inl told
    · exact Or.inr ⟨untellable, leaves, reports.tellable.resolve_left untellable⟩

end Station

/-! ### A refusal that is not told -/

def Line.ofTypeName (name : String) : List UInt8 :=
  Text.encode (String.ofList ((Json.object [("msg_type", .string name)]).text ++ ['\n']))

namespace Envelope

theorem sorted_typeName (name : String) :
    (Json.object [("msg_type", .string name)]).sorted = .object [("msg_type", .string name)] := by
  rw [Json.sorted, List.map_singleton, Json.sorted]
  exact Json.ofMembers_perm (List.pairwise_singleton _ _) (.refl _)

theorem parse_typeName {name : String}
    (unknown : MessageType.ofName name = .error (.unknownType name)) :
    parse (Json.object [("msg_type", .string name)]).write =
      .error (.refused (.unknownType name)) := by
  have plain : (Json.object [("msg_type", .string name)]).Plain (Json.maxDepth - 1) := by
    refine .object fun m member => ?_
    rw [List.mem_singleton.mp member]
    exact .string name
  have read := Json.read_write plain
  rw [sorted_typeName] at read
  obtain ⟨named, -⟩ := MessageType.ofName_eq_error.mp unknown
  have checked : checkType (.object [("msg_type", .string name)]) = .error (.unknownType name) :=
    checkType_eq_error.mpr (Or.inl ⟨name, rfl, named, rfl⟩)
  exact parse_eq_error.mpr (Or.inr ⟨_, read, ofJson_eq_error.mpr (Or.inl ⟨_, checked, rfl⟩)⟩)

end Envelope

namespace Line

theorem read?_ofTypeName {name : String}
    (unknown : MessageType.ofName name = .error (.unknownType name)) :
    read? (ofTypeName name) = some (.error (.refused (.unknownType name))) := by
  have shape : (Json.object [("msg_type", .string name)]).text =
      '\x7b' :: (Json.memberText ("msg_type", .string name)) ++ ['\x7d'] := by
    simp [Json.text_object, Json.bracketed]
  have ends : (ofTypeName name).getLast? = some newline := by
    rw [ofTypeName, Line.encode_newline, List.getLast?_concat]
  rw [← Envelope.parse_typeName unknown, Json.write, shape]
  have blank : ∀ c ∈ ['\n'], Text.isBlank c := List.forall_mem_singleton.mpr rfl
  exact (says_braces ['\n'] blank (by rw [← shape]; rfl) (Or.inr ends)).read?_eq

theorem length_ofTypeName (name : String) : (ofTypeName name).length = spelled name + 16 := by
  have key : spelled "msg_type" = 8 := rfl
  have size := Json.size_object ("msg_type", .string name) []
  simp only [List.map_cons, List.map_nil, List.sum_cons, List.sum_nil, Json.text,
    Json.byteLength_stringText] at size
  rw [ofTypeName, encode_newline, List.length_append, List.length_singleton, Text.length_encode,
    ← Json.write, size]
  omega

end Line

theorem Fault.tellable_unknownType_iff (name : String) :
    (Fault.refused (.unknownType name)).Tellable ↔ spelled name + 65 ≤ Frame.limit := by
  have message : (Fault.refused (.unknownType name)).message =
      "Unknown message type: " ++ name := rfl
  have code : (Fault.refused (.unknownType name)).wireCode.name = "UNKNOWN_MESSAGE_TYPE" := rfl
  have around : spelled "Unknown message type: " = 22 ∧ spelled "UNKNOWN_MESSAGE_TYPE" = 20 :=
    ⟨rfl, rfl⟩
  rw [tellable_iff, message, code, Json.spelled_append]
  omega

theorem MessageType.ofName_letters (n : Nat) :
    ofName (String.ofList (List.replicate n 'x')) =
      .error (.unknownType (String.ofList (List.replicate n 'x'))) := by
  have others : ∀ type : MessageType, ∃ c ∈ type.name.toList, c ≠ 'x' := by
    intro type
    cases type <;> simp [name]
  refine ofName_eq_error.mpr ⟨fun type same => ?_, rfl⟩
  obtain ⟨c, inside, different⟩ := others type
  rw [same, String.toList_ofList] at inside
  exact different (List.eq_of_mem_replicate inside)

/-- The type is unknown and the line not cut, but the error frame would be cut. -/
theorem Station.refusals_told_letters :
    let name := String.ofList (List.replicate 1048560 'x')
    (Line.ofTypeName name).length = Frame.limit ∧
      Line.read? (Line.ofTypeName name) = some (.error (.refused (.unknownType name))) ∧
      ¬ (Fault.refused (.unknownType name)).Tellable := by
  intro name
  have size : spelled name = 1048560 := Json.spelled_letters _
  have limit : Frame.limit = 1048576 := rfl
  refine ⟨?_, Line.read?_ofTypeName (MessageType.ofName_letters _), ?_⟩
  · rw [Line.length_ofTypeName]
    omega
  · rw [Fault.tellable_unknownType_iff]
    omega

end Switchboard
