import Switchboard.Proofs.Station.Runs
import Switchboard.Proofs.Station.Tasks
import Switchboard.Proofs.Wire.RoundTrip

/-!
A session is a fold over what its far end sends: whenever and in whatever pieces that arrives, and
whatever others do in between, its reads do to the station what the reference does, result after
result.
-/

namespace Switchboard

def Move.reads (id : ConnId) : List Move → Nat
  | [] => 0
  | .read one :: moves => reads id moves + if one = id then 1 else 0
  | _ :: moves => reads id moves

theorem Move.reads_other {id : ConnId} {m : Move} (different : m ≠ .read id) (moves : List Move) :
    reads id (m :: moves) = reads id moves := by
  cases m with
  | read one =>
    have other : one ≠ id := fun same => different (same ▸ rfl)
    simp [reads, other]
  | _ => rfl

namespace Station

def Waits (st : Station) (id : ConnId) : Prop :=
  ∃ s inbox, st.sessions.find? id = some s ∧ s.inbox.next = .pending inbox

/-- Nobody but its session closes the connection, and nothing that the session sends fails to be
sent. -/
def Undisturbed (st : Station) (id : ConnId) : List Move → Prop
  | [] => True
  | m :: moves =>
    (m = .read id → ∀ s, st.sessions.find? id = some s → s.ended = false → st.Sends id s) ∧
    (m ≠ .read id → st.exchange.isClosed id = false → (st.step m).exchange.isClosed id = false) ∧
    (st.step m).Undisturbed id moves

/-- The moves do to the station what the reference does: each read is its next act, or changes
nothing but the session itself when there is nothing to read or the reference is over. -/
inductive Follows (id : ConnId) : Task → Station → List Move → Task → Prop
  | stop (task : Task) (st : Station) : Follows id task st [] task
  | other {task last : Task} {st : Station} {m : Move} {moves : List Move} (different : m ≠ .read id)
    (later : Follows id task (st.step m) moves last) : Follows id task st (m :: moves) last
  | idle {task last : Task} {st : Station} {moves : List Move} {sessions : Table ConnId Session}
    (waits : task = .finished ∨ st.Waits id) (same : st.step (.read id) = st.withSessions sessions)
    (later : Follows id task (st.step (.read id)) moves last) :
    Follows id task st (.read id :: moves) last
  | act {task next last : Task} {st after : Station} {moves : List Move}
    {sessions : Table ConnId Session} (acts : st.act? id task = some (next, after))
    (same : st.step (.read id) = after.withSessions sessions)
    (later : Follows id next (st.step (.read id)) moves last) :
    Follows id task st (.read id :: moves) last

end Station

namespace Session

/-- What the far end has sent so far is the beginning of `total`, all that it sends before it
finishes. -/
def Hears (s : Session) (total : Inbox) : Prop :=
  ∃ arrivals, total = s.heard.extend arrivals true ∧ (s.heard.finished = true → arrivals = [])

/-- What the session has still to read of `total` brings these results. -/
def Expects (s : Session) (total : Inbox) (results : List (Except Fault Envelope)) : Prop :=
  ∃ arrivals, total = s.heard.extend arrivals true ∧ (s.inbox.finished = true → arrivals = []) ∧
    (s.inbox.extend arrivals true).Yields results

variable {s : Session} {total inbox : Inbox} {results : List (Except Fault Envelope)}
  {result : Except Fault Envelope}

theorem Expects.arrive {arrival : Arrival} (expects : s.Expects total results)
    (hears : (s.arrive arrival).Hears total) (more : s.inbox.finished = false) :
    (s.arrive arrival).Expects total results := by
  obtain ⟨arrivals, whole, -, yields⟩ := expects
  obtain ⟨others, whole', -⟩ := hears
  have split : s.heard.extend arrivals true = s.heard.extend (arrival :: others) true :=
    (whole.symm.trans whole').trans (Inbox.extend_arrive s.heard arrival others true)
  obtain rfl := Inbox.extend_inj split
  refine ⟨others, whole', fun finished => ?_, ?_⟩
  · exact absurd (more.symm.trans finished) Bool.false_ne_true
  · rwa [← Inbox.extend_arrive] at yields

theorem Expects.finish (expects : s.Expects total results) (hears : s.finish.Hears total) :
    s.finish.Expects total results := by
  obtain ⟨arrivals, whole, -, yields⟩ := expects
  obtain ⟨others, whole', silent⟩ := hears
  obtain rfl : others = [] := silent rfl
  obtain rfl : arrivals = [] := Inbox.extend_inj (whole.symm.trans whole')
  exact ⟨[], whole', fun _ => rfl, yields⟩

theorem Expects.pending (expects : s.Expects total results) (next : s.inbox.next = .pending inbox) :
    { s with inbox := inbox }.Expects total results := by
  obtain ⟨arrivals, whole, -, yields⟩ := expects
  refine ⟨arrivals, whole, fun finished => ?_, ?_⟩
  · exact absurd ((Inbox.finished_of_pending next).2.symm.trans finished) Bool.false_ne_true
  · exact yields.of_next (Inbox.next_extend_of_pending next arrivals true).symm

end Session

namespace Station

variable {st : Station} {id : ConnId} {s next last : Session} {total : Inbox} {m : Move}
  {results : List (Except Fault Envelope)}

theorem Becomes.expects (becomes : Becomes st id m s next) (different : m ≠ .read id)
    (opened : st.exchange.isClosed id = false) (expects : s.Expects total results)
    (hears : next.Hears total) : next.Expects total results := by
  cases becomes with
  | same m s => exact expects
  | heard s arrival more => exact expects.arrive hears more
  | finished s => exact expects.finish hears
  | turned _ _ _ => exact absurd rfl different
  | noticed s closed => exact absurd (opened.symm.trans closed) Bool.false_ne_true

theorem Becomes.hears (becomes : Becomes st id m s next) (faithful : s.Faithful st.hub.tokens)
    (hears : next.Hears total) : s.Hears total := by
  cases becomes with
  | heard s arrival more =>
    obtain ⟨arrivals, whole, -⟩ := hears
    have open_ := faithful.finished.trans more
    refine ⟨arrival :: arrivals, whole.trans (Inbox.extend_arrive ..), fun finished => ?_⟩
    exact absurd (open_.symm.trans finished) Bool.false_ne_true
  | finished s =>
    obtain ⟨arrivals, whole, silent⟩ := hears
    exact ⟨arrivals, whole, fun _ => silent rfl⟩
  | turned _ turned _ =>
    have heard := turned.kept.2
    unfold Session.Hears at hears ⊢
    rwa [heard] at hears
  | _ => exact hears

theorem hears_run {moves : List Move} (sound : st.Sound) (faithful : st.Faithful)
    (found : st.sessions.find? id = some s)
    (found' : (st.run moves).sessions.find? id = some last) (finished : last.heard.finished = true) :
    s.Hears last.heard := by
  induction moves generalizing st s with
  | nil =>
    obtain rfl : s = last := Option.some.inj (found.symm.trans found')
    exact ⟨[], by rw [← finished, Inbox.extend_same], fun _ => rfl⟩
  | cons m moves ih =>
    obtain ⟨next, there, becomes⟩ := session_step sound found m
    exact becomes.hears (faithful id s found) (ih (sound.step m) (faithful.step m) there found')

theorem task_eq_finished : s.task results = .finished ↔ s.ended = true := by
  unfold Session.task
  cases s.ended with
  | true => simp
  | false => cases s.stage <;> simp

theorem Becomes.running (becomes : Becomes st id m s next) (going : next.ended = false) :
    s.ended = false := by
  cases becomes with
  | turned running _ _ => exact running
  | noticed s _ => cases going
  | _ => exact going

theorem Becomes.task (becomes : Becomes st id m s next) (results : List (Except Fault Envelope))
    (different : m ≠ .read id) (opened : s.ended = false → st.exchange.isClosed id = false) :
    next.task results = s.task results := by
  cases becomes with
  | turned _ _ _ => exact absurd rfl different
  | noticed s closed =>
    cases ended : s.ended with
    | true => rw [← ended]
    | false => exact absurd ((opened ended).symm.trans closed) Bool.false_ne_true
  | _ => rfl

/-! ### Reads -/

theorem find?_put (st : Station) (id : ConnId) (s : Session) :
    (st.put id s).sessions.find? id = some s := by
  rw [put, withSessions, Table.find?_insert, if_pos rfl]

theorem read_eq (found : st.sessions.find? id = some s) (running : s.ended = false) :
    st.step (.read id) = (st.turn id s).2.put id (st.turn id s).1 := by
  rw [step, read, found]
  simp only [running, Bool.false_eq_true, if_false]
  rfl

theorem read_eq_self (found : st.sessions.find? id = some s) (ended : s.ended = true) :
    st.step (.read id) = st := by
  rw [step, read, found]
  simp only [ended, if_true]

theorem Undisturbed.reading {after : Station} {moves : List Move}
    (found : st.sessions.find? id = some s) (running : s.ended = false) (sends : st.Sends id s)
    (turned : st.turn id s = (next, after)) (later : (after.put id next).Undisturbed id moves) :
    st.Undisturbed id (.read id :: moves) := by
  refine ⟨fun _ s' found' _ => ?_, fun other => absurd rfl other, ?_⟩
  · cases found.symm.trans found'
    exact sends
  · rwa [read_eq found running, turned]

theorem expects_turn (st : Station) (id : ConnId) {result : Except Fault Envelope} {rest : Inbox}
    (expects : s.Expects total results) (got : s.inbox.next = .got result rest) :
    ∃ later, results = result :: later ∧ (st.turn id s).1.Expects total later := by
  obtain ⟨arrivals, whole, silent, yields⟩ := expects
  obtain ⟨later, rfl, behind⟩ := yields.of_got silent got
  have heard : (st.turn id s).1.heard = s.heard := (turn_cases st id s).kept.2
  have inbox : (st.turn id s).1.inbox = rest := turn_got got
  refine ⟨later, rfl, arrivals, heard ▸ whole, fun finished => ?_, inbox ▸ behind⟩
  rw [inbox, Inbox.finished_of_got got] at finished
  exact silent finished

theorem read_acts (found : st.sessions.find? id = some s) (running : s.ended = false)
    (sends : st.Sends id s) (expects : s.Expects total results) :
    (st.Waits id ∧ (st.turn id s).1.task results = s.task results ∧ (st.turn id s).2 = st ∧
      (st.turn id s).1.Expects total results) ∨
    ∃ later, st.act? id (s.task results) = some ((st.turn id s).1.task later, (st.turn id s).2) ∧
      ((st.turn id s).1.ended = false → (st.turn id s).1.Expects total later) := by
  cases next : s.inbox.next with
  | pending inbox =>
    have turn : st.turn id s = ({ s with inbox := inbox }, st) := by rw [Station.turn, next]
    rw [turn]
    exact Or.inl ⟨⟨s, inbox, found, next⟩, rfl, rfl, expects.pending next⟩
  | ended =>
    have turn : (st.turn id s).1.ended = true := by rw [Station.turn, next]
    obtain ⟨arrivals, -, silent, yields⟩ := expects
    obtain rfl := yields.of_ended silent next
    exact Or.inr ⟨[], act?_end sends running next, fun going =>
      absurd (going.symm.trans turn) Bool.false_ne_true⟩
  | got result rest =>
    obtain ⟨later, rfl, behind⟩ := expects_turn st id expects next
    exact Or.inr ⟨later, act?_got sends running next, fun _ => behind⟩

/-! ### One move, and a run -/

/-- A session that has not ended has its connection open and expects these results. -/
def Serving (st : Station) (id : ConnId) (s : Session) (total : Inbox)
    (results : List (Except Fault Envelope)) : Prop :=
  s.ended = false → st.exchange.isClosed id = false ∧ s.Expects total results

/-- After the move the session serves on, and a reference that goes along with what follows goes
along with the move too. -/
def GoesAlong (st : Station) (id : ConnId) (m : Move) (s next : Session) (total : Inbox)
    (results : List (Except Fault Envelope)) : Prop :=
  ∃ rest, (st.step m).Serving id next total rest ∧ ∀ moves left,
    Follows id (next.task rest) (st.step m) moves left →
    Follows id (s.task results) st (m :: moves) left

theorem goesAlong_ended (found : st.sessions.find? id = some s) (ended : s.ended = true) :
    st.GoesAlong id (.read id) s s total results := by
  have still := read_eq_self found ended
  have finished : s.task results = .finished := task_eq_finished.mpr ended
  refine ⟨results, fun going => absurd (going.symm.trans ended) Bool.false_ne_true, ?_⟩
  intro moves left later
  exact .idle (Or.inl finished) (still.trans (st.withSessions_self).symm) later

theorem goesAlong_read (found : st.sessions.find? id = some s) (running : s.ended = false)
    (sends : st.Sends id s) (serving : st.Serving id s total results) :
    st.GoesAlong id (.read id) s (st.turn id s).1 total results := by
  obtain ⟨opened, expects⟩ := serving running
  have shape := read_eq found running
  have opened' : (st.turn id s).1.ended = false →
      (st.step (.read id)).exchange.isClosed id = false := fun going =>
    shape ▸ (turn_cases st id s).opened sends opened going
  rcases read_acts found running sends expects with
    ⟨waits, task, quiet, expects⟩ | ⟨rest, acts, expects⟩
  · refine ⟨results, fun going => ⟨opened' going, expects⟩, fun moves left later => ?_⟩
    rw [quiet] at shape
    exact .idle (Or.inr waits) shape (task ▸ later)
  · exact ⟨rest, fun going => ⟨opened' going, expects going⟩, fun moves left later =>
      .act acts shape later⟩

theorem goesAlong_other (different : m ≠ .read id) (becomes : Becomes st id m s next)
    (kept : st.exchange.isClosed id = false → (st.step m).exchange.isClosed id = false)
    (hears : next.Hears total) (serving : st.Serving id s total results) :
    st.GoesAlong id m s next total results := by
  have task := becomes.task results different fun running => (serving running).1
  refine ⟨results, fun going => ?_, fun moves left later => .other different (task ▸ later)⟩
  obtain ⟨opened, expects⟩ := serving (becomes.running going)
  exact ⟨kept opened, becomes.expects different opened expects hears⟩

theorem goesAlong_step {moves : List Move} (sound : st.Sound)
    (found : st.sessions.find? id = some s) (undisturbed : st.Undisturbed id (m :: moves))
    (hears : ∀ next, (st.step m).sessions.find? id = some next → next.Hears total)
    (serving : st.Serving id s total results) :
    ∃ next, (st.step m).sessions.find? id = some next ∧
      st.GoesAlong id m s next total results := by
  obtain ⟨reads, kept, -⟩ := undisturbed
  by_cases own : m = .read id
  · subst own
    cases ended : s.ended with
    | true => exact ⟨s, (read_eq_self found ended).symm ▸ found, goesAlong_ended found ended⟩
    | false =>
      have there : (st.step (.read id)).sessions.find? id = some (st.turn id s).1 :=
        read_eq found ended ▸ find?_put _ id _
      exact ⟨_, there, goesAlong_read found ended (reads rfl s found ended) serving⟩
  · obtain ⟨next, there, becomes⟩ := session_step sound found m
    exact ⟨next, there, goesAlong_other own becomes (kept own) (hears next there) serving⟩

theorem follows_run {moves : List Move} (sound : st.Sound) (faithful : st.Faithful)
    (found : st.sessions.find? id = some s) (serving : st.Serving id s last.heard results)
    (undisturbed : st.Undisturbed id moves)
    (found' : (st.run moves).sessions.find? id = some last)
    (finished : last.heard.finished = true) :
    ∃ left, Follows id (s.task results) st moves left ∧ (left = .finished ↔ last.ended = true) := by
  -- by the moves: what is left of the results is what the session still expects
  induction moves generalizing st s results with
  | nil =>
    obtain rfl : s = last := Option.some.inj (found.symm.trans found')
    exact ⟨_, .stop _ _, task_eq_finished⟩
  | cons m moves ih =>
    have sound' := sound.step m
    have faithful' := faithful.step m
    obtain ⟨next, there, rest, serving, along⟩ := goesAlong_step sound found undisturbed
      (fun next there => hears_run sound' faithful' there found' finished) serving
    obtain ⟨left, later, ends⟩ := ih sound' faithful' there serving undisturbed.2.2 found'
    exact ⟨left, along moves left later, ends⟩

/-! ### The end -/

theorem Becomes.heard_eq (becomes : Becomes st id m s next) (faithful : s.Faithful st.hub.tokens)
    (finished : s.heard.finished = true) : next.heard = s.heard := by
  cases becomes with
  | heard s arrival more =>
    exact absurd ((faithful.finished.trans more).symm.trans finished) Bool.false_ne_true
  | finished s =>
    change { s.heard with finished := true } = s.heard
    rw [← finished]
  | turned _ turned _ => exact turned.kept.2
  | _ => rfl

theorem heard_run (sound : st.Sound) (faithful : st.Faithful)
    (found : st.sessions.find? id = some s) (finished : s.heard.finished = true)
    (moves : List Move) :
    ∃ last, (st.run moves).sessions.find? id = some last ∧ last.heard = s.heard := by
  induction moves generalizing st s with
  | nil => exact ⟨s, found, rfl⟩
  | cons m moves ih =>
    obtain ⟨next, there, becomes⟩ := session_step sound found m
    have same := becomes.heard_eq (faithful id s found) finished
    obtain ⟨last, found', later⟩ := ih (sound.step m) (faithful.step m) there (same ▸ finished)
    exact ⟨last, found', later.trans same⟩

theorem Follows.split {task left : Task} {moves more : List Move}
    (follows : Follows id task st (moves ++ more) left) :
    ∃ mid, mid.size ≤ task.size ∧ Follows id mid (st.run moves) more left := by
  induction moves generalizing task st with
  | nil => exact ⟨task, Nat.le_refl _, follows⟩
  | cons m moves ih =>
    cases follows with
    | other _ later => exact ih later
    | idle _ _ later => exact ih later
    | act acts _ later =>
      obtain ⟨mid, smaller, follows⟩ := ih later
      exact ⟨mid, Nat.le_trans smaller (Nat.le_of_lt (size_act acts)), follows⟩

/-- When the far end has finished, every read brings the end nearer. -/
theorem Follows.size {task left : Task} {moves : List Move} (follows : Follows id task st moves left)
    (sound : st.Sound) (faithful : st.Faithful) (found : st.sessions.find? id = some s)
    (finished : s.heard.finished = true) : left.size ≤ task.size - Move.reads id moves := by
  induction follows generalizing s with
  | stop task st => exact Nat.le_refl _
  | @other task last st m moves different later ih =>
    obtain ⟨next, there, becomes⟩ := session_step sound found m
    rw [Move.reads_other different]
    exact ih (sound.step m) (faithful.step m) there
      (becomes.heard_eq (faithful id s found) finished ▸ finished)
  | @idle task last st moves sessions waits same later ih =>
    obtain ⟨next, there, becomes⟩ := session_step sound found (.read id)
    have smaller := ih (sound.step _) (faithful.step _) there
      (becomes.heard_eq (faithful id s found) finished ▸ finished)
    rcases waits with rfl | ⟨_, _, found', pending⟩
    · exact Nat.le_trans smaller (by simp [Task.size])
    · cases found.symm.trans found'
      have more := (Inbox.finished_of_pending pending).1
      exact absurd (((faithful id s found).finished.trans more).symm.trans finished)
        Bool.false_ne_true
  | @act task next last st after moves sessions acts same later ih =>
    obtain ⟨behind, there, becomes⟩ := session_step sound found (.read id)
    have smaller := ih (sound.step _) (faithful.step _) there
      (becomes.heard_eq (faithful id s found) finished ▸ finished)
    have less := size_act acts
    rw [Move.reads, if_pos rfl]
    omega

/-- A session does what the reference does with the results of all that its far end has sent when it
finishes, in whatever order the session reads, others move and bytes arrive; and given enough reads
it comes to the end. -/
theorem session_folds (whole : Bool) (tokens : List TokenEntry) (limits : Limits)
    (before moves more : List Move) (id : ConnId) (entry : EntryPoint) (s : Session)
    (results : List (Except Fault Envelope))
    (found : ((fresh whole tokens limits).run before).sessions.find? id = some (.fresh entry))
    (opened : ((fresh whole tokens limits).run before).exchange.isClosed id = false)
    (undisturbed : ((fresh whole tokens limits).run before).Undisturbed id (moves ++ more))
    (found' : (((fresh whole tokens limits).run before).run moves).sessions.find? id = some s)
    (finished : s.heard.finished = true) (yields : s.heard.Yields results) :
    let st := (fresh whole tokens limits).run before
    ∃ left last, Follows id (.credential entry results) st (moves ++ more) left ∧
      (st.run (moves ++ more)).sessions.find? id = some last ∧
      (left = .finished ↔ last.ended = true) ∧
      (results.length < Move.reads id more → left = .finished) := by
  intro st
  have sound : st.Sound := (fresh_sound whole tokens limits).run before
  have start : (fresh whole tokens limits).Faithful := fun _ _ found => nomatch found
  have faithful : st.Faithful := start.run before
  have sound' := sound.run moves
  have faithful' := faithful.run moves
  obtain ⟨last, there, same⟩ := heard_run sound' faithful' found' finished more
  rw [← same] at finished yields
  rw [← run_append] at there
  obtain ⟨arrivals, whole, silent⟩ := hears_run sound faithful found there finished
  have expects : (Session.fresh entry).Expects last.heard results :=
    ⟨arrivals, whole, silent, whole ▸ yields⟩
  obtain ⟨left, follows, ends⟩ := follows_run sound faithful found (fun _ => ⟨opened, expects⟩)
    undisturbed there finished
  refine ⟨left, last, follows, there, ends, fun enough => ?_⟩
  obtain ⟨mid, smaller, follows⟩ := follows.split
  have nearer := follows.size sound' faithful' found' (same ▸ finished)
  have smaller : mid.size ≤ results.length + 1 := smaller
  have none : left.size = 0 := by omega
  cases left with
  | finished => rfl
  | _ => exact absurd none (Nat.succ_ne_zero _)

theorem session_folds_intruder :
    let start := fresh true [⟨"guest", 7, .user⟩] .standard
    let before := [.connect 1 .chat 4096 false]
    let st := start.run before
    let frames : List Frame := [⟨"\x7b\"token\":\"guest\"\x7d\n"⟩,
      ⟨"\x7b\"msg_type\":\"TEXTING\",\"content\":\"hi\",\"conversation_id\":5\x7d\n"⟩]
    let heard : Inbox := ⟨[], [.data (frames.flatMap Frame.bytes)], true⟩
    let results := [.ok (.credential "guest"), .ok (.texting 5 "hi")]
    let moves := [.arrive 1 (.data (frames.flatMap Frame.bytes)), .finish 1]
    let more := [.read 1, .read 1, .read 1]
    st.sessions.find? 1 = some (.fresh .chat) ∧ st.exchange.isClosed 1 = false ∧
      st.Undisturbed 1 (moves ++ more) ∧
      (st.run moves).sessions.find? 1 = some ⟨.chat, heard, .waiting, false, heard⟩ ∧
      heard.Yields results ∧
      ∃ left last, Follows 1 (.credential .chat results) st (moves ++ more) left ∧
        (st.run (moves ++ more)).sessions.find? 1 = some last ∧
        (left = .finished ↔ last.ended = true) ∧
        (results.length < Move.reads 1 more → left = .finished) := by
  intro start before st frames heard results moves more
  let behind : Inbox := ⟨frames[1].bytes, [], true⟩
  have first : heard.next = .got (.ok (.credential "guest")) behind := by
    have written : Frame.ofEnvelope (.credential "guest") = .ok frames[0] := by cbv
    have taken : heard.next = Inbox.next ⟨frames.flatMap Frame.bytes, [], true⟩ :=
      Inbox.next_data rfl rfl
    rw [taken]
    exact Envelope.next_frame written rfl
  have second : behind.next = .got (.ok (.texting 5 "hi")) ⟨[], [], true⟩ := by
    have written : Frame.ofEnvelope (.texting 5 "hi") = .ok frames[1] := by cbv
    exact Envelope.next_frame written rfl
  have none : (Inbox.mk [] [] true).next = .ended := by cbv
  have yields : heard.Yields results := .got first (.got second (.ended none))
  have report : Frame.ofFault (.refused (.notInRoom 5)) =
      .ok ⟨"\x7b\"error\":\"Not a member of conversation 5\",\"code\":\"NOT_IN_ROOM\"\x7d\n"⟩ := by
    have message : (Fault.refused (.notInRoom 5)).message = "Not a member of conversation 5" := rfl
    rw [Frame.ofFault, ErrorFrame.ofFault, message]
    cbv
  have arrived : (st.run moves).Undisturbed 1 more := by
    let admitted : Session := ⟨.chat, behind, .chatting ⟨7, .user⟩, false, heard⟩
    let told : Station := (st.run moves).withHub ((st.run moves).hub.tell 1 (.refused (.notInRoom 5)))
    have entered : (st.run moves).turn 1 ⟨.chat, heard, .waiting, false, heard⟩ =
        (admitted, st.run moves) := by
      rw [turn, first]
      rfl
    have talked : ((st.run moves).put 1 admitted).turn 1 admitted =
        ({ admitted with inbox := ⟨[], [], true⟩ }, told.put 1 admitted) := by
      rw [turn, second]
      rfl
    refine .reading rfl rfl (.of_bare first rfl rfl rfl) entered ?_
    refine .reading (find?_put _ 1 admitted) rfl (.of_chat second rfl ?_ ?_) talked ?_
    · refine ⟨?_, ?_, ?_⟩
      · intro _ _ _ type
        cases type
      · intro _ _ _ _ _ type
        cases type
      · intro room content frame _ place _ _
        cases place
        rfl
    · intro why hub answered
      cases answered
      rw [Hub.post?, report]
      rfl
    · exact .reading (find?_put _ 1 _) rfl (.of_ended none Stage.noConfusion)
        (by rw [turn, none]) trivial
  have undisturbed : st.Undisturbed 1 (moves ++ more) := by
    refine ⟨?_, fun _ _ => rfl, ?_, fun _ _ => rfl, arrived⟩
    · intro own
      cases own
    · intro own
      cases own
  exact ⟨rfl, rfl, undisturbed, rfl, yields,
    session_folds true _ .standard before moves more 1 .chat _ results rfl rfl undisturbed rfl rfl
      yields⟩

end Station

end Switchboard
