import Switchboard.Proofs.Conn.Outbound
import Switchboard.Proofs.Exchange.Deeds

/-!
The frames that a client is sent, from the calls that send them to the bytes that its far end gets:
in which order whatever happens, nothing is lost on the way, and nothing comes twice.
-/

namespace Switchboard

def Exchange.outbound? (x : Exchange) (id : ConnId) : Option Outbound :=
  match x.conns.find? id with
  | some c =>
    match c.link with
    | .client o => some o
    | .peer _ => none
  | none => none

namespace Exchange

variable {x : Exchange} {id : ConnId} {c : Conn}

theorem find?_close (found : x.conns.find? id = some c) :
    ∃ hooks, (x.close id).conns.find? id = some { c with closed := true, hooks := hooks } := by
  unfold close
  rw [found]
  dsimp only
  split
  · next closed => exact ⟨c.hooks, by rw [found, ← closed]⟩
  · split
    · exact ⟨c.hooks, by simp⟩
    · next hooks acts _ => exact ⟨hooks, by simp [conns_cleanAll]⟩

theorem sentTo_close_self (x : Exchange) (id : ConnId) :
    (x.close id).sentTo id = x.sentTo id := by
  cases found : x.conns.find? id with
  | none =>
    unfold close
    rw [found]
  | some c =>
    obtain ⟨hooks, found'⟩ := find?_close found
    rw [sentTo, found', sentTo, found]

end Exchange

def Conn.queueing (c : Conn) (o : Outbound) (queue : Queue Frame) (frame : Frame) : Conn :=
  { c with link := .client { o with queue := queue }, taken := frame :: c.taken }

/-- A client and its far end. `noticed` is set once the writer has noticed that the connection was
closed, and `failed` once a frame could not be written; `seen` is what the far end has looked at,
`lost` what it has left in the pipe when it went away. -/
structure Feed where
  exchange : Exchange
  noticed : Bool
  failed : Bool
  seen : List UInt8
  lost : List UInt8

namespace Feed

inductive Act
  | send (frame : Frame)
  | close
  | attach (act : Cleanup)
  | notice
  | move (now : Nat)
  | take (count : Nat)
  | stall (stalled : Bool)
  | look
  | depart

def connected (x : Exchange) (id : ConnId) (capacity room : Nat) (stalled : Bool) : Feed :=
  ⟨x.connect id (.client (.fresh capacity room stalled)), false, false, [], []⟩

section steps

variable (id : ConnId) (timeout : Nat) (f : Feed)

def withPipe (o : Outbound) (pipe : Pipe) : Feed :=
  { f with exchange := f.exchange.setLink id (.client { o with pipe := pipe }) }

/-- With the writer after a move. One that stops closes its connection, before anybody else has a
turn; it has failed if it was in the middle of a frame. -/
def withMoved (o next : Outbound) : Feed :=
  let x := f.exchange.setLink id (.client next)
  if next.writer = .stopped then
    { f with exchange := x.close id, failed := f.failed || decide (o.writer ≠ .ready) }
  else { f with exchange := x }

/-- A writer that is ready may notice a close at any time later, or go on to the next frame. -/
def step (act : Act) : Feed :=
  match f.exchange.outbound? id with
  | none => f
  | some o =>
    match act with
    | .send frame =>
      match f.exchange.send id frame with
      | .ok x => { f with exchange := x }
      | .error _ => f
    | .close => { f with exchange := f.exchange.close id }
    | .attach act => { f with exchange := f.exchange.attach id act }
    | .notice =>
      if f.exchange.isClosed id ∧ o.writer = .ready then { f with noticed := true } else f
    | .move now =>
      match o.step? now timeout f.noticed with
      | some next => f.withMoved id o next
      | none => f
    | .take count => f.withPipe id o (o.pipe.take count)
    | .stall stalled => f.withPipe id o (o.pipe.setStalled stalled)
    | .look =>
      let ((bytes, _), pipe) := o.pipe.collect
      { f.withPipe id o pipe with seen := f.seen ++ bytes }
    | .depart => { f.withPipe id o o.pipe.abandon with lost := o.pipe.held ++ f.lost }

def run (acts : List Act) : Feed := acts.foldl (step id timeout) f

def received (o : Outbound) : List UInt8 := f.seen ++ o.pipe.arrived.reverse.flatten

def written (o : Outbound) : List UInt8 := f.seen ++ o.pipe.content ++ f.lost

def accepted : List UInt8 := (f.exchange.sentTo id).flatMap Frame.bytes

def refusal? (frame : Frame) : Option Code :=
  match f.exchange.send id frame with
  | .ok _ => none
  | .error why => some why.code

def passes : Act → List Frame
  | .send frame => if f.refusal? id frame = none then [frame] else []
  | _ => []

def passed (f : Feed) : List Act → List Frame
  | [] => []
  | act :: acts => f.passes id act ++ passed (f.step id timeout act) acts

def Act.ofWriter : Act → Bool
  | .notice | .move _ => true
  | _ => false

def Resting (o : Outbound) : Prop :=
  (∀ now, o.step? now timeout f.noticed = none) ∧
    (f.exchange.isClosed id = true → o.writer = .ready → f.noticed = true)

def effort (o : Outbound) : Nat := o.work + if f.noticed then 0 else 1

end steps

theorem run_append (id : ConnId) (timeout : Nat) (f : Feed) (acts more : List Act) :
    f.run id timeout (acts ++ more) = (f.run id timeout acts).run id timeout more :=
  List.foldl_append

theorem noticed_withMoved (id : ConnId) (f : Feed) (o next : Outbound) :
    (f.withMoved id o next).noticed = f.noticed := by
  unfold withMoved
  dsimp only
  split <;> rfl

theorem sentTo_withPipe (id : ConnId) (f : Feed) (o : Outbound) (pipe : Pipe) :
    (f.withPipe id o pipe).exchange.sentTo id = f.exchange.sentTo id :=
  Exchange.sentTo_setLink f.exchange id id _

theorem sentTo_withMoved (id : ConnId) (f : Feed) (o next : Outbound) :
    (f.withMoved id o next).exchange.sentTo id = f.exchange.sentTo id := by
  have relinked := Exchange.sentTo_setLink f.exchange id id (.client next)
  unfold withMoved
  dsimp only
  split
  · exact (Exchange.sentTo_close_self _ id).trans relinked
  · exact relinked

theorem received_front (f : Feed) (o : Outbound) : f.received o <+: f.written o :=
  ⟨o.pipe.held ++ f.lost, by simp [received, written, Pipe.content]⟩

/-! ### What holds all the time -/

/-- What is true of a client whatever has happened; `c` and `o` are its parts. -/
structure Intact (id : ConnId) (capacity : Nat) (f : Feed) (c : Conn) (o : Outbound) : Prop where
  found : f.exchange.conns.find? id = some c
  link : c.link = .client o
  capacity : o.queue.capacity = capacity
  stopped : o.writer = .stopped → c.closed = true
  cleared : o.writer = .stopped → o.queue.items = []
  noticed : f.noticed = true → c.closed = true
  failed : f.failed = true → o.writer = .stopped
  shut : o.pipe.shut = true ↔ o.writer = .stopped
  kept : o.pipe.far ≠ .gone → f.lost = []
  left : o.pipe.far = .gone → o.pipe.held = []
  order : f.failed = false → f.written o ++ o.pending = c.taken.reverse.flatMap Frame.bytes
  front : f.written o <+: c.taken.reverse.flatMap Frame.bytes

/-- What a client does not go back on: what is closed stays closed, and with the writer stopped
nothing is written any more. -/
structure Onward (f : Feed) (c : Conn) (o : Outbound) (g : Feed) (d : Conn) (p : Outbound) :
    Prop where
  closed : c.closed = true → d.closed = true
  taken : c.closed = true → d.taken = c.taken
  stopped : o.writer = .stopped → p.writer = .stopped
  failed : o.writer = .stopped → g.failed = f.failed
  written : o.writer = .stopped → g.written p = f.written o

namespace Onward

variable {f g h : Feed} {c d e : Conn} {o p q : Outbound}

theorem refl (f : Feed) (c : Conn) (o : Outbound) : Onward f c o f c o :=
  ⟨id, fun _ => rfl, id, fun _ => rfl, fun _ => rfl⟩

theorem of_same (closed : c.closed = true → d.closed = true) (taken : d.taken = c.taken)
    (writer : p.writer = o.writer) (failed : g.failed = f.failed)
    (written : g.written p = f.written o) : Onward f c o g d p :=
  ⟨closed, fun _ => taken, writer.trans, fun _ => failed, fun _ => written⟩

theorem trans (first : Onward f c o g d p) (second : Onward g d p h e q) : Onward f c o h e q where
  closed := second.closed ∘ first.closed
  taken closed := (second.taken (first.closed closed)).trans (first.taken closed)
  stopped := second.stopped ∘ first.stopped
  failed stopped := (second.failed (first.stopped stopped)).trans (first.failed stopped)
  written stopped := (second.written (first.stopped stopped)).trans (first.written stopped)

end Onward

namespace Intact

variable {id : ConnId} {capacity timeout : Nat} {f : Feed} {c : Conn} {o : Outbound}

theorem connected (x : Exchange) (id : ConnId) (capacity room : Nat) (stalled : Bool) :
    Intact id capacity (.connected x id capacity room stalled)
      (.ofLink (.client (.fresh capacity room stalled))) (.fresh capacity room stalled) where
  found := by
    rw [Feed.connected, Exchange.find?_conns_connect, if_pos rfl]
  link := rfl
  capacity := rfl
  stopped := by
    intro stopped
    cases stopped
  cleared := fun _ => rfl
  noticed := by
    intro noticed
    cases noticed
  failed := by
    intro failed
    cases failed
  shut := by simp [Outbound.fresh, Pipe.fresh]
  kept := fun _ => rfl
  left := fun _ => rfl
  order := fun _ => rfl
  front := List.prefix_refl []

theorem outbound (h : Intact id capacity f c o) : f.exchange.outbound? id = some o := by
  unfold Exchange.outbound?
  rw [h.found]
  dsimp only
  rw [h.link]

theorem isClosed (h : Intact id capacity f c o) : f.exchange.isClosed id = c.closed :=
  Exchange.isClosed_of_find? h.found

theorem accepted (h : Intact id capacity f c o) :
    f.accepted id = c.taken.reverse.flatMap Frame.bytes := by
  rw [Feed.accepted, Exchange.sentTo, h.found]

theorem recast (h : Intact id capacity f c o) {x : Exchange} {d : Conn}
    (found : x.conns.find? id = some d) (link : d.link = c.link) (taken : d.taken = c.taken)
    (closed : c.closed = true → d.closed = true) :
    Intact id capacity { f with exchange := x } d o where
  found := found
  link := link.trans h.link
  capacity := h.capacity
  stopped := closed ∘ h.stopped
  cleared := h.cleared
  noticed := closed ∘ h.noticed
  failed := h.failed
  shut := h.shut
  kept := h.kept
  left := h.left
  order := by
    rw [taken]
    exact h.order
  front := by
    rw [taken]
    exact h.front

/-! ### Sending -/

theorem send_closed (h : Intact id capacity f c o) (closed : c.closed = true) (frame : Frame) :
    f.exchange.send id frame = .error .connectionClosed := by
  unfold Exchange.send Conn.send
  rw [h.found]
  simp only [h.link, closed, if_true]

theorem send_open (h : Intact id capacity f c o) (opened : c.closed = false) (frame : Frame) :
    f.exchange.send id frame = match o.queue.push? frame with
      | some queue => .ok (f.exchange.withConn id (c.queueing o queue frame))
      | none => .error .outboundFull := by
  have running : o.writer ≠ .stopped := by
    intro stopped
    rw [h.stopped stopped] at opened
    cases opened
  unfold Exchange.send
  rw [h.found]
  dsimp only
  rw [Conn.send_client h.link opened running]
  cases o.queue.push? frame <;> rfl

theorem refusal (h : Intact id capacity f c o) (frame : Frame) :
    f.refusal? id frame = if f.exchange.isClosed id then some .connectionClosed
      else if o.queue.isFull then some .sendFailed else none := by
  unfold refusal?
  rw [h.isClosed]
  cases closed : c.closed with
  | true =>
    rw [h.send_closed closed]
    rfl
  | false =>
    have fits := o.queue.push?_isSome frame
    rw [h.send_open closed]
    cases pushed : o.queue.push? frame with
    | none =>
      rw [pushed] at fits
      have full : o.queue.isFull = true := by simpa using fits.symm
      simp [full, Refusal.code]
    | some queue =>
      rw [pushed] at fits
      have room : o.queue.isFull = false := by simpa using fits.symm
      simp [room]

theorem sent (h : Intact id capacity f c o) (opened : c.closed = false) {frame : Frame}
    {queue : Queue Frame} (pushed : o.queue.push? frame = some queue) :
    Intact id capacity
      { f with exchange := f.exchange.withConn id (c.queueing o queue frame) }
      (c.queueing o queue frame) { o with queue := queue } where
  found := by
    rw [Exchange.find?_conns_withConn, if_pos rfl]
  link := rfl
  capacity := (Queue.items_push pushed).2.trans h.capacity
  stopped := h.stopped
  cleared := by
    intro stopped
    rw [h.stopped stopped] at opened
    cases opened
  noticed := h.noticed
  failed := h.failed
  shut := h.shut
  kept := h.kept
  left := h.left
  order := by
    intro fine
    have order := h.order fine
    change _ = (frame :: c.taken).reverse.flatMap Frame.bytes
    rw [Outbound.pending, (Queue.items_push pushed).1, List.flatMap_append, List.reverse_cons,
      List.flatMap_append, ← order]
    simp [written, Outbound.pending]
  front := by
    change _ <+: (frame :: c.taken).reverse.flatMap Frame.bytes
    rw [List.reverse_cons, List.flatMap_append]
    exact h.front.trans (List.prefix_append _ _)

/-! ### The pipe -/

theorem relinked (h : Intact id capacity f c o) (link : Link) :
    (f.exchange.setLink id link).conns.find? id = some { c with link := link } := by
  rw [Exchange.setLink_eq h.found, Exchange.find?_conns_withConn, if_pos rfl]

theorem piped (h : Intact id capacity f c o) (pipe : Pipe) (seen lost : List UInt8)
    (shut : pipe.shut = o.pipe.shut) (kept : pipe.far ≠ .gone → lost = [])
    (left : pipe.far = .gone → pipe.held = [])
    (same : seen ++ pipe.content ++ lost = f.written o) :
    Intact id capacity { f.withPipe id o pipe with seen := seen, lost := lost }
      { c with link := .client { o with pipe := pipe } } { o with pipe := pipe } where
  found := h.relinked _
  link := rfl
  capacity := h.capacity
  stopped := h.stopped
  cleared := h.cleared
  noticed := h.noticed
  failed := h.failed
  shut := by
    rw [shut]
    exact h.shut
  kept := kept
  left := left
  order := by
    intro fine
    rw [← h.order fine, ← same]
    rfl
  front := by
    have front := h.front
    rw [← same] at front
    exact front

theorem taking (h : Intact id capacity f c o) (count : Nat) :
    Intact id capacity (f.withPipe id o (o.pipe.take count))
      { c with link := .client { o with pipe := o.pipe.take count } }
      { o with pipe := o.pipe.take count } := by
  apply h.piped (o.pipe.take count) f.seen f.lost
  · exact o.pipe.shut_take count
  · rw [o.pipe.far_take]
    exact h.kept
  · intro gone
    rw [o.pipe.far_take] at gone
    rw [Pipe.take, if_pos gone, h.left gone]
  · rw [o.pipe.content_take]
    rfl

/-! ### The writer -/

theorem advances (h : Intact id capacity f c o) {next : Outbound}
    (moved : Outbound.Moved f.noticed o next) :
    ∃ sent later, o.pending = sent ++ later ∧ f.written next = f.written o ++ sent ∧
      (next.pending = later ∨ (next.writer = .stopped ∧ o.writer ≠ .ready)) := by
  obtain ⟨sent, later, whole, content, nothing, goes⟩ := moved.sends
  refine ⟨sent, later, whole, ?_, goes⟩
  by_cases gone : o.pipe.far = .gone
  · simp [written, content, nothing gone]
  · simp [written, content, h.kept gone]

/-- A writer that stops in the middle of a frame has failed. -/
theorem moves (h : Intact id capacity f c o) {next : Outbound} {x : Exchange} {d : Conn}
    {failed : Bool} (moved : Outbound.Moved f.noticed o next)
    (found : x.conns.find? id = some d) (link : d.link = .client next) (taken : d.taken = c.taken)
    (closed : c.closed = true → d.closed = true)
    (stopped : next.writer = .stopped → d.closed = true)
    (fails : failed = true → next.writer = .stopped)
    (slips : next.writer = .stopped → o.writer ≠ .ready → failed = true) :
    Intact id capacity { f with exchange := x, failed := failed } d next := by
  obtain ⟨sent, later, whole, written, goes⟩ := h.advances moved
  have fine : f.failed = false := by
    rw [← Bool.not_eq_true]
    exact moved.running ∘ h.failed
  have order := h.order fine
  rw [whole, ← List.append_assoc, ← taken] at order
  exact {
    found := found
    link := link
    capacity := moved.capacity.trans h.capacity
    stopped := stopped
    cleared := moved.cleared
    noticed := closed ∘ h.noticed
    failed := fails
    shut := moved.shuts h.shut
    kept := by
      rw [moved.far]
      exact h.kept
    left := by
      intro gone
      rw [moved.far] at gone
      rw [moved.held gone, h.left gone]
    order := by
      intro fine
      rcases goes with pending | ⟨stopped, writing⟩
      · rw [pending, ← order, ← written]
        rfl
      · rw [slips stopped writing] at fine
        cases fine
    front := by
      rw [← order]
      exact written ▸ List.prefix_append _ _ }

/-! ### Every act -/

theorem step_send (h : Intact id capacity f c o) (frame : Frame) :
    ∃ d p, Intact id capacity (f.step id timeout (.send frame)) d p ∧
      Onward f c o (f.step id timeout (.send frame)) d p := by
  unfold Feed.step
  rw [h.outbound]
  dsimp only
  cases closed : c.closed with
  | true =>
    rw [h.send_closed closed]
    exact ⟨c, o, h, .refl f c o⟩
  | false =>
    rw [h.send_open closed]
    cases pushed : o.queue.push? frame with
    | none => exact ⟨c, o, h, .refl f c o⟩
    | some queue =>
      refine ⟨_, _, h.sent closed pushed, fun shut => shut, ?_, fun shut => shut, fun _ => rfl,
        fun _ => rfl⟩
      intro shut
      rw [closed] at shut
      cases shut

theorem withMoved (h : Intact id capacity f c o) {next : Outbound}
    (moved : Outbound.Moved f.noticed o next) :
    ∃ d, Intact id capacity (f.withMoved id o next) d next ∧
      Onward f c o (f.withMoved id o next) d next ∧
      d.closed = (c.closed || decide (next.writer = .stopped)) := by
  have relinked := h.relinked (.client next)
  unfold Feed.withMoved
  dsimp only
  split
  · next stopped =>
    obtain ⟨hooks, found⟩ := Exchange.find?_close relinked
    refine ⟨_, h.moves moved found rfl rfl (fun _ => rfl) (fun _ => rfl) (fun _ => stopped) ?_,
      ?_, by simp [stopped]⟩
    · intro _ writing
      simp [writing]
    · exact ⟨fun _ => rfl, fun _ => rfl, fun before => absurd before moved.running,
        fun before => absurd before moved.running, fun before => absurd before moved.running⟩
  · next going =>
    refine ⟨_, h.moves moved relinked rfl rfl (fun closed => closed)
      (fun stopped => absurd stopped going) (fun failed => absurd (h.failed failed) moved.running)
      (fun stopped => absurd stopped going), ?_, by simp [going]⟩
    exact ⟨fun closed => closed, fun _ => rfl, fun before => absurd before moved.running,
      fun before => absurd before moved.running, fun before => absurd before moved.running⟩

theorem step_move (h : Intact id capacity f c o) (now : Nat) :
    ∃ d p, Intact id capacity (f.step id timeout (.move now)) d p ∧
      Onward f c o (f.step id timeout (.move now)) d p := by
  unfold Feed.step
  rw [h.outbound]
  dsimp only
  cases hit : o.step? now timeout f.noticed with
  | none => exact ⟨c, o, h, .refl f c o⟩
  | some next =>
    obtain ⟨d, intact, onward, -⟩ := h.withMoved (Outbound.step?_moved hit)
    exact ⟨d, next, intact, onward⟩

theorem step_pipe (h : Intact id capacity f c o) (pipe : Pipe) (seen lost : List UInt8)
    (shut : pipe.shut = o.pipe.shut) (kept : pipe.far ≠ .gone → lost = [])
    (left : pipe.far = .gone → pipe.held = [])
    (same : seen ++ pipe.content ++ lost = f.written o) :
    ∃ d p, Intact id capacity { f.withPipe id o pipe with seen := seen, lost := lost } d p ∧
      Onward f c o { f.withPipe id o pipe with seen := seen, lost := lost } d p :=
  ⟨_, _, h.piped pipe seen lost shut kept left same, .of_same (fun closed => closed) rfl rfl rfl same⟩

theorem step (h : Intact id capacity f c o) (timeout : Nat) (act : Act) :
    ∃ d p, Intact id capacity (f.step id timeout act) d p ∧
      Onward f c o (f.step id timeout act) d p := by
  cases act with
  | send frame => exact h.step_send frame
  | move now => exact h.step_move now
  | close =>
    obtain ⟨hooks, found⟩ := Exchange.find?_close h.found
    unfold Feed.step
    rw [h.outbound]
    exact ⟨_, o, h.recast found rfl rfl fun _ => rfl, .of_same (fun _ => rfl) rfl rfl rfl rfl⟩
  | attach act =>
    obtain ⟨hooks, found⟩ := Exchange.find?_conns_attach h.found act
    unfold Feed.step
    rw [h.outbound]
    exact ⟨_, o, h.recast found rfl rfl fun closed => closed,
      .of_same (fun closed => closed) rfl rfl rfl rfl⟩
  | notice =>
    unfold Feed.step
    rw [h.outbound]
    dsimp only
    split
    · next asked =>
      rw [h.isClosed] at asked
      exact ⟨c, o, { h with noticed := fun _ => asked.1 },
        .of_same (fun closed => closed) rfl rfl rfl rfl⟩
    · exact ⟨c, o, h, .refl f c o⟩
  | take count =>
    unfold Feed.step
    rw [h.outbound]
    exact ⟨_, _, h.taking count, .of_same (fun closed => closed) rfl rfl rfl
      (by simp [written, withPipe])⟩
  | stall stalled =>
    unfold Feed.step
    rw [h.outbound]
    apply h.step_pipe (o.pipe.setStalled stalled) f.seen f.lost
    · exact o.pipe.shut_setStalled stalled
    · rw [Ne, o.pipe.gone_setStalled]
      exact h.kept
    · intro gone
      rw [o.pipe.gone_setStalled] at gone
      simp [Pipe.setStalled, gone, h.left gone]
    · rw [o.pipe.content_setStalled]
      rfl
  | look =>
    unfold Feed.step
    rw [h.outbound]
    apply h.step_pipe o.pipe.collect.2 _ f.lost
    · rfl
    · exact h.kept
    · exact h.left
    · simp [Pipe.collect, Pipe.content, written]
  | depart =>
    unfold Feed.step
    rw [h.outbound]
    apply h.step_pipe o.pipe.abandon f.seen
    · rfl
    · intro there
      exact absurd rfl there
    · exact fun _ => rfl
    · simp [Pipe.abandon, Pipe.content, written]

theorem run (h : Intact id capacity f c o) (timeout : Nat) (acts : List Act) :
    ∃ d p, Intact id capacity (f.run id timeout acts) d p ∧
      Onward f c o (f.run id timeout acts) d p := by
  induction acts generalizing f c o with
  | nil => exact ⟨c, o, h, .refl f c o⟩
  | cons act acts ih =>
    obtain ⟨d, p, stepped, first⟩ := h.step timeout act
    obtain ⟨e, q, intact, second⟩ := ih stepped
    exact ⟨e, q, intact, first.trans second⟩

end Intact

end Feed

end Switchboard
