import Switchboard.Conn.Outbound
import Switchboard.Proofs.Bus

/-!
What one move of a writer does to the bytes: they leave the queue at its front and go into the pipe
at its back, and none is lost, unless the writer fails.
-/

namespace Switchboard

namespace Pipe

variable (p : Pipe)

def content : List UInt8 := p.arrived.reverse.flatten ++ p.held

def take (count : Nat) : Pipe :=
  if p.far = .gone then p
  else { p with held := p.held.drop count, arrived := p.held.take count :: p.arrived }

def abandon : Pipe := { p with far := .gone, held := [] }

theorem write_splits (p : Pipe) (mayPause : Bool) (bytes : List UInt8) :
    ∃ sent, bytes = sent ++ (p.write mayPause bytes).1 ∧
      (p.write mayPause bytes).2.content = p.content ++ sent ∧ (p.far = .gone → sent = []) := by
  unfold write
  split
  · next gone => exact ⟨[], by simp, by simp, fun _ => rfl⟩
  · next there =>
    split
    · exact ⟨bytes, by simp, by simp [content], fun gone => absurd gone there⟩
    · exact ⟨bytes.take (p.room - p.held.length), by simp, by simp [content],
        fun gone => absurd gone there⟩

@[simp] theorem far_write (mayPause : Bool) (bytes : List UInt8) :
    (p.write mayPause bytes).2.far = p.far := by
  unfold write
  split
  · rfl
  · split <;> rfl

@[simp] theorem shut_write (mayPause : Bool) (bytes : List UInt8) :
    (p.write mayPause bytes).2.shut = p.shut := by
  unfold write
  split
  · rfl
  · split <;> rfl

@[simp] theorem far_take (count : Nat) : (p.take count).far = p.far := by
  unfold take
  split <;> rfl

@[simp] theorem shut_take (count : Nat) : (p.take count).shut = p.shut := by
  unfold take
  split <;> rfl

theorem take_held {p : Pipe} (reading : p.far = .reading) : p.take p.held.length = p.drain := by
  simp [take, drain, reading]

theorem gone_setStalled (stalled : Bool) : (p.setStalled stalled).far = .gone ↔ p.far = .gone := by
  unfold setStalled
  split
  · rfl
  · cases stalled <;> simp_all [drain]

@[simp] theorem shut_setStalled (stalled : Bool) : (p.setStalled stalled).shut = p.shut := by
  unfold setStalled
  split
  · rfl
  · cases stalled <;> simp [drain]

@[simp] theorem content_take (count : Nat) : (p.take count).content = p.content := by
  unfold take
  split
  · rfl
  · simp [content]

@[simp] theorem content_setStalled (stalled : Bool) :
    (p.setStalled stalled).content = p.content := by
  unfold setStalled
  split
  · rfl
  · cases stalled <;> simp [content, drain]

end Pipe

namespace Writer

def rest : Writer → List UInt8
  | .writing rest _ => rest
  | _ => []

end Writer

namespace Outbound

variable {o next : Outbound} {now timeout : Nat} {closed : Bool}

def pending (o : Outbound) : List UInt8 := o.writer.rest ++ o.queue.items.flatMap Frame.bytes

/-- One move of a writer. It takes the next frame, or shuts the pipe because there is none; it
writes some of a frame, or fails to. -/
inductive Moved (closed : Bool) (o : Outbound) : Outbound → Prop
  | began (frame : Frame) (queue : Queue Frame) (deadline : Nat) (ready : o.writer = .ready)
      (popped : o.queue.pop? = some (frame, queue)) :
      Moved closed o { o with queue := queue, writer := .writing frame.bytes deadline }
  | shut (ready : o.writer = .ready) (none : o.queue.pop? = none) (asked : closed = true) :
      Moved closed o o.stop
  | wrote (rest : List UInt8) (deadline : Nat) (mayPause : Bool) (after : Writer)
      (writing : o.writer = .writing rest deadline) (there : o.pipe.far ≠ .gone)
      (left : after.rest = (o.pipe.write mayPause rest).1) (going : after ≠ .stopped) :
      Moved closed o { o with writer := after, pipe := (o.pipe.write mayPause rest).2 }
  | failed (rest : List UInt8) (deadline : Nat) (mayPause : Bool)
      (writing : o.writer = .writing rest deadline) :
      Moved closed o { o with pipe := (o.pipe.write mayPause rest).2 }.stop

theorem step?_moved (hit : o.step? now timeout closed = some next) : Moved closed o next := by
  unfold step? at hit
  split at hit
  · cases hit
  · next ready =>
    split at hit
    · next frame queue popped =>
      cases hit
      exact .began frame queue _ ready popped
    · next none =>
      split at hit
      · next asked =>
        cases hit
        exact .shut ready none asked
      · cases hit
  · next rest deadline writing =>
    split at hit
    · next gone =>
      cases hit
      have shape : Moved closed o _ := .failed rest deadline true writing
      rwa [Pipe.write, if_pos gone] at shape
    · next there =>
      dsimp only at hit
      split at hit
      · next left =>
        cases hit
        exact .wrote rest deadline _ .ready writing there left.symm (by simp)
      · split at hit
        · cases hit
          exact .failed rest deadline _ writing
        · split at hit
          · cases hit
            exact .wrote rest deadline _ (.writing _ deadline) writing there rfl (by simp)
          · cases hit

/-- What goes into the pipe comes from the front of what was pending. The rest is pending still,
unless a write has failed. -/
theorem Moved.sends (moved : Moved closed o next) :
    ∃ sent later, o.pending = sent ++ later ∧ next.pipe.content = o.pipe.content ++ sent ∧
      (o.pipe.far = .gone → sent = []) ∧
      (next.pending = later ∨ (next.writer = .stopped ∧ o.writer ≠ .ready)) := by
  cases moved with
  | began frame queue deadline ready popped =>
    refine ⟨[], o.pending, rfl, by simp, fun _ => rfl, Or.inl ?_⟩
    simp [pending, ready, Writer.rest, (Queue.items_pop popped).1]
  | shut ready none asked =>
    refine ⟨[], [], ?_, by simp [stop, Pipe.content], fun _ => rfl, Or.inl rfl⟩
    simp [pending, ready, Writer.rest, Queue.pop?_eq_none.mp none]
  | wrote rest deadline mayPause after writing there left going =>
    obtain ⟨sent, whole, content, nothing⟩ := o.pipe.write_splits mayPause rest
    refine ⟨sent, (o.pipe.write mayPause rest).1 ++ o.queue.items.flatMap Frame.bytes, ?_, content,
      nothing, Or.inl ?_⟩
    · rw [← List.append_assoc, ← whole, pending, writing]
      rfl
    · rw [pending, left]
  | failed rest deadline mayPause writing =>
    obtain ⟨sent, whole, content, nothing⟩ := o.pipe.write_splits mayPause rest
    refine ⟨sent, (o.pipe.write mayPause rest).1 ++ o.queue.items.flatMap Frame.bytes, ?_, content,
      nothing, Or.inr ⟨rfl, by simp [writing]⟩⟩
    rw [← List.append_assoc, ← whole, pending, writing]
    rfl

theorem Moved.running (moved : Moved closed o next) : o.writer ≠ .stopped := by
  cases moved with
  | began frame queue deadline ready => simp [ready]
  | shut ready => simp [ready]
  | wrote rest deadline mayPause after writing => simp [writing]
  | failed rest deadline mayPause writing => simp [writing]

theorem Moved.cleared (moved : Moved closed o next) (stopped : next.writer = .stopped) :
    next.queue.items = [] := by
  cases moved with
  | began => cases stopped
  | shut | failed => rfl
  | wrote rest deadline mayPause after writing there left going => exact absurd stopped going

theorem Moved.capacity (moved : Moved closed o next) : next.queue.capacity = o.queue.capacity := by
  cases moved with
  | began frame queue deadline ready popped => exact (Queue.items_pop popped).2
  | shut | wrote | failed => rfl

theorem Moved.far (moved : Moved closed o next) : next.pipe.far = o.pipe.far := by
  cases moved with
  | began | shut => rfl
  | wrote | failed => exact Pipe.far_write ..

theorem Moved.held (moved : Moved closed o next) (gone : o.pipe.far = .gone) :
    next.pipe.held = o.pipe.held := by
  cases moved with
  | began | shut => rfl
  | wrote rest deadline mayPause after writing there => exact absurd gone there
  | failed rest deadline mayPause writing => simp [stop, Pipe.write, gone]

theorem Moved.shuts (moved : Moved closed o next) (same : o.pipe.shut = true ↔ o.writer = .stopped) :
    next.pipe.shut = true ↔ next.writer = .stopped := by
  cases moved with
  | began frame queue deadline ready popped => simpa [ready] using same
  | shut | failed => exact iff_of_true rfl rfl
  | wrote rest deadline mayPause after writing there left going => simpa [writing, going] using same

theorem step?_writing (writing : o.writer ≠ .ready) (now timeout : Nat) (one other : Bool) :
    o.step? now timeout one = o.step? now timeout other := by
  unfold step?
  split
  · rfl
  · next ready => exact absurd ready writing
  · rfl

theorem drain_none (stuck : o.step? now timeout closed = none) :
    o.drain now timeout closed = { o with pipe := o.pipe.drain } := by
  unfold drain
  split
  · next hit =>
    rw [stuck] at hit
    cases hit
  · rfl

theorem drain_some (hit : o.step? now timeout closed = some next) :
    o.drain now timeout closed = next.drain now timeout closed := by
  conv => lhs; unfold drain
  split
  · next hit' =>
    rw [hit] at hit'
    cases hit'
    rfl
  · next stuck =>
    rw [hit] at stuck
    cases stuck

theorem drain_stopped (stopped : o.writer = .stopped) (now timeout : Nat) (closed : Bool) :
    o.drain now timeout closed = { o with pipe := o.pipe.drain } := by
  apply drain_none
  unfold step?
  rw [stopped]

theorem waits (idle : ∀ now, o.step? now timeout closed = none) :
    o.writer = .stopped ∨ (o.writer = .ready ∧ o.queue.items = [] ∧ closed = false) := by
  cases state : o.writer with
  | stopped => exact Or.inl rfl
  | ready =>
    right
    have stuck := idle 0
    unfold step? at stuck
    rw [state] at stuck
    dsimp only at stuck
    split at stuck
    · cases stuck
    · next none =>
      split at stuck
      · cases stuck
      · next kept => exact ⟨rfl, Queue.pop?_eq_none.mp none, by simpa using kept⟩
  | writing rest deadline =>
    have stuck := idle deadline
    unfold step? at stuck
    rw [state] at stuck
    dsimp only at stuck
    split at stuck
    · cases stuck
    · split at stuck
      · cases stuck
      · rw [if_pos (Nat.le_refl deadline)] at stuck
        cases stuck

end Outbound

end Switchboard
