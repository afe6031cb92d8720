/-!
Close hooks: callbacks that run once, when their owner closes. One that comes later runs at once.
-/

namespace Switchboard

/-- What a callback does, and the callbacks that it registers meanwhile, in their order. -/
inductive Callback (α : Type)
  | mk (act : α) (nested : List (Callback α))

/-- The callbacks that wait, in order of registration; none once they have been let go. -/
structure Hooks (α : Type) where
  pending? : Option (List (Callback α))

namespace Hooks

variable {α : Type}

def fresh : Hooks α := ⟨some []⟩

def pendingCount (h : Hooks α) : Nat :=
  match h.pending? with
  | some waiting => waiting.length
  | none => 0

mutual

/-- Runs a callback; answers with what has been done, in order. -/
def run (h : Hooks α) : Callback α → Hooks α × List α
  | .mk act nested =>
    let (h, acts) := registerAll h nested
    (h, act :: acts)

def registerAll (h : Hooks α) : List (Callback α) → Hooks α × List α
  | [] => (h, [])
  | c :: cs =>
    match h.pending? with
    | some waiting => registerAll ⟨some (waiting ++ [c])⟩ cs
    | none =>
      let (h, first) := run h c
      let (h, others) := registerAll h cs
      (h, first ++ others)

end

def register (h : Hooks α) (c : Callback α) : Hooks α × List α := registerAll h [c]

/-- Lets the waiting callbacks go, then runs them. The first time only: `none` after that. -/
def fire? (h : Hooks α) : Option (Hooks α × List α) :=
  match h.pending? with
  | some waiting => some (registerAll ⟨none⟩ waiting)
  | none => none

end Hooks

end Switchboard
