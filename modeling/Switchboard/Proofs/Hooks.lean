import Switchboard.Hooks

/-!
Callbacks wait in order, and run in order; each runs the ones that it registers before the next one
runs.
-/

namespace Switchboard

variable {α : Type}

namespace Callback

mutual

/-- A callback, then the ones that it registers, each followed by its own. -/
def depthFirst : Callback α → List α
  | .mk act nested => act :: depthFirstAll nested

def depthFirstAll : List (Callback α) → List α
  | [] => []
  | c :: cs => c.depthFirst ++ depthFirstAll cs

end

@[simp]
theorem depthFirst_mk_nil (act : α) : (mk act []).depthFirst = [act] := by
  rfl

theorem depthFirstAll_singleton (c : Callback α) : depthFirstAll [c] = c.depthFirst :=
  List.append_nil _

theorem depthFirstAll_append (cs more : List (Callback α)) :
    depthFirstAll (cs ++ more) = depthFirstAll cs ++ depthFirstAll more := by
  induction cs with
  | nil => rfl
  | cons c cs ih => rw [List.cons_append, depthFirstAll, depthFirstAll, ih, List.append_assoc]

def plain (act : α) : Callback α := .mk act []

theorem map_plain_injective {acts others : List α}
    (same : acts.map Callback.plain = others.map .plain) : acts = others := by
  refine (List.map_inj_right ?_).mp same
  intro act other same
  cases same
  rfl

theorem depthFirstAll_plain (acts : List α) : depthFirstAll (acts.map .plain) = acts := by
  induction acts with
  | nil => rfl
  | cons act acts ih => exact congrArg (act :: ·) ih

end Callback

namespace Hooks

theorem register_waiting (waiting : List (Callback α)) (c : Callback α) :
    (⟨some waiting⟩ : Hooks α).register c = (⟨some (waiting ++ [c])⟩, []) := by
  rfl

mutual

theorem run_fired (c : Callback α) : (⟨none⟩ : Hooks α).run c = (⟨none⟩, c.depthFirst) := by
  match c with
  | .mk act nested =>
    rw [run, registerAll_fired nested]
    rfl

/-- Once the hooks have been fired every callback runs as it comes, with all that it registers. -/
theorem registerAll_fired (cs : List (Callback α)) :
    (⟨none⟩ : Hooks α).registerAll cs = (⟨none⟩, Callback.depthFirstAll cs) := by
  match cs with
  | [] => rfl
  | c :: cs =>
    rw [registerAll]
    dsimp only
    rw [run_fired c]
    dsimp only
    rw [registerAll_fired cs]
    rfl

end

theorem register_fired {h : Hooks α} (fired : h.pending? = none) (c : Callback α) :
    h.register c = (h, c.depthFirst) := by
  obtain ⟨pending?⟩ := h
  cases fired
  rw [register, registerAll_fired, Callback.depthFirstAll_singleton]

theorem fire?_some (cs : List (Callback α)) :
    (⟨some cs⟩ : Hooks α).fire? = some (⟨none⟩, Callback.depthFirstAll cs) :=
  congrArg some (registerAll_fired cs)

theorem fire?_waiting {h : Hooks α} {acts : List α} (waiting : h.pending? = some (acts.map .plain)) :
    h.fire? = some (⟨none⟩, acts) := by
  obtain ⟨pending?⟩ := h
  cases waiting
  rw [fire?_some, Callback.depthFirstAll_plain]

end Hooks

end Switchboard
