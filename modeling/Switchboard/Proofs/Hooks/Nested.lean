import Switchboard.Proofs.Hooks

/-!
Hooks over any sequence of calls, seen from outside and from inside of the callbacks: every callback
that has come by then runs once, in the order of registration, with its own registrations inside it.
-/

namespace Switchboard

variable {α : Type}

inductive HookCall (α : Type)
  | register (c : Callback α)
  | fire

namespace HookCall

def registered? : HookCall α → Option (Callback α)
  | register c => some c
  | fire => none

def fires : HookCall α → Bool
  | register _ => false
  | fire => true

end HookCall

/-- What a callback sees of its own run: when it starts and when it ends, with the number of
callbacks that wait at that time. -/
inductive Moment (α : Type)
  | starts (act : α) (pending : Nat)
  | ends (act : α) (pending : Nat)

def Moment.started? : Moment α → Option α
  | starts act _ => some act
  | ends _ _ => none

namespace Callback

mutual

/-- What is seen when nothing waits: what a callback registers runs before it ends. -/
def tour : Callback α → List (Moment α)
  | .mk act nested => .starts act 0 :: (tourAll nested ++ [.ends act 0])

def tourAll : List (Callback α) → List (Moment α)
  | [] => []
  | c :: cs => c.tour ++ tourAll cs

end

end Callback

namespace Hooks

/-! ### Watching a run -/

mutual

def watch (h : Hooks α) : Callback α → Hooks α × List (Moment α)
  | .mk act nested =>
    let (after, inside) := watchAll h nested
    (after, .starts act h.pendingCount :: (inside ++ [.ends act after.pendingCount]))

def watchAll (h : Hooks α) : List (Callback α) → Hooks α × List (Moment α)
  | [] => (h, [])
  | c :: cs =>
    match h.pending? with
    | some waiting => watchAll ⟨some (waiting ++ [c])⟩ cs
    | none =>
      let (h, first) := watch h c
      let (h, others) := watchAll h cs
      (h, first ++ others)

end

mutual

theorem watch_run (h : Hooks α) (c : Callback α) :
    ((h.watch c).1, (h.watch c).2.filterMap Moment.started?) = h.run c := by
  match c with
  | .mk act nested =>
    rw [watch, run, ← watchAll_registerAll h nested]
    simp [Moment.started?]

/-- Who watches a run sees the run itself. -/
theorem watchAll_registerAll (h : Hooks α) (cs : List (Callback α)) :
    ((h.watchAll cs).1, (h.watchAll cs).2.filterMap Moment.started?) = h.registerAll cs := by
  match cs with
  | [] => rfl
  | c :: cs =>
    rw [watchAll, registerAll]
    obtain ⟨none | waiting⟩ := h
    · dsimp only
      rw [← watch_run ⟨none⟩ c]
      dsimp only
      rw [← watchAll_registerAll (watch ⟨none⟩ c).1 cs, List.filterMap_append]
    · exact watchAll_registerAll ⟨some (waiting ++ [c])⟩ cs

end

mutual

theorem watch_fired (c : Callback α) : (⟨none⟩ : Hooks α).watch c = (⟨none⟩, c.tour) := by
  match c with
  | .mk act nested =>
    rw [watch, watchAll_fired nested]
    rfl

theorem watchAll_fired (cs : List (Callback α)) :
    (⟨none⟩ : Hooks α).watchAll cs = (⟨none⟩, Callback.tourAll cs) := by
  match cs with
  | [] => rfl
  | c :: cs =>
    rw [watchAll]
    dsimp only
    rw [watch_fired c]
    dsimp only
    rw [watchAll_fired cs]
    rfl

end

/-! ### One call -/

def call (h : Hooks α) : HookCall α → Hooks α × Option Bool × List α
  | .register c => ((h.register c).1, none, (h.register c).2)
  | .fire =>
    match h.fire? with
    | some (h, acts) => (h, some true, acts)
    | none => (h, some false, [])

def watchCall (h : Hooks α) : HookCall α → List (Moment α)
  | .register c => (h.watchAll [c]).2
  | .fire =>
    match h.pending? with
    | some waiting => ((⟨none⟩ : Hooks α).watchAll waiting).2
    | none => []

theorem watchCall_call (h : Hooks α) (call : HookCall α) :
    (h.watchCall call).filterMap Moment.started? = (h.call call).2.2 := by
  cases call with
  | register c => exact congrArg Prod.snd (watchAll_registerAll h [c])
  | fire =>
    obtain ⟨none | waiting⟩ := h
    · rfl
    · exact congrArg Prod.snd (watchAll_registerAll ⟨none⟩ waiting)

/-! ### Calls in a row -/

def callAll (h : Hooks α) (calls : List (HookCall α)) : Hooks α :=
  calls.foldl (fun h call => (h.call call).1) h

def ran (h : Hooks α) : List (HookCall α) → List α
  | [] => []
  | call :: calls => (h.call call).2.2 ++ (h.call call).1.ran calls

def standing (fired : Bool) (registered : List (Callback α)) : Hooks α :=
  ⟨if fired then none else some registered⟩

theorem call_register (fired : Bool) (cs : List (Callback α)) (c : Callback α) :
    (standing fired cs).call (.register c) =
      (standing fired (cs ++ [c]), none, if fired then c.depthFirst else []) := by
  cases fired with
  | false => rfl
  | true =>
    rw [standing, if_pos rfl, Hooks.call, register_fired rfl]
    rfl

theorem call_fire (fired : Bool) (cs : List (Callback α)) :
    (standing fired cs).call .fire =
      (standing true cs, some !fired, if fired then [] else Callback.depthFirstAll cs) := by
  cases fired with
  | false =>
    rw [standing, if_neg Bool.false_ne_true, Hooks.call, fire?_some]
    rfl
  | true => rfl

theorem watchCall_register (fired : Bool) (cs : List (Callback α)) (c : Callback α) :
    (standing fired cs).watchCall (.register c) = if fired then c.tour else [] := by
  cases fired with
  | false => rfl
  | true =>
    rw [standing, if_pos rfl, watchCall, watchAll_fired]
    exact List.append_nil _

theorem watchCall_fire (fired : Bool) (cs : List (Callback α)) :
    (standing fired cs).watchCall .fire = if fired then [] else Callback.tourAll cs := by
  cases fired with
  | false => exact congrArg Prod.snd (watchAll_fired cs)
  | true => rfl

theorem callAll_standing (fired : Bool) (cs : List (Callback α)) (calls : List (HookCall α)) :
    (standing fired cs).callAll calls =
      standing (fired || calls.any HookCall.fires) (cs ++ calls.filterMap HookCall.registered?) := by
  induction calls generalizing fired cs with
  | nil => simp [callAll]
  | cons call calls ih =>
    cases call with
    | register c =>
      change ((standing fired cs).call (.register c)).1.callAll calls = _
      rw [call_register]
      dsimp only
      rw [ih]
      simp [HookCall.fires, HookCall.registered?]
    | fire =>
      change ((standing fired cs).call .fire).1.callAll calls = _
      rw [call_fire]
      dsimp only
      rw [ih]
      simp [HookCall.fires, HookCall.registered?, List.filterMap_cons]

theorem ran_standing (fired : Bool) (cs : List (Callback α)) (calls : List (HookCall α)) :
    (standing fired cs).ran calls =
      if fired then Callback.depthFirstAll (calls.filterMap HookCall.registered?)
      else if calls.any HookCall.fires then
        Callback.depthFirstAll (cs ++ calls.filterMap HookCall.registered?)
      else [] := by
  induction calls generalizing fired cs with
  | nil => cases fired <;> rfl
  | cons call calls ih =>
    cases call with
    | register c =>
      rw [ran, call_register]
      dsimp only
      rw [ih]
      cases fired with
      | true => rfl
      | false => simp [HookCall.fires, HookCall.registered?]
    | fire =>
      rw [ran, call_fire]
      dsimp only
      rw [ih]
      cases fired with
      | true => rfl
      | false =>
        simp [HookCall.fires, HookCall.registered?, List.filterMap_cons,
          Callback.depthFirstAll_append]

/-- Callbacks run exactly once each, in the order in which they are registered, as soon as the hooks
have been fired: those that waited when that happens, later ones at once, and what a callback
registers runs before it ends. Inside of the callbacks as outside nothing waits any more then. -/
theorem callbacks_run_once (calls : List (HookCall α)) :
    let h := fresh.callAll calls
    let fired := calls.any HookCall.fires
    let registered := calls.filterMap HookCall.registered?
    fresh.ran calls = (if fired then Callback.depthFirstAll registered else []) ∧
      h.pendingCount = (if fired then 0 else registered.length) ∧
      (h.call .fire).2 =
        (some !fired, if fired then [] else Callback.depthFirstAll registered) ∧
      (∀ c, (h.call (.register c)).2 = (none, if fired then c.depthFirst else [])) ∧
      h.watchCall .fire = (if fired then [] else Callback.tourAll registered) ∧
      (∀ c, h.watchCall (.register c) = if fired then c.tour else []) ∧
      ∀ call, (h.watchCall call).filterMap Moment.started? = (h.call call).2.2 := by
  intro h fired registered
  have now : h = standing fired registered := callAll_standing false [] calls
  have count : (standing fired registered).pendingCount =
      if fired then 0 else registered.length := by
    cases fired <;> rfl
  rw [now]
  refine ⟨ran_standing false [] calls, count, ?_, ?_, watchCall_fire fired registered,
    watchCall_register fired registered, watchCall_call _⟩
  · rw [call_fire]
  · intro c
    rw [call_register]

/-- The third level of nesting runs before the second callback that waited. -/
example : fresh.ran [.register (.mk 1 [.mk 2 [.plain 3]]), .register (.plain 4), .fire,
    .register (.plain 5)] = [1, 2, 3, 4, 5] := by rfl

end Hooks

end Switchboard
