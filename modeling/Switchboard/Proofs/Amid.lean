/-!
Runs among incidents: something else may happen before every step of a run, and after the last. Two
runs of the same steps keep whatever the steps keep and their incidents do not show.
-/

namespace Switchboard

variable {σ α : Type}

/-- What happens on each side alone, where it does not show, does not matter. -/
theorem related_meet {R : σ → σ → Prop} (related : Equivalence R) {s s' t t' : σ} (left : R s s')
    (same : R s t) (right : R t t') : R s' t' :=
  related.trans (related.symm left) (related.trans same right)

def runAmid (step : σ → α → σ) (incident : Nat → σ → σ) (s : σ) : List α → σ
  | [] => incident 0 s
  | a :: as => runAmid step (fun n => incident (n + 1)) (step (incident 0 s) a) as

/-- The induction over two runs with different incidents. -/
theorem runAmid_related {step : σ → α → σ} {R : σ → σ → Prop} (related : Equivalence R)
    (steps : ∀ s t a, R s t → R (step s a) (step t a)) {own other : Nat → σ → σ}
    (unseen : ∀ n s, R s (own n s)) (unseen' : ∀ n s, R s (other n s)) {s t : σ} (start : R s t)
    (as : List α) : R (runAmid step own s as) (runAmid step other t as) := by
  induction as generalizing s t own other with
  | nil => exact related_meet related (unseen 0 s) start (unseen' 0 t)
  | cons a as ih =>
    apply ih (fun n => unseen (n + 1)) (fun n => unseen' (n + 1))
    exact steps _ _ a (related_meet related (unseen 0 s) start (unseen' 0 t))

end Switchboard
