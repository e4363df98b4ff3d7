import Mathlib.Data.List.Induction

/-!
# Machines that may refuse an action

A machine takes one action after another; an action that is not enabled has no next state.

* `run_append`, `run_cons`, `run_snoc`: how runs compose.
* `run_keeps`: an invariant of the steps, which may mention the actions done so far.
-/

namespace Machine

variable {σ α : Type*} {step : σ → α → Option σ}

/-- The state after the actions, when each of them is enabled. -/
def run (step : σ → α → Option σ) (s : σ) (actions : List α) : Option σ :=
  actions.foldlM step s

@[simp] theorem run_nil (s : σ) : run step s [] = some s := rfl

theorem run_append {s u : σ} {l l' : List α} :
    run step s (l ++ l') = some u ↔ ∃ t, run step s l = some t ∧ run step t l' = some u := by
  unfold run
  rw [List.foldlM_append]
  exact Option.bind_eq_some_iff

theorem run_cons {s u : σ} {a : α} {l : List α} :
    run step s (a :: l) = some u ↔ ∃ t, step s a = some t ∧ run step t l = some u := by
  unfold run
  rw [List.foldlM_cons]
  exact Option.bind_eq_some_iff

theorem run_snoc {s u : σ} {a : α} {l : List α} :
    run step s (l ++ [a]) = some u ↔ ∃ t, run step s l = some t ∧ step t a = some u := by
  rw [run_append]
  refine exists_congr fun t => and_congr_right fun _ => ?_
  rw [run_cons]
  simp

/-- An invariant, which may mention the actions done so far. -/
theorem run_keeps {I : List α → σ → Prop} {s : σ} (h : I [] s)
    (hStep : ∀ done a t u, step t a = some u → I done t → I (done ++ [a]) u) {l : List α} {t : σ}
    (hRun : run step s l = some t) : I l t := by
  induction l using List.reverseRecOn generalizing t with
  | nil =>
    obtain rfl := Option.some.inj hRun
    exact h
  | append_singleton l a ih =>
    obtain ⟨u, hBefore, hLast⟩ := run_snoc.mp hRun
    exact hStep l a u t hLast (ih hBefore)

end Machine
