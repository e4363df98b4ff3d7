import Mathlib.Data.List.Induction

/-!
# Runs of a deterministic machine

A machine takes one input after another; each step returns an output and a new state.

* `run_keeps`, `run_ensures`: an invariant of the steps holds at the end of a run, and what
  each step from it gives is what the run gives.
* `run_sim`: two machines related step by step give the same outputs on every run.
* `run_iff`: a property of the outputs that each step extends under a condition holds of a
  run exactly when every step meets the condition.
* `run_filter`: inputs that part of the state does not see can be left out of a run.

Invariants and relations may mention the inputs already taken. A step may use how the
inputs go on and that its state is the one the machine has reached, so what is assumed of
a run as a whole is available at each step of it.
-/

namespace Runs

variable {α β σ τ : Type*}

/-- The outputs of the inputs in order, and the state after the last one. -/
def run (step : α → σ → β × σ) : List α → σ → List β × σ
  | [], s => ([], s)
  | a :: l, s =>
    let x := step a s
    let y := run step l x.2
    (x.1 :: y.1, y.2)

variable {step : α → σ → β × σ} {step' : α → τ → β × τ}

@[simp] theorem run_nil (s : σ) : run step [] s = ([], s) := rfl

@[simp] theorem run_cons_fst (a : α) (l : List α) (s : σ) :
    (run step (a :: l) s).1 = (step a s).1 :: (run step l (step a s).2).1 := rfl

@[simp] theorem run_cons_snd (a : α) (l : List α) (s : σ) :
    (run step (a :: l) s).2 = (run step l (step a s).2).2 := rfl

theorem run_append (l l' : List α) (s : σ) :
    run step (l ++ l') s = ((run step l s).1 ++ (run step l' (run step l s).2).1,
      (run step l' (run step l s).2).2) := by
  induction l generalizing s with
  | nil => rfl
  | cons a l ih =>
    rw [List.cons_append]
    ext1
    · simp [ih]
    · simp [ih]

theorem length_run (l : List α) (s : σ) : (run step l s).1.length = l.length := by
  induction l generalizing s with
  | nil => rfl
  | cons a l ih => rw [run_cons_fst, List.length_cons, List.length_cons, ih]

/-- A quantity that no step lowers is not lowered along a run. -/
theorem le_run (f : σ → Nat) (hStep : ∀ a s, f s ≤ f (step a s).2) (l : List α) (s : σ) :
    f s ≤ f (run step l s).2 := by
  induction l generalizing s with
  | nil => exact Nat.le_refl _
  | cons a l ih => exact Nat.le_trans (hStep a s) (ih _)

theorem run_snoc_fst (l : List α) (a : α) (s : σ) :
    (run step (l ++ [a]) s).1 = (run step l s).1 ++ [(step a (run step l s).2).1] := by
  rw [run_append]
  rfl

theorem run_snoc_snd (l : List α) (a : α) (s : σ) :
    (run step (l ++ [a]) s).2 = (step a (run step l s).2).2 := by
  rw [run_append]
  rfl

/-- The inputs of a longer run with their outputs. -/
theorem zip_run_append (l l' : List α) (s : σ) :
    (l ++ l').zip (run step (l ++ l') s).1 =
      l.zip (run step l s).1 ++ l'.zip (run step l' (run step l s).2).1 := by
  rw [run_append, List.zip_append (length_run l s).symm]

/-- An invariant that holds at the start and that each step keeps holds after the run. -/
theorem run_keeps {I : List α → σ → Prop} {s : σ} (h : I [] s) (l : List α)
    (hStep : ∀ done a later, l = done ++ a :: later → I done (run step done s).2 →
      I (done ++ [a]) (step a (run step done s).2).2) :
    I l (run step l s).2 := by
  suffices hRun : ∀ done later, l = done ++ later → I done (run step done s).2 from
    hRun l [] (by simp)
  intro done
  induction done using List.reverseRecOn with
  | nil =>
    intro _ _
    exact h
  | append_singleton done a ih =>
    intro later hl
    rw [List.append_assoc, List.singleton_append] at hl
    rw [run_snoc_snd]
    exact hStep done a later hl (ih _ hl)

/-- When every step from a state of an invariant keeps it and gives an output of some kind,
a run ends in the invariant and gives outputs of that kind only. -/
theorem run_ensures {I : σ → Prop} {Q : β → Prop}
    (hStep : ∀ a s, I s → I (step a s).2 ∧ Q (step a s).1) (l : List α) {s : σ} (h : I s) :
    I (run step l s).2 ∧ ∀ b ∈ (run step l s).1, Q b := by
  induction l generalizing s with
  | nil => exact ⟨h, by simp⟩
  | cons a l ih =>
    obtain ⟨hNext, hFirst⟩ := hStep a s h
    obtain ⟨hEnd, hOutputs⟩ := ih hNext
    refine ⟨hEnd, ?_⟩
    rw [run_cons_fst, List.forall_mem_cons]
    exact ⟨hFirst, hOutputs⟩

/-- Steps that give equal outputs in related states give equal outputs along a run. -/
theorem run_sim {I : List α → σ → τ → Prop} {s : σ} {t : τ} (h : I [] s t) (l : List α)
    (hStep : ∀ done a later, l = done ++ a :: later →
      I done (run step done s).2 (run step' done t).2 →
        (step a (run step done s).2).1 = (step' a (run step' done t).2).1 ∧
          I (done ++ [a]) (step a (run step done s).2).2 (step' a (run step' done t).2).2) :
    (run step l s).1 = (run step' l t).1 ∧ I l (run step l s).2 (run step' l t).2 := by
  suffices hRun : ∀ done later, l = done ++ later →
      (run step done s).1 = (run step' done t).1 ∧ I done (run step done s).2 (run step' done t).2
    from hRun l [] (by simp)
  intro done
  induction done using List.reverseRecOn with
  | nil =>
    intro _ _
    exact ⟨rfl, h⟩
  | append_singleton done a ih =>
    intro later hl
    rw [List.append_assoc, List.singleton_append] at hl
    obtain ⟨hOut, hRelated⟩ := ih _ hl
    obtain ⟨hLast, hNext⟩ := hStep done a later hl hRelated
    rw [run_snoc_fst, run_snoc_fst, run_snoc_snd, run_snoc_snd, hOut, hLast]
    exact ⟨rfl, hNext⟩

/-- Every step of a longer run: every step of the run, and the last one. -/
theorem forall_split_snoc {l : List α} {b : α} {C : List α → α → Prop} :
    (∀ done a later, l ++ [b] = done ++ a :: later → C done a) ↔
      (∀ done a later, l = done ++ a :: later → C done a) ∧ C l b := by
  refine ⟨fun h => ⟨?_, h l b [] rfl⟩, ?_⟩
  · intro done a later hl
    exact h done a (later ++ [b]) (by rw [hl, List.append_assoc, List.cons_append])
  · rintro ⟨hEarlier, hLast⟩ done a later hl
    induction later using List.reverseRecOn with
    | nil =>
      obtain ⟨rfl, hb⟩ := List.append_inj' hl rfl
      obtain rfl : b = a := List.head_eq_of_cons_eq hb
      exact hLast
    | append_singleton later c =>
      rw [← List.cons_append, ← List.append_assoc] at hl
      exact hEarlier done a later (List.append_inj_left' hl rfl)

theorem run_iff {I : List β → σ → Prop} {P : List β → Prop} {C : α → σ → Prop} {s : σ}
    (hEmpty : P []) (hStart : I [] s)
    (hStep : ∀ a out s, I out s → I (out ++ [(step a s).1]) (step a s).2 ∧
      (P (out ++ [(step a s).1]) ↔ P out ∧ C a s)) (l : List α) :
    P (run step l s).1 ↔ ∀ done a later, l = done ++ a :: later → C a (run step done s).2 := by
  suffices hRun : I (run step l s).1 (run step l s).2 ∧ (P (run step l s).1 ↔
      ∀ done a later, l = done ++ a :: later → C a (run step done s).2) from hRun.2
  induction l using List.reverseRecOn with
  | nil => exact ⟨hStart, fun _ done a later hl => absurd hl (by simp), fun _ => hEmpty⟩
  | append_singleton l b ih =>
    obtain ⟨hKept, hExtended⟩ := hStep b _ _ ih.1
    rw [forall_split_snoc, run_snoc_fst, run_snoc_snd, hExtended, ih.2]
    exact ⟨hKept, Iff.rfl⟩

/-- Inputs that a relation of states does not see can be left out of a run. -/
theorem run_filter {on : α → Bool} {R : σ → σ → Prop}
    (hSkip : ∀ a s t, on a = false → R s t → R (step a s).2 t)
    (hTake : ∀ a s t, on a = true → R s t → (step a s).1 = (step a t).1 ∧
      R (step a s).2 (step a t).2) (l : List α) {s t : σ} (h : R s t) :
    ((l.zip (run step l s).1).filter fun x => on x.1).map Prod.snd = (run step (l.filter on) t).1 := by
  induction l generalizing s t with
  | nil => rfl
  | cons a l ih =>
    rw [run_cons_fst, List.zip_cons_cons]
    cases hOn : on a with
    | false =>
      rw [List.filter_cons_of_neg (by simp [hOn]), List.filter_cons_of_neg (by simp [hOn])]
      exact ih (hSkip a s t hOn h)
    | true =>
      obtain ⟨hOut, hNext⟩ := hTake a s t hOn h
      rw [List.filter_cons_of_pos hOn, List.filter_cons_of_pos (p := fun x : α × β => on x.1) hOn,
        List.map_cons, run_cons_fst, hOut, ih hNext]

end Runs
