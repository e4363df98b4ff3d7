import Mathlib.Data.List.Basic

/-!
# Fallible steps on a state

A step may change the state whether it succeeds or fails. `runAll` runs a step for each
element of a list and stops at the first failure, and `Ends` says what holds of the
state in either case.

* `Ends.andThen`: sequencing two computations.
* `ends_runAll`: the loop rule, with an invariant indexed by the elements done so far.
* `ends_runAll_reached`: the same rule, for a step that may use how its state was reached.
* `runAll_ok`: the same rule, for a run that succeeds.
-/

namespace Steps

variable {ε σ α : Type*}

/-- Continue from the state of a successful computation. -/
def andThen (x : Except ε Unit × σ) (f : σ → Except ε Unit × σ) : Except ε Unit × σ :=
  match x with
  | (.ok (), s) => f s
  | (.error e, s) => (.error e, s)

/-- Run a step for each element and stop at the first failure. -/
def runAll (step : α → σ → Except ε Unit × σ) : List α → σ → Except ε Unit × σ
  | [], s => (.ok (), s)
  | a :: l, s => andThen (step a s) (runAll step l)

/-- `Q` holds of the state after success, `R` of the error and the state after failure. -/
def Ends (x : Except ε Unit × σ) (Q : σ → Prop) (R : ε → σ → Prop) : Prop :=
  match x with
  | (.ok (), s) => Q s
  | (.error e, s) => R e s

variable {x : Except ε Unit × σ} {f : σ → Except ε Unit × σ} {step : α → σ → Except ε Unit × σ}
  {Q Q' : σ → Prop} {R R' : ε → σ → Prop}

@[simp] theorem ends_ok {s : σ} : Ends (.ok (), s) Q R ↔ Q s := Iff.rfl

@[simp] theorem ends_error {e : ε} {s : σ} : Ends (.error e, s) Q R ↔ R e s := Iff.rfl

theorem Ends.mono (h : Ends x Q R) (hQ : ∀ s, Q s → Q' s) (hR : ∀ e s, R e s → R' e s) :
    Ends x Q' R' := by
  obtain ⟨result, s⟩ := x
  cases result with
  | ok u => exact hQ s h
  | error e => exact hR e s h

theorem Ends.and (h : Ends x Q R) (h' : Ends x Q' R') :
    Ends x (fun s => Q s ∧ Q' s) fun e s => R e s ∧ R' e s := by
  obtain ⟨result, s⟩ := x
  cases result with
  | ok u => exact ⟨h, h'⟩
  | error e => exact ⟨h, h'⟩

theorem Ends.ok (h : Ends x Q R) (hx : x.1 = .ok ()) : Q x.2 := by
  obtain ⟨result, s⟩ := x
  cases hx
  exact h

theorem Ends.error (h : Ends x Q R) {e : ε} (hx : x.1 = .error e) : R e x.2 := by
  obtain ⟨result, s⟩ := x
  cases hx
  exact h

/-- A property of the state that holds either way. -/
theorem Ends.always (h : Ends x Q fun _ => Q) : Q x.2 := by
  obtain ⟨result, s⟩ := x
  cases result with
  | ok u => exact h
  | error e => exact h

theorem ends_of_always (x : Except ε Unit × σ) (h : Q x.2) : Ends x Q fun _ => Q := by
  obtain ⟨result, s⟩ := x
  cases result <;> exact h

theorem Ends.andThen (h : Ends x Q R) (hf : ∀ s, Q s → Ends (f s) Q' R) :
    Ends (andThen x f) Q' R := by
  obtain ⟨result, s⟩ := x
  cases result with
  | ok u => exact hf s h
  | error e => exact h

/-- A loop whose step takes the invariant for the elements done to the one for the next
element ends with the invariant for the whole list, or fails as one of the steps does. -/
theorem ends_runAll {I : List α → σ → Prop} (l : List α) {s : σ} (h : I [] s)
    (hStep : ∀ done a later, l = done ++ a :: later → ∀ s, I done s →
      Ends (step a s) (I (done ++ [a])) R) : Ends (runAll step l s) (I l) R := by
  have hFrom : ∀ later done s, l = done ++ later → I done s →
      Ends (runAll step later s) (I l) R := by
    intro later
    induction later with
    | nil =>
      intro done s hl hI
      rw [List.append_nil] at hl
      exact hl ▸ hI
    | cons a later ih =>
      intro done s hl hI
      apply Ends.andThen (hStep done a later hl s hI)
      intro s' hI'
      exact ih (done ++ [a]) s' (by simp [hl]) hI'
  exact hFrom l [] s rfl h

/-- The loop rule for an invariant that does not depend on the position. -/
theorem ends_runAll_of_keeps {I : σ → Prop} (l : List α) {s : σ} (h : I s)
    (hStep : ∀ a ∈ l, ∀ s, I s → Ends (step a s) I R) : Ends (runAll step l s) I R :=
  ends_runAll l h fun done a later hl s hI => hStep a (by simp [hl]) s hI

theorem andThen_ok (h : (andThen x f).1 = .ok ()) :
    x.1 = .ok () ∧ andThen x f = f x.2 := by
  obtain ⟨result, s⟩ := x
  cases result with
  | ok u => exact ⟨rfl, rfl⟩
  | error e => cases h

theorem andThen_assoc (x : Except ε Unit × σ) (f g : σ → Except ε Unit × σ) :
    andThen (andThen x f) g = andThen x fun s => andThen (f s) g := by
  obtain ⟨result, s⟩ := x
  cases result <;> rfl

theorem runAll_append (step : α → σ → Except ε Unit × σ) (l l' : List α) (s : σ) :
    runAll step (l ++ l') s = andThen (runAll step l s) (runAll step l') := by
  induction l generalizing s with
  | nil => rfl
  | cons a l ih =>
    rw [List.cons_append, runAll, runAll, andThen_assoc]
    congr 1
    funext s'
    exact ih s'

/-- The loop rule for a step that may use how its state was reached. -/
theorem ends_runAll_reached {I : List α → σ → Prop} (l : List α) {s₀ : σ} (h : I [] s₀)
    (hStep : ∀ done a later, l = done ++ a :: later → ∀ s, runAll step done s₀ = (.ok (), s) →
      I done s → Ends (step a s) (I (done ++ [a])) R) : Ends (runAll step l s₀) (I l) R := by
  refine (ends_runAll (I := fun done s => runAll step done s₀ = (.ok (), s) ∧ I done s) l ⟨rfl, h⟩
    ?_).mono (fun _ h => h.2) fun _ _ h => h
  rintro done a later hl s ⟨hReached, hI⟩
  have hEnds := hStep done a later hl s hReached hI
  have hNext : runAll step (done ++ [a]) s₀ = step a s := by
    rw [runAll_append, hReached]
    show andThen (step a s) (runAll step []) = step a s
    rcases step a s with ⟨result, s'⟩
    cases result <;> rfl
  rw [hNext]
  generalize step a s = x at hEnds
  obtain ⟨result, s'⟩ := x
  cases result with
  | ok u => exact ⟨rfl, hEnds⟩
  | error e => exact hEnds

/-- The loop rule for a run that succeeds. -/
theorem runAll_ok (I : List α → σ → Prop) {l : List α} {s s' : σ} (h : I [] s)
    (hRun : runAll step l s = (.ok (), s'))
    (hStep : ∀ done a, a ∈ l → ∀ s s', I done s → step a s = (.ok (), s') → I (done ++ [a]) s') :
    I l s' := by
  have hEnds : Ends (runAll step l s) (I l) fun _ _ => True := by
    apply ends_runAll l h
    intro done a later hl s hI
    have hNext := hStep done a (by simp [hl]) s
    generalize step a s = x at hNext
    obtain ⟨result, s'⟩ := x
    cases result with
    | ok u => exact hNext s' hI rfl
    | error e => trivial
  rw [hRun] at hEnds
  exact hEnds

end Steps
