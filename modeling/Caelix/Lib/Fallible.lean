import Mathlib.Data.List.Basic

/-!
# Fallible computations

Rules for `Except`: sequencing, checks run one after another, loops with an
accumulator, and the simulation of one fallible computation by another.

* `forM_ok_iff`: a loop of checks passes exactly when every check does.
* `foldlM_ok_of`, `foldlM_ok_keeps`, `foldlM_error_at`: when a loop succeeds, what it keeps,
  and where it fails.
* `mapM_eq_some_iff`, `foldlM_map_ok_iff`: loops that stop at the first missing value.
* `Sim.bind`, `Sim.foldlM`: simulation is kept by sequencing and by loops.
-/

namespace Fallible

universe u v

variable {ε ε' : Type u} {α β γ δ : Type v}

/-! ## Sequencing and checks -/

theorem bind_ok_iff {x : Except ε α} {f : α → Except ε β} {b : β} :
    (x >>= f) = .ok b ↔ ∃ a, x = .ok a ∧ f a = .ok b := by
  cases x with
  | error e =>
    constructor
    · intro h
      cases h
    · rintro ⟨a, h, -⟩
      cases h
  | ok a =>
    constructor
    · intro h
      exact ⟨a, rfl, h⟩
    · rintro ⟨a', h, hf⟩
      cases h
      exact hf

theorem map_ok {x : Except ε α} {f : α → β} {b : β} (h : x.map f = .ok b) :
    ∃ a, x = .ok a ∧ f a = b := by
  cases x with
  | error e => cases h
  | ok a => exact ⟨a, rfl, by simpa [Except.map] using h⟩

theorem map_ok_iff {x : Except ε α} {f : α → β} {b : β} :
    x.map f = .ok b ↔ ∃ a, x = .ok a ∧ f a = b := by
  cases x with
  | error e => simp [Except.map]
  | ok a => simp [Except.map]

theorem map_error {x : Except ε α} {f : α → β} {e : ε} (h : x.map f = .error e) :
    x = .error e := by
  cases x with
  | error e' => simpa [Except.map] using h
  | ok b => cases h

theorem ite_ok_iff {p : Prop} [Decidable p] {e : ε} :
    (if p then .ok () else .error e : Except ε Unit) = .ok () ↔ p := by
  by_cases h : p
  · simp [h]
  · simp [h]

theorem forM_cons (f : α → Except ε PUnit) (a : α) (l : List α) :
    (a :: l).forM f = (f a >>= fun _ => l.forM f) := rfl

theorem forM_ok_iff {f : α → Except ε PUnit} {l : List α} :
    l.forM f = .ok () ↔ ∀ a ∈ l, f a = .ok () := by
  induction l with
  | nil => simp [List.forM]; rfl
  | cons a l ih =>
    rw [forM_cons, bind_ok_iff, List.forall_mem_cons, ← ih]
    constructor
    · rintro ⟨⟨⟩, ha, hl⟩
      exact ⟨ha, hl⟩
    · rintro ⟨ha, hl⟩
      exact ⟨(), ha, hl⟩

/-- A loop of checks that fails reports the error of one of them. -/
theorem forM_error {f : α → Except ε PUnit} {l : List α} {e : ε} (h : l.forM f = .error e) :
    ∃ a ∈ l, f a = .error e := by
  induction l with
  | nil => cases h
  | cons a l ih =>
    rw [forM_cons] at h
    cases ha : f a with
    | error e' =>
      rw [ha] at h
      cases h
      exact ⟨a, List.mem_cons_self, ha⟩
    | ok u =>
      rw [ha] at h
      obtain ⟨b, hb, hErr⟩ := ih h
      exact ⟨b, List.mem_cons_of_mem _ hb, hErr⟩

/-! ## Partial functions on every element -/

theorem mapM_eq_some_iff {f : α → Option β} {l : List α} {l' : List β} :
    l.mapM f = some l' ↔ l.map f = l'.map some := by
  induction l generalizing l' with
  | nil => cases l' <;> simp
  | cons a l ih =>
    rw [List.mapM_cons, List.map_cons]
    cases ha : f a with
    | none => cases l' <;> simp
    | some b =>
      cases hRest : l.mapM f with
      | none =>
        rw [hRest] at ih
        cases l' <;> simp [← ih]
      | some m =>
        rw [hRest] at ih
        cases l' <;> simp [← ih]

theorem mapM_eq_none_iff {f : α → Option β} {l : List α} :
    l.mapM f = none ↔ ∃ a ∈ l, f a = none := by
  induction l with
  | nil => simp
  | cons a l ih =>
    rw [List.mapM_cons]
    cases ha : f a with
    | none => simp [ha]
    | some b =>
      cases hRest : l.mapM f with
      | none => simpa [ha, hRest] using ih.mp hRest
      | some l' => simpa [ha, hRest] using ih

/-! ## Loops with an accumulator -/

theorem foldlM_ok_cons {f : β → γ → Except ε β} {c : γ} {l : List γ} {b b' : β}
    (h : (c :: l).foldlM f b = .ok b') : ∃ m, f b c = .ok m ∧ l.foldlM f m = .ok b' := by
  rw [List.foldlM_cons] at h
  exact bind_ok_iff.mp h

theorem foldlM_error_cons {f : β → γ → Except ε β} {c : γ} {l : List γ} {b : β} {e : ε}
    (h : (c :: l).foldlM f b = .error e) :
    f b c = .error e ∨ ∃ m, f b c = .ok m ∧ l.foldlM f m = .error e := by
  rw [List.foldlM_cons] at h
  cases hc : f b c with
  | error e' =>
    rw [hc] at h
    cases h
    exact Or.inl rfl
  | ok m =>
    rw [hc] at h
    exact Or.inr ⟨m, rfl, h⟩

/-- A failing loop fails at one of its elements, reached through successful steps
that keep every property each step keeps. -/
theorem foldlM_error_at {f : β → γ → Except ε β} (I : β → Prop) {e : ε} (l : List γ) {b : β}
    (hb : I b) (hStep : ∀ c ∈ l, ∀ m m', I m → f m c = .ok m' → I m')
    (h : l.foldlM f b = .error e) : ∃ c ∈ l, ∃ m, I m ∧ f m c = .error e := by
  induction l generalizing b with
  | nil => cases h
  | cons c l ih =>
    rcases foldlM_error_cons h with hc | ⟨m, hm, hRest⟩
    · exact ⟨c, List.mem_cons_self, b, hb, hc⟩
    · obtain ⟨c', hc', m', hI, hErr⟩ := ih (hStep c List.mem_cons_self b m hb hm)
        (fun c' hc' => hStep c' (List.mem_cons_of_mem _ hc')) hRest
      exact ⟨c', List.mem_cons_of_mem _ hc', m', hI, hErr⟩

/-- A property that each step keeps holds after a successful loop. -/
theorem foldlM_ok_keeps {f : β → γ → Except ε β} (I : β → Prop) (l : List γ) {b b' : β} (hb : I b)
    (hStep : ∀ c ∈ l, ∀ m m', I m → f m c = .ok m' → I m')
    (h : l.foldlM f b = .ok b') : I b' := by
  induction l generalizing b with
  | nil =>
    cases h
    exact hb
  | cons c l ih =>
    obtain ⟨m, hm, hRest⟩ := foldlM_ok_cons h
    exact ih (hStep c List.mem_cons_self b m hb hm)
      (fun c' hc' => hStep c' (List.mem_cons_of_mem _ hc')) hRest

/-- A loop succeeds when each step does from where the steps before it have led. -/
theorem foldlM_ok_of {f : β → γ → Except ε β} (I : β → Prop) (l : List γ) {b : β} (hb : I b)
    (hStep : ∀ c ∈ l, ∀ m, I m → ∃ m', f m c = .ok m' ∧ I m') :
    ∃ b', l.foldlM f b = .ok b' ∧ I b' := by
  induction l generalizing b with
  | nil => exact ⟨b, rfl, hb⟩
  | cons c l ih =>
    obtain ⟨m, hm, hI⟩ := hStep c List.mem_cons_self b hb
    rw [List.foldlM_cons, hm]
    exact ih hI fun c' hc' => hStep c' (List.mem_cons_of_mem _ hc')

/-- A loop over results stops at the first error. -/
theorem foldlM_map_ok_iff {g : β → α → β} {l : List (Except ε α)} {b b' : β} :
    (l.foldlM (fun b x => x.map (g b)) b : Except ε β) = .ok b' ↔
      ∃ values : List α, l = values.map .ok ∧ b' = values.foldl g b := by
  induction l generalizing b with
  | nil =>
    constructor
    · intro h
      exact ⟨[], rfl, (Except.ok.inj h).symm⟩
    · rintro ⟨values, hValues, rfl⟩
      rw [List.map_eq_nil_iff.mp hValues.symm]
      rfl
  | cons x l ih =>
    rw [List.foldlM_cons]
    cases x with
    | error e =>
      refine iff_of_false nofun ?_
      rintro ⟨values, hValues, -⟩
      cases values <;> cases hValues
    | ok a =>
      refine ih.trans ⟨?_, ?_⟩
      · rintro ⟨values, rfl, rfl⟩
        exact ⟨a :: values, rfl, rfl⟩
      · rintro ⟨values, hValues, rfl⟩
        cases values with
        | nil => cases hValues
        | cons value values =>
          obtain ⟨hValue, hRest⟩ := List.cons.inj hValues
          cases hValue
          exact ⟨values, hRest, rfl⟩

/-! ## Simulation -/

/-- The second computation ends as the first does: both succeed with results related by
`Q`, or both fail with errors related by `E`. Besides, the second may fail at any time
with an error in `S`. -/
def Sim (E : ε → ε' → Prop) (S : ε' → Prop) (Q : α → β → Prop) : Except ε α → Except ε' β → Prop
  | .ok a, .ok b => Q a b
  | .ok _, .error f => S f
  | .error _, .ok _ => False
  | .error e, .error f => E e f ∨ S f

variable {E : ε → ε' → Prop} {S : ε' → Prop} {Q : α → β → Prop}

theorem Sim.of_side {f : ε'} (h : S f) (x : Except ε α) : Sim E S Q x (.error f) := by
  cases x with
  | ok a => exact h
  | error e => exact Or.inr h

/-- Simulation is kept by sequencing. -/
theorem Sim.bind {Q' : γ → δ → Prop} {x : Except ε α} {y : Except ε' β} {f : α → Except ε γ}
    {g : β → Except ε' δ} (h : Sim E S Q x y) (hNext : ∀ a b, Q a b → Sim E S Q' (f a) (g b)) :
    Sim E S Q' (x >>= f) (y >>= g) := by
  cases x with
  | ok a =>
    cases y with
    | ok b => exact hNext a b h
    | error e =>
      have hSide : S e := h
      exact Sim.of_side hSide _
  | error e =>
    cases y with
    | ok b => exact h.elim
    | error f => exact h

/-- Simulation with weaker results. -/
theorem Sim.mono {Q' : α → β → Prop} {x : Except ε α} {y : Except ε' β} (h : Sim E S Q x y)
    (hQ : ∀ a b, Q a b → Q' a b) : Sim E S Q' x y := by
  cases x with
  | ok a =>
    cases y with
    | ok b => exact hQ a b h
    | error e => exact h
  | error e =>
    cases y with
    | ok b => exact h
    | error f => exact h

theorem Sim.map_right {Q' : α → δ → Prop} {x : Except ε α} {y : Except ε' β} {g : β → δ}
    (h : Sim E S Q x y) (hNext : ∀ a b, Q a b → Q' a (g b)) : Sim E S Q' x (y.map g) := by
  cases x with
  | ok a =>
    cases y with
    | ok b => exact hNext a b h
    | error e => exact h
  | error e =>
    cases y with
    | ok b => exact h
    | error f => exact h

/-- Simulation up to equality of results, with no errors of its own. -/
theorem Sim.ok_iff {x : Except ε α} {y : Except ε' α} (h : Sim E (fun _ => False) Eq x y) {a : α} :
    y = .ok a ↔ x = .ok a := by
  cases x with
  | ok a' =>
    cases y with
    | ok b =>
      obtain rfl : a' = b := h
      constructor <;> intro he <;> cases he <;> rfl
    | error e => exact h.elim
  | error e =>
    cases y with
    | ok b => exact h.elim
    | error f => constructor <;> intro he <;> cases he

/-- A loop simulates a loop when each step does. -/
theorem Sim.foldlM {f : α → γ → Except ε α} {g : β → γ → Except ε' β} {I : α → β → Prop}
    (l : List γ) (hStep : ∀ c ∈ l, ∀ a b, I a b → Sim E S I (f a c) (g b c)) {a : α} {b : β}
    (h : I a b) : Sim E S I (l.foldlM f a) (l.foldlM g b) := by
  induction l generalizing a b with
  | nil => exact h
  | cons c l ih =>
    rw [List.foldlM_cons, List.foldlM_cons]
    apply Sim.bind (hStep c List.mem_cons_self a b h)
    intro a' b' h'
    exact ih (fun c' hc' => hStep c' (List.mem_cons_of_mem _ hc')) h'

end Fallible
