import Mathlib.Logic.Relation
import Caelix.Lib.Interaction

/-!
# Processes in a changing environment

An environment has a state, which the calls of a process change and which may also change
by itself between two calls.

* `Exec`: the complete executions of a process.
* `Wp`: what holds of the result and the state at the end of all of them (`Exec.wp`).
* `wp_bind`, `wp_ask`: the rules for compositions and single calls.
* `wp_keeps`: an invariant that every call of the process keeps.
-/

namespace Interaction

structure Environment (σ Call : Type) (Reply : Call → Type) where
  /-- What happens beside the process. -/
  change : σ → σ → Prop
  execute : σ → (c : Call) → σ → Reply c → Prop

variable {σ Call : Type} {Reply : Call → Type} {α β ε : Type} (env : Environment σ Call Reply)

def Environment.Changes : σ → σ → Prop := Relation.ReflTransGen env.change

/-- A property that the environment does not change. -/
def Environment.Stable (P : σ → Prop) : Prop := ∀ s t, env.change s t → P s → P t

theorem Environment.Stable.changes {P : σ → Prop} (hP : env.Stable P) {s t : σ}
    (h : env.Changes s t) (hs : P s) : P t := by
  induction h with
  | refl => exact hs
  | tail _ hChange ih => exact hP _ _ hChange ih

namespace Proc

inductive Exec : Proc Call Reply α → σ → α → σ → Prop
  | done {s t : σ} (a : α) (h : env.Changes s t) : Exec (.done a) s a t
  | call {s t u v : σ} {c : Call} {next : Reply c → Proc Call Reply α} {r : Reply c} {a : α}
      (h : env.Changes s t) (hExecute : env.execute t c u r) (hNext : Exec (next r) u a v) :
      Exec (.call c next) s a v

def Wp : Proc Call Reply α → (α → σ → Prop) → σ → Prop
  | .done a, Q, s => ∀ t, env.Changes s t → Q a t
  | .call c next, Q, s => ∀ t, env.Changes s t → ∀ u r, env.execute t c u r → (next r).Wp Q u

variable {env} {p : Proc Call Reply α} {f : α → Proc Call Reply β} {s t : σ}

theorem Exec.wp {a : α} (h : p.Exec env s a t) {Q : α → σ → Prop} (hWp : p.Wp env Q s) : Q a t := by
  induction h with
  | done a h => exact hWp _ h
  | call h hExecute _ ih => exact ih (hWp _ h _ _ hExecute)

/-! ## Executions -/

theorem exists_done {a : α} {Q : α → σ → Prop} (h : Q a s) :
    ∃ b t, (done a : Proc Call Reply α).Exec env s b t ∧ Q b t :=
  ⟨a, s, .done a .refl, h⟩

/-- A call to which the environment replies at once. -/
theorem exists_call {c : Call} {next : Reply c → Proc Call Reply α} {u : σ} {r : Reply c}
    {Q : α → σ → Prop} (hExecute : env.execute s c u r) (h : ∃ a t, (next r).Exec env u a t ∧ Q a t) :
    ∃ a t, (call c next).Exec env s a t ∧ Q a t := by
  obtain ⟨a, t, hExec, hQ⟩ := h
  exact ⟨a, t, .call .refl hExecute hExec, hQ⟩

/-- Something happens before the process goes on. -/
theorem exists_change {Q : α → σ → Prop} (hChange : env.change s t)
    (h : ∃ a u, p.Exec env t a u ∧ Q a u) : ∃ a u, p.Exec env s a u ∧ Q a u := by
  obtain ⟨a, u, hExec, hQ⟩ := h
  refine ⟨a, u, ?_, hQ⟩
  cases hExec with
  | done a h => exact .done a (.head hChange h)
  | call h hExecute hNext => exact .call (.head hChange h) hExecute hNext

/-! ## Rules -/

theorem wp_mono {Q Q' : α → σ → Prop} (h : p.Wp env Q s) (hQ : ∀ a t, Q a t → Q' a t) :
    p.Wp env Q' s := by
  induction p generalizing s with
  | done a => exact fun t ht => hQ a t (h t ht)
  | call c next ih => exact fun t ht u r hExecute => ih r (h t ht u r hExecute)

theorem wp_bind {R : α → σ → Prop} {Q : β → σ → Prop} (h : p.Wp env R s)
    (hf : ∀ a t, R a t → (f a).Wp env Q t) : (p >>= f).Wp env Q s := by
  induction p generalizing s with
  | done a => exact hf a s (h s .refl)
  | call c next ih => exact fun t ht u r hExecute => ih r (h t ht u r hExecute)

theorem wp_pure {a : α} {Q : α → σ → Prop} (hStable : env.Stable (Q a)) (h : Q a s) :
    (pure a : Proc Call Reply α).Wp env Q s :=
  fun _ ht => hStable.changes _ ht h

/-- A call before the rest of a process. -/
theorem wp_perform_bind {c : Call} {f : Reply c → Proc Call Reply β} {P : σ → Prop}
    {Q : β → σ → Prop} (hP : env.Stable P) (hs : P s)
    (h : ∀ t u r, P t → env.execute t c u r → (f r).Wp env Q u) : (perform c >>= f).Wp env Q s :=
  fun t ht u r hExecute => h t u r (hP.changes _ ht hs) hExecute

/-! ## Processes that end at the first error -/

variable {x : Routine Call Reply ε α} {g : α → Routine Call Reply ε β}

theorem wp_ask {c : Call} {P : σ → Prop} {Q : Except ε (Reply c) → σ → Prop} (hP : env.Stable P)
    (hQ : ∀ r, env.Stable (Q r)) (h : ∀ t u r, P t → env.execute t c u r → Q (.ok r) u) (hs : P s) :
    (ask c : Routine Call Reply ε (Reply c)).run.Wp env Q s := by
  intro t ht u r hExecute v hv
  exact (hQ _).changes _ hv (h t u r (hP.changes _ ht hs) hExecute)

/-- A call before the rest of a routine. -/
theorem wp_ask_bind {c : Call} {g : Reply c → Routine Call Reply ε β} {P : σ → Prop}
    {Q : Except ε β → σ → Prop} (hP : env.Stable P) (hs : P s)
    (h : ∀ t u r, P t → env.execute t c u r → (g r).run.Wp env Q u) :
    (ask c >>= g : Routine Call Reply ε β).run.Wp env Q s :=
  fun t ht u r hExecute => h t u r (hP.changes _ ht hs) hExecute

theorem wp_bind_except {R : Except ε α → σ → Prop} {Q : Except ε β → σ → Prop}
    (h : x.run.Wp env R s) (hError : ∀ e, env.Stable (Q (.error e)))
    (hQ : ∀ e t, R (.error e) t → Q (.error e) t)
    (hg : ∀ a t, R (.ok a) t → (g a).run.Wp env Q t) : (x >>= g).run.Wp env Q s := by
  refine wp_bind (f := ExceptT.bindCont g) h ?_
  intro r t hr
  cases r with
  | ok a => exact hg a t hr
  | error e => exact wp_pure (hError e) (hQ e t hr)

/-- A process whose result is not an error of the routine. -/
theorem wp_lift_bind {R : α → σ → Prop} {Q : Except ε β → σ → Prop} (h : p.Wp env R s)
    (hg : ∀ a t, R a t → (g a).run.Wp env Q t) :
    (ExceptT.lift p >>= g : Routine Call Reply ε β).run.Wp env Q s := by
  induction p generalizing s with
  | done a => exact hg a s (h s .refl)
  | call c next ih => exact fun t ht u r hExecute => ih r (h t ht u r hExecute)

/-- An invariant of the steps of a loop. -/
theorem wp_forM {γ : Type} {step : γ → Proc Call Reply Unit} {I : σ → Prop} (hI : env.Stable I)
    (h : ∀ c t, I t → (step c).Wp env (fun _ => I) t) (l : List γ) (hs : I s) :
    (l.forM step).Wp env (fun _ => I) s := by
  induction l generalizing s with
  | nil => exact wp_pure hI hs
  | cons c l ih => exact wp_bind (h c s hs) fun _ t ht => ih ht

/-- An invariant that every call of the process keeps. -/
theorem wp_keeps {I : σ → Prop} (hI : env.Stable I)
    (h : p.Guards fun _ c => ∀ s t r, I s → env.execute s c t r → I t) (hs : I s) :
    p.Wp env (fun _ => I) s := by
  induction p generalizing s with
  | done a => exact fun t ht => hI.changes _ ht hs
  | call c next ih =>
    intro t ht u r hExecute
    exact ih r (h.2 r) (h.1 t u r (hI.changes _ ht hs) hExecute)

end Proc

end Interaction
