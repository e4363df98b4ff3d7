import Caelix.Lib.Interaction

/-!
# Processes that act on a state

The calls of a process read and change a state that nothing else changes while it runs.

* `Traced`: an execution, with its calls and their replies.
* `Leads`: what holds of the history, the result and the state at the end of every
  execution (`Traced.leads`).
* `recording`: the effects together with the events of one kind so far (`Traced.recording`).
* `leads_bind`, `leads_bind_except`: both follow the composition of processes; `ends_bind` when
  the history does not matter.
-/

namespace Interaction

/-- What a call may do to the state, and its reply. -/
abbrev Effects (σ Call : Type) (Reply : Call → Type) := σ → (c : Call) → σ → Reply c → Prop

namespace Proc

variable {σ Call : Type} {Reply : Call → Type} {α β ε : Type} (effects : Effects σ Call Reply)

inductive Traced : Proc Call Reply α → σ → History Reply → α → σ → Prop
  | done (a : α) (s : σ) : Traced (.done a) s [] a s
  | call {s t u : σ} {c : Call} {next : Reply c → Proc Call Reply α} {r : Reply c}
      {history : History Reply} {a : α} (h : effects s c t r) (hNext : Traced (next r) t history a u) :
      Traced (.call c next) s (⟨c, r⟩ :: history) a u

def Leads : Proc Call Reply α → (History Reply → α → σ → Prop) → σ → Prop
  | .done a, Q, s => Q [] a s
  | .call c next, Q, s =>
    ∀ t r, effects s c t r → (next r).Leads (fun history => Q (⟨c, r⟩ :: history)) t

variable {effects} {p : Proc Call Reply α} {f : α → Proc Call Reply β} {s t : σ}

theorem Traced.leads {history : History Reply} {a : α} (h : p.Traced effects s history a t)
    {Q : History Reply → α → σ → Prop} (hLeads : p.Leads effects Q s) : Q history a t := by
  induction h generalizing Q with
  | done a s => exact hLeads
  | call h _ ih => exact ih (hLeads _ _ h)

/-! ## Recorded events -/

/-- The effects, with the events whose call is of a kind added to those before. -/
def recording (effects : Effects σ Call Reply) (kind : Call → Bool) :
    Effects (σ × History Reply) Call Reply := fun s c t r =>
  effects s.1 c t.1 r ∧ t.2 = s.2 ++ [Sigma.mk c r].filter fun e => kind e.1

theorem Traced.recording {history : History Reply} {a : α} (h : p.Traced effects s history a t)
    (kind : Call → Bool) (before : History Reply) :
    p.Traced (Proc.recording effects kind) (s, before) history a
      (t, before ++ history.filter fun e => kind e.1) := by
  induction h generalizing before with
  | done a s =>
    rw [List.filter_nil, List.append_nil]
    exact .done a _
  | @call s t u c next r history a h hNext ih =>
    rw [show (⟨c, r⟩ :: history : History Reply) = [⟨c, r⟩] ++ history from rfl,
      List.filter_append, ← List.append_assoc]
    exact .call ⟨h, rfl⟩ (ih _)

/-! ## Rules -/

theorem leads_mono {Q Q' : History Reply → α → σ → Prop} (h : p.Leads effects Q s)
    (hQ : ∀ history a t, Q history a t → Q' history a t) : p.Leads effects Q' s := by
  induction p generalizing s Q Q' with
  | done a => exact hQ [] a s h
  | call c next ih =>
    intro t r hCall
    exact ih r (h t r hCall) fun history a t => hQ (⟨c, r⟩ :: history) a t

theorem leads_bind {Q : History Reply → β → σ → Prop} :
    (p >>= f).Leads effects Q s ↔
      p.Leads effects (fun history a => (f a).Leads effects fun later => Q (history ++ later)) s := by
  induction p generalizing s Q with
  | done a => exact Iff.rfl
  | call c next ih => exact forall_congr' fun t => forall_congr' fun r => forall_congr' fun _ => ih r

@[simp] theorem leads_pure (a : α) (Q : History Reply → α → σ → Prop) :
    (pure a : Proc Call Reply α).Leads effects Q s ↔ Q [] a s := Iff.rfl

@[simp] theorem leads_perform (c : Call) (Q : History Reply → Reply c → σ → Prop) :
    (perform c).Leads effects Q s ↔ ∀ t r, effects s c t r → Q [⟨c, r⟩] r t := Iff.rfl

/-! ## Processes that end at the first error -/

variable {x : Routine Call Reply ε α} {g : α → Routine Call Reply ε β}

@[simp] theorem leads_ask (c : Call) (Q : History Reply → Except ε (Reply c) → σ → Prop) :
    (ask c : Routine Call Reply ε (Reply c)).run.Leads effects Q s ↔
      ∀ t r, effects s c t r → Q [⟨c, r⟩] (.ok r) t := Iff.rfl

theorem leads_bind_except {Q : History Reply → Except ε β → σ → Prop} :
    (x >>= g).run.Leads effects Q s ↔ x.run.Leads effects (fun history r t =>
      match r with
      | .ok a => (g a).run.Leads effects (fun later b => Q (history ++ later) b) t
      | .error e => Q history (.error e) t) s := by
  have hBind : (x >>= g).run.Leads effects Q s ↔ x.run.Leads effects (fun history r =>
      (ExceptT.bindCont g r).Leads effects fun later b => Q (history ++ later) b) s := leads_bind
  rw [hBind]
  have hCont : ∀ history r t,
      ((ExceptT.bindCont g r).Leads effects (fun later b => Q (history ++ later) b) t) ↔
      match r with
      | .ok a => (g a).run.Leads effects (fun later b => Q (history ++ later) b) t
      | .error e => Q history (.error e) t := by
    intro history r t
    cases r with
    | ok a => exact Iff.rfl
    | error e => exact iff_of_eq (congrArg (fun h => Q h (.error e) t) (List.append_nil history))
  exact ⟨fun h => leads_mono h fun history r t => (hCont history r t).mp,
    fun h => leads_mono h fun history r t => (hCont history r t).mpr⟩

/-! ## Routines whose history does not matter -/

/-- What holds of the result and the state at the end of every execution. -/
def Ends (effects : Effects σ Call Reply) (x : Routine Call Reply ε α) (Q : Except ε α → σ → Prop)
    (s : σ) : Prop := x.run.Leads effects (fun _ => Q) s

@[simp] theorem ends_pure (a : α) (Q : Except ε α → σ → Prop) :
    Ends effects (pure a : Routine Call Reply ε α) Q s ↔ Q (.ok a) s := Iff.rfl

@[simp] theorem ends_throw (e : ε) (Q : Except ε α → σ → Prop) :
    Ends effects (throw e : Routine Call Reply ε α) Q s ↔ Q (.error e) s := Iff.rfl

@[simp] theorem ends_ask (c : Call) (Q : Except ε (Reply c) → σ → Prop) :
    Ends effects (ask c : Routine Call Reply ε (Reply c)) Q s ↔
      ∀ t r, effects s c t r → Q (.ok r) t := Iff.rfl

theorem ends_bind {Q : Except ε β → σ → Prop} :
    Ends effects (x >>= g) Q s ↔ Ends effects x (fun r t =>
      match r with
      | .ok a => Ends effects (g a) Q t
      | .error e => Q (.error e) t) s := by
  unfold Ends
  rw [leads_bind_except]

end Proc

end Interaction
