import Caelix.Lib.Interaction

/-!
# Processes in a deterministic environment

The reply to a call is a function of the state, so a process has one run from each state.

* `drive_bind`, `drive_bind_except`: runs follow the composition of processes.
* `drive_keeps`: what each reply keeps.
* `drive_sim`: two environments that answer alike in related states.
-/

namespace Interaction

namespace Proc

variable {σ τ Call : Type} {Reply : Call → Type} {α β ε : Type}

/-- The reply to a call, and the state after it. -/
abbrev Answers (σ Call : Type) (Reply : Call → Type) := σ → (c : Call) → Reply c × σ

/-- The result of a process, and the state after it. -/
def drive (answers : Answers σ Call Reply) : Proc Call Reply α → σ → α × σ
  | done a, s => (a, s)
  | call c next, s => (next (answers s c).1).drive answers (answers s c).2

/-- Every call of the run is made where it may be. -/
def Keeps (answers : Answers σ Call Reply) (P : σ → Call → Prop) : Proc Call Reply α → σ → Prop
  | done _, _ => True
  | call c next, s => P s c ∧ (next (answers s c).1).Keeps answers P (answers s c).2

variable {answers : Answers σ Call Reply} {answers' : Answers τ Call Reply}

@[simp] theorem drive_pure (a : α) (s : σ) :
    (pure a : Proc Call Reply α).drive answers s = (a, s) := rfl

@[simp] theorem drive_perform (c : Call) (s : σ) : (perform c).drive answers s = answers s c := rfl

theorem drive_bind (p : Proc Call Reply α) (f : α → Proc Call Reply β) (s : σ) :
    (p >>= f).drive answers s = (f (p.drive answers s).1).drive answers (p.drive answers s).2 := by
  induction p generalizing s with
  | done a => rfl
  | call c next ih => exact ih _ _

@[simp] theorem drive_ask (c : Call) (s : σ) :
    (ask c : Routine Call Reply ε (Reply c)).run.drive answers s =
      (.ok (answers s c).1, (answers s c).2) := rfl

theorem drive_bind_except (x : Routine Call Reply ε α) (f : α → Routine Call Reply ε β) (s : σ) :
    (x >>= f).run.drive answers s =
      match x.run.drive answers s with
      | (.ok a, t) => (f a).run.drive answers t
      | (.error e, t) => (.error e, t) := by
  have hBind : (x >>= f).run.drive answers s = (ExceptT.bindCont f (x.run.drive answers s).1).drive
      answers (x.run.drive answers s).2 := drive_bind x.run (ExceptT.bindCont f) s
  rw [hBind]
  obtain ⟨r, t⟩ := x.run.drive answers s
  cases r <;> rfl

/-- What the replies keep holds after a run. -/
theorem drive_keeps {I : σ → Prop} (h : ∀ s c, I s → I (answers s c).2) (p : Proc Call Reply α)
    {s : σ} (hI : I s) : I (p.drive answers s).2 := by
  induction p generalizing s with
  | done a => exact hI
  | call c next ih => exact ih _ (h s c hI)

/-- Calls that may be made are answered alike, and lead to related states again. -/
theorem drive_sim {R : σ → τ → Prop} {P : σ → Call → Prop}
    (h : ∀ s t c, R s t → P s c →
      (answers s c).1 = (answers' t c).1 ∧ R (answers s c).2 (answers' t c).2)
    {p : Proc Call Reply α} {s : σ} {t : τ} (hKeeps : p.Keeps answers P s) (hR : R s t) :
    (p.drive answers s).1 = (p.drive answers' t).1 ∧
      R (p.drive answers s).2 (p.drive answers' t).2 := by
  induction p generalizing s t with
  | done a => exact ⟨rfl, hR⟩
  | call c next ih =>
    obtain ⟨hCall, hNext⟩ := hKeeps
    obtain ⟨hReply, hRelated⟩ := h s t c hR hCall
    rw [drive, drive, ← hReply]
    exact ih _ hNext hRelated

end Proc

end Interaction
