/-!
# Processes that call their environment

A process is the tree of the calls it makes: after each call it goes on with the reply. The
environment may give any reply, so a process stands for all its runs.

* `Post`: what holds at the end of every complete run, from the calls and their replies.
* `Guards`: what holds whenever a call is made, from the calls before it.
* `post_bind`, `guards_bind`: both follow the composition of processes; `post_bind_except`
  and `guards_bind_except` when the first error ends the process.
-/

namespace Interaction

inductive Proc (Call : Type) (Reply : Call → Type) (α : Type) : Type where
  | done (result : α)
  | call (c : Call) (next : Reply c → Proc Call Reply α)

variable {Call : Type} {Reply : Call → Type} {α β ε : Type}

/-- A call and its reply. -/
abbrev Event (Reply : Call → Type) := Sigma Reply

abbrev History (Reply : Call → Type) := List (Event Reply)

/-- A process whose calls may fail; an error ends it. -/
abbrev Routine (Call : Type) (Reply : Call → Type) (ε : Type) := ExceptT ε (Proc Call Reply)

namespace Proc

def bind : Proc Call Reply α → (α → Proc Call Reply β) → Proc Call Reply β
  | done a, f => f a
  | call c next, f => call c fun r => (next r).bind f

instance : Monad (Proc Call Reply) where
  pure := done
  bind := bind

instance : LawfulMonad (Proc Call Reply) := LawfulMonad.mk' _
  (fun p => by
    induction p with
    | done a => rfl
    | call c next ih => exact congrArg (call c) (funext ih))
  (fun _ _ => rfl)
  (fun p f g => by
    induction p with
    | done a => rfl
    | call c next ih => exact congrArg (call c) (funext ih))

/-- One call, with its reply as the result. -/
def perform (c : Call) : Proc Call Reply (Reply c) := call c done

/-- One call of a routine that goes on with any reply. -/
def ask (c : Call) : Routine Call Reply ε (Reply c) := ExceptT.lift (perform c)

/-- A routine a number of times in a row. -/
def times (step : Routine Call Reply ε Unit) : Nat → Routine Call Reply ε Unit
  | 0 => return ()
  | n + 1 => do
    step
    times step n

/-- A process makes some calls; another one is left. -/
inductive Run : Proc Call Reply α → History Reply → Proc Call Reply α → Prop
  | nil (p : Proc Call Reply α) : Run p [] p
  | cons {c : Call} {next : Reply c → Proc Call Reply α} {r : Reply c} {history : History Reply}
      {p : Proc Call Reply α} (h : Run (next r) history p) :
      Run (call c next) (⟨c, r⟩ :: history) p

def Post : Proc Call Reply α → (History Reply → α → Prop) → Prop
  | done a, Q => Q [] a
  | call c next, Q => ∀ r, (next r).Post fun history a => Q (⟨c, r⟩ :: history) a

def Guards : Proc Call Reply α → (History Reply → Call → Prop) → Prop
  | done _, _ => True
  | call c next, P => P [] c ∧ ∀ r, (next r).Guards fun history => P (⟨c, r⟩ :: history)

/-! ## Runs -/

theorem Run.snoc {p : Proc Call Reply α} {history : History Reply} {c : Call}
    {next : Reply c → Proc Call Reply α} (h : Run p history (call c next)) (r : Reply c) :
    Run p (history ++ [⟨c, r⟩]) (next r) := by
  generalize hq : call c next = q at h
  induction h with
  | nil p =>
    subst hq
    exact .cons (.nil _)
  | cons _ ih => exact .cons (ih hq)

theorem Run.post {p : Proc Call Reply α} {history : History Reply} {a : α}
    (h : Run p history (done a)) {Q : History Reply → α → Prop} (hPost : p.Post Q) :
    Q history a := by
  generalize hq : done a = q at h
  induction h generalizing Q with
  | nil p =>
    subst hq
    exact hPost
  | cons _ ih => exact ih (hPost _) hq

theorem Run.guards {p : Proc Call Reply α} {history : History Reply} {c : Call}
    {next : Reply c → Proc Call Reply α} (h : Run p history (call c next))
    {P : History Reply → Call → Prop} (hGuards : p.Guards P) : P history c := by
  generalize hq : call c next = q at h
  induction h generalizing P with
  | nil p =>
    subst hq
    exact hGuards.1
  | cons _ ih => exact ih (hGuards.2 _) hq

/-- Every call of a run was made where the guard held. -/
theorem Run.guards_mem {p q : Proc Call Reply α} {history : History Reply} (h : Run p history q)
    {P : History Reply → Call → Prop} (hGuards : p.Guards P) {e : Event Reply} (he : e ∈ history) :
    ∃ before later, history = before ++ later ∧ P before e.1 := by
  induction h generalizing P with
  | nil p => cases he
  | @cons c next r history q _ ih =>
    rcases List.mem_cons.mp he with rfl | he
    · exact ⟨[], _, rfl, hGuards.1⟩
    · obtain ⟨before, later, rfl, hP⟩ := ih (hGuards.2 r) he
      exact ⟨⟨c, r⟩ :: before, later, rfl, hP⟩

/-- An environment with a reply to every call drives a process to its end. -/
theorem exists_run (p : Proc Call Reply α) (reply : ∀ c, Reply c) :
    ∃ history a, Run p history (done a) ∧ ∀ e ∈ history, e.2 = reply e.1 := by
  induction p with
  | done a => exact ⟨[], a, .nil _, nofun⟩
  | call c next ih =>
    obtain ⟨history, a, hRun, hReplies⟩ := ih (reply c)
    refine ⟨⟨c, reply c⟩ :: history, a, .cons hRun, ?_⟩
    intro e he
    rcases List.mem_cons.mp he with rfl | he
    · rfl
    · exact hReplies e he

/-! ## Rules -/

variable {p : Proc Call Reply α} {f : α → Proc Call Reply β}

theorem post_mono {Q Q' : History Reply → α → Prop} (h : p.Post Q)
    (hQ : ∀ history a, Q history a → Q' history a) : p.Post Q' := by
  induction p generalizing Q Q' with
  | done a => exact hQ [] a h
  | call c next ih => exact fun r => ih r (h r) fun history a => hQ (⟨c, r⟩ :: history) a

theorem post_true (p : Proc Call Reply α) : p.Post fun _ _ => True := by
  induction p with
  | done a => trivial
  | call c next ih => exact ih

theorem guards_mono {P P' : History Reply → Call → Prop} (h : p.Guards P)
    (hP : ∀ history c, P history c → P' history c) : p.Guards P' := by
  induction p generalizing P P' with
  | done a => trivial
  | call c next ih =>
    exact ⟨hP [] c h.1, fun r => ih r (h.2 r) fun history d => hP (⟨c, r⟩ :: history) d⟩

@[simp] theorem post_pure (a : α) (Q : History Reply → α → Prop) :
    (pure a : Proc Call Reply α).Post Q ↔ Q [] a := Iff.rfl

@[simp] theorem post_perform (c : Call) (Q : History Reply → Reply c → Prop) :
    (perform c).Post Q ↔ ∀ r, Q [⟨c, r⟩] r := Iff.rfl

@[simp] theorem guards_pure (a : α) (P : History Reply → Call → Prop) :
    (pure a : Proc Call Reply α).Guards P ↔ True := Iff.rfl

@[simp] theorem guards_perform (c : Call) (P : History Reply → Call → Prop) :
    (perform c : Proc Call Reply (Reply c)).Guards P ↔ P [] c :=
  and_iff_left fun _ => trivial

@[simp] theorem post_ask (c : Call) (Q : History Reply → Except ε (Reply c) → Prop) :
    (ask c : Routine Call Reply ε (Reply c)).run.Post Q ↔ ∀ r, Q [⟨c, r⟩] (.ok r) := Iff.rfl

@[simp] theorem guards_ask (c : Call) (P : History Reply → Call → Prop) :
    (ask c : Routine Call Reply ε (Reply c)).run.Guards P ↔ P [] c :=
  and_iff_left fun _ => trivial

theorem post_bind {Q : History Reply → β → Prop} :
    (p >>= f).Post Q ↔ p.Post fun history a => (f a).Post fun later b => Q (history ++ later) b := by
  induction p generalizing Q with
  | done a => exact Iff.rfl
  | call c next ih => exact forall_congr' fun r => ih r

theorem guards_bind {P : History Reply → Call → Prop} :
    (p >>= f).Guards P ↔
      p.Guards P ∧ p.Post fun history a => (f a).Guards fun later => P (history ++ later) := by
  induction p generalizing P with
  | done a => exact ⟨fun h => ⟨trivial, h⟩, fun h => h.2⟩
  | call c next ih =>
    have hNext : (∀ r, ((next r).bind f).Guards fun history => P (⟨c, r⟩ :: history)) ↔
        (∀ r, (next r).Guards fun history => P (⟨c, r⟩ :: history)) ∧
          ∀ r, (next r).Post fun history a =>
            (f a).Guards fun later => P (⟨c, r⟩ :: history ++ later) :=
      (forall_congr' fun r => ih r).trans forall_and
    exact (and_congr_right fun _ => hNext).trans and_assoc.symm

/-! ## Processes that end at the first error -/

variable {x : Routine Call Reply ε α} {g : α → Routine Call Reply ε β}

theorem post_bind_except {Q : History Reply → Except ε β → Prop} :
    (x >>= g).run.Post Q ↔ x.run.Post fun history r =>
      match r with
      | .ok a => (g a).run.Post fun later b => Q (history ++ later) b
      | .error e => Q history (.error e) := by
  have hBind : (x >>= g).run.Post Q ↔
      x.run.Post fun history r => (ExceptT.bindCont g r).Post fun later b => Q (history ++ later) b :=
    post_bind
  rw [hBind]
  have hCont : ∀ history r, ((ExceptT.bindCont g r).Post fun later b => Q (history ++ later) b) ↔
      match r with
      | .ok a => (g a).run.Post fun later b => Q (history ++ later) b
      | .error e => Q history (.error e) := by
    intro history r
    cases r with
    | ok a => exact Iff.rfl
    | error e => exact iff_of_eq (congrArg (fun h => Q h (.error e)) (List.append_nil history))
  exact ⟨fun h => post_mono h fun history r => (hCont history r).mp,
    fun h => post_mono h fun history r => (hCont history r).mpr⟩

theorem post_lift {Q : History Reply → Except ε α → Prop} :
    (ExceptT.lift p : Routine Call Reply ε α).run.Post Q ↔ p.Post fun history a => Q history (.ok a) := by
  have hBind : (ExceptT.lift p : Routine Call Reply ε α).run.Post Q ↔
      p.Post fun history a => Q (history ++ []) (.ok a) := post_bind
  rw [hBind]
  simp only [List.append_nil]

theorem guards_bind_except {P : History Reply → Call → Prop} :
    (x >>= g).run.Guards P ↔ x.run.Guards P ∧ x.run.Post fun history r =>
      match r with
      | .ok a => (g a).run.Guards fun later => P (history ++ later)
      | .error _ => True := by
  have hBind : (x >>= g).run.Guards P ↔ x.run.Guards P ∧
      x.run.Post fun history r => (ExceptT.bindCont g r).Guards fun later => P (history ++ later) :=
    guards_bind
  rw [hBind]
  have hCont : ∀ history r, ((ExceptT.bindCont g r).Guards fun later => P (history ++ later)) ↔
      match r with
      | .ok a => (g a).run.Guards fun later => P (history ++ later)
      | .error _ => True := by
    intro history r
    cases r <;> exact Iff.rfl
  exact and_congr_right fun _ => ⟨fun h => post_mono h fun history r => (hCont history r).mp,
    fun h => post_mono h fun history r => (hCont history r).mpr⟩

theorem post_ask_bind {c : Call} {next : Reply c → Routine Call Reply ε β}
    {Q : History Reply → Except ε β → Prop} :
    (ask c >>= next).run.Post Q ↔ ∀ r, (next r).run.Post fun later => Q (⟨c, r⟩ :: later) := Iff.rfl

theorem guards_ask_bind {c : Call} {next : Reply c → Routine Call Reply ε β}
    {P : History Reply → Call → Prop} :
    (ask c >>= next).run.Guards P ↔
      P [] c ∧ ∀ r, (next r).run.Guards fun later => P (⟨c, r⟩ :: later) := Iff.rfl

/-- A loop ends with its invariant, or in a step that fails. -/
theorem post_times {step : Routine Call Reply ε Unit} {I : History Reply → Prop}
    {Q : History Reply → Except ε Unit → Prop} (hStart : I [])
    (hStep : ∀ before, I before → step.run.Post fun history r =>
      match r with
      | .ok () => I (before ++ history)
      | .error e => Q (before ++ history) (.error e))
    (hDone : ∀ history, I history → Q history (.ok ())) (n : Nat) : (times step n).run.Post Q := by
  suffices hRest : ∀ before, I before → (times step n).run.Post fun later => Q (before ++ later) from
    hRest [] hStart
  induction n with
  | zero =>
    intro before hBefore
    exact hDone _ (by rwa [List.append_nil])
  | succ n ih =>
    intro before hBefore
    rw [times, post_bind_except]
    refine post_mono (hStep before hBefore) ?_
    intro history r h
    cases r with
    | ok _ =>
      refine post_mono (ih _ h) ?_
      intro later r hLater
      rwa [← List.append_assoc]
    | error e => exact h

/-- A call repeated until it fails. -/
theorem post_times_call {c : Call} {step : Routine Call Reply ε Unit}
    {result : Reply c → Except ε Unit}
    (hStep : ∀ Q, step.run.Post Q ↔ ∀ r, Q [⟨c, r⟩] (result r)) (n : Nat) :
    (times step n).run.Post fun history r => (∀ e ∈ history, e.1 = c) ∧
      (r = .ok () ∨ ∃ reply e, ⟨c, reply⟩ ∈ history ∧ result reply = .error e ∧ r = .error e) := by
  refine post_times (I := fun history => ∀ e ∈ history, e.1 = c) nofun ?_ ?_ n
  · intro before hBefore
    refine (hStep _).mpr fun r => ?_
    have hCalls : ∀ e ∈ before ++ [(⟨c, r⟩ : Event Reply)], e.1 = c := by
      intro e he
      rcases List.mem_append.mp he with he | he
      · exact hBefore e he
      · rw [List.mem_singleton.mp he]
    cases hResult : result r with
    | ok _ => exact hCalls
    | error e => exact ⟨hCalls, .inr ⟨r, e, by simp, hResult, rfl⟩⟩
  · intro history h
    exact ⟨h, .inl rfl⟩

/-- A guard on the calls alone. -/
theorem guards_bind_calls {P : Call → Prop} (hx : x.run.Guards fun _ => P)
    (hg : ∀ a, (g a).run.Guards fun _ => P) : (x >>= g).run.Guards fun _ => P := by
  rw [guards_bind_except]
  refine ⟨hx, post_mono (post_true x.run) ?_⟩
  intro history r _
  cases r with
  | ok a => exact hg a
  | error _ => trivial

theorem guards_times {step : Routine Call Reply ε Unit} {P : Call → Prop}
    (h : step.run.Guards fun _ => P) (n : Nat) : (times step n).run.Guards fun _ => P := by
  induction n with
  | zero => trivial
  | succ n ih => exact guards_bind_calls h fun _ => ih

theorem guards_forM {γ : Type} {step : γ → Routine Call Reply ε Unit} {P : Call → Prop}
    (h : ∀ c, (step c).run.Guards fun _ => P) (l : List γ) : (l.forM step).run.Guards fun _ => P := by
  induction l with
  | nil => trivial
  | cons c l ih => exact guards_bind_calls (h c) fun _ => ih

end Proc

end Interaction
