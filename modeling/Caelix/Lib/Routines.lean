import Mathlib.Data.List.Forall2
import Caelix.Lib.Interaction

/-!
# Routines

Rules for processes that an error may end, as a postcondition of the result and one of the error.

* `Ensures`: both postconditions; the one of the result sees the calls made.
* `Ensures.bind`, `guards_bind_ensures`: routines one after the other.
* `ensures_mapM`, `ensures_forM`: loops over a list whose facts stay true as calls are added.
* `Threaded`: what relates two lists when every element leaves a state to the next.
-/

namespace Interaction

/-- Two lists, related along a state that is passed from one element to the next. -/
inductive Threaded {σ γ δ : Type} (next : σ → γ → σ) (R : σ → γ → δ → Prop) :
    σ → List γ → List δ → Prop
  | nil (s : σ) : Threaded next R s [] []
  | cons {s : σ} {c : γ} {cs : List γ} {d : δ} {ds : List δ} (h : R s c d)
      (hRest : Threaded next R (next s c) cs ds) : Threaded next R s (c :: cs) (d :: ds)

namespace Threaded

variable {σ γ δ η : Type} {next : σ → γ → σ} {R : σ → γ → δ → Prop} {s : σ} {cs : List γ}
  {ds : List δ}

theorem length_eq (h : Threaded next R s cs ds) : cs.length = ds.length := by
  induction h with
  | nil _ => rfl
  | cons _ _ ih => exact congrArg Nat.succ ih

/-- A relation that holds in every state. -/
theorem of_forall₂ (h : List.Forall₂ (fun c d => ∀ s, R s c d) cs ds) (s : σ) :
    Threaded next R s cs ds := by
  induction h generalizing s with
  | nil => exact .nil s
  | cons h _ ih => exact .cons (h s) (ih _)

/-- What is made of the elements of both lists. -/
theorem zip {S : γ × δ → η → Prop} {T : σ → γ → η → Prop} {es : List η} (h : Threaded next R s cs ds)
    (hEach : List.Forall₂ S (cs.zip ds) es) (hT : ∀ s c d e, R s c d → S (c, d) e → T s c e) :
    Threaded next T s cs es := by
  induction h generalizing es with
  | nil s =>
    cases hEach
    exact .nil s
  | cons h _ ih =>
    obtain ⟨e, es, he, hRest, rfl⟩ := List.forall₂_cons_left_iff.mp hEach
    exact .cons (hT _ _ _ _ h he) (ih hRest)

end Threaded

namespace Proc

variable {Call : Type} {Reply : Call → Type} {α β γ ε : Type}

theorem forall_right {δ : Type} {R : γ → δ → Prop} {P : δ → Prop} {l : List γ} {l' : List δ}
    (h : List.Forall₂ R l l') (hR : ∀ c d, R c d → P d) : ∀ d ∈ l', P d := by
  induction h with
  | nil => exact List.forall_mem_nil _
  | cons hHead _ ih => exact List.forall_mem_cons.mpr ⟨hR _ _ hHead, ih⟩

/-- A guard on the calls alone holds of all calls made. -/
theorem post_calls {p : Proc Call Reply α} {P : Call → Prop} (h : p.Guards fun _ => P) :
    p.Post fun history _ => ∀ e ∈ history, P e.1 := by
  induction p with
  | done a => exact fun e he => nomatch he
  | call c next ih =>
    intro r
    refine post_mono (ih r (h.2 r)) fun history a hAll => ?_
    exact List.forall_mem_cons.mpr ⟨h.1, hAll⟩

/-- Such a guard holds of all calls before as well. -/
theorem guards_calls {p : Proc Call Reply α} {P : Call → Prop} (h : p.Guards fun _ => P) :
    p.Guards fun history c => (∀ e ∈ history, P e.1) ∧ P c := by
  induction p with
  | done a => trivial
  | call c next ih =>
    refine ⟨⟨fun e he => (nomatch he), h.1⟩, fun r => ?_⟩
    refine guards_mono (ih r (h.2 r)) fun history d hAll => ?_
    exact ⟨List.forall_mem_cons.mpr ⟨h.1, hAll.1⟩, hAll.2⟩

theorem post_and {p : Proc Call Reply α} {Q Q' : History Reply → α → Prop} (h : p.Post Q)
    (h' : p.Post Q') : p.Post fun history a => Q history a ∧ Q' history a := by
  induction p generalizing Q Q' with
  | done a => exact ⟨h, h'⟩
  | call c next ih => exact fun r => ih r (h r) (h' r)

/-- Every complete run ends with a result as `Q` says, or with an error as `E` says. -/
def Ensures (x : Routine Call Reply ε α) (Q : History Reply → α → Prop) (E : ε → Prop) : Prop :=
  x.run.Post fun history r =>
    match r with
    | .ok a => Q history a
    | .error e => E e

variable {x : Routine Call Reply ε α} {g : α → Routine Call Reply ε β}
  {Q : History Reply → α → Prop} {Q' : History Reply → β → Prop} {E : ε → Prop}

theorem Ensures.mono {R : History Reply → α → Prop} {F : ε → Prop} (h : Ensures x Q E)
    (hQ : ∀ history a, Q history a → R history a) (hE : ∀ e, E e → F e) : Ensures x R F := by
  refine post_mono h fun history r hr => ?_
  cases r with
  | ok a => exact hQ history a hr
  | error e => exact hE e hr

theorem Ensures.and {R : History Reply → α → Prop} (h : Ensures x Q E)
    (h' : Ensures x R fun _ => True) : Ensures x (fun history a => Q history a ∧ R history a) E := by
  refine post_mono (post_and h h') fun history r hr => ?_
  cases r with
  | ok a => exact hr
  | error e => exact hr.1

theorem ensures_true (x : Routine Call Reply ε α) :
    Ensures x (fun _ _ => True) fun _ => True := by
  refine post_mono (post_true x.run) fun history r _ => ?_
  cases r <;> trivial

/-- A guard on the calls alone, as a postcondition. -/
theorem ensures_calls {P : Call → Prop} (h : x.run.Guards fun _ => P) :
    Ensures x (fun history _ => ∀ e ∈ history, P e.1) fun _ => True := by
  refine post_mono (post_calls h) fun history r hr => ?_
  cases r with
  | ok a => exact hr
  | error e => trivial

theorem ensures_pure {a : α} (h : Q [] a) : Ensures (pure a : Routine Call Reply ε α) Q E := h

theorem ensures_throw {e : ε} (h : E e) : Ensures (throw e : Routine Call Reply ε α) Q E := h

theorem ensures_ask {c : Call} {Q : History Reply → Reply c → Prop} (h : ∀ r, Q [⟨c, r⟩] r) :
    Ensures (ask c : Routine Call Reply ε (Reply c)) Q E := h

theorem Ensures.bind (hx : Ensures x Q E)
    (hg : ∀ before a, Q before a → Ensures (g a) (fun later => Q' (before ++ later)) E) :
    Ensures (x >>= g) Q' E := by
  refine post_bind_except.mpr (post_mono hx fun history r hr => ?_)
  cases r with
  | ok a => exact hg history a hr
  | error e => exact hr

theorem guards_bind_ensures {P : History Reply → Call → Prop} {F : ε → Prop}
    (hx : x.run.Guards P) (hEnsures : Ensures x Q F)
    (hg : ∀ before a, Q before a → (g a).run.Guards fun later => P (before ++ later)) :
    (x >>= g).run.Guards P := by
  refine guards_bind_except.mpr ⟨hx, post_mono hEnsures fun history r hr => ?_⟩
  cases r with
  | ok a => exact hg history a hr
  | error e => trivial

/-- A routine with a guard on its calls, before another one. -/
theorem post_bind_calls {R : History Reply → Except ε β → Prop} {P : Call → Prop}
    (hCalls : x.run.Guards fun _ => P) (hEnsures : Ensures x Q E)
    (hError : ∀ history e, (∀ event ∈ history, P event.1) → E e → R history (.error e))
    (hg : ∀ before a, (∀ event ∈ before, P event.1) → Q before a →
      (g a).run.Post fun later r => R (before ++ later) r) : (x >>= g).run.Post R := by
  refine post_bind_except.mpr ?_
  refine post_mono (post_and (post_calls hCalls) hEnsures) fun history r ⟨hHistory, hr⟩ => ?_
  cases r with
  | ok a => exact hg history a hHistory hr
  | error e => exact hError history e hHistory hr

theorem ensures_lift {p : Proc Call Reply α} {Q : History Reply → α → Prop} (h : p.Post Q) :
    Ensures (ExceptT.lift p : Routine Call Reply ε α) Q E := post_lift.mpr h

theorem guards_lift {p : Proc Call Reply α} {P : History Reply → Call → Prop} (h : p.Guards P) :
    (ExceptT.lift p : Routine Call Reply ε α).run.Guards P :=
  guards_bind.mpr ⟨h, post_mono (post_true p) fun _ _ _ => trivial⟩

/-! ## Loops -/

/-- A fact about the calls made that more calls leave true. -/
def Persists (Q : History Reply → Prop) : Prop := ∀ h h', h ⊆ h' → Q h → Q h'

variable {step : γ → Routine Call Reply ε β} {R : γ → β → History Reply → Prop}

theorem ensures_mapM (hPersists : ∀ c b, Persists (R c b)) (l : List γ)
    (hStep : ∀ c ∈ l, Ensures (step c) (fun history b => R c b history) E) :
    Ensures (l.mapM step) (fun history bs => List.Forall₂ (fun c b => R c b history) l bs) E := by
  induction l with
  | nil => exact ensures_pure .nil
  | cons c l ih =>
    obtain ⟨hFirst, hRest⟩ := List.forall_mem_cons.mp hStep
    rw [List.mapM_cons]
    refine hFirst.bind fun before b hb => ?_
    refine (ih hRest).bind fun later bs hbs => ensures_pure ?_
    rw [List.append_nil]
    refine .cons (hPersists c b _ _ (List.subset_append_left before later) hb) ?_
    exact hbs.imp fun c b => hPersists c b _ _ (List.subset_append_right before later)

theorem ensures_forM {step : γ → Routine Call Reply ε Unit} {R : γ → History Reply → Prop}
    (hPersists : ∀ c, Persists (R c)) (l : List γ)
    (hStep : ∀ c ∈ l, Ensures (step c) (fun history _ => R c history) E) :
    Ensures (l.forM step) (fun history _ => ∀ c ∈ l, R c history) E := by
  induction l with
  | nil => exact ensures_pure nofun
  | cons c l ih =>
    obtain ⟨hFirst, hRest⟩ := List.forall_mem_cons.mp hStep
    refine hFirst.bind fun before _ hc => ?_
    refine (ih hRest).mono (fun later _ hAll => List.forall_mem_cons.mpr ⟨?_, ?_⟩) fun _ he => he
    · exact hPersists c _ _ (List.subset_append_left before later) hc
    · exact fun d hd => hPersists d _ _ (List.subset_append_right before later) (hAll d hd)

/-- A loop whose steps make one call each. -/
theorem ensures_forM_each {step : γ → Routine Call Reply ε Unit} {R : γ → Event Reply → Prop}
    (l : List γ)
    (hStep : ∀ c ∈ l, Ensures (step c) (fun history _ => ∃ e, history = [e] ∧ R c e) E) :
    Ensures (l.forM step) (fun history _ => List.Forall₂ R l history) E := by
  induction l with
  | nil => exact ensures_pure .nil
  | cons c l ih =>
    obtain ⟨hFirst, hRest⟩ := List.forall_mem_cons.mp hStep
    refine hFirst.bind fun before _ ⟨e, hBefore, he⟩ => ?_
    refine (ih hRest).mono (fun later _ hAll => ?_) fun _ he => he
    rw [hBefore]
    exact .cons he hAll

/-- A guard on the calls of such a loop, after the steps before. -/
theorem guards_forM_each {step : γ → Routine Call Reply ε Unit} {R : γ → Event Reply → Prop}
    {F : ε → Prop} {P : History Reply → Call → Prop} (l : List γ)
    (hStep : ∀ c ∈ l, Ensures (step c) (fun history _ => ∃ e, history = [e] ∧ R c e) F)
    (hGuards : ∀ before c later, l = before ++ c :: later → ∀ history, List.Forall₂ R before history →
      (step c).run.Guards fun own => P (history ++ own)) :
    (l.forM step).run.Guards P := by
  induction l generalizing P with
  | nil => trivial
  | cons c l ih =>
    obtain ⟨hFirst, hRest⟩ := List.forall_mem_cons.mp hStep
    refine guards_bind_ensures (hGuards [] c l rfl [] .nil) hFirst fun first _ ⟨e, hOwn, he⟩ => ?_
    rw [hOwn]
    refine ih hRest fun before d later hSplit history hBefore => ?_
    exact hGuards (c :: before) d later (congrArg (c :: ·) hSplit) (e :: history) (.cons he hBefore)

theorem guards_mapM {P : Call → Prop} (h : ∀ c, (step c).run.Guards fun _ => P) (l : List γ) :
    (l.mapM step).run.Guards fun _ => P := by
  induction l with
  | nil => trivial
  | cons c l ih =>
    rw [List.mapM_cons]
    refine guards_bind_calls (h c) fun b => ?_
    exact guards_bind_calls ih fun bs => trivial

end Proc

end Interaction
