import Mathlib.Logic.Equiv.Defs
import Caelix.Lib.Interaction

/-!
# Processes of several kinds

A process whose calls are read as calls of a larger kind, so that processes with calls of
different kinds can share one environment.

* `run_embed`: the runs of an embedded process are the runs of the process.
* `guards_embed`: its guards, with the calls before them.
* `Embedding.left`, `Embedding.right`: two kinds of calls side by side.
-/

namespace Interaction

variable {Call Call' : Type} {Reply : Call → Type} {Reply' : Call' → Type} {α β : Type}

/-- Calls read as calls of another kind, with the same replies. -/
structure Embedding (Reply : Call → Type) (Reply' : Call' → Type) where
  call : Call → Call'
  reply : ∀ c, Reply c ≃ Reply' (call c)

namespace Embedding

def event (E : Embedding Reply Reply') (e : Event Reply) : Event Reply' :=
  ⟨E.call e.1, E.reply e.1 e.2⟩

/-- The replies to calls of two kinds. -/
abbrev SumReply (Reply : Call → Type) (Reply' : Call' → Type) : Call ⊕ Call' → Type
  | .inl c => Reply c
  | .inr c => Reply' c

def left (Reply : Call → Type) (Reply' : Call' → Type) : Embedding Reply (SumReply Reply Reply') :=
  ⟨.inl, fun _ => .refl _⟩

def right (Reply : Call → Type) (Reply' : Call' → Type) : Embedding Reply' (SumReply Reply Reply') :=
  ⟨.inr, fun _ => .refl _⟩

variable {Reply : Call → Type} {Reply' : Call' → Type}

theorem left_event_injective : Function.Injective (left Reply Reply').event := by
  rintro ⟨c, r⟩ ⟨d, x⟩ h
  cases h
  rfl

theorem right_event_injective : Function.Injective (right Reply Reply').event := by
  rintro ⟨c, r⟩ ⟨d, x⟩ h
  cases h
  rfl

end Embedding

namespace Proc

variable {E : Embedding Reply Reply'} {f : α → β}

def embed (E : Embedding Reply Reply') (f : α → β) : Proc Call Reply α → Proc Call' Reply' β
  | done a => done (f a)
  | call c next => call (E.call c) fun r => (next ((E.reply c).symm r)).embed E f

theorem run_embed {p : Proc Call Reply α} {history' : History Reply'} {q' : Proc Call' Reply' β}
    (h : Run (p.embed E f) history' q') :
    ∃ history q, Run p history q ∧ history' = history.map E.event ∧ q' = q.embed E f := by
  generalize hp : p.embed E f = p' at h
  induction h generalizing p with
  | nil p' => exact ⟨[], p, .nil p, rfl, hp.symm⟩
  | @cons c' next' r' history' q' h ih =>
    cases p with
    | done a => cases hp
    | call c next =>
      cases hp
      obtain ⟨history, q, hRun, rfl, rfl⟩ := ih rfl
      refine ⟨⟨c, (E.reply c).symm r'⟩ :: history, q, .cons hRun, ?_, rfl⟩
      rw [List.map_cons]
      congr 1
      unfold Embedding.event
      rw [Equiv.apply_symm_apply]

theorem guards_embed {p : Proc Call Reply α} {P : History Reply → Call → Prop} (h : p.Guards P) :
    (p.embed E f).Guards fun history' c' =>
      ∃ history c, history' = history.map E.event ∧ c' = E.call c ∧ P history c := by
  induction p generalizing P with
  | done a => trivial
  | call c next ih =>
    refine ⟨⟨[], c, rfl, rfl, h.1⟩, fun r => ?_⟩
    refine guards_mono (ih _ (h.2 _)) ?_
    rintro history' c' ⟨history, d, rfl, rfl, hP⟩
    refine ⟨⟨c, (E.reply c).symm r⟩ :: history, d, ?_, rfl, hP⟩
    rw [List.map_cons]
    congr 1
    unfold Embedding.event
    rw [Equiv.apply_symm_apply]

/-- The end of a run of an embedded process. -/
theorem run_embed_done {p : Proc Call Reply α} {history' : History Reply'} {b : β}
    (h : Run (p.embed E f) history' (done b)) :
    ∃ history a, Run p history (done a) ∧ history' = history.map E.event ∧ f a = b := by
  obtain ⟨history, q, hRun, rfl, hDone⟩ := run_embed h
  cases q with
  | done a => exact ⟨history, a, hRun, rfl, (Proc.done.inj hDone).symm⟩
  | call c next => cases hDone

end Proc

end Interaction
