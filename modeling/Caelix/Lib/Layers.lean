import Mathlib.Data.List.Forall2
import Caelix.Lib.Interaction

/-!
# Layers around a process

A layer makes a call before the process inside it, which it may answer for, and a call with
the result of that process, which it may replace. It may also abandon the process at one of
its calls, which is then not replied to. Layers are nested, the first one outermost.

* `within`: a process that may be abandoned.
* `Enters`, `Leaves`: the calls of the layers before and after what is inside them.
* `guards_layered`: what is inside all layers runs after each of them has let it.
* `post_layered`: the layers that let something run to its end are told of its result in reverse
  order, each of the result that the one inside it has left.
-/

namespace Interaction

/-- What a layer decides before the process inside it: that its result is `a`, or to run the
process. With a limit `(n, a)` it waits for `n` replies; when one more call is made before the
end, it abandons the process for the result `a`. -/
inductive Decision (α : Type) where
  | answers (a : α)
  | runs (limit : Option (Nat × α))

/-- A layer. `resume` is its call with the result of the process inside; a result without such a
call passes the layer by. -/
structure Layer (Call : Type) (Reply : Call → Type) (α : Type) where
  before : Call
  decision : Reply before → Decision α
  resume : α → Option ((c : Call) × (Reply c → α))

variable {Call : Type} {Reply : Call → Type} {α : Type}

namespace Proc

/-- A process within a limit, which `finish` follows. The call at which it is abandoned has been
made; what is replied to it is lost. -/
def within (limit : Option (Nat × α)) (finish : α → Proc Call Reply α) :
    Proc Call Reply α → Proc Call Reply α
  | .done a => finish a
  | .call c next => .call c fun r =>
    match limit with
    | none => (next r).within none finish
    | some (0, a) => .done a
    | some (n + 1, a) => (next r).within (some (n, a)) finish

variable {limit : Option (Nat × α)} {finish : α → Proc Call Reply α} {p : Proc Call Reply α}

theorem post_within {Q R : History Reply → α → Prop} (h : p.Post Q)
    (hEnd : ∀ history a, Q history a → (finish a).Post fun later b => R (history ++ later) b)
    (hCut : ∀ n a history, limit = some (n, a) → history.length = n + 1 → R history a) :
    (p.within limit finish).Post R := by
  induction p generalizing limit Q R with
  | done a => exact hEnd [] a h
  | call c next ih =>
    intro r
    have hNext : ∀ rest, (∀ n a history, rest = some (n, a) → history.length = n + 1 →
        R (⟨c, r⟩ :: history) a) →
        ((next r).within rest finish).Post fun history b => R (⟨c, r⟩ :: history) b :=
      fun rest => ih r (h r) fun history a => hEnd (⟨c, r⟩ :: history) a
    match limit with
    | none => exact hNext none nofun
    | some (0, a) => exact hCut 0 a [⟨c, r⟩] rfl rfl
    | some (n + 1, a) =>
      refine hNext (some (n, a)) fun m b history hLimit hLength => ?_
      cases hLimit
      exact hCut (n + 1) a (⟨c, r⟩ :: history) rfl (congrArg Nat.succ hLength)

theorem guards_within {P : History Reply → Call → Prop} (h : p.Guards P)
    (hEnd : ∀ history a, (finish a).Guards fun later => P (history ++ later)) :
    (p.within limit finish).Guards P := by
  induction p generalizing limit P with
  | done a => exact hEnd [] a
  | call c next ih =>
    refine ⟨h.1, fun r => ?_⟩
    have hNext : ∀ rest, ((next r).within rest finish).Guards fun history => P (⟨c, r⟩ :: history) :=
      fun rest => ih r (h.2 r) fun history a => hEnd (⟨c, r⟩ :: history) a
    match limit with
    | none => exact hNext none
    | some (0, a) => trivial
    | some (n + 1, a) => exact hNext (some (n, a))

end Proc

namespace Layer

def leave (layer : Layer Call Reply α) (a : α) : Proc Call Reply α :=
  match layer.resume a with
  | none => .done a
  | some call => .call call.1 fun r => .done (call.2 r)

def around (layer : Layer Call Reply α) (inner : Proc Call Reply α) : Proc Call Reply α :=
  .call layer.before fun r =>
    match layer.decision r with
    | .answers a => .done a
    | .runs limit => inner.within limit layer.leave

/-- The layer lets the process inside it run. -/
def Enters (layer : Layer Call Reply α) (event : Event Reply) : Prop :=
  ∃ r limit, event = ⟨layer.before, r⟩ ∧ layer.decision r = .runs limit

/-- The layer answers, or it abandons the process inside it after some calls. -/
inductive Ends (layer : Layer Call Reply α) : History Reply → α → Prop
  | answers {r : Reply layer.before} {a : α} (h : layer.decision r = .answers a) :
      Ends layer [⟨layer.before, r⟩] a
  | abandons {r : Reply layer.before} {n : Nat} {a : α} {inside : History Reply}
      (h : layer.decision r = .runs (some (n, a))) (hLength : inside.length = n + 1) :
      Ends layer (⟨layer.before, r⟩ :: inside) a

/-- The layer is told of a result and ends in another one, unless the result passes it by. -/
def Leaves (layer : Layer Call Reply α) (a : α) (history : History Reply) (b : α) : Prop :=
  match layer.resume a with
  | none => history = [] ∧ b = a
  | some call => ∃ r, history = [⟨call.1, r⟩] ∧ b = call.2 r

theorem post_leave (layer : Layer Call Reply α) (a : α) :
    (layer.leave a).Post (layer.Leaves a) := by
  unfold leave Leaves
  cases layer.resume a with
  | none => exact ⟨rfl, rfl⟩
  | some call => exact fun r => ⟨r, rfl, rfl⟩

end Layer

namespace Proc

def layered (layers : List (Layer Call Reply α)) (core : Proc Call Reply α) : Proc Call Reply α :=
  layers.foldr Layer.around core

/-- The layers that have let the process inside them run, from the outermost on. -/
def Enters (layers : List (Layer Call Reply α)) (history : History Reply) : Prop :=
  List.Forall₂ Layer.Enters layers history

/-- Layers leave one after the other, each with the result of the one before. -/
def Leaves : List (Layer Call Reply α) → α → History Reply → α → Prop
  | [], a, history, b => history = [] ∧ b = a
  | layer :: layers, a, history, c => ∃ own later b,
    history = own ++ later ∧ layer.Leaves a own b ∧ Leaves layers b later c

/-- A complete run of a process within layers: the layers `outer` let something run to its end,
which was the process itself, or the next layer without the end of what is inside it. -/
structure Layered (layers : List (Layer Call Reply α)) (Core : History Reply → α → Prop)
    (history : History Reply) (result : α) : Prop where
  split : ∃ outer inner entered middle left a,
    layers = outer ++ inner ∧ history = entered ++ middle ++ left ∧ Enters outer entered ∧
      Leaves outer.reverse a left result ∧
      match inner with
      | [] => Core middle a
      | layer :: _ => layer.Ends middle a

theorem Leaves.snoc {layers : List (Layer Call Reply α)} {layer : Layer Call Reply α} {a b c : α}
    {history own : History Reply} (h : Leaves layers a history b) (hOwn : layer.Leaves b own c) :
    Leaves (layers ++ [layer]) a (history ++ own) c := by
  induction layers generalizing a history with
  | nil =>
    obtain ⟨rfl, rfl⟩ := h
    exact ⟨own, [], c, by simp, hOwn, rfl, rfl⟩
  | cons first layers ih =>
    obtain ⟨first', later, d, rfl, hFirst, hLater⟩ := h
    exact ⟨first', later ++ own, d, List.append_assoc .., hFirst, ih hLater⟩

theorem post_layered {layers : List (Layer Call Reply α)} {core : Proc Call Reply α}
    {Core : History Reply → α → Prop} (h : core.Post Core) :
    (layered layers core).Post (Layered layers Core) := by
  induction layers with
  | nil =>
    refine post_mono h fun history a hCore => ⟨[], [], [], history, [], a, rfl, ?_⟩
    exact ⟨by simp, .nil, ⟨rfl, rfl⟩, hCore⟩
  | cons layer layers ih =>
    intro r
    dsimp only
    cases hDecision : layer.decision r with
    | answers a =>
      exact ⟨[], layer :: layers, [], _, [], a, rfl, by simp, .nil, ⟨rfl, rfl⟩, .answers hDecision⟩
    | runs limit =>
      refine post_within ih ?_ ?_
      · rintro history a ⟨outer, inner, entered, middle, left, b, rfl, rfl, hEntered, hLeft, hMiddle⟩
        refine post_mono (layer.post_leave a) ?_
        intro own c hOwn
        refine ⟨layer :: outer, inner, ⟨layer.before, r⟩ :: entered, middle, left ++ own, b, rfl,
          by simp, .cons ⟨r, limit, rfl, hDecision⟩ hEntered, ?_, hMiddle⟩
        rw [List.reverse_cons]
        exact hLeft.snoc hOwn
      · rintro n a inside rfl hLength
        exact ⟨[], layer :: layers, [], _, [], a, rfl, by simp, .nil, ⟨rfl, rfl⟩,
          .abandons hDecision hLength⟩

/-- A guard on the calls of the layers, each after those around it were entered, and one on the
calls inside after all layers were. -/
theorem guards_layered {layers : List (Layer Call Reply α)} {core : Proc Call Reply α}
    {P : History Reply → Call → Prop}
    (hBefore : ∀ outer layer inner, layers = outer ++ layer :: inner →
      ∀ entered, Enters outer entered → P entered layer.before)
    (hResume : ∀ layer ∈ layers, ∀ history a call, layer.resume a = some call → P history call.1)
    (hCore : ∀ entered, Enters layers entered → core.Guards fun history => P (entered ++ history)) :
    (layered layers core).Guards P := by
  induction layers generalizing P with
  | nil => exact hCore [] .nil
  | cons layer layers ih =>
    obtain ⟨hLayer, hInner⟩ := List.forall_mem_cons.mp hResume
    refine ⟨hBefore [] layer layers rfl [] .nil, fun r => ?_⟩
    dsimp only
    cases hDecision : layer.decision r with
    | answers a => trivial
    | runs limit =>
      have hEnters : layer.Enters ⟨layer.before, r⟩ := ⟨r, limit, rfl, hDecision⟩
      refine guards_within ?_ fun history a => ?_
      · refine ih ?_ (fun other hOther history => hInner other hOther _) fun entered hEntered => ?_
        · intro outer other inner hSplit entered hEntered
          exact hBefore (layer :: outer) other inner (congrArg (layer :: ·) hSplit) (_ :: entered)
            (.cons hEnters hEntered)
        · exact hCore (⟨layer.before, r⟩ :: entered) (.cons hEnters hEntered)
      · unfold Layer.leave
        cases hCall : layer.resume a with
        | none => trivial
        | some call => exact ⟨hLayer _ a call hCall, fun _ => trivial⟩

end Proc

end Interaction
