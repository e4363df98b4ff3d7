import Mathlib.Data.List.Nodup
import Caelix.Lib.Machine

/-!
# Sets of concurrent tasks

A `JoinSet` owns tasks that run beside it. The definitions state what is documented of
`tokio::task::JoinSet`: a task completes at some time with its outcome, the owner joins completed
tasks one by one, and a set that is dropped aborts the others.

* `Moves`: what an owner may do, with its result when it ends.
* `drained_iff`: a machine that owns a set leaves no task of some state unfinished exactly
  when it never fails while one of them is running.
-/

/-- Tasks are numbered as they are spawned. -/
structure JoinSet (ω : Type*) where
  spawned : Nat
  running : List Nat
  finished : List (Nat × ω)
  running_nodup : running.Nodup
  running_lt : ∀ id ∈ running, id < spawned

namespace JoinSet

variable {ω ε : Type*}

def empty : JoinSet ω := ⟨0, [], [], List.nodup_nil, nofun⟩

def len (f : JoinSet ω) : Nat := f.running.length + f.finished.length

def isEmpty (f : JoinSet ω) : Bool := f.running.isEmpty && f.finished.isEmpty

def spawn (f : JoinSet ω) : JoinSet ω where
  spawned := f.spawned + 1
  running := f.running ++ [f.spawned]
  finished := f.finished
  running_nodup := by
    refine List.nodup_append.mpr ⟨f.running_nodup, List.nodup_singleton _, ?_⟩
    intro id hId other hOther
    rw [List.mem_singleton.mp hOther]
    exact Nat.ne_of_lt (f.running_lt id hId)
  running_lt := by
    intro id hId
    rcases List.mem_append.mp hId with hOld | hNew
    · exact Nat.lt_succ_of_lt (f.running_lt id hOld)
    · rw [List.mem_singleton.mp hNew]
      exact Nat.lt_succ_self _

def spawnMany (f : JoinSet ω) : Nat → JoinSet ω
  | 0 => f
  | n + 1 => (f.spawnMany n).spawn

/-- A running task completes. -/
def complete (f : JoinSet ω) (id : Nat) (outcome : ω) : Option (JoinSet ω) :=
  if id ∈ f.running then
    some
      { spawned := f.spawned
        running := f.running.erase id
        finished := f.finished ++ [(id, outcome)]
        running_nodup := f.running_nodup.erase id
        running_lt := fun other h => f.running_lt other (List.mem_of_mem_erase h) }
  else none

/-- The owner joins a completed task. -/
def join (f : JoinSet ω) (id : Nat) : Option (ω × JoinSet ω) :=
  (f.finished.lookup id).map fun outcome =>
    (outcome, { f with finished := f.finished.eraseP fun task => task.1 == id })

/-- The set when all its completed tasks have been joined. -/
def joinAll (f : JoinSet ω) : JoinSet ω := { f with finished := [] }

/-- What an owner does, and what happens beside it. -/
inductive Label (ω : Type*) where
  | internal
  | spawn (n : Nat)
  | complete (id : Nat) (outcome : ω)
  | join (id : Nat)
  /-- An operation other than a join fails. -/
  | broken
  /-- No task is left. -/
  | drained

/-- The owner ends with the error of the first failure, or when no task is left. -/
inductive Moves (result : ω → Except ε Unit) :
    JoinSet ω → Label ω → JoinSet ω → Option (Except ε Unit) → Prop
  | internal (f : JoinSet ω) : Moves result f .internal f none
  | spawn (f : JoinSet ω) (n : Nat) : Moves result f (.spawn n) (f.spawnMany n) none
  | complete {f f' : JoinSet ω} {id : Nat} {outcome : ω} (h : f.complete id outcome = some f') :
      Moves result f (.complete id outcome) f' none
  | joined {f f' : JoinSet ω} {id : Nat} {outcome : ω} (h : f.join id = some (outcome, f'))
      (hOk : result outcome = .ok ()) : Moves result f (.join id) f' none
  | failed {f f' : JoinSet ω} {id : Nat} {outcome : ω} {e : ε}
      (h : f.join id = some (outcome, f')) (hError : result outcome = .error e) :
      Moves result f (.join id) f' (some (.error e))
  | broken (f : JoinSet ω) (e : ε) : Moves result f .broken f (some (.error e))
  | drained {f : JoinSet ω} (h : f.isEmpty = true) : Moves result f .drained f (some (.ok ()))

/-- The owner is about to end with an error. -/
def Fails (result : ω → Except ε Unit) (f : JoinSet ω) : Label ω → Prop
  | .join id => ∃ outcome e, f.finished.lookup id = some outcome ∧ result outcome = .error e
  | .broken => True
  | _ => False

variable {result : ω → Except ε Unit} {f f' : JoinSet ω} {l : Label ω} {r : Option (Except ε Unit)}
  {id : Nat}

theorem mem_spawnMany (n : Nat) (h : id ∈ f.running) : id ∈ (f.spawnMany n).running := by
  induction n with
  | zero => exact h
  | succ n ih => exact List.mem_append_left _ ih

/-- A task of the past: it has been spawned and is no longer running. -/
def Past (f : JoinSet ω) (id : Nat) : Prop := id < f.spawned ∧ id ∉ f.running

theorem past_spawnMany (n : Nat) (h : f.Past id) : (f.spawnMany n).Past id := by
  induction n with
  | zero => exact h
  | succ n ih =>
    refine ⟨Nat.lt_succ_of_lt ih.1, fun hId => ?_⟩
    rcases List.mem_append.mp hId with hOld | hNew
    · exact ih.2 hOld
    · exact absurd (List.mem_singleton.mp hNew) (Nat.ne_of_lt ih.1)

theorem complete_eq_some {outcome : ω} (h : f.complete id outcome = some f') :
    id ∈ f.running ∧ f'.running = f.running.erase id ∧ f'.spawned = f.spawned := by
  unfold complete at h
  split_ifs at h with hId
  obtain rfl := Option.some.inj h
  exact ⟨hId, rfl, rfl⟩

theorem join_eq_some {outcome : ω} (h : f.join id = some (outcome, f')) :
    f.finished.lookup id = some outcome ∧ f'.running = f.running ∧ f'.spawned = f.spawned := by
  obtain ⟨other, hLookup, hEq⟩ := Option.map_eq_some_iff.mp h
  cases hEq
  exact ⟨hLookup, rfl, rfl⟩

/-- Only its completion ends a task. -/
theorem Moves.running (h : Moves result f l f' r) (hId : id ∈ f.running) :
    id ∈ f'.running ∨ ∃ outcome, l = .complete id outcome := by
  cases h with
  | internal | broken | drained => exact .inl hId
  | spawn n => exact .inl (mem_spawnMany n hId)
  | @complete _ other outcome h =>
    rw [(complete_eq_some h).2.1]
    by_cases hOther : id = other
    · exact .inr ⟨outcome, hOther ▸ rfl⟩
    · exact .inl ((List.mem_erase_of_ne hOther).mpr hId)
  | joined h _ | failed h _ =>
    rw [(join_eq_some h).2.1]
    exact .inl hId

theorem Moves.past (h : Moves result f l f' r) (hPast : f.Past id) : f'.Past id := by
  cases h with
  | internal | broken | drained => exact hPast
  | spawn n => exact past_spawnMany n hPast
  | complete h =>
    obtain ⟨-, hRunning, hSpawned⟩ := complete_eq_some h
    rw [Past, hRunning, hSpawned]
    exact ⟨hPast.1, fun hId => hPast.2 (List.mem_of_mem_erase hId)⟩
  | joined h _ | failed h _ =>
    obtain ⟨-, hRunning, hSpawned⟩ := join_eq_some h
    rw [Past, hRunning, hSpawned]
    exact hPast

theorem Moves.completed {outcome : ω} (h : Moves result f (.complete id outcome) f' r) :
    f'.Past id := by
  cases h with
  | complete h =>
    obtain ⟨hId, hRunning, hSpawned⟩ := complete_eq_some h
    rw [Past, hRunning, hSpawned]
    exact ⟨f.running_lt id hId, f.running_nodup.not_mem_erase⟩

theorem Moves.ended {x : Except ε Unit} (h : Moves result f l f' (some x)) :
    Fails result f l ∨ f.running = [] := by
  cases h with
  | failed h hError => exact .inl ⟨_, _, (join_eq_some h).1, hError⟩
  | broken => exact .inl trivial
  | drained h =>
    unfold isEmpty at h
    rw [Bool.and_eq_true, List.isEmpty_iff] at h
    exact .inr h.1

theorem Moves.failing (h : Moves result f l f' r) (hFails : Fails result f l) : r ≠ none := by
  cases h with
  | internal | spawn | complete | drained => cases hFails
  | joined h hOk =>
    obtain ⟨outcome, e, hLookup, hError⟩ := hFails
    obtain rfl := Option.some.inj ((join_eq_some h).1.symm.trans hLookup)
    cases hOk.symm.trans hError
  | failed | broken => exact nofun

/-! ## Machines that own a set -/

section

variable {σ α : Type*} {step : σ → α → Option σ} {tasks : σ → JoinSet ω}
  {ended : σ → Option (Except ε Unit)} {label : α → Label ω}

/-- Each step of the machine is a move of the owner, which does nothing after its end. -/
def Owns (result : ω → Except ε Unit) (step : σ → α → Option σ) (tasks : σ → JoinSet ω)
    (ended : σ → Option (Except ε Unit)) (label : α → Label ω) : Prop :=
  ∀ s a t, step s a = some t → ended s = none ∧ Moves result (tasks s) (label a) (tasks t) (ended t)

theorem run_running (hOwns : Owns result step tasks ended label) {s t : σ} {actions : List α}
    (hRun : Machine.run step s actions = some t) (hId : id ∈ (tasks s).running) :
    id ∈ (tasks t).running ∨ ∃ outcome, .complete id outcome ∈ actions.map label := by
  refine Machine.run_keeps (I := fun done t => id ∈ (tasks t).running ∨
    ∃ outcome, .complete id outcome ∈ done.map label) (.inl hId) ?_ hRun
  intro done a t u hStep hDone
  rw [List.map_append]
  rcases hDone with hRunning | ⟨outcome, hMem⟩
  · rcases (hOwns t a u hStep).2.running hRunning with hRunning | ⟨outcome, hLabel⟩
    · exact .inl hRunning
    · exact .inr ⟨outcome, List.mem_append_right _ (List.mem_singleton.mpr hLabel.symm)⟩
  · exact .inr ⟨outcome, List.mem_append_left _ hMem⟩

theorem run_completed (hOwns : Owns result step tasks ended label) {s t : σ} {actions : List α}
    (hRun : Machine.run step s actions = some t) {outcome : ω}
    (hMem : .complete id outcome ∈ actions.map label) : (tasks t).Past id := by
  refine Machine.run_keeps (I := fun done t => .complete id outcome ∈ done.map label →
    (tasks t).Past id) nofun ?_ hRun hMem
  intro done a t u hStep hDone hMem
  have hMoves := (hOwns t a u hStep).2
  rw [List.map_append] at hMem
  rcases List.mem_append.mp hMem with hOld | hNew
  · exact hMoves.past (hDone hOld)
  · rw [← List.mem_singleton.mp hNew] at hMoves
    exact hMoves.completed

/-- Nothing happens after the end. -/
theorem run_ended (hOwns : Owns result step tasks ended label) {s t : σ} {x : Except ε Unit}
    (hEnded : ended s = some x) {actions : List α} (hRun : Machine.run step s actions = some t) :
    actions = [] := by
  cases actions with
  | nil => rfl
  | cons a actions =>
    obtain ⟨u, hStep, -⟩ := Machine.run_cons.mp hRun
    cases hEnded.symm.trans (hOwns s a u hStep).1

/-- Every task that was running completes before the end exactly when none of them is
running where the owner fails. -/
theorem drained_iff (hOwns : Owns result step tasks ended label) {s t : σ} {actions : List α}
    {x : Except ε Unit} (hRun : Machine.run step s actions = some t) (hEnded : ended t = some x)
    (hStart : ended s = none) :
    (∀ id ∈ (tasks s).running, ∃ outcome, .complete id outcome ∈ actions.map label) ↔
      ∀ before a after u, actions = before ++ a :: after → Machine.run step s before = some u →
        Fails result (tasks u) (label a) → ∀ id ∈ (tasks s).running, id ∉ (tasks u).running := by
  constructor
  · rintro hDrained before a after u rfl hBefore hFails id hId
    obtain ⟨outcome, hMem⟩ := hDrained id hId
    obtain ⟨u', hBefore', hLater⟩ := Machine.run_append.mp hRun
    obtain rfl := Option.some.inj (hBefore.symm.trans hBefore')
    obtain ⟨v, hStep, hAfter⟩ := Machine.run_cons.mp hLater
    have hMoves := (hOwns u a v hStep).2
    obtain ⟨y, hEnd⟩ := Option.ne_none_iff_exists'.mp (hMoves.failing hFails)
    obtain rfl := run_ended hOwns hEnd hAfter
    rw [List.map_append, List.mem_append] at hMem
    rcases hMem with hMem | hMem
    · exact (run_completed hOwns hBefore hMem).2
    · rw [List.map_singleton, List.mem_singleton] at hMem
      rw [← hMem] at hFails
      cases hFails
  · intro hFine id hId
    cases actions using List.reverseRecOn with
    | nil =>
      obtain rfl := Option.some.inj hRun
      cases hStart.symm.trans hEnded
    | append_singleton before a =>
      obtain ⟨u, hBefore, hStep⟩ := Machine.run_snoc.mp hRun
      have hMoves := (hOwns u a t hStep).2
      rw [hEnded] at hMoves
      have hGone : id ∉ (tasks u).running := by
        rcases hMoves.ended with hFails | hNone
        · exact hFine before a [] u rfl hBefore hFails id hId
        · rw [hNone]
          exact List.not_mem_nil
      obtain ⟨outcome, hMem⟩ := (run_running hOwns hBefore hId).resolve_left hGone
      exact ⟨outcome, by rw [List.map_append]; exact List.mem_append_left _ hMem⟩

end

end JoinSet
