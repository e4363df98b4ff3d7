import Caelix.Lib.Table

/-!
# Multimaps

A table whose values are lists that grow at their end, as `entry(key).or_default().push(v)`
lets them. A step on such a table is described by what it adds under each key.

* `Adds.push`, `Adds.comp`, `Adds.foldl`: what a push adds, and what a sequence of steps adds.
* `lookup_run`: what is stored after a step on the empty table.
-/

namespace Multimap

variable {α β γ : Type} [DecidableEq α]

/-- `entry(key).or_default().push(value)`. -/
def push (key : α) (value : β) (m : Table α (List β)) : Table α (List β) :=
  m.insert key ((m.lookup key).getD [] ++ [value])

/-- The values of a key when more are added at their end. -/
def extend (old : Option (List β)) : List β → Option (List β)
  | [] => old
  | value :: more => some (old.getD [] ++ value :: more)

/-- The step `f` adds the values `g k` under each key `k`. -/
def Adds (f : Table α (List β) → Table α (List β)) (g : α → List β) : Prop :=
  ∀ m k, (f m).lookup k = extend (m.lookup k) (g k)

theorem extend_append (old : Option (List β)) (l l' : List β) :
    extend (extend old l) l' = extend old (l ++ l') := by
  cases l with
  | nil => rfl
  | cons value more =>
    cases l' with
    | nil => rw [extend, List.append_nil]
    | cons value' more' => simp [extend]

theorem Adds.id : Adds (fun m : Table α (List β) => m) fun _ => [] := fun _ _ => rfl

theorem Adds.push (key : α) (value : β) :
    Adds (push key value) fun k => if key = k then [value] else [] := by
  intro m k
  unfold Multimap.push
  dsimp only
  by_cases hk : key = k
  · subst hk
    rw [AList.lookup_insert, if_pos rfl, extend]
  · rw [AList.lookup_insert_ne (Ne.symm hk), if_neg hk, extend]

theorem Adds.comp {f f' : Table α (List β) → Table α (List β)} {g g' : α → List β}
    (h : Adds f g) (h' : Adds f' g') : Adds (fun m => f' (f m)) fun k => g k ++ g' k := by
  intro m k
  rw [h', h, extend_append]

/-- A loop adds what its steps add, in order. -/
theorem Adds.foldl {f : γ → Table α (List β) → Table α (List β)} {g : γ → α → List β}
    {l : List γ} (h : ∀ c ∈ l, Adds (f c) (g c)) :
    Adds (fun m => l.foldl (fun m c => f c m) m) fun k => l.flatMap fun c => g c k := by
  induction l with
  | nil => exact Adds.id
  | cons c l ih =>
    obtain ⟨hFirst, hLater⟩ := List.forall_mem_cons.mp h
    exact hFirst.comp (ih hLater)

/-- A step on the empty table stores the keys under which it adds something. -/
theorem lookup_run {f : Table α (List β) → Table α (List β)} {g : α → List β} (h : Adds f g)
    {k : α} {values : List β} : (f ∅).lookup k = some values ↔ values = g k ∧ values ≠ [] := by
  rw [h, AList.lookup_empty]
  cases hk : g k with
  | nil =>
    refine iff_of_false nofun ?_
    rintro ⟨rfl, hne⟩
    exact hne rfl
  | cons value more =>
    rw [extend, Option.some.injEq]
    constructor
    · rintro rfl
      exact ⟨rfl, List.cons_ne_nil _ _⟩
    · rintro ⟨rfl, -⟩
      rfl

end Multimap
