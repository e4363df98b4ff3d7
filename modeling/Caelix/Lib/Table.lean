import Mathlib.Data.List.AList

/-!
# Tables

A table is what a hash map holds: entries with distinct keys. Nothing is promised about
the order in which a hash map lists its entries, and the order may change between two
passes over it, so a program that walks over a table is given an `Iteration`.

* `lookup_retain`, `size_retain_le`: what is left of a table that is filtered.
* `retain_perm`, `erase_perm`, `insert_perm`, `update_perm`, `find_map`: the same operations
  on a list that holds the entries in an order of its own.
-/

/-- The contents of a hash map. -/
abbrev Table (α β : Type) := AList fun _ : α => β

namespace Table

variable {α β : Type}

def size (m : Table α β) : Nat := m.entries.length

/-- `HashMap::retain`. -/
def retain (p : α → β → Bool) (m : Table α β) : Table α β where
  entries := m.entries.filter fun e => p e.1 e.2
  nodupKeys := m.nodupKeys.sublist List.filter_sublist

/-- A way to list the entries of a table. -/
structure Iteration (α β : Type) where
  visit : Table α β → List (Σ _ : α, β)
  perm : ∀ m, (visit m).Perm m.entries

/-- The iteration in the order of the list that represents the table. -/
def Iteration.stored : Iteration α β := ⟨AList.entries, fun _ => .refl _⟩

/-- The iteration that lists the entry of a key before all others. -/
def Iteration.first [DecidableEq α] (k : α) : Iteration α β where
  visit m := (m.entries.filter fun e => e.1 = k) ++ m.entries.filter fun e => !decide (e.1 = k)
  perm _ := List.filter_append_perm ..

@[simp] theorem entries_retain (p : α → β → Bool) (m : Table α β) :
    (retain p m).entries = m.entries.filter fun e => p e.1 e.2 := rfl

theorem size_retain_le (p : α → β → Bool) (m : Table α β) : size (retain p m) ≤ size m :=
  List.length_filter_le _ _

section Lookup

variable [DecidableEq α] {m : Table α β} {k : α} {v : β}

theorem lookup_eq_some_iff : m.lookup k = some v ↔ ⟨k, v⟩ ∈ m.entries := by
  rw [← AList.mem_lookup_iff, Option.mem_def]

theorem size_eq_zero (h : ∀ k, m.lookup k = none) : size m = 0 := by
  refine List.length_eq_zero_iff.mpr (List.eq_nil_iff_forall_not_mem.mpr ?_)
  intro e he
  have hStored := lookup_eq_some_iff.mpr he
  rw [h] at hStored
  cases hStored

theorem size_le_one (h : ∀ k', k' ≠ k → m.lookup k' = none) : size m ≤ 1 := by
  have hKey : ∀ k' ∈ m.keys, k' = k := by
    intro k' hk'
    by_contra hOther
    exact AList.lookup_eq_none.mp (h k' hOther) hk'
  have hKeys : m.keys.length ≤ [k].length :=
    (List.subperm_of_subset m.keys_nodup fun k' hk' => List.mem_singleton.mpr (hKey k' hk')).length_le
  rwa [AList.keys, List.keys, List.length_map] at hKeys

theorem size_insert (m : Table α β) (k : α) (v : β) :
    size (m.insert k v) = size (m.erase k) + 1 := by
  rw [size, AList.entries_insert, List.length_cons]
  rfl

theorem size_erase (h : m.lookup k = some v) : size (m.erase k) + 1 = size m := by
  obtain ⟨_, l₁, l₂, _, hEntries, hErased⟩ :=
    List.exists_of_kerase (List.mem_keys_of_mem (lookup_eq_some_iff.mp h))
  have hLeft : size (m.erase k) = (l₁ ++ l₂).length := congrArg List.length hErased
  rw [hLeft, size, hEntries, List.length_append, List.length_append, List.length_cons, Nat.add_assoc]

theorem size_erase_le (m : Table α β) (k : α) : size (m.erase k) ≤ size m :=
  (List.kerase_sublist k m.entries).length_le

theorem lookup_retain (p : α → β → Bool) (m : Table α β) (k : α) :
    (retain p m).lookup k = (m.lookup k).filter (p k) := by
  ext v
  rw [lookup_eq_some_iff, entries_retain, List.mem_filter, ← lookup_eq_some_iff]
  simp

end Lookup

/-! ## Entries in an order of their own -/

section Listed

variable {m : Table α β} {l : List (Σ _ : α, β)}

theorem nodupKeys_of_perm (h : l.Perm m.entries) : l.NodupKeys :=
  (List.perm_nodupKeys h).mpr m.nodupKeys

theorem size_of_perm (h : l.Perm m.entries) : size m = l.length := h.length_eq.symm

theorem retain_perm (h : l.Perm m.entries) (p : α → β → Bool) :
    (l.filter fun e => p e.1 e.2).Perm (retain p m).entries := h.filter _

variable [DecidableEq α]

theorem lookup_of_perm (h : l.Perm m.entries) (k : α) : m.lookup k = l.dlookup k :=
  (List.perm_dlookup k (nodupKeys_of_perm h) h).symm

/-- Records made of the entries of a list are found by their keys. -/
theorem find_map {γ : Type} {f : (Σ _ : α, β) → γ} (key : γ → α) (hKey : ∀ e, key (f e) = e.1)
    (k : α) : (l.map f).find? (fun x => key x = k) = (l.dlookup k).map fun v => f ⟨k, v⟩ := by
  induction l with
  | nil => rfl
  | cons e l ih =>
    obtain ⟨k', v⟩ := e
    by_cases hk : k' = k
    · subst hk
      rw [List.map_cons, List.find?_cons_of_pos (by simp [hKey]), List.dlookup_cons_eq]
      rfl
    · rw [List.map_cons, List.find?_cons_of_neg (by simp [hKey, hk]), ih,
        List.dlookup_cons_ne _ _ (Ne.symm hk)]

theorem kerase_eq_filter (h : l.NodupKeys) (k : α) : l.kerase k = l.filter fun e => e.1 ≠ k := by
  induction l with
  | nil => rfl
  | cons e l ih =>
    have hl := List.nodupKeys_of_nodupKeys_cons h
    by_cases hk : k = e.1
    · have hRest : l.filter (fun f => f.1 ≠ k) = l := by
        rw [List.filter_eq_self]
        intro f hf
        have hne : f.1 ≠ e.1 := fun hEq =>
          List.notMem_keys_of_nodupKeys_cons h (hEq ▸ List.mem_keys_of_mem hf)
        simpa [hk] using hne
      rw [List.kerase_cons_eq hk, List.filter_cons_of_neg (by simp [hk]), hRest]
    · rw [List.kerase_cons_ne hk, List.filter_cons_of_pos (by simp [Ne.symm hk]), ih hl]

theorem erase_perm (h : l.Perm m.entries) (k : α) :
    (l.filter fun e => e.1 ≠ k).Perm (m.erase k).entries := by
  rw [← kerase_eq_filter (nodupKeys_of_perm h)]
  exact List.Perm.kerase (nodupKeys_of_perm h) h

theorem insert_perm (h : l.Perm m.entries) (k : α) (v : β) :
    ((l.filter fun e => e.1 ≠ k) ++ [(⟨k, v⟩ : Σ _ : α, β)]).Perm (m.insert k v).entries := by
  rw [AList.entries_insert]
  exact (List.perm_append_comm.trans (.cons _ (erase_perm h k)))

/-- The entry of a key after the others. -/
theorem perm_erase_snoc (h : l.Perm m.entries) {k : α} {v : β} (hk : m.lookup k = some v) :
    l.Perm ((l.filter fun e => e.1 ≠ k) ++ [(⟨k, v⟩ : Σ _ : α, β)]) := by
  have hSame : ∀ a, (m.insert k v).lookup a = m.lookup a := by
    intro a
    by_cases ha : a = k
    · rw [ha, AList.lookup_insert, hk]
    · rw [AList.lookup_insert_ne ha]
  have hEntries : (m.insert k v).entries.Perm m.entries := by
    refine List.lookup_ext (m.insert k v).nodupKeys m.nodupKeys ?_
    intro a b
    exact iff_of_eq (congrArg (b ∈ ·) (hSame a))
  exact h.trans (hEntries.symm.trans (insert_perm h k v).symm)

/-- A new value for a key that is present, with every entry left in its place. -/
theorem update_perm (h : l.Perm m.entries) {k : α} {v : β} (hk : m.lookup k = some v) (w : β) :
    (l.map fun e => if e.1 = k then (⟨k, w⟩ : Σ _ : α, β) else e).Perm (m.insert k w).entries := by
  refine ((perm_erase_snoc h hk).map _).trans ?_
  have hOthers : ((l.filter fun e => e.1 ≠ k).map fun e =>
      if e.1 = k then (⟨k, w⟩ : Σ _ : α, β) else e) = l.filter fun e => e.1 ≠ k := by
    refine (List.map_congr_left ?_).trans (List.map_id _)
    intro e he
    have hne : e.1 ≠ k := by simpa using List.of_mem_filter he
    rw [if_neg hne, id]
  rw [List.map_append, hOthers, List.map_singleton, if_pos rfl]
  exact insert_perm h k w

/-- Tables with the same lookups have the same entries. -/
theorem perm_of_lookup {m' : Table α β} (h : l.Perm m.entries)
    (hSame : ∀ k, m'.lookup k = m.lookup k) : l.Perm m'.entries := by
  refine h.trans (List.lookup_ext m.nodupKeys m'.nodupKeys ?_)
  intro a b
  exact iff_of_eq (congrArg (b ∈ ·) (hSame a).symm)

end Listed

end Table
