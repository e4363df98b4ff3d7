import Mathlib.Data.List.Nodup
import Mathlib.Data.Finset.Card
import Mathlib.Logic.Relation
import Caelix.Lib.Fallible

/-!
# Depth-first walks

A depth-first walk over labelled nodes. Nodes carry a key, and the walk marks keys:
a node whose key is finished is skipped, a node whose key is still open (on the
stack) stops the walk with a cycle. The finished nodes are listed in the order in
which the walk leaves them.

* `visit_ok`: a successful visit extends the finished list, keeps it closed under
  successors (`Finished`) and adds only nodes reachable from the visited one.
* `visit_related`: walks over related nodes finish related nodes in the same order.
* `visit_cycle`: a reported cycle is a genuine path between two nodes of one key.
* `visit_ne_fuel`: fuel above the number of keys is never used up.
* `visitAll_ok_iff`: a walk over several roots succeeds exactly when some choice of
  one node for each key, made in the order of the roots, is free of cycles.
-/

namespace DepthFirst

open Relation Fallible

variable {α κ : Type*}

/-- Why a walk stops early. -/
inductive Stop (α : Type*) where
  | cycle (stack : List α) (node : α)
  | fuel

/-- `next a` lists the successors of `a` in the order in which they are visited. -/
def Edge (next : α → List α) (a b : α) : Prop := b ∈ next a

section Walk

variable [DecidableEq κ] (key : α → κ) (next : α → List α)

/-- Visit `a` below the open nodes `stack`; `done` lists the finished nodes. -/
def visit : Nat → List α → List α → α → Except (Stop α) (List α)
  | 0, _, _, _ => .error .fuel
  | n + 1, stack, done, a =>
    if key a ∈ done.map key then .ok done
    else if key a ∈ stack.map key then .error (.cycle stack a)
    else ((next a).foldlM (visit n (stack ++ [a])) done).map (· ++ [a])

/-- Visit the roots one after another. -/
def visitAll (fuel : Nat) (roots : List α) : Except (Stop α) (List α) :=
  roots.foldlM (visit key next fuel []) []

end Walk

/-- Every key is finished once, after all successors of its node. -/
structure Finished (key : α → κ) (next : α → List α) (done : List α) : Prop where
  nodup : (done.map key).Nodup
  closed : ∀ l₁ a l₂, done = l₁ ++ a :: l₂ → ∀ b ∈ next a, key b ∈ l₁.map key

/-- Successor keys of the finished nodes. -/
def KeyEdge (key : α → κ) (next : α → List α) (done : List α) (k k' : κ) : Prop :=
  ∃ a ∈ done, key a = k ∧ ∃ b ∈ next a, key b = k'

variable {key : α → κ} {next : α → List α}

/-! ## Unfolding one visit -/

section Unfold

variable [DecidableEq κ]

theorem visit_seen {n : Nat} {stack done : List α} {a : α} (h : key a ∈ done.map key) :
    visit key next (n + 1) stack done a = .ok done := by
  rw [visit, if_pos h]

theorem visit_open {n : Nat} {stack done : List α} {a : α} (hDone : key a ∉ done.map key)
    (hOpen : key a ∈ stack.map key) :
    visit key next (n + 1) stack done a = .error (.cycle stack a) := by
  rw [visit, if_neg hDone, if_pos hOpen]

theorem visit_fresh {n : Nat} {stack done : List α} {a : α} (hDone : key a ∉ done.map key)
    (hOpen : key a ∉ stack.map key) :
    visit key next (n + 1) stack done a =
      ((next a).foldlM (visit key next n (stack ++ [a])) done).map (· ++ [a]) := by
  rw [visit, if_neg hDone, if_neg hOpen]

end Unfold

/-! ## Successful visits -/

theorem Finished.nil : Finished key next [] := by
  refine ⟨by simp, ?_⟩
  intro l₁ a l₂ h
  simp at h

theorem Finished.snoc {done : List α} {a : α} (hF : Finished key next done)
    (hNew : key a ∉ done.map key) (hNext : ∀ b ∈ next a, key b ∈ done.map key) :
    Finished key next (done ++ [a]) := by
  constructor
  · rw [List.map_append, List.nodup_append]
    refine ⟨hF.nodup, by simp, ?_⟩
    intro k hk k' hk' he
    simp only [List.map_cons, List.map_nil, List.mem_singleton] at hk'
    subst hk'
    exact hNew (he ▸ hk)
  · intro l₁ c l₂ h b hb
    rcases List.eq_nil_or_concat' l₂ with rfl | ⟨l, z, rfl⟩
    · obtain ⟨rfl, hc⟩ := List.append_inj' h rfl
      obtain rfl : a = c := by simpa using hc
      exact hNext b hb
    · have h' : done ++ [a] = (l₁ ++ c :: l) ++ [z] := by simpa using h
      obtain ⟨rfl, -⟩ := List.append_inj' h' rfl
      exact hF.closed l₁ c l rfl b hb

/-- What a successful visit of the nodes `starts` below `stack` does to `done`. -/
structure Visited (key : α → κ) (next : α → List α) (stack starts done done' : List α) :
    Prop where
  finished : Finished key next done'
  grows : done <+: done'
  covers : ∀ a ∈ starts, key a ∈ done'.map key
  reached : ∀ x ∈ done', x ∈ done ∨ ∃ a ∈ starts, ReflTransGen (Edge next) a x ∧
    ReflTransGen (KeyEdge key next done') (key a) (key x)
  keeps : ∀ x ∈ stack, key x ∈ done'.map key → key x ∈ done.map key

theorem mem_map_mono {β γ : Type*} {l l' : List β} {f : β → γ} {c : γ} (h : l <+: l')
    (hc : c ∈ l.map f) : c ∈ l'.map f :=
  (h.map f).subset hc

theorem KeyEdge.grow {done done' : List α} (h : done <+: done') {k k' : κ}
    (hEdge : KeyEdge key next done k k') : KeyEdge key next done' k k' := by
  obtain ⟨a, ha, hRest⟩ := hEdge
  exact ⟨a, h.subset ha, hRest⟩

theorem Visited.append {stack done mid done' starts rest : List α}
    (h₁ : Visited key next stack starts done mid) (h₂ : Visited key next stack rest mid done') :
    Visited key next stack (starts ++ rest) done done' where
  finished := h₂.finished
  grows := h₁.grows.trans h₂.grows
  covers := by
    intro b hb
    rcases List.mem_append.mp hb with hb | hb
    · exact mem_map_mono h₂.grows (h₁.covers b hb)
    · exact h₂.covers b hb
  reached := by
    intro x hx
    rcases h₂.reached x hx with hx | ⟨b, hb, hPath⟩
    · rcases h₁.reached x hx with hx | ⟨b, hb, hPath, hKeys⟩
      · exact Or.inl hx
      · exact Or.inr ⟨b, List.mem_append_left _ hb, hPath,
          ReflTransGen.mono (fun _ _ => KeyEdge.grow h₂.grows) _ _ hKeys⟩
    · exact Or.inr ⟨b, List.mem_append_right _ hb, hPath⟩
  keeps := fun x hx h => h₁.keeps x hx (h₂.keeps x hx h)

variable [DecidableEq κ]

theorem foldlM_visited {n : Nat} {stack : List α}
    (hVisit : ∀ done done' a, Finished key next done →
      visit key next n stack done a = .ok done' → Visited key next stack [a] done done')
    (starts : List α) {done done' : List α} (hF : Finished key next done)
    (h : starts.foldlM (visit key next n stack) done = .ok done') :
    Visited key next stack starts done done' := by
  induction starts generalizing done with
  | nil =>
    cases h
    exact ⟨hF, List.prefix_rfl, by simp, fun x hx => Or.inl hx, fun _ _ h => h⟩
  | cons a rest ih =>
    obtain ⟨mid, hMid, hRest⟩ := foldlM_ok_cons h
    have h₁ := hVisit done mid a hF hMid
    exact h₁.append (ih h₁.finished hRest)

/-- A successful visit finishes the visited key, keeps the finished list closed and
adds only nodes reachable from the visited one. No open key is finished meanwhile. -/
theorem visit_ok (n : Nat) (stack : List α) :
    ∀ done done' a, Finished key next done → visit key next n stack done a = .ok done' →
      Visited key next stack [a] done done' := by
  induction n generalizing stack with
  | zero =>
    intro done done' a _ h
    cases h
  | succ n ih =>
    intro done done' a hF h
    by_cases hDone : key a ∈ done.map key
    · rw [visit_seen hDone] at h
      cases h
      exact ⟨hF, List.prefix_rfl, by simpa using hDone, fun x hx => Or.inl hx, fun _ _ h => h⟩
    · by_cases hOpen : key a ∈ stack.map key
      · rw [visit_open hDone hOpen] at h
        cases h
      · rw [visit_fresh hDone hOpen] at h
        obtain ⟨mid, hFold, rfl⟩ := map_ok h
        have hV := foldlM_visited (ih (stack ++ [a])) (next a) hF hFold
        have hNew : key a ∉ mid.map key := fun hk => hDone (hV.keeps a (by simp) hk)
        refine ⟨hV.finished.snoc hNew hV.covers, hV.grows.trans (List.prefix_append _ _),
          by simp, ?_, ?_⟩
        · intro x hx
          rcases List.mem_append.mp hx with hx | hx
          · rcases hV.reached x hx with hx | ⟨b, hb, hPath, hKeys⟩
            · exact Or.inl hx
            · refine Or.inr ⟨a, by simp, ReflTransGen.head hb hPath, ?_⟩
              refine ReflTransGen.head ⟨a, by simp, rfl, b, hb, rfl⟩ ?_
              exact ReflTransGen.mono (fun _ _ => KeyEdge.grow (List.prefix_append _ _)) _ _ hKeys
          · obtain rfl : x = a := by simpa using hx
            exact Or.inr ⟨x, by simp, ReflTransGen.refl, ReflTransGen.refl⟩
        · intro x hx hk
          rw [List.map_append, List.mem_append] at hk
          rcases hk with hk | hk
          · exact hV.keeps x (List.mem_append_left _ hx) hk
          · have he : key x = key a := by simpa using hk
            exact absurd (he ▸ List.mem_map_of_mem hx) hOpen

theorem visitAll_ok {fuel : Nat} {roots done : List α}
    (h : visitAll key next fuel roots = .ok done) : Visited key next [] roots [] done :=
  foldlM_visited (visit_ok fuel []) roots Finished.nil h

/-! ## Two walks side by side -/

section Related

variable {β κ' : Type*} [DecidableEq κ'] {key' : β → κ'} {next' : β → List β} {R : α → β → Prop}

omit [DecidableEq κ] [DecidableEq κ'] in
theorem mem_keys_related (hKey : ∀ a b a' b', R a b → R a' b' → (key a = key a' ↔ key' b = key' b'))
    {l : List α} {l' : List β} (hAll : List.Forall₂ R l l') {a : α} {b : β} (hab : R a b) :
    key a ∈ l.map key ↔ key' b ∈ l'.map key' := by
  induction hAll with
  | nil => simp
  | cons h _ ih =>
    rw [List.map_cons, List.map_cons, List.mem_cons, List.mem_cons, ih, hKey _ _ _ _ hab h]

omit [DecidableEq κ] [DecidableEq κ'] in
/-- Loops whose steps keep the results related end with related results. -/
theorem foldlM_related {ε ε' : Type*} {f : List α → α → Except ε (List α)}
    {g : List β → β → Except ε' (List β)}
    (hStep : ∀ d d' e e' a b, List.Forall₂ R d d' → R a b → f d a = .ok e → g d' b = .ok e' →
      List.Forall₂ R e e') {l : List α} {l' : List β} (hAll : List.Forall₂ R l l') :
    ∀ d d' e e', List.Forall₂ R d d' → l.foldlM f d = .ok e → l'.foldlM g d' = .ok e' →
      List.Forall₂ R e e' := by
  induction hAll with
  | nil =>
    intro d d' e e' hd he he'
    cases he
    cases he'
    exact hd
  | cons hab _ ih =>
    intro d d' e e' hd he he'
    obtain ⟨f, hf, hRest⟩ := foldlM_ok_cons he
    obtain ⟨f', hf', hRest'⟩ := foldlM_ok_cons he'
    exact ih f f' e e' (hStep _ _ _ _ _ _ hd hab hf hf') hRest hRest'

/-- Walks over related nodes finish related nodes, in the same order. -/
theorem visit_related (hKey : ∀ a b a' b', R a b → R a' b' → (key a = key a' ↔ key' b = key' b'))
    (hNext : ∀ a b, R a b → List.Forall₂ R (next a) (next' b)) (n : Nat) :
    ∀ (m : Nat) {stack done r : List α} {stack' done' r' : List β} {a : α} {b : β},
      List.Forall₂ R stack stack' → List.Forall₂ R done done' → R a b →
      visit key next n stack done a = .ok r → visit key' next' m stack' done' b = .ok r' →
      List.Forall₂ R r r' := by
  induction n with
  | zero =>
    intro m stack done r stack' done' r' a b _ _ _ h _
    cases h
  | succ n ih =>
    intro m stack done r stack' done' r' a b hStack hDoneAll hab h h'
    cases m with
    | zero => cases h'
    | succ m =>
      have hDoneIff := mem_keys_related hKey hDoneAll hab
      have hOpenIff := mem_keys_related hKey hStack hab
      by_cases hDone : key a ∈ done.map key
      · rw [visit_seen hDone] at h
        rw [visit_seen (hDoneIff.mp hDone)] at h'
        cases h
        cases h'
        exact hDoneAll
      · by_cases hOpen : key a ∈ stack.map key
        · rw [visit_open hDone hOpen] at h
          cases h
        · rw [visit_fresh hDone hOpen] at h
          rw [visit_fresh (mt hDoneIff.mpr hDone) (mt hOpenIff.mpr hOpen)] at h'
          obtain ⟨mid, hMid, rfl⟩ := map_ok h
          obtain ⟨mid', hMid', rfl⟩ := map_ok h'
          have hStackAll : List.Forall₂ R (stack ++ [a]) (stack' ++ [b]) :=
            List.rel_append hStack (List.Forall₂.cons hab List.Forall₂.nil)
          have hSuccessors := foldlM_related (fun d d' e e' x y hd hxy he he' =>
            ih m hStackAll hd hxy he he') (hNext a b hab) done done' mid mid' hDoneAll hMid hMid'
          exact List.rel_append hSuccessors (List.Forall₂.cons hab List.Forall₂.nil)

end Related

/-! ## Cycles -/

/-- A reported cycle is a path from a node of the stack, or from a node reachable
from the visited one, to a different occurrence of the same key. -/
theorem visit_cycle (n : Nat) (stack : List α) :
    ∀ done a p c, Finished key next done → (∀ x ∈ stack, TransGen (Edge next) x a) →
      visit key next n stack done a = .error (.cycle p c) →
      ∃ x, key x = key c ∧ TransGen (Edge next) x c ∧ ReflTransGen (Edge next) a c ∧
        (x ∈ stack ∨ ReflTransGen (Edge next) a x) := by
  induction n generalizing stack with
  | zero =>
    intro done a p c _ _ h
    cases h
  | succ n ih =>
    intro done a p c hF hStack h
    by_cases hDone : key a ∈ done.map key
    · rw [visit_seen hDone] at h
      cases h
    · by_cases hOpen : key a ∈ stack.map key
      · rw [visit_open hDone hOpen] at h
        cases h
        obtain ⟨x, hx, he⟩ := List.mem_map.mp hOpen
        exact ⟨x, he, hStack x hx, ReflTransGen.refl, Or.inl hx⟩
      · rw [visit_fresh hDone hOpen] at h
        obtain ⟨b, hb, mid, hMid, hErr⟩ := foldlM_error_at (Finished key next) (next a) hF
          (fun b _ d d' hd hv => (visit_ok n _ d d' b hd hv).finished) (map_error h)
        have hStack' : ∀ x ∈ stack ++ [a], TransGen (Edge next) x b := by
          intro x hx
          rcases List.mem_append.mp hx with hx | hx
          · exact (hStack x hx).tail hb
          · obtain rfl : x = a := by simpa using hx
            exact TransGen.single hb
        obtain ⟨x, he, hCycle, hReach, hx⟩ := ih (stack ++ [a]) mid b p c hMid hStack' hErr
        refine ⟨x, he, hCycle, ReflTransGen.head hb hReach, ?_⟩
        rcases hx with hx | hx
        · rcases List.mem_append.mp hx with hx | hx
          · exact Or.inl hx
          · obtain rfl : x = a := by simpa using hx
            exact Or.inr ReflTransGen.refl
        · exact Or.inr (ReflTransGen.head hb hx)

theorem visitAll_cycle {fuel : Nat} {roots p : List α} {c : α}
    (h : visitAll key next fuel roots = .error (.cycle p c)) :
    ∃ r ∈ roots, ∃ x, ReflTransGen (Edge next) r x ∧ TransGen (Edge next) x c ∧
      key x = key c := by
  obtain ⟨r, hr, done, hF, hErr⟩ := foldlM_error_at (Finished key next) roots Finished.nil
    (fun b _ d d' hd hv => (visit_ok fuel _ d d' b hd hv).finished) h
  obtain ⟨x, he, hCycle, -, hx⟩ := visit_cycle fuel [] done r p c hF (by simp) hErr
  rcases hx with hx | hx
  · simp at hx
  · exact ⟨r, hr, x, hx, hCycle, he⟩

omit [DecidableEq κ] in
theorem Finished.keyEdge_before {done : List α} (hF : Finished key next done) {k k' : κ}
    (h : KeyEdge key next done k k') :
    ∃ l₁ a l₂, done = l₁ ++ a :: l₂ ∧ key a = k ∧ k ∉ l₁.map key ∧ k' ∈ l₁.map key := by
  obtain ⟨a, ha, rfl, b, hb, rfl⟩ := h
  obtain ⟨l₁, l₂, rfl⟩ := List.append_of_mem ha
  refine ⟨l₁, a, l₂, rfl, rfl, ?_, hF.closed l₁ a l₂ rfl b hb⟩
  have hNodup := hF.nodup
  rw [List.map_append, List.nodup_append] at hNodup
  intro hk
  exact hNodup.2.2 _ hk _ (by simp) rfl

/-- The position of a key in the finished list drops along every edge. -/
theorem Finished.idxOf_lt {done : List α} (hF : Finished key next done) {k k' : κ}
    (h : TransGen (KeyEdge key next done) k k') :
    (done.map key).idxOf k' < (done.map key).idxOf k := by
  have hStep : ∀ {k k'}, KeyEdge key next done k k' →
      (done.map key).idxOf k' < (done.map key).idxOf k := by
    intro k k' h
    obtain ⟨l₁, a, l₂, rfl, rfl, hNew, hOld⟩ := hF.keyEdge_before h
    rw [List.map_append, List.idxOf_append_of_mem hOld, List.idxOf_append_of_notMem hNew]
    have := List.idxOf_lt_length_of_mem hOld
    omega
  induction h with
  | single h => exact hStep h
  | tail _ h ih => exact (hStep h).trans ih

theorem Finished.acyclic {done : List α} (hF : Finished key next done) (k : κ) :
    ¬ TransGen (KeyEdge key next done) k k := fun h => by
  have := hF.idxOf_lt h
  omega

/-! ## Fuel -/

/-- Fuel above the number of keys is enough: the open keys are distinct. -/
theorem visit_ne_fuel {keys : Finset κ} (hNext : ∀ a b, key a ∈ keys → b ∈ next a → key b ∈ keys)
    (n : Nat) (stack : List α) :
    ∀ done a, key a ∈ keys → (∀ x ∈ stack, key x ∈ keys) → (stack.map key).Nodup →
      keys.card < n + stack.length → visit key next n stack done a ≠ .error .fuel := by
  induction n generalizing stack with
  | zero =>
    intro done a _ hStack hNodup hCard
    have hSub : (stack.map key).toFinset ⊆ keys := by
      intro k hk
      obtain ⟨x, hx, rfl⟩ := List.mem_map.mp (List.mem_toFinset.mp hk)
      exact hStack x hx
    have hLe := Finset.card_le_card hSub
    rw [List.toFinset_card_of_nodup hNodup, List.length_map] at hLe
    omega
  | succ n ih =>
    intro done a ha hStack hNodup hCard h
    by_cases hDone : key a ∈ done.map key
    · rw [visit_seen hDone] at h
      cases h
    · by_cases hOpen : key a ∈ stack.map key
      · rw [visit_open hDone hOpen] at h
        cases h
      · rw [visit_fresh hDone hOpen] at h
        obtain ⟨b, hb, mid, -, hErr⟩ := foldlM_error_at (fun _ => True) (next a) trivial
          (fun _ _ _ _ _ _ => trivial) (map_error h)
        refine ih (stack ++ [a]) mid b (hNext a b ha hb) ?_ ?_ ?_ hErr
        · intro x hx
          rcases List.mem_append.mp hx with hx | hx
          · exact hStack x hx
          · obtain rfl : x = a := by simpa using hx
            exact ha
        · rw [List.map_append, List.nodup_append]
          refine ⟨hNodup, by simp, ?_⟩
          intro k hk k' hk' he
          obtain rfl : k' = key a := by simpa using hk'
          exact hOpen (he ▸ hk)
        · rw [List.length_append, List.length_singleton]
          omega

theorem visitAll_ne_fuel {keys : Finset κ} {fuel : Nat} {roots : List α}
    (hNext : ∀ a b, key a ∈ keys → b ∈ next a → key b ∈ keys) (hRoots : ∀ r ∈ roots, key r ∈ keys)
    (hFuel : keys.card < fuel) : visitAll key next fuel roots ≠ .error .fuel := by
  intro h
  obtain ⟨r, hr, done, -, hErr⟩ := foldlM_error_at (fun _ => True) roots trivial
    (fun _ _ _ _ _ _ => trivial) h
  exact visit_ne_fuel hNext fuel [] done r (hRoots r hr) (by simp) (by simp) (by simpa using hFuel)
    hErr

/-! ## One node for each key

When several roots share a key, the walk follows only one of them: the first root of
that key if the walk gets there first, else the node by which successors enter the
key. A choice describes this without running the walk. -/

/-- The edges between keys when each key stands for its chosen node. -/
def PickEdge (key : α → κ) (next : α → List α) (pick : κ → Option α) (k k' : κ) : Prop :=
  ∃ a, pick k = some a ∧ ∃ b ∈ next a, key b = k'

/-- `pick` chooses for each root key the entry node `target` if an earlier root
reaches the key, and the first root of that key if none does. -/
structure Choice (key : α → κ) (next : α → List α) (target : κ → Option α) (roots : List α)
    (pick : κ → Option α) : Prop where
  entered : ∀ l₁ r l₂, roots = l₁ ++ r :: l₂ → key r ∉ l₁.map key →
    (∃ q ∈ l₁, TransGen (PickEdge key next pick) (key q) (key r)) → pick (key r) = target (key r)
  first : ∀ l₁ r l₂, roots = l₁ ++ r :: l₂ → key r ∉ l₁.map key →
    (¬ ∃ q ∈ l₁, TransGen (PickEdge key next pick) (key q) (key r)) → pick (key r) = some r

/-- The node finished for a key. -/
def pickOf (key : α → κ) (done : List α) (k : κ) : Option α := done.find? (fun a => key a = k)

theorem visit_mem {n : Nat} {stack done done' : List α} {a : α} (hNew : key a ∉ done.map key)
    (h : visit key next n stack done a = .ok done') : a ∈ done' := by
  cases n with
  | zero => cases h
  | succ n =>
    by_cases hOpen : key a ∈ stack.map key
    · rw [visit_open hNew hOpen] at h
      cases h
    · rw [visit_fresh hNew hOpen] at h
      obtain ⟨mid, -, rfl⟩ := map_ok h
      simp

theorem Finished.pickOf_eq {done : List α} (hF : Finished key next done) {a : α} (ha : a ∈ done) :
    pickOf key done (key a) = some a := by
  obtain ⟨l₁, l₂, rfl⟩ := List.append_of_mem ha
  have hNodup := hF.nodup
  rw [List.map_append, List.nodup_append] at hNodup
  rw [pickOf, List.find?_append, List.find?_eq_none.mpr, Option.none_or,
    List.find?_cons_of_pos (by simp)]
  intro b hb hKey
  exact hNodup.2.2 (key b) (List.mem_map_of_mem hb) (key a) (by simp) (by simpa using hKey)

theorem pickOf_mem {done : List α} {k : κ} {a : α} (h : pickOf key done k = some a) :
    a ∈ done ∧ key a = k := by
  refine ⟨List.mem_of_find?_eq_some h, ?_⟩
  simpa using List.find?_some h

theorem Finished.pickEdge_iff {done : List α} (hF : Finished key next done) {k k' : κ} :
    PickEdge key next (pickOf key done) k k' ↔ KeyEdge key next done k k' := by
  constructor
  · rintro ⟨a, ha, hEdge⟩
    obtain ⟨hMem, rfl⟩ := pickOf_mem ha
    exact ⟨a, hMem, rfl, hEdge⟩
  · rintro ⟨a, hMem, rfl, hEdge⟩
    exact ⟨a, hF.pickOf_eq hMem, hEdge⟩

omit [DecidableEq κ] in
/-- The finished keys are closed under the edges of their chosen nodes. -/
theorem Finished.closed_pick {done : List α} (hF : Finished key next done) {pick : κ → Option α}
    (hPick : ∀ x ∈ done, pick (key x) = some x) {k k' : κ}
    (h : ReflTransGen (PickEdge key next pick) k k') (hk : k ∈ done.map key) :
    k' ∈ done.map key := by
  induction h with
  | refl => exact hk
  | tail _ hEdge ih =>
    obtain ⟨a, ha, b, hb, rfl⟩ := hEdge
    obtain ⟨x, hx, rfl⟩ := List.mem_map.mp ih
    obtain rfl : x = a := Option.some.inj ((hPick x hx).symm.trans ha)
    obtain ⟨l₁, l₂, rfl⟩ := List.append_of_mem hx
    exact mem_map_mono (List.prefix_append _ _) (hF.closed l₁ x l₂ rfl b hb)

/-- The choice that a successful walk makes. -/
theorem choice_of_ok {fuel : Nat} {roots done : List α} {target : κ → Option α}
    (hTarget : ∀ a b, b ∈ next a → target (key b) = some b)
    (h : visitAll key next fuel roots = .ok done) :
    Choice key next target roots (pickOf key done) := by
  have hF := (visitAll_ok h).finished
  -- The walk over `l₁ ++ r :: l₂` splits into the walk over `l₁`, the visit of `r` and the rest.
  have hSplit : ∀ l₁ r l₂, roots = l₁ ++ r :: l₂ → ∃ done₁ done₂,
      Visited key next [] l₁ [] done₁ ∧ visit key next fuel [] done₁ r = .ok done₂ ∧
      done₁ <+: done ∧ done₂ <+: done := by
    rintro l₁ r l₂ rfl
    rw [visitAll, List.foldlM_append] at h
    cases h₁ : l₁.foldlM (visit key next fuel []) [] with
    | error e => rw [h₁] at h; cases h
    | ok done₁ =>
      rw [h₁] at h
      obtain ⟨done₂, h₂, h₃⟩ := foldlM_ok_cons h
      have hV₁ := foldlM_visited (visit_ok fuel []) l₁ Finished.nil h₁
      have hV₂ := visit_ok fuel [] done₁ done₂ r hV₁.finished h₂
      have hV₃ := foldlM_visited (visit_ok fuel []) l₂ hV₂.finished h₃
      exact ⟨done₁, done₂, hV₁, h₂, hV₂.grows.trans hV₃.grows, hV₃.grows⟩
  -- A root is finished before its turn exactly when an earlier root reaches it.
  have hBefore : ∀ {l₁ r} {done₁ : List α}, Visited key next [] l₁ [] done₁ → done₁ <+: done →
      key r ∉ l₁.map key → key r ∈ done₁.map key →
      (∃ q ∈ l₁, TransGen (PickEdge key next (pickOf key done)) (key q) (key r)) ∧
        pickOf key done (key r) = target (key r) := by
    intro l₁ r done₁ hV hPre hFirst hk
    obtain ⟨x, hx, he⟩ := List.mem_map.mp hk
    rcases hV.reached x hx with hx' | ⟨q, hq, hPath, hKeys⟩
    · simp at hx'
    · have hne : key q ≠ key r := fun hqr => hFirst (hqr ▸ List.mem_map_of_mem hq)
      constructor
      · refine ⟨q, hq, ?_⟩
        rw [he] at hKeys
        have hTrans := (reflTransGen_iff_eq_or_transGen.mp hKeys).resolve_left hne.symm
        exact TransGen.mono (fun _ _ hEdge => hF.pickEdge_iff.mpr (KeyEdge.grow hPre hEdge)) _ _ hTrans
      · rw [← he, hF.pickOf_eq (hPre.subset hx)]
        rcases ReflTransGen.cases_tail hPath with hEq | ⟨y, -, hEdge⟩
        · exact absurd (hEq ▸ he) hne
        · exact (hTarget y x hEdge).symm
  constructor
  · intro l₁ r l₂ hRoots hFirst hReach
    obtain ⟨done₁, done₂, hV, -, hPre, -⟩ := hSplit l₁ r l₂ hRoots
    refine (hBefore hV hPre hFirst ?_).2
    obtain ⟨q, hq, hPath⟩ := hReach
    exact hV.finished.closed_pick (fun x hx => hF.pickOf_eq (hPre.subset hx))
      hPath.to_reflTransGen (hV.covers q hq)
  · intro l₁ r l₂ hRoots hFirst hReach
    obtain ⟨done₁, done₂, hV, hVisit, hPre, hPre₂⟩ := hSplit l₁ r l₂ hRoots
    have hNew : key r ∉ done₁.map key := fun hk => hReach (hBefore hV hPre hFirst hk).1
    exact hF.pickOf_eq (hPre₂.subset (visit_mem hNew hVisit))

/-- A walk that only meets chosen nodes reports no cycle when the choice has none. -/
theorem visit_picked {pick : κ → Option α} {done₀ : List α} {k₀ : κ}
    (hAcyclic : ∀ k, ¬ TransGen (PickEdge key next pick) k k)
    (hPick : ∀ a b, b ∈ next a → TransGen (PickEdge key next pick) k₀ (key b) →
      key b ∉ done₀.map key → pick (key b) = some b) (n : Nat) (stack : List α) :
    ∀ done a, done₀ <+: done → (∀ x ∈ done, pick (key x) = some x) →
      (key a ∈ done.map key ∨ pick (key a) = some a) →
      ReflTransGen (PickEdge key next pick) k₀ (key a) →
      (∀ x ∈ stack, TransGen (PickEdge key next pick) (key x) (key a)) →
      (∀ p c, visit key next n stack done a ≠ .error (.cycle p c)) ∧
      (∀ done', visit key next n stack done a = .ok done' →
        done₀ <+: done' ∧ ∀ x ∈ done', pick (key x) = some x) := by
  induction n generalizing stack with
  | zero =>
    intro done a _ _ _ _ _
    constructor
    · intro p c h
      cases h
    · intro done' h
      cases h
  | succ n ih =>
    intro done a hPre hDonePick ha hReach hStack
    by_cases hDone : key a ∈ done.map key
    · rw [visit_seen hDone]
      constructor
      · intro p c h
        cases h
      · intro done' h
        cases h
        exact ⟨hPre, hDonePick⟩
    · by_cases hOpen : key a ∈ stack.map key
      · obtain ⟨x, hx, he⟩ := List.mem_map.mp hOpen
        exact absurd (he ▸ hStack x hx) (hAcyclic _)
      · rw [visit_fresh hDone hOpen]
        have haPick := ha.resolve_left hDone
        -- each successor is met below `a` with everything finished so far chosen
        have hChild : ∀ b ∈ next a, ∀ m, (done₀ <+: m ∧ ∀ x ∈ m, pick (key x) = some x) →
            (∀ p c, visit key next n (stack ++ [a]) m b ≠ .error (.cycle p c)) ∧
            (∀ m', visit key next n (stack ++ [a]) m b = .ok m' →
              done₀ <+: m' ∧ ∀ x ∈ m', pick (key x) = some x) := by
          intro b hb m hm
          have hEdge : PickEdge key next pick (key a) (key b) := ⟨a, haPick, b, hb, rfl⟩
          have hTrans := TransGen.tail' hReach hEdge
          refine ih (stack ++ [a]) m b hm.1 hm.2 ?_ hTrans.to_reflTransGen ?_
          · by_cases hk : key b ∈ done₀.map key
            · exact Or.inl (mem_map_mono hm.1 hk)
            · exact Or.inr (hPick a b hb hTrans hk)
          · intro x hx
            rcases List.mem_append.mp hx with hx | hx
            · exact (hStack x hx).tail hEdge
            · obtain rfl : x = a := by simpa using hx
              exact TransGen.single hEdge
        constructor
        · intro p c h
          obtain ⟨b, hb, m, hm, hErr⟩ := foldlM_error_at
            (fun m => done₀ <+: m ∧ ∀ x ∈ m, pick (key x) = some x) (next a) ⟨hPre, hDonePick⟩
            (fun b hb m m' hm hv => (hChild b hb m hm).2 m' hv) (map_error h)
          exact (hChild b hb m hm).1 p c hErr
        · intro done' h
          obtain ⟨mid, hFold, rfl⟩ := map_ok h
          have hMid := foldlM_ok_keeps
            (fun m => done₀ <+: m ∧ ∀ x ∈ m, pick (key x) = some x) (next a) ⟨hPre, hDonePick⟩
            (fun b hb m m' hm hv => (hChild b hb m hm).2 m' hv) hFold
          refine ⟨hMid.1.trans (List.prefix_append _ _), ?_⟩
          intro x hx
          rcases List.mem_append.mp hx with hx | hx
          · exact hMid.2 x hx
          · obtain rfl : x = a := by simpa using hx
            exact haPick

/-- One root, with the walk over the earlier roots `l₁` behind it. -/
theorem visit_root_picked {roots l₁ l₂ done₁ : List α} {r : α} {target pick : κ → Option α}
    (hTarget : ∀ a b, b ∈ next a → target (key b) = some b)
    (hRoots : ∀ a b, b ∈ next a → key b ∈ roots.map key)
    (hChoice : Choice key next target roots pick)
    (hAcyclic : ∀ k, ¬ TransGen (PickEdge key next pick) k k) (hEq : roots = l₁ ++ r :: l₂)
    (hV : Visited key next [] l₁ [] done₁) (hDonePick : ∀ x ∈ done₁, pick (key x) = some x)
    (fuel : Nat) :
    (∀ p c, visit key next fuel [] done₁ r ≠ .error (.cycle p c)) ∧
    (∀ done', visit key next fuel [] done₁ r = .ok done' →
      ∀ x ∈ done', pick (key x) = some x) := by
  have hClosed : ∀ {q}, q ∈ l₁ → ∀ {k}, TransGen (PickEdge key next pick) (key q) k →
      k ∈ done₁.map key := fun hq _ h =>
    hV.finished.closed_pick hDonePick h.to_reflTransGen (hV.covers _ hq)
  have hRoot : key r ∈ done₁.map key ∨ pick (key r) = some r := by
    by_cases hk : key r ∈ done₁.map key
    · exact Or.inl hk
    · refine Or.inr (hChoice.first l₁ r l₂ hEq ?_ ?_)
      · intro hMem
        obtain ⟨q, hq, he⟩ := List.mem_map.mp hMem
        exact hk (he ▸ hV.covers q hq)
      · rintro ⟨q, hq, hPath⟩
        exact hk (hClosed hq hPath)
  have hPick : ∀ a b, b ∈ next a → TransGen (PickEdge key next pick) (key r) (key b) →
      key b ∉ done₁.map key → pick (key b) = some b := by
    intro a b hb hPath hNew
    obtain ⟨s, hs, he⟩ := List.mem_map.mp (hRoots a b hb)
    -- the first root with the key of `b` comes after `r`
    obtain ⟨m₁, m₂, t, hSplit, hFirst, ht⟩ : ∃ m₁ m₂ t, roots = m₁ ++ t :: m₂ ∧
        key t ∉ m₁.map key ∧ key t = key b := by
      obtain ⟨t, ht⟩ := Option.isSome_iff_exists.mp (List.find?_isSome.mpr
        ⟨s, hs, by simpa using he⟩ : (roots.find? fun x => key x = key b).isSome)
      obtain ⟨htKey, m₁, m₂, hSplit, hBefore⟩ := List.find?_eq_some_iff_append.mp ht
      have htKey' : key t = key b := by simpa using htKey
      refine ⟨m₁, m₂, t, hSplit, ?_, htKey'⟩
      intro hMem
      obtain ⟨u, hu, hKey⟩ := List.mem_map.mp hMem
      have := hBefore u hu
      simp [hKey, htKey'] at this
    have hAfter : r ∈ m₁ := by
      have hne : key r ≠ key b := fun hrb => hAcyclic _ (hrb ▸ hPath)
      rw [hEq] at hSplit
      rcases List.append_eq_append_iff.mp hSplit with ⟨l, rfl, hl⟩ | ⟨l, rfl, hl⟩
      · rcases List.cons_eq_append_iff.mp hl with ⟨rfl, h⟩ | ⟨l', rfl, -⟩
        · injection h with h _
          exact absurd (h ▸ ht) hne
        · simp
      · rcases List.cons_eq_append_iff.mp hl with ⟨rfl, h⟩ | ⟨l', rfl, -⟩
        · injection h with h _
          exact absurd (h ▸ ht) hne
        · exact absurd (ht ▸ hV.covers t (by simp)) hNew
    rw [← ht] at hPath ⊢
    rw [hChoice.entered m₁ t m₂ hSplit hFirst ⟨r, hAfter, hPath⟩, ht]
    exact hTarget a b hb
  have hVisit := visit_picked hAcyclic hPick fuel [] done₁ r List.prefix_rfl hDonePick hRoot
    ReflTransGen.refl (by simp)
  exact ⟨hVisit.1, fun done' h => (hVisit.2 done' h).2⟩

/-- A walk over several roots succeeds exactly when the choice it would make has no
cycle. -/
theorem visitAll_ok_iff {fuel : Nat} {roots : List α} {target : κ → Option α} {keys : Finset κ}
    (hNext : ∀ a b, key a ∈ keys → b ∈ next a → key b ∈ keys) (hKeys : ∀ r ∈ roots, key r ∈ keys)
    (hFuel : keys.card < fuel) (hTarget : ∀ a b, b ∈ next a → target (key b) = some b)
    (hRoots : ∀ a b, b ∈ next a → key b ∈ roots.map key) :
    (∃ done, visitAll key next fuel roots = .ok done) ↔
      ∃ pick, Choice key next target roots pick ∧
        ∀ k, ¬ TransGen (PickEdge key next pick) k k := by
  constructor
  · rintro ⟨done, h⟩
    have hF := (visitAll_ok h).finished
    refine ⟨pickOf key done, choice_of_ok hTarget h, fun k hk => hF.acyclic k ?_⟩
    exact TransGen.mono (fun _ _ => hF.pickEdge_iff.mp) _ _ hk
  · rintro ⟨pick, hChoice, hAcyclic⟩
    -- the suffix still to walk shrinks while the finished nodes stay the chosen ones
    have hWalk : ∀ l₂ l₁ done₁, roots = l₁ ++ l₂ → Visited key next [] l₁ [] done₁ →
        (∀ x ∈ done₁, pick (key x) = some x) →
        ∀ p c, l₂.foldlM (visit key next fuel []) done₁ ≠ .error (.cycle p c) := by
      intro l₂
      induction l₂ with
      | nil =>
        intro l₁ done₁ _ _ _ p c h
        cases h
      | cons r l₂ ih =>
        intro l₁ done₁ hEq hV hDonePick p c h
        have hStep := visit_root_picked hTarget hRoots hChoice hAcyclic hEq hV hDonePick fuel
        rcases foldlM_error_cons h with hErr | ⟨done₂, hOk, hErr⟩
        · exact hStep.1 p c hErr
        · have hV₂ : Visited key next [] (l₁ ++ [r]) [] done₂ := by
            have hr := visit_ok fuel [] done₁ done₂ r hV.finished hOk
            exact hV.append hr
          exact ih (l₁ ++ [r]) done₂ (by simp [hEq]) hV₂ (hStep.2 done₂ hOk) p c hErr
    cases hResult : visitAll key next fuel roots with
    | ok done => exact ⟨done, rfl⟩
    | error e =>
      cases e with
      | fuel => exact absurd hResult (visitAll_ne_fuel hNext hKeys hFuel)
      | cycle p c => exact absurd hResult (hWalk roots [] [] rfl ⟨Finished.nil, List.prefix_rfl,
          by simp, by simp, by simp⟩ (by simp) p c)

end DepthFirst
