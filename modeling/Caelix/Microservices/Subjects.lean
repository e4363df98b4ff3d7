import Mathlib.Data.List.Perm.Subperm
import Caelix.Core.PreflightSpec

/-!
# Owners of subjects

The handlers that `collect_module_message_handlers_with_container` gives to a transport,
and the search of the Redis transport for the handler of an event.

* `subject_owner`: after preflight, at most one handler matches a concrete subject.
-/

namespace Caelix

variable {W : Type}

/-- The handlers of the modules, in discovery order. -/
def ModuleGraph.handlers (graph : ModuleGraph W) : List MessageHandlerDef :=
  graph.nodes.flatMap fun node => node.metadata.microservices.flatMap fun m => m.handlers

def collectModuleMessageHandlers (P : Program W) (root : ModuleDef)
    (container : Option (RootContainer W)) : Except Fault (List MessageHandlerDef) := do
  let graph ← discoverFrom P root
  let _ ← graph.preflight container
  .ok graph.handlers

/-- The event handler that the Redis transport runs for a subject. -/
def findEventHandler (handlers : List MessageHandlerDef) (subject : String) :
    Option MessageHandlerDef :=
  handlers.find? fun handler => handler.kind == .event && natsPatternMatches handler.pattern subject

/-! ## Searches with one result -/

/-- A search with at most one result does not depend on the order. -/
theorem find?_eq_of_perm {α : Type} {p : α → Bool} {l l' : List α} (h : l.Perm l')
    (hOne : (l'.filter p).length ≤ 1) : l.find? p = l'.find? p := by
  have hPerm := h.filter p
  rw [← List.head?_filter, ← List.head?_filter]
  cases hFilter : l'.filter p with
  | nil =>
    rw [hFilter, List.perm_nil] at hPerm
    rw [hPerm]
  | cons a rest =>
    rw [hFilter, List.length_cons] at hOne
    have hRest : rest = [] := List.length_eq_zero_iff.mp (by omega)
    rw [hFilter, hRest, List.perm_singleton] at hPerm
    rw [hPerm, hRest]

theorem eq_of_length_le_one {α : Type} {l : List α} (h : l.length ≤ 1) {a b : α} (ha : a ∈ l)
    (hb : b ∈ l) : a = b := by
  cases l with
  | nil => cases ha
  | cons c rest =>
    rw [List.length_cons] at h
    have hRest : rest = [] := List.length_eq_zero_iff.mp (by omega)
    rw [hRest, List.mem_singleton] at ha hb
    rw [ha, hb]

theorem length_le_one_of_forall_eq {α : Type} {l : List α} (h : l.Nodup)
    (hEq : ∀ a ∈ l, ∀ b ∈ l, a = b) : l.length ≤ 1 := by
  cases l with
  | nil => exact Nat.zero_le 1
  | cons a rest =>
    have hSubset : a :: rest ⊆ [a] := fun b hb =>
      List.mem_singleton.mpr (hEq b hb a (List.mem_cons_self ..))
    exact (List.subperm_of_subset h hSubset).length_le

/-! ## One owner -/

theorem tokens_injective {s s' : String} (h : tokens s = tokens s') : s = s' := by
  have hJoin : ∀ s : String, ['.'].intercalate (tokens s) = s.toList := fun s =>
    List.intercalate_splitOn '.'
  apply String.toList_inj.mp
  rw [← hJoin s, h, hJoin s']

/-- Without wildcards a pattern matches itself only. -/
theorem eq_of_tokensMatch {ts subject : List Token} (h : ValidTokens False ts)
    (hMatch : tokensMatch ts subject = true) : subject = ts := by
  induction ts generalizing subject with
  | nil => exact (tokensMatch_nil subject).mp hMatch
  | cons t ts ih =>
    obtain ⟨-, hStar, hRest, hTail⟩ := h
    have hNotStar : t ≠ star := fun ht => (hStar (by simp [ht, star])).1
    have hNotRest : t ≠ rest := fun ht => (hRest (by simp [ht, rest])).1
    obtain ⟨v, s, rfl, hv, hLater⟩ := (tokensMatch_cons hNotRest).mp hMatch
    rw [hv.resolve_left hNotStar, ih hTail hLater]

theorem ValidPattern.eq_of_matches {pattern subject : String} (h : ValidPattern pattern true)
    (hMatch : natsPatternMatches pattern subject = true) : subject = pattern := by
  refine tokens_injective (eq_of_tokensMatch ?_ hMatch)
  have hTokens := h.2.2
  rwa [eq_false (by decide : ¬ true = false)] at hTokens

namespace ModuleGraph

variable {graph : ModuleGraph W} {container : Option (RootContainer W)} {subject : String}

theorem messageHandlers_snd : graph.messageHandlers.map Prod.snd = graph.handlers := by
  have hNodes : graph.nodes.zipIdx.map Prod.fst = graph.nodes := List.zipIdx_map_fst 0 graph.nodes
  unfold messageHandlers handlers
  conv_rhs => rw [← hNodes, List.flatMap_map]
  simp [List.map_flatMap, Function.comp_def]

/-- Handlers that match the same concrete subject have the same pattern. -/
theorem Accepted.pattern_eq (h : graph.Accepted container) (hConcrete : ConcreteSubject subject)
    {a b : MessageHandlerDef} (ha : a ∈ graph.handlers) (hb : b ∈ graph.handlers)
    (haMatch : natsPatternMatches a.pattern subject = true)
    (hbMatch : natsPatternMatches b.pattern subject = true) : a.pattern = b.pattern := by
  rw [← messageHandlers_snd] at ha hb
  obtain ⟨p, hp, rfl⟩ := List.mem_map.mp ha
  obtain ⟨q, hq, rfl⟩ := List.mem_map.mp hb
  have hpValid := h.subjects.1 p hp
  have hqValid := h.subjects.1 q hq
  cases hpKind : p.2.kind with
  | command =>
    cases hqKind : q.2.kind with
    | command =>
      rw [hpKind] at hpValid
      rw [hqKind] at hqValid
      exact (hpValid.eq_of_matches haMatch).symm.trans (hqValid.eq_of_matches hbMatch)
    | event => exact absurd ⟨subject, hConcrete, haMatch, hbMatch⟩ (h.disjoint.1 p hp hpKind q hq hqKind)
  | event =>
    cases hqKind : q.2.kind with
    | command => exact absurd ⟨subject, hConcrete, hbMatch, haMatch⟩ (h.disjoint.1 q hq hqKind p hp hpKind)
    | event =>
      by_contra hne
      exact h.disjoint.2 p hp hpKind q hq hqKind hne ⟨subject, hConcrete, haMatch, hbMatch⟩

theorem Accepted.owners_le_one (h : graph.Accepted container) (hConcrete : ConcreteSubject subject) :
    (graph.handlers.filter fun a => natsPatternMatches a.pattern subject).length ≤ 1 := by
  have hNodup : (graph.handlers.map MessageHandlerDef.pattern).Nodup := by
    rw [← messageHandlers_snd, List.map_map]
    exact h.subjects.2
  rw [← List.length_map MessageHandlerDef.pattern]
  refine length_le_one_of_forall_eq (hNodup.sublist (List.filter_sublist.map _)) ?_
  intro first hFirst second hSecond
  obtain ⟨a, ha, rfl⟩ := List.mem_map.mp hFirst
  obtain ⟨b, hb, rfl⟩ := List.mem_map.mp hSecond
  obtain ⟨haMem, haMatch⟩ := List.mem_filter.mp ha
  obtain ⟨hbMem, hbMatch⟩ := List.mem_filter.mp hb
  exact h.pattern_eq hConcrete haMem hbMem haMatch hbMatch

end ModuleGraph

/-- The handlers of an accepted graph that match a concrete subject: at most one of them,
so the search for an event handler gives the same one in every order, and no subject is
both a command and an event. -/
theorem subject_owner {P : Program W} {root : ModuleDef} {graph : ModuleGraph W}
    {container : Option (RootContainer W)} {sorted : List (ProviderRegistration W)}
    (hDiscover : discoverFrom P root = .ok graph)
    (hPreflight : graph.preflight container = .ok sorted) {subject : String}
    (hConcrete : ConcreteSubject subject) :
    collectModuleMessageHandlers P root container = .ok graph.handlers ∧
      (graph.handlers.filter fun a => natsPatternMatches a.pattern subject).length ≤ 1 ∧
      (∀ handlers : List MessageHandlerDef, handlers.Perm graph.handlers →
        findEventHandler handlers subject = findEventHandler graph.handlers subject) ∧
      ∀ a ∈ graph.handlers, ∀ b ∈ graph.handlers, natsPatternMatches a.pattern subject = true →
        natsPatternMatches b.pattern subject = true → a.kind = b.kind := by
  have hFirst := ModuleGraph.importsFirst_of_discovered (discovered_of_ok hDiscover)
  have hAccepted := ((ModuleGraph.preflight_ok_iff hFirst).mp hPreflight).1
  have hOne := hAccepted.owners_le_one hConcrete
  refine ⟨?_, hOne, ?_, ?_⟩
  · unfold collectModuleMessageHandlers
    rw [hDiscover]
    dsimp only [bind, Except.bind]
    rw [hPreflight]
  · intro handlers hPerm
    refine find?_eq_of_perm hPerm (Nat.le_trans ?_ hOne)
    refine List.Sublist.length_le (List.monotone_filter_right _ ?_)
    intro a ha
    exact (Bool.and_eq_true_iff.mp ha).2
  · intro a ha b hb haMatch hbMatch
    have haMem : a ∈ graph.handlers.filter fun a => natsPatternMatches a.pattern subject :=
      List.mem_filter.mpr ⟨ha, haMatch⟩
    have hbMem : b ∈ graph.handlers.filter fun a => natsPatternMatches a.pattern subject :=
      List.mem_filter.mpr ⟨hb, hbMatch⟩
    rw [eq_of_length_le_one hOne haMem hbMem]

/-- A command handler in the root module and two event handlers in its import. -/
def ordersProgram : Program Unit where
  metadataFn t :=
    match t with
    | 10 =>
      { ModuleMetadata.new with
        imports := [⟨11, "EventsModule"⟩]
        microservices := [⟨plainProvider 30 "OrderCommands" [], [⟨.command, "orders.get"⟩]⟩] }
    | 11 =>
      { ModuleMetadata.new with
        microservices := [⟨plainProvider 31 "OrderEvents" [],
          [⟨.event, "orders.*.created"⟩, ⟨.event, "audit.>"⟩]⟩] }
    | _ => ModuleMetadata.new
  modules := {10, 11}
  closed := by decide

def ordersGraph : ModuleGraph Unit where
  nodes :=
    [⟨11, "EventsModule", ordersProgram.metadataFn 11, []⟩,
      ⟨10, "App", { ordersProgram.metadataFn 10 with imports := [] }, [0]⟩]

theorem subject_owner_orders :
    (∃ sorted, ordersGraph.preflight none = .ok sorted) ∧
      findEventHandler ordersGraph.handlers.reverse "orders.7.created" =
        some ⟨.event, "orders.*.created"⟩ := by
  have hPreflight : ∃ sorted, ordersGraph.preflight none = .ok sorted := ⟨_, rfl⟩
  obtain ⟨sorted, hSorted⟩ := hPreflight
  have hConcrete : ConcreteSubject "orders.7.created" := by
    unfold ConcreteSubject ConcreteToken
    decide
  have hDiscover : discoverFrom ordersProgram ⟨10, "App"⟩ = .ok ordersGraph := rfl
  have hOwner := subject_owner hDiscover hSorted hConcrete
  refine ⟨⟨sorted, hSorted⟩, ?_⟩
  rw [hOwner.2.2.1 _ (List.reverse_perm _)]
  decide

end Caelix
