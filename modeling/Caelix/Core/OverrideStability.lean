import Caelix.Core.Bootstrap
import Caelix.Core.Registration

/-!
# Validation after the overrides are consumed

The first preflight of a start-up reads dependencies from the pending overrides; the
later ones run on a container whose overrides are consumed and read the production
dependencies of the same providers.

* `preflight_consumed_iff`: when the later preflights accept the graph.
* `build_ok_iff`: when a start-up whose steps all succeed is accepted.
-/

namespace Caelix

open Relation Steps Fallible

variable {W : Type}

/-- The types that the overrides provide. -/
def ProviderOverrides.types (given : ProviderOverrides W) : List TypeId :=
  given.defs.map ProviderDef.typeId

/-- The container that a start-up with overrides begins with. -/
abbrev seeded (given : ProviderOverrides W) : RootContainer W := RootContainer.new.seedOverrides given

section Seeded

variable (given : ProviderOverrides W) (t : TypeId)

theorem seeded_services (v : ProviderValue) :
    (seeded given).services t = some v ↔ t = TypeId.logger ∧ v = ⟨TypeId.logger, 0⟩ := by
  have h : (seeded given).services =
      Function.update (fun _ => none) TypeId.logger (some ⟨TypeId.logger, 0⟩) := rfl
  rw [h]
  by_cases ht : t = TypeId.logger
  · simp [ht, eq_comm]
  · simp [ht]

theorem seeded_pending : ((seeded given).pendingOverride t).isSome ↔ t ∈ given.types :=
  RootContainer.pendingOverride_isSome

theorem seeded_settled : (seeded given).Settled := by
  intro t ht
  have hEmpty : (seeded given).appliedOverrides = ∅ := rfl
  rw [hEmpty] at ht
  cases ht

theorem startsNew_seeded :
    startsNew (seeded given) t = true ↔ t ≠ TypeId.logger ∧ t ∉ given.types := by
  rw [startsNew_iff, ← seeded_pending, Option.not_isSome_iff_eq_none]
  have hApplied : t ∉ (seeded given).appliedOverrides := by
    rw [show (seeded given).appliedOverrides = ∅ from rfl]
    exact Finset.notMem_empty t
  have hService : (seeded given).services t = none ↔ t ≠ TypeId.logger := by
    rw [Option.eq_none_iff_forall_ne_some]
    constructor
    · intro h ht
      exact h _ ((seeded_services given t _).mpr ⟨ht, rfl⟩)
    · intro h v hv
      exact h ((seeded_services given t v).mp hv).1
  rw [hService]
  simp [hApplied]

end Seeded

/-! ## The consumed container -/

/-- A container whose overrides are all consumed: the types `overridden` are marked and
the services are the logger and the declared types. -/
structure Consumed (graph : ModuleGraph W) (overridden : List TypeId) (c : RootContainer W) :
    Prop where
  effective : ∀ d, effectiveDef (some c) d = d
  applied : ∀ t, t ∈ c.appliedOverrides ↔ t ∈ overridden
  services : ∀ t, (∃ v, c.services t = some v) ↔ t = TypeId.logger ∨ graph.Declares t

theorem Built.consumed {graph : ModuleGraph W} {given : ProviderOverrides W}
    {base : List (ProviderDef W × ProviderValue)} {order : List (ProviderRegistration W)}
    {r : Run W} (h : Built (seeded given) base order r)
    (hScheduled : graph.Scheduled (some (seeded given)) order)
    (hPending : r.container.pendingOverrides = []) :
    Consumed graph given.types r.container := by
  have hNone : ∀ t, r.container.pendingOverride t = none := by
    intro t
    simp [RootContainer.pendingOverride, hPending]
  refine ⟨?_, ?_, ?_⟩
  · intro d
    show (r.container.pendingOverride d.typeId).getD d = d
    rw [hNone]
    rfl
  · intro t
    rw [← seeded_pending]
    constructor
    · intro ht
      rcases h.applied t ht with hOld | hSome
      · rw [show (seeded given).appliedOverrides = ∅ from rfl] at hOld
        cases hOld
      · exact hSome
    · intro hSome
      rcases h.progress.pending t with he | ⟨-, hMem⟩
      · rw [← he, hNone] at hSome
        cases hSome
      · exact hMem
  · intro t
    constructor
    · rintro ⟨v, hv⟩
      rcases h.origin t v hv with hOld | hMem
      · exact Or.inl ((seeded_services given t v).mp hOld).1
      · obtain ⟨q, hq, rfl⟩ := List.mem_map.mp hMem
        exact Or.inr ⟨q, hScheduled.declared q hq, rfl⟩
    · rintro (rfl | hDeclared)
      · exact ⟨_, h.progress.services _ _ ((seeded_services given _ _).mpr ⟨rfl, rfl⟩)⟩
      · obtain ⟨q, hq, rfl⟩ := List.mem_map.mp (hScheduled.complete t hDeclared)
        exact h.provided q hq

namespace ModuleGraph

variable {graph : ModuleGraph W}

/-- The production dependencies of the overridden providers are declared and visible. -/
def OverriddenMet (graph : ModuleGraph W) (overridden : List TypeId) : Prop :=
  ∀ q ∈ graph.definitions, q.typeId ∈ overridden → ∀ d ∈ q.definition.dependencies,
    d.typeId ≠ TypeId.logger → graph.Declares d.typeId ∧ graph.Visible q.module d.typeId

/-- The production dependencies are free of cycles, each type standing for the registration
by which the scheduler enters it. With one registration for each type this is the
acyclicity of the dependency relation. -/
def ProductionAcyclic (graph : ModuleGraph W) : Prop :=
  ∃ pick, DepthFirst.Choice ProviderRegistration.typeId (dependenciesOf none graph.lastDeclared)
      graph.lastDeclared graph.definitions pick ∧
    ∀ t, ¬ TransGen (DepthFirst.PickEdge ProviderRegistration.typeId
      (dependenciesOf none graph.lastDeclared) pick) t t

theorem scheduleAll_none_iff :
    (∃ sorted, graph.scheduleAll none graph.lastDeclared = .ok sorted) ↔ graph.ProductionAcyclic := by
  simp only [scheduleAll_ok_iff]
  have hDependency : ∀ a b : ProviderRegistration W, b ∈ dependenciesOf none graph.lastDeclared a →
      b ∈ graph.definitions ∧ graph.lastDeclared b.typeId = some b := by
    intro a b hb
    obtain ⟨d, -, hd⟩ := mem_dependenciesOf.mp hb
    obtain ⟨hMem, hType⟩ := lastDeclared_some hd
    exact ⟨hMem, hType ▸ hd⟩
  have hKeys : ∀ q ∈ graph.definitions,
      q.typeId ∈ (graph.definitions.map ProviderRegistration.typeId).toFinset := by
    intro q hq
    exact List.mem_toFinset.mpr (List.mem_map_of_mem hq)
  have hCard := List.toFinset_card_le (graph.definitions.map ProviderRegistration.typeId)
  rw [List.length_map] at hCard
  refine DepthFirst.visitAll_ok_iff (fun a b _ hb => hKeys b (hDependency a b hb).1) hKeys (by omega)
    (fun a b hb => (hDependency a b hb).2) ?_
  intro a b hb
  exact List.mem_map_of_mem (hDependency a b hb).1

/-- Once the overrides are consumed, the scheduler sees the production dependencies. -/
theorem scheduleAll_consumed {overridden : List TypeId} {c : RootContainer W}
    (hConsumed : Consumed graph overridden c) {sorted : List (ProviderRegistration W)} :
    graph.scheduleAll (some c) graph.lastDeclared = .ok sorted ↔
      graph.scheduleAll none graph.lastDeclared = .ok sorted := by
  have hSame : dependenciesOf (some c) graph.lastDeclared = dependenciesOf none graph.lastDeclared := by
    funext q
    rw [dependenciesOf, dependenciesOf, hConsumed.effective]
    rfl
  rw [scheduleAll_ok_iff, scheduleAll_ok_iff, hSame]

/-- The later preflights accept a graph that the first one accepted exactly when the
production dependencies of the overridden providers are declared, visible and acyclic. -/
theorem preflight_consumed_iff (hFirst : graph.ImportsFirst) {given : ProviderOverrides W}
    {c : RootContainer W} (hAccepted : graph.Accepted (some (seeded given)))
    (hConsumed : Consumed graph given.types c) :
    (∃ sorted, graph.preflight (some c) = .ok sorted) ↔
      graph.OverriddenMet given.types ∧ graph.ProductionAcyclic := by
  have hOverridden : ∀ t, overriddenIn (some (seeded given)) t = true ↔ t ∈ given.types := by
    intro t
    rw [← seeded_pending]
    have hNone : (seeded given).wasOverridden t = false := rfl
    simp [overriddenIn, RootContainer.hasPendingOverride, hNone]
  have hRepeats : graph.RepeatsOverridden (some c) := by
    intro t ht
    have hMem := (hConsumed.applied t).mpr ((hOverridden t).mp (hAccepted.repeats t ht))
    simp [overriddenIn, Container.wasOverridden, hMem]
  have hDependencies : graph.DependenciesMet (some c) ↔ graph.OverriddenMet given.types := by
    constructor
    · intro h q hq hType d hd hLogger
      have hMet := h q hq d (by rwa [hConsumed.effective]) hLogger
      have hDeclared : graph.Declares d.typeId := by
        by_contra hNone
        have hService : c.containsTypeId d.typeId = true := hMet.2 hNone
        rw [Container.containsTypeId_iff, hConsumed.services] at hService
        exact hService.elim hLogger hNone
      exact ⟨hDeclared, hMet.1 hDeclared⟩
    · intro h q hq d hd hLogger
      rw [hConsumed.effective] at hd
      by_cases hType : q.typeId ∈ given.types
      · obtain ⟨hDeclared, hVisible⟩ := h q hq hType d hd hLogger
        exact ⟨fun _ => hVisible, fun hNone => absurd hDeclared hNone⟩
      · -- a provider without override keeps its dependencies and every service it saw
        have hPending : (seeded given).pendingOverride q.definition.typeId = none := by
          rw [← Option.not_isSome_iff_eq_none, seeded_pending]
          exact hType
        have hSame : effectiveDef (some (seeded given)) q.definition = q.definition := by
          show ((seeded given).pendingOverride q.definition.typeId).getD q.definition = _
          rw [hPending]
          rfl
        have hMet := hAccepted.dependencies q hq d (by rwa [hSame]) hLogger
        refine ⟨hMet.1, fun hNone => ?_⟩
        have hService : (seeded given).containsTypeId d.typeId = true := hMet.2 hNone
        rw [Container.containsTypeId_iff] at hService
        obtain ⟨v, hv⟩ := hService
        exact absurd ((seeded_services given _ v).mp hv).1 hLogger
  simp only [preflight_ok_iff hFirst, scheduleAll_consumed hConsumed]
  rw [exists_and_left, scheduleAll_none_iff]
  apply and_congr_left
  intro _
  constructor
  · intro h
    exact hDependencies.mp h.dependencies
  · intro h
    exact ⟨hRepeats, hAccepted.exports, hDependencies.mpr h, hAccepted.eventHandlers,
      hAccepted.subjects, hAccepted.disjoint⟩

end ModuleGraph

/-! ## Start-ups -/

/-- The faults of `on_bootstrap` hooks. -/
def bootstrapFaults (trace : List (Event W)) : List Fault :=
  (trace.filter fun e => e.bootstrapped.isSome).filterMap Event.fault

/-- The container that a successful registration leaves, with all overrides consumed. -/
theorem registerModule_consumed {P : Program W} {root : ModuleDef} {graph : ModuleGraph W}
    {given : ProviderOverrides W} {w : W} {r : Run W} (hDiscover : discoverFrom P root = .ok graph)
    (hRegister : registerModule P root (Run.fresh (seeded given) w) = (.ok (), r))
    (hUnused : r.container.assertNoUnusedOverrides = .ok ()) :
    graph.Accepted (some (seeded given)) ∧ Consumed graph given.types r.container := by
  have hFirst := ModuleGraph.importsFirst_of_discovered (discovered_of_ok hDiscover)
  obtain ⟨graph', order, hGraph, hPreflight, hBuilt⟩ :=
    registerModule_built P root (r := Run.fresh (seeded given) w) (seeded_settled given)
      (by rw [hRegister])
  rw [hDiscover] at hGraph
  cases hGraph
  rw [hRegister] at hBuilt
  obtain ⟨hAccepted, hSchedule⟩ := (ModuleGraph.preflight_ok_iff hFirst).mp hPreflight
  refine ⟨hAccepted, hBuilt.consumed (ModuleGraph.scheduleAll_scheduled hSchedule) ?_⟩
  exact (RootContainer.assertNoUnusedOverrides_ok_iff _).mp hUnused

theorem validateModuleProviders_ok_iff {P : Program W} {root : ModuleDef} {graph : ModuleGraph W}
    {c : RootContainer W} (hDiscover : discoverFrom P root = .ok graph) :
    validateModuleProviders P root c = .ok () ↔
      (∃ order, graph.preflight (some c) = .ok order) ∧
        ∀ q ∈ graph.definitions, ∃ v, c.services q.typeId = some v := by
  constructor
  · exact validateModuleProviders_ok hDiscover
  · rintro ⟨⟨order, hPreflight⟩, hStored⟩
    unfold validateModuleProviders
    rw [hDiscover]
    refine bind_ok_iff.mpr ⟨graph, rfl, bind_ok_iff.mpr ⟨order, hPreflight, forM_ok_iff.mpr ?_⟩⟩
    intro q hq
    refine ite_ok_iff.mpr ?_
    rw [Container.containsTypeId_iff]
    exact hStored q hq

/-- In a start-up whose registration, override check, gateway paths and bootstrap hooks all
succeed, the later preflights accept the graph and the start-up succeeds exactly when the
production dependencies of the overridden providers are declared, visible and acyclic. -/
theorem build_ok_iff (P : Program W) (root : ModuleDef) (graph : ModuleGraph W)
    (given : ProviderOverrides W) (w : W) (r : Run W)
    (hDiscover : discoverFrom P root = .ok graph)
    (hRegister : registerModule P root (Run.fresh (seeded given) w) = (.ok (), r))
    (hUnused : r.container.assertNoUnusedOverrides = .ok ())
    (hPaths : validateGatewayPaths P root = .ok ())
    (hBootstrap : bootstrapFaults (buildContainerWithOverrides P root given w).2.trace = []) :
    (validateModuleProviders P root r.container = .ok () ∧
      (∃ order, graph.preflight (some r.container) = .ok order) ∧
      (buildContainerWithOverrides P root given w).1 = .ok ()) ↔
    graph.OverriddenMet given.types ∧ graph.ProductionAcyclic := by
  have hFirst := ModuleGraph.importsFirst_of_discovered (discovered_of_ok hDiscover)
  obtain ⟨hAccepted, hConsumed⟩ := registerModule_consumed hDiscover hRegister hUnused
  rw [← ModuleGraph.preflight_consumed_iff hFirst hAccepted hConsumed]
  constructor
  · rintro ⟨-, hPreflight, -⟩
    exact hPreflight
  · intro hPreflight
    have hProviders : validateModuleProviders P root r.container = .ok () := by
      refine (validateModuleProviders_ok_iff hDiscover).mpr ⟨hPreflight, ?_⟩
      intro q hq
      exact (hConsumed.services _).mpr (Or.inr ⟨q, hq, rfl⟩)
    have hChecks : (StartUp.overrides given).checks P root r.container = .ok () := by
      refine bind_ok_iff.mpr ⟨(), by rw [hUnused]; rfl, bind_ok_iff.mpr ⟨(), hProviders, hPaths⟩⟩
    refine ⟨hProviders, hPreflight, ?_⟩
    obtain ⟨_, _, -, -, -, hEnds⟩ :=
      StartUp.bootstrap_ends (StartUp.overrides given) hRegister hChecks
    unfold buildContainerWithOverrides at hBootstrap ⊢
    generalize (StartUp.overrides given).run P root w = x at hBootstrap hEnds
    obtain ⟨result, r'⟩ := x
    cases result with
    | ok u => rfl
    | error f =>
      -- a bootstrap that stops has recorded the fault of a hook
      obtain ⟨before, p, hStopped⟩ := hEnds
      have hFault : f ∈ bootstrapFaults r'.trace :=
        List.mem_filterMap.mpr ⟨_, List.mem_filter.mpr ⟨hStopped.recorded, rfl⟩, rfl⟩
      dsimp only at hBootstrap
      rw [hBootstrap] at hFault
      cases hFault

/-- The controller of the users program replaced by an instance. -/
def usersOverrides : ProviderOverrides Unit :=
  ProviderOverrides.new.insertInstance ⟨21, 7⟩ "UsersController"

theorem build_ok_iff_users :
    (buildContainerWithOverrides usersProgram ⟨10, "App"⟩ usersOverrides ()).1 = .ok () ∧
    usersGraph.OverriddenMet usersOverrides.types ∧ usersGraph.ProductionAcyclic := by
  have hIff := build_ok_iff usersProgram ⟨10, "App"⟩ usersGraph usersOverrides () _ rfl rfl rfl rfl rfl
  have hPreflight : ∃ order, usersGraph.preflight (some (registerModule usersProgram ⟨10, "App"⟩
      (Run.fresh (seeded usersOverrides) ())).2.container) = .ok order := ⟨_, rfl⟩
  exact ⟨rfl, hIff.mp ⟨rfl, hPreflight, rfl⟩⟩

/-- A provider that depends on a type which no module declares. -/
def reportsProgram : Program Unit where
  metadataFn t :=
    match t with
    | 10 =>
      { ModuleMetadata.new with providers := [plainProvider 20 "ReportsService" [⟨21, "Database"⟩]] }
    | _ => ModuleMetadata.new
  modules := {10}
  closed := by decide

def reportsOverrides : ProviderOverrides Unit :=
  ProviderOverrides.new.insertInstance ⟨20, 7⟩ "ReportsService"

/-- The override of the provider is built and every hook succeeds, but the check after the
registration rejects the graph for the dependency of the replaced provider. -/
theorem build_rejects_reports :
    (registerModule reportsProgram ⟨10, "App"⟩ (Run.fresh (seeded reportsOverrides) ())).1 = .ok () ∧
    (registerModule reportsProgram ⟨10, "App"⟩
      (Run.fresh (seeded reportsOverrides) ())).2.container.assertNoUnusedOverrides = .ok () ∧
    validateGatewayPaths reportsProgram ⟨10, "App"⟩ = .ok () ∧
    bootstrapFaults
      (buildContainerWithOverrides reportsProgram ⟨10, "App"⟩ reportsOverrides ()).2.trace = [] ∧
    (buildContainerWithOverrides reportsProgram ⟨10, "App"⟩ reportsOverrides ()).1 =
      .error (.startup ("missing provider at startup: ReportsService depends on Database but no " ++
        "provider is registered")) :=
  ⟨rfl, rfl, rfl, rfl, rfl⟩

end Caelix
