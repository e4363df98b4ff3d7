import Caelix.Core.OverrideStability
import Mathlib.Data.List.Perm.Basic

/-!
# Bootstrap order and initialisation order

The registration follows the schedule of the effective dependencies, the bootstrap phase
the schedule of the production dependencies. Both are read here on the types that the
start-up constructs itself (`ownTypes`).

* `StartUp.boots`: how far the bootstrap phase gets in its schedule.
* `bootstrap_order_iff`: when the bootstrap order follows the initialisation order.
-/

namespace Caelix

open Relation Steps Fallible

variable {W : Type}

section Lists

variable {α : Type}

theorem take_prefix_iff {l l' : List α} {n : Nat} (hn : n ≤ l.length) :
    l.take n <+: l' ↔ ∀ i < n, l[i]? = l'[i]? := by
  rw [List.prefix_iff_getElem?]
  constructor
  · intro h i hi
    rw [h i (by rw [List.length_take]; omega), List.getElem_take, List.getElem?_eq_getElem]
  · intro h i hi
    rw [List.length_take] at hi
    rw [← h i (by omega), List.getElem_take, List.getElem?_eq_getElem]

theorem pairwise_idxOf [BEq α] [LawfulBEq α] {l : List α} (h : l.Nodup) :
    l.Pairwise fun a b => l.idxOf a < l.idxOf b := by
  rw [List.pairwise_iff_getElem]
  intro i j hi hj hij
  rwa [h.idxOf_getElem i hi, h.idxOf_getElem j hj]

/-- A part of a duplicate-free list keeps its order. -/
theorem mem_before_of_idxOf_lt [BEq α] [LawfulBEq α] {l l₁ l₂ : List α} {a b : α} (h : l.Nodup)
    (hPart : (l₁ ++ a :: l₂).Sublist l) (hMem : b ∈ l₁ ++ a :: l₂) (hBefore : l.idxOf b < l.idxOf a) :
    b ∈ l₁ := by
  have hOrder := List.pairwise_append.mp ((pairwise_idxOf h).sublist hPart)
  rcases List.mem_append.mp hMem with hb | hb
  · exact hb
  · rcases List.mem_cons.mp hb with rfl | hb
    · omega
    · have hAfter := (List.pairwise_cons.mp hOrder.2.1).1 b hb
      omega

end Lists

/-! ## The providers of a start-up -/

/-- The types of a schedule that a start-up with the given overrides constructs itself. -/
def ownTypes (given : ProviderOverrides W) (order : List (ProviderRegistration W)) : List TypeId :=
  (order.map ProviderRegistration.typeId).filter fun t => t ≠ TypeId.logger ∧ t ∉ given.types

/-- These providers with their instances. -/
def ownProviders (given : ProviderOverrides W) (c : Container)
    (order : List (ProviderRegistration W)) : List (ProviderDef W × ProviderValue) :=
  order.filterMap fun q =>
    if q.typeId ≠ TypeId.logger ∧ q.typeId ∉ given.types then
      (c.services q.typeId).map fun value => (q.definition, value)
    else none

variable {graph : ModuleGraph W} {given : ProviderOverrides W}

theorem ownTypes_eq (given : ProviderOverrides W) (order : List (ProviderRegistration W)) :
    ownTypes given order =
      (order.map ProviderRegistration.typeId).filter (startsNew (seeded given)) := by
  unfold ownTypes
  apply List.filter_congr
  intro t _
  rw [Bool.eq_iff_iff, startsNew_seeded, decide_eq_true_iff]

theorem mem_ownTypes {order : List (ProviderRegistration W)} {t : TypeId} :
    t ∈ ownTypes given order ↔
      t ∈ order.map ProviderRegistration.typeId ∧ t ≠ TypeId.logger ∧ t ∉ given.types := by
  simp [ownTypes]

/-- Two schedules of one graph list the same types. -/
theorem ownTypes_perm (given : ProviderOverrides W) {container container' : Option (RootContainer W)}
    {order order' : List (ProviderRegistration W)} (h : graph.Scheduled container order)
    (h' : graph.Scheduled container' order') : (ownTypes given order).Perm (ownTypes given order') := by
  have hSame : ∀ t, t ∈ order.map ProviderRegistration.typeId ↔
      t ∈ order'.map ProviderRegistration.typeId := by
    intro t
    constructor
    · intro ht
      obtain ⟨q, hq, rfl⟩ := List.mem_map.mp ht
      exact h'.complete _ ⟨q, h.declared q hq, rfl⟩
    · intro ht
      obtain ⟨q, hq, rfl⟩ := List.mem_map.mp ht
      exact h.complete _ ⟨q, h'.declared q hq, rfl⟩
  exact ((List.perm_ext_iff_of_nodup h.nodup h'.nodup).mpr hSame).filter _

/-- The schedule of the effective dependencies puts dependencies first, directly or through
overridden providers. -/
theorem idxOf_lt_of_dependsOn {effective : List (ProviderRegistration W)}
    (hAccepted : graph.Accepted (some (seeded given)))
    (hSchedule : graph.scheduleAll (some (seeded given)) graph.lastDeclared = .ok effective)
    {t u : TypeId} (h : TransGen (graph.DependsOn (some (seeded given))) t u) :
    (effective.map ProviderRegistration.typeId).idxOf u <
      (effective.map ProviderRegistration.typeId).idxOf t := by
  have hScheduled := ModuleGraph.scheduleAll_scheduled hSchedule
  have hFinished := (DepthFirst.visitAll_ok (ModuleGraph.scheduleAll_ok_iff.mp hSchedule)).finished
  apply hFinished.idxOf_lt
  refine TransGen.mono ?_ _ _ h
  rintro _ u ⟨q, hq, rfl, hDeclared, d, hd, rfl⟩
  obtain ⟨q', hq', hType⟩ := List.mem_map.mp (hScheduled.complete q.typeId ⟨q, hq, rfl⟩)
  obtain ⟨next, hNext, hNextType⟩ := hDeclared.lastDeclared
  -- all registrations of an overridden type have one effective definition
  have hSame : effectiveDef (some (seeded given)) q'.definition =
      effectiveDef (some (seeded given)) q.definition := by
    cases hOverridden : overriddenIn (some (seeded given)) q.typeId with
    | false =>
      have hDef := hAccepted.repeats.defByType hq hOverridden
      have hDef' := hAccepted.repeats.defByType (hScheduled.declared q' hq') (hType.symm ▸ hOverridden)
      rw [hType] at hDef'
      rw [Option.some.inj (hDef'.symm.trans hDef)]
    | true =>
      have hNone : (seeded given).wasOverridden q.typeId = false := rfl
      have hSome : ((seeded given).pendingOverride q.definition.typeId).isSome := by
        have hSplit : ((seeded given).hasPendingOverride q.typeId ||
            (seeded given).wasOverridden q.typeId) = true := hOverridden
        rw [hNone, Bool.or_false] at hSplit
        exact hSplit
      obtain ⟨override, hOverride⟩ := Option.isSome_iff_exists.mp hSome
      have hOverride' : (seeded given).pendingOverride q'.definition.typeId = some override := by
        rw [show q'.definition.typeId = q.definition.typeId from hType]
        exact hOverride
      simp [effectiveDef, hOverride, hOverride']
  exact ⟨q', hq', hType, next, ModuleGraph.mem_dependenciesOf.mpr ⟨d, hSame ▸ hd, hNext⟩, hNextType⟩

/-! ## How far the bootstrap phase gets -/

/-- What a start-up that reaches its bootstrap phase has done when it ends: it initialised
its own providers in the order `effective` and ran the bootstrap hooks of the first `n` of
them in the order `production`. -/
structure Booted (graph : ModuleGraph W) (given : ProviderOverrides W) (ready : Run W)
    (trace : List (Event W)) (effective production : List (ProviderRegistration W)) (n : Nat) :
    Prop where
  accepted : graph.Accepted (some (seeded given))
  byEffective : graph.scheduleAll (some (seeded given)) graph.lastDeclared = .ok effective
  byProduction : graph.scheduleAll none graph.lastDeclared = .ok production
  types : (ownProviders given ready.container.toContainer production).map (fun p => p.1.typeId) =
    ownTypes given production
  initialized : (initialized trace).map (fun p => p.1.typeId) = ownTypes given effective
  bootstrapped : bootstrapped trace =
    (ownProviders given ready.container.toContainer production).take n
  bound : n ≤ (ownTypes given production).length
  hooks : ∀ i < (ownTypes given production).length,
    (bootstrapHooks ((ownProviders given ready.container.toContainer production).take i)
      ready.world).1 = .ok () ↔ i < n

theorem bootstrapHooks_prefix {l l' : List (ProviderDef W × ProviderValue)} {w : W} (h : l <+: l')
    (hOk : (bootstrapHooks l' w).1 = .ok ()) : (bootstrapHooks l w).1 = .ok () := by
  obtain ⟨rest, rfl⟩ := h
  rw [bootstrapHooks_append] at hOk
  exact (andThen_ok hOk).1

section Consumed

variable {c : RootContainer W} {types : List TypeId}
  {effective production : List (ProviderRegistration W)}

theorem Consumed.due_iff (hConsumed : Consumed graph given.types c)
    (hTypes : types = ownTypes given effective)
    (hEffective : graph.Scheduled (some (seeded given)) effective) {q : ProviderRegistration W}
    (hq : q ∈ graph.definitions) :
    (q.typeId ∈ types ∧ q.typeId ∉ c.appliedOverrides) ↔
      (q.typeId ≠ TypeId.logger ∧ q.typeId ∉ given.types) := by
  have hListed := hEffective.complete q.typeId ⟨q, hq, rfl⟩
  rw [hTypes, mem_ownTypes, hConsumed.applied]
  exact ⟨fun h => h.1.2, fun h => ⟨⟨hListed, h⟩, h.2⟩⟩

/-- On a consumed container the bootstrap phase runs the hooks of the own providers. -/
theorem Consumed.targets (hConsumed : Consumed graph given.types c)
    (hTypes : types = ownTypes given effective)
    (hEffective : graph.Scheduled (some (seeded given)) effective)
    (hProduction : ∀ q ∈ production, q ∈ graph.definitions) :
    bootstrapTargets types c.toContainer production = ownProviders given c.toContainer production := by
  unfold bootstrapTargets ownProviders
  apply List.filterMap_congr
  intro q hq
  simp only [hConsumed.due_iff hTypes hEffective (hProduction q hq)]

theorem Consumed.targets_types (hConsumed : Consumed graph given.types c)
    (hTypes : types = ownTypes given effective)
    (hEffective : graph.Scheduled (some (seeded given)) effective)
    (hProduction : ∀ q ∈ production, q ∈ graph.definitions) :
    (ownProviders given c.toContainer production).map (fun p => p.1.typeId) =
      ownTypes given production := by
  have hStored : ∀ t ∈ types, ∃ v, c.services t = some v := by
    intro t ht
    rw [hTypes] at ht
    obtain ⟨q, hq, rfl⟩ := List.mem_map.mp (mem_ownTypes.mp ht).1
    exact (hConsumed.services _).mpr (Or.inr ⟨q, hEffective.declared q hq, rfl⟩)
  rw [← hConsumed.targets hTypes hEffective hProduction, bootstrapTargets_types hStored, ownTypes]
  apply List.filter_congr
  intro t ht
  obtain ⟨q, hq, rfl⟩ := List.mem_map.mp ht
  rw [decide_eq_decide]
  exact hConsumed.due_iff hTypes hEffective (hProduction q hq)

end Consumed

theorem build_booted {P : Program W} {root : ModuleDef} {w : W} {r : Run W}
    (hDiscover : discoverFrom P root = .ok graph)
    (hRegister : registerModule P root (Run.fresh (seeded given) w) = (.ok (), r))
    (hChecks : (StartUp.overrides given).checks P root r.container = .ok ()) :
    ∃ effective production n, Booted graph given r
      (buildContainerWithOverrides P root given w).2.trace effective production n := by
  have hFirst := ModuleGraph.importsFirst_of_discovered (discovered_of_ok hDiscover)
  have hUnused : r.container.assertNoUnusedOverrides = .ok () := by
    obtain ⟨⟨⟩, hOk, -⟩ := bind_ok_iff.mp hChecks
    cases hNone : r.container.assertNoUnusedOverrides with
    | ok u => rfl
    | error e =>
      rw [hNone] at hOk
      cases hOk
  obtain ⟨hAccepted, hConsumed⟩ := registerModule_consumed hDiscover hRegister hUnused
  obtain ⟨graph', effective, hGraph, hPreflight, hBuilt⟩ :=
    registerModule_built P root (r := Run.fresh (seeded given) w) (seeded_settled given)
      (by rw [hRegister])
  rw [hDiscover] at hGraph
  cases hGraph
  rw [hRegister] at hBuilt
  have hEffective := ((ModuleGraph.preflight_ok_iff hFirst).mp hPreflight).2
  obtain ⟨graph', production, hGraph, hLater, hRunning, hEnds⟩ :=
    StartUp.bootstrap_ends (StartUp.overrides given) hRegister hChecks
  rw [hDiscover] at hGraph
  cases hGraph
  have hProduction := (ModuleGraph.scheduleAll_consumed hConsumed).mp
    ((ModuleGraph.preflight_ok_iff hFirst).mp hLater).2
  have hInits : (initialized r.trace).map (fun p => p.1.typeId) = ownTypes given effective := by
    rw [ownTypes_eq]
    exact hBuilt.inits
  have hListed := hRunning.live.listed.symm.trans hInits
  have hScheduled := ModuleGraph.scheduleAll_scheduled hEffective
  have hDeclared := (ModuleGraph.scheduleAll_scheduled hProduction).declared
  have hTypes := hConsumed.targets_types hListed hScheduled hDeclared
  have hTargets : bootstrapTargets r.initializedProviders
      (r.log .validate none).opened.container.toContainer production =
        ownProviders given r.container.toContainer production :=
    hConsumed.targets hListed hScheduled hDeclared
  have hBoots : bootstrapped (r.log .validate none).opened.trace = [] := by
    have hUnbooted := (registerModule_unbooted P root (Run.fresh (seeded given) w)).bootstrapped
    rw [hRegister] at hUnbooted
    show bootstrapped (r.trace ++ [_] ++ [_] ++ [_]) = []
    rw [bootstrapped_append, bootstrapped_append, bootstrapped_append, hUnbooted]
    rfl
  have hInitTrace : initialized (r.log .validate none).opened.trace = initialized r.trace := by
    rw [initialized_opened]
    show initialized (r.trace ++ [_]) = _
    rw [initialized_append, initialized_singleton]
    exact List.append_nil _
  have hLength : (ownTypes given production).length =
      (ownProviders given r.container.toContainer production).length := by
    rw [← hTypes, List.length_map]
  refine ⟨effective, production, ?_⟩
  unfold buildContainerWithOverrides
  generalize (StartUp.overrides given).run P root w = x at hEnds
  obtain ⟨result, r'⟩ := x
  cases result with
  | ok u =>
    have hDone : Bootstrapping _ _ production r' := hEnds
    have hHooks := hDone.hooks
    have hTrace := hDone.bootstrapped
    rw [hTargets] at hHooks hTrace
    refine ⟨(ownTypes given production).length, hAccepted, hEffective, hProduction, hTypes, ?_, ?_,
      le_refl _, ?_⟩
    · rw [hDone.initialized, hInitTrace, hInits]
    · rw [hTrace, hBoots, hLength, List.take_length, List.nil_append]
    · intro i hi
      have hAll : (bootstrapHooks (ownProviders given r.container.toContainer production)
          r.world).1 = .ok () := congrArg Prod.fst hHooks
      exact ⟨fun _ => hi, fun _ => bootstrapHooks_prefix (List.take_prefix i _) hAll⟩
  | error f =>
    obtain ⟨before, p, hStopped⟩ := hEnds
    have hWithin := hStopped.within
    rw [hTargets] at hWithin
    obtain ⟨rest, hSplit⟩ := hWithin
    refine ⟨before.length + 1, hAccepted, hEffective, hProduction, hTypes, ?_, ?_, ?_, ?_⟩
    · rw [hStopped.initialized, hInitTrace, hInits]
    · rw [hStopped.bootstrapped, hBoots, ← hSplit, List.nil_append,
        List.take_append_of_le_length (by simp), List.take_of_length_le (by simp)]
    · rw [hLength, ← hSplit]
      simp
    · intro i hi
      constructor
      · intro hOk
        by_contra hPast
        apply hStopped.failed
        refine bootstrapHooks_prefix ?_ hOk
        rw [← hSplit, List.take_append, List.take_of_length_le (by simp; omega)]
        exact List.prefix_append _ _
      · intro hBefore
        refine bootstrapHooks_prefix ?_ hStopped.hooks
        rw [← hSplit, List.take_append_of_le_length (by simp; omega),
          List.take_append_of_le_length (by omega)]
        exact List.take_prefix i before

/-! ## When the orders agree -/

/-- The providers bootstrapped in a trace, by type, are a prefix of those initialised in it,
so that each comes after the initialised providers it depends on. -/
def BootstrapFollows (graph : ModuleGraph W) (given : ProviderOverrides W)
    (trace : List (Event W)) : Prop :=
  (bootstrapped trace).map (fun p => p.1.typeId) <+: (initialized trace).map (fun p => p.1.typeId) ∧
  ∀ l₁ t l₂, (bootstrapped trace).map (fun p => p.1.typeId) = l₁ ++ t :: l₂ →
    ∀ u ∈ (initialized trace).map (fun p => p.1.typeId),
      TransGen (graph.DependsOn (some (seeded given))) t u → u ∈ l₁

/-- In a start-up that reaches its bootstrap phase, the bootstrap order follows the
initialisation order exactly when the schedules of the effective and of the production
dependencies list the same own provider at each position whose earlier hooks succeed. -/
theorem bootstrap_order_iff (P : Program W) (root : ModuleDef) (graph : ModuleGraph W)
    (given : ProviderOverrides W) (w : W) (r : Run W)
    (hDiscover : discoverFrom P root = .ok graph)
    (hRegister : registerModule P root (Run.fresh (seeded given) w) = (.ok (), r))
    (hChecks : (StartUp.overrides given).checks P root r.container = .ok ()) :
    ∃ effective production,
      graph.scheduleAll (some (seeded given)) graph.lastDeclared = .ok effective ∧
      graph.scheduleAll none graph.lastDeclared = .ok production ∧
      (BootstrapFollows graph given (buildContainerWithOverrides P root given w).2.trace ↔
        ∀ i, (bootstrapHooks ((ownProviders given r.container.toContainer production).take i)
            r.world).1 = .ok () →
          (ownTypes given production)[i]? = (ownTypes given effective)[i]?) := by
  obtain ⟨effective, production, n, h⟩ := build_booted hDiscover hRegister hChecks
  refine ⟨effective, production, h.byEffective, h.byProduction, ?_⟩
  have hEffective := ModuleGraph.scheduleAll_scheduled h.byEffective
  have hProduction := ModuleGraph.scheduleAll_scheduled h.byProduction
  have hLength := (ownTypes_perm given hProduction hEffective).length_eq
  have hBoots : (bootstrapped (buildContainerWithOverrides P root given w).2.trace).map
      (fun p => p.1.typeId) = (ownTypes given production).take n := by
    rw [h.bootstrapped, List.map_take, h.types]
  have hPositions : (∀ i < n, (ownTypes given production)[i]? = (ownTypes given effective)[i]?) ↔
      ∀ i, (bootstrapHooks ((ownProviders given r.container.toContainer production).take i)
          r.world).1 = .ok () →
        (ownTypes given production)[i]? = (ownTypes given effective)[i]? := by
    have hBound := h.bound
    constructor
    · intro hEqual i hOk
      by_cases hi : i < (ownTypes given production).length
      · exact hEqual i ((h.hooks i hi).mp hOk)
      · rw [List.getElem?_eq_none (by omega), List.getElem?_eq_none (by omega)]
    · intro hEqual i hi
      exact hEqual i ((h.hooks i (by omega)).mpr hi)
  rw [← hPositions, ← take_prefix_iff h.bound, BootstrapFollows, hBoots, h.initialized]
  constructor
  · exact fun hFollows => hFollows.1
  · intro hPrefix
    refine ⟨hPrefix, ?_⟩
    intro l₁ t l₂ hSplit u hu hDepends
    obtain ⟨rest, hInits⟩ := hPrefix
    rw [hSplit, List.append_assoc, List.cons_append] at hInits
    have hPart : (l₁ ++ t :: (l₂ ++ rest)).Sublist (effective.map ProviderRegistration.typeId) := by
      rw [hInits]
      exact List.filter_sublist
    refine mem_before_of_idxOf_lt hEffective.nodup hPart ?_
      (idxOf_lt_of_dependsOn h.accepted h.byEffective hDepends)
    rwa [hInits]

theorem bootstrap_order_iff_users :
    (buildContainerWithOverrides usersProgram ⟨10, "App"⟩ usersOverrides ()).1 = .ok () ∧
    BootstrapFollows usersGraph usersOverrides
      (buildContainerWithOverrides usersProgram ⟨10, "App"⟩ usersOverrides ()).2.trace := by
  refine ⟨rfl, ?_⟩
  obtain ⟨effective, production, hEffective, hProduction, hIff⟩ :=
    bootstrap_order_iff usersProgram ⟨10, "App"⟩ usersGraph usersOverrides () _ rfl rfl rfl
  apply hIff.mpr
  intro i _
  cases hEffective
  cases hProduction
  rfl

/-- A report service that uses a gateway service, which its override makes depend on a
session service. -/
def sessionsProgram : Program Unit where
  metadataFn t :=
    match t with
    | 10 =>
      { ModuleMetadata.new with
        providers :=
          [plainProvider 20 "ReportsService" [⟨21, "GatewayService"⟩],
            plainProvider 21 "GatewayService" [],
            plainProvider 22 "SessionService" []] }
    | _ => ModuleMetadata.new
  modules := {10}
  closed := by decide

def sessionsOverrides : ProviderOverrides Unit :=
  ProviderOverrides.new.insertFactory 21 "GatewayService" [⟨22, "SessionService"⟩]
    fun _ w => (.ok 0, w)

/-- The report service is initialised after the session service it depends on through the
override, and bootstrapped before it. -/
theorem bootstrap_order_sessions :
    (buildContainerWithOverrides sessionsProgram ⟨10, "App"⟩ sessionsOverrides ()).1 = .ok () ∧
    (initialized (buildContainerWithOverrides sessionsProgram ⟨10, "App"⟩
      sessionsOverrides ()).2.trace).map (fun p => p.1.typeId) = [22, 20] ∧
    (bootstrapped (buildContainerWithOverrides sessionsProgram ⟨10, "App"⟩
      sessionsOverrides ()).2.trace).map (fun p => p.1.typeId) = [20, 22] ∧
    ¬ (bootstrapped (buildContainerWithOverrides sessionsProgram ⟨10, "App"⟩
        sessionsOverrides ()).2.trace).map (fun p => p.1.typeId) <+:
      (initialized (buildContainerWithOverrides sessionsProgram ⟨10, "App"⟩
        sessionsOverrides ()).2.trace).map (fun p => p.1.typeId) := by
  refine ⟨rfl, rfl, rfl, ?_⟩
  show ¬ ([20, 22] : List TypeId) <+: [22, 20]
  decide

end Caelix
