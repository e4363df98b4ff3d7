import Caelix.Core.LifecycleSteps
import Caelix.Core.PreflightSpec

/-!
# The lifecycle trace of a start-up

While a start-up runs, the list of initialised providers is the list of init hooks that
succeeded and nothing has been shut down (`Live`). The rollback or the shutdown of the
same root takes that list and runs each shutdown hook once, last initialised first
(`Closed`).

* `StartUp.run_ends`: where a start-up ends, from a fresh container.
* `lifetime_trace`: a start-up followed by the shutdown of its root.
-/

namespace Caelix

open Steps Fallible

variable {W : Type}

/-- Nothing shut down yet, and the listed providers are those initialised in the trace. -/
structure Live (graph : ModuleGraph W) (r : Run W) : Prop where
  shutDown : shutDown r.trace = []
  listed : (initialized r.trace).map (fun p => p.1.typeId) = r.initializedProviders
  stored : ∀ p ∈ initialized r.trace, r.container.services p.1.typeId = some p.2
  found : ∀ p ∈ initialized r.trace, graph.defByType p.1.typeId = some p.1
  nodup : r.initializedProviders.Nodup

/-- Every provider initialised in the trace has been shut down once, in reverse order. -/
structure Closed (r : Run W) : Prop where
  shutDown : shutDown r.trace = (initialized r.trace).reverse
  nodup : ((initialized r.trace).map fun p => p.1.typeId).Nodup

section Shutdown

variable {graph : ModuleGraph W} {r : Run W}

theorem initialized_of_isShutdown {events : List (Event W)}
    (h : ∀ e ∈ events, e.isShutdown = true) : initialized events = [] := by
  rw [initialized, List.filterMap_eq_nil_iff]
  intro e he
  have hShutdown := h e he
  obtain ⟨action, fault⟩ := e
  cases action <;> first | rfl | simp [Event.isShutdown] at hShutdown

theorem startFaults_of_isShutdown {events : List (Event W)}
    (h : ∀ e ∈ events, e.isShutdown = true) : startFaults events = [] := by
  have hNone : events.filter (fun e => !e.isShutdown) = [] := by
    rw [List.filter_eq_nil_iff]
    intro e he
    simp [h e he]
  rw [startFaults, hNone]
  rfl

/-- The loop finds every provider of a live run. -/
theorem Live.targets (h : Live graph r) :
    shutdownTargets graph r.container.toContainer r.initializedProviders.reverse =
      (initialized r.trace).reverse := by
  rw [← h.listed, ← List.map_reverse]
  apply shutdownTargets_of_found
  · intro p hp
    exact h.stored p (List.mem_reverse.mp hp)
  · intro p hp
    exact h.found p (List.mem_reverse.mp hp)

/-- A shutdown loop closes a live run; it keeps the first fault of a hook. -/
theorem Live.shutdownProviders (h : Live graph r) :
    Closed (shutdownProviders graph r).2 ∧
    initialized (shutdownProviders graph r).2.trace = initialized r.trace ∧
    startFaults (shutdownProviders graph r).2.trace = startFaults r.trace ∧
    (shutdownFaults r.trace = [] → (shutdownProviders graph r).1 =
      (shutdownFaults (shutdownProviders graph r).2.trace).head?) := by
  obtain ⟨events, hSpec⟩ := shutdownProviders_spec graph r
  have hTrace : (Caelix.shutdownProviders graph r).2.trace = r.trace ++ events := hSpec.logged.trace
  have hTargets : Caelix.shutDown events = (initialized r.trace).reverse := by
    rw [← h.targets]
    exact hSpec.targets
  have hInit : initialized (Caelix.shutdownProviders graph r).2.trace = initialized r.trace := by
    rw [hTrace, initialized_append, initialized_of_isShutdown hSpec.shutdown, List.append_nil]
  refine ⟨⟨?_, ?_⟩, hInit, ?_, ?_⟩
  · rw [hInit, hTrace, shutDown_append, h.shutDown, hTargets]
    rfl
  · rw [hInit, h.listed]
    exact h.nodup
  · rw [hTrace, startFaults_append, startFaults_of_isShutdown hSpec.shutdown, List.append_nil]
  · intro hNone
    rw [hTrace, shutdownFaults_append, hNone, hSpec.first]
    rfl

/-- The providers that a step adds join a live run. -/
theorem Live.adds (h : Live graph r) {x : Outcome W} {events : List (Event W)}
    {new : List (ProviderDef W × ProviderValue)} (hAdds : Adds r x events new)
    (hFound : ∀ p ∈ new, graph.defByType p.1.typeId = some p.1) : Live graph x.2 := by
  have hInits : initialized x.2.trace = initialized r.trace ++ new := by
    rw [hAdds.trace, initialized_append, hAdds.initialized]
  constructor
  · rw [hAdds.trace, shutDown_append, h.shutDown, hAdds.shutDown]
    rfl
  · rw [hInits, List.map_append, h.listed, hAdds.listed]
  · rw [hInits]
    intro p hp
    rcases List.mem_append.mp hp with hp | hp
    · exact hAdds.progress.services _ _ (h.stored p hp)
    · exact hAdds.stored p hp
  · rw [hInits]
    intro p hp
    rcases List.mem_append.mp hp with hp | hp
    · exact h.found p hp
    · exact hFound p hp
  · rw [hAdds.listed, List.nodup_append]
    refine ⟨h.nodup, hAdds.nodup, ?_⟩
    -- a listed provider is stored, a new one was not
    intro t ht u hu he
    rw [← h.listed] at ht
    obtain ⟨p, hp, rfl⟩ := List.mem_map.mp ht
    obtain ⟨q, hq, rfl⟩ := List.mem_map.mp hu
    have hStored := h.stored p hp
    rw [he, hAdds.fresh q hq] at hStored
    cases hStored

end Shutdown

/-! ## Registration -/

/-- A start-up that has not failed, with registration begun at the container `c`. -/
structure Running (graph : ModuleGraph W) (c : RootContainer W) (r : Run W) : Prop where
  live : Live graph r
  progress : c.Progress r.container
  startFaults : startFaults r.trace = []
  shutdownFaults : shutdownFaults r.trace = []

/-- A start-up that failed with `f` and was rolled back. -/
structure Failed (f : Fault) (r : Run W) : Prop where
  closed : Closed r
  startFaults : startFaults r.trace = [f]

/-- A run about to be rolled back after the fault `f`. -/
structure Failing (graph : ModuleGraph W) (f : Fault) (r : Run W) : Prop where
  live : Live graph r
  startFaults : startFaults r.trace = [f]

variable {graph : ModuleGraph W} {c : RootContainer W} {r : Run W}

theorem Failing.rollback {f : Fault} (h : Failing graph f r) : Failed f (rollbackGraph graph r) := by
  obtain ⟨hClosed, -, hStart, -⟩ := h.live.shutdownProviders
  exact ⟨hClosed, hStart.trans h.startFaults⟩

theorem ends_rollback {x : Outcome W} (h : Ends x (Running graph c) (Failing graph)) :
    Ends (orRollback graph x) (Running graph c) Failed :=
  ends_orRollback h fun _ _ hFailing => hFailing.rollback

theorem Running.adds (h : Running graph c r) {x : Outcome W} {events : List (Event W)}
    {new : List (ProviderDef W × ProviderValue)} (hAdds : Adds r x events new)
    (hFound : ∀ p ∈ new, graph.defByType p.1.typeId = some p.1) :
    Ends x (Running graph c) (Failing graph) := by
  have hLive := h.live.adds hAdds hFound
  have hFaults : Caelix.startFaults x.2.trace = faultsOf x.1 := by
    rw [hAdds.trace, startFaults_append, h.startFaults, hAdds.startFaults]
    rfl
  have hShutdowns : Caelix.shutdownFaults x.2.trace = [] := by
    rw [hAdds.trace, shutdownFaults_append, h.shutdownFaults, hAdds.shutdownFaults]
    rfl
  have hProgress := h.progress.trans hAdds.progress
  obtain ⟨result, r'⟩ := x
  cases result with
  | ok u => exact ⟨hLive, hProgress, hFaults, hShutdowns⟩
  | error f => exact ⟨hLive, hFaults⟩

/-- A step that reads the run and logs its outcome. -/
theorem Running.log (h : Running graph c r) (action : Action W)
    (hInit : Event.initialized ⟨action, none⟩ = none)
    (hShutdown : Event.isShutdown ⟨action, none⟩ = false) : Running graph c (r.log action none) :=
  (h.adds (Adds.log_ok r hInit hShutdown) (by simp)).ok rfl

/-- A type that no override provides is declared once, so the graph finds its definition. -/
theorem ModuleGraph.RepeatsOverridden.defByType (h : graph.RepeatsOverridden (some c))
    {registration : ProviderRegistration W} (hMem : registration ∈ graph.definitions)
    (hOverridden : overriddenIn (some c) registration.typeId = false) :
    graph.defByType registration.typeId = some registration.definition := by
  obtain ⟨d, hd⟩ := Option.isSome_iff_exists.mp
    (ModuleGraph.defByType_isSome.mpr ⟨registration, hMem, rfl⟩)
  obtain ⟨other, hOther, hDef, hType⟩ := ModuleGraph.defByType_some hd
  have hOnce : (graph.definitions.map ProviderRegistration.typeId).count registration.typeId ≤ 1 := by
    by_contra hMany
    rw [h _ (by omega)] at hOverridden
    cases hOverridden
  -- two different registrations of the type would be counted twice
  obtain ⟨l₁, l₂, hSplit⟩ := List.append_of_mem hMem
  rw [hSplit] at hOther hOnce
  rw [List.map_append, List.map_cons, List.count_append, List.count_cons_self] at hOnce
  have hNone : ∀ l : List (ProviderRegistration W),
      (l.map ProviderRegistration.typeId).count registration.typeId = 0 → other ∉ l := by
    intro l hCount hIn
    rw [List.count_eq_zero] at hCount
    exact hCount (hType ▸ List.mem_map_of_mem hIn)
  rcases List.mem_append.mp hOther with hIn | hIn
  · exact absurd hIn (hNone l₁ (by omega))
  · rcases List.mem_cons.mp hIn with rfl | hIn
    · rw [hd, ← hDef]
    · exact absurd hIn (hNone l₂ (by omega))

/-- A round of the registration loop constructs nothing, or it adds a provider that the
graph finds by its type. -/
theorem initializeProvider_adds (hRepeats : graph.RepeatsOverridden (some c))
    {registration : ProviderRegistration W} (hMem : registration ∈ graph.definitions)
    (hProgress : c.Progress r.container) :
    Caelix.initializeProvider graph registration r = (.ok (), r.declare registration.typeId) ∨
    ∃ x events new, Adds (r.declare registration.typeId) x events new ∧
      (∀ p ∈ new, graph.defByType p.1.typeId = some p.1) ∧
      Caelix.initializeProvider graph registration r = orRollback graph x := by
  rcases initializeProvider_cases graph registration r with ⟨-, he⟩ | ⟨hNew, hApplied, x, hx, he⟩
  · exact Or.inl he
  · obtain ⟨events, new, hAdds, hDefinition⟩ := hx.adds hNew
    refine Or.inr ⟨x, events, new, hAdds, ?_, he⟩
    -- a provider recorded as initialised has the definition that the graph finds
    intro p hp
    obtain ⟨hDef, hPending⟩ := hDefinition p hp
    have hDeclared := hProgress.trans (RootContainer.Progress.declare r.container registration.typeId)
    rw [hDef]
    exact hRepeats.defByType hMem (hDeclared.not_overridden hPending hApplied)

theorem Running.initializeProvider (hRepeats : graph.RepeatsOverridden (some c))
    {registration : ProviderRegistration W} (hMem : registration ∈ graph.definitions)
    (h : Running graph c r) :
    Ends (initializeProvider graph registration r) (Running graph c) Failed := by
  have hDeclared : Running graph c (r.declare registration.typeId) :=
    ⟨⟨h.live.shutDown, h.live.listed, h.live.stored, h.live.found, h.live.nodup⟩,
      h.progress.trans (RootContainer.Progress.declare _ _), h.startFaults, h.shutdownFaults⟩
  rcases initializeProvider_adds hRepeats hMem h.progress with he | ⟨x, events, new, hAdds, hFound, he⟩
  · rw [he]
    exact hDeclared
  · rw [he]
    exact ends_rollback (hDeclared.adds hAdds hFound)

theorem Running.registerHandler (p : Nat × EventHandlerDef W) (h : Running graph c r) :
    Ends (registerHandler graph p r) (Running graph c) Failed := by
  obtain ⟨e, hAdds⟩ := (register_registration p.2 r).adds
  exact ends_rollback (h.adds hAdds (by simp))

theorem Running.bootstrapProvider (types : List TypeId) (registration : ProviderRegistration W)
    (h : Running graph c r) :
    Ends (bootstrapProvider graph types registration r) (Running graph c) Failed := by
  rcases bootstrapProvider_adds graph types registration r with he | ⟨e, x, hAdds, he⟩
  · rw [he]
    exact h
  · rw [he]
    exact ends_rollback (h.adds hAdds (by simp))

/-! ## Start-ups -/

theorem Running.loops (hRepeats : graph.RepeatsOverridden (some c))
    (order : List (ProviderRegistration W)) (hOrder : ∀ q ∈ order, q ∈ graph.definitions)
    (h : Running graph c r) :
    Ends (andThen (runAll (Caelix.initializeProvider graph) order r)
      (runAll (Caelix.registerHandler graph) graph.eventHandlers)) (Running graph c) Failed := by
  apply Ends.andThen
  · apply ends_runAll_of_keeps order h
    intro q hq r hr
    exact hr.initializeProvider hRepeats (hOrder q hq)
  · intro r hr
    apply ends_runAll_of_keeps _ hr
    intro p _ r hr
    exact hr.registerHandler p

theorem Running.bootstrapLoop (types : List TypeId) (order : List (ProviderRegistration W))
    (h : Running graph c r) :
    Ends (runAll (Caelix.bootstrapProvider graph types) order r) (Running graph c) Failed := by
  apply ends_runAll_of_keeps order h
  intro q _ r hr
  exact hr.bootstrapProvider types q

/-- A run in which nothing was initialised or shut down is closed. -/
theorem Closed.of_nil {r : Run W} (hInit : initialized r.trace = [])
    (hShutDown : Caelix.shutDown r.trace = []) : Closed r := by
  refine ⟨?_, ?_⟩
  · rw [hInit, hShutDown]
    rfl
  · rw [hInit]
    exact List.nodup_nil

/-- Registration on a fresh container. -/
theorem registerModule_ends (P : Program W) (root : ModuleDef) (c : RootContainer W) (w : W) :
    Ends (registerModule P root (Run.fresh c w))
      (fun r => ∃ graph, discoverFrom P root = .ok graph ∧ Running graph c r) Failed := by
  rcases registerModule_cases P root (Run.fresh c w) with ⟨f, -, he⟩ |
    ⟨graph, hDiscover, ⟨f, -, he⟩ | ⟨order, hPreflight, he⟩⟩
  · rw [he]
    exact ⟨Closed.of_nil rfl rfl, rfl⟩
  · rw [he]
    exact ⟨Closed.of_nil rfl rfl, rfl⟩
  · rw [he]
    have hFirst := ModuleGraph.importsFirst_of_discovered (discovered_of_ok hDiscover)
    obtain ⟨hAccepted, hSchedule⟩ := (ModuleGraph.preflight_ok_iff hFirst).mp hPreflight
    have hStart : Running graph c (Run.fresh c w).opened := by
      refine ⟨⟨rfl, rfl, ?_, ?_, List.nodup_nil⟩, RootContainer.Progress.refl _, rfl, rfl⟩
      · intro p hp
        cases hp
      · intro p hp
        cases hp
    refine (hStart.loops hAccepted.repeats order ?_).mono ?_ fun _ _ h => h
    · exact (ModuleGraph.scheduleAll_scheduled hSchedule).declared
    · exact fun r hr => ⟨graph, hDiscover, hr⟩

/-- The checks between registration and bootstrap include a preflight of the container. -/
theorem StartUp.checks_ok {P : Program W} {root : ModuleDef} {start : StartUp W}
    {c : RootContainer W} (h : start.checks P root c = .ok ()) :
    validateModuleProviders P root c = .ok () ∧ validateGatewayPaths P root = .ok () := by
  cases start with
  | setup instances =>
    obtain ⟨⟨⟩, hProviders, hPaths⟩ := bind_ok_iff.mp h
    exact ⟨hProviders, hPaths⟩
  | overrides given =>
    obtain ⟨⟨⟩, -, hRest⟩ := bind_ok_iff.mp h
    obtain ⟨⟨⟩, hProviders, hPaths⟩ := bind_ok_iff.mp hRest
    exact ⟨hProviders, hPaths⟩

theorem validateModuleProviders_ok {P : Program W} {root : ModuleDef} {graph : ModuleGraph W}
    {c : RootContainer W} (hDiscover : discoverFrom P root = .ok graph)
    (h : validateModuleProviders P root c = .ok ()) :
    (∃ order, graph.preflight (some c) = .ok order) ∧
      ∀ q ∈ graph.definitions, ∃ v, c.services q.typeId = some v := by
  unfold validateModuleProviders at h
  rw [hDiscover] at h
  obtain ⟨_, hGraph, h⟩ := bind_ok_iff.mp h
  cases hGraph
  obtain ⟨order, hPreflight, h⟩ := bind_ok_iff.mp h
  refine ⟨⟨order, hPreflight⟩, ?_⟩
  intro q hq
  have hRegistered := ite_ok_iff.mp (forM_ok_iff.mp h q hq)
  rwa [Container.containsTypeId_iff] at hRegistered

/-- A start-up and, when it succeeds, the shutdown of the same root. -/
def StartUp.lifetime (P : Program W) (root : ModuleDef) (start : StartUp W) (w : W) : Outcome W :=
  andThen (start.run P root w) (shutdownModule P root)

end Caelix
