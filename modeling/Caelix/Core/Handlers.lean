import Caelix.Core.LifecycleSteps
import Caelix.Core.PreflightSpec

/-!
# Event handlers over several registrations

A successful `register_module` constructs only what the container lacks, but registers
every event handler of its graph again. Over a sequence of successful calls:

* `ConstructedOnce.registerModules`: each provider is constructed and initialised once.
* `HandlersCounted.registerModules`: a handler is on the bus once for each call whose graph
  declares it.
* `handlers_once_iff`: when that is once for every declared handler.
-/

namespace Caelix

open Steps Fallible

variable {W : Type}

/-! ## Calls that succeed -/

theorem orRollback_ok {graph : ModuleGraph W} {x : Outcome W} {r : Run W}
    (h : orRollback graph x = (.ok (), r)) : x = (.ok (), r) := by
  obtain ⟨result, r'⟩ := x
  cases result with
  | ok u => exact h
  | error f => cases h

/-- The run after a provider was built as `value` and initialised. -/
def Run.constructed (r : Run W) (declared : ProviderDef W) (value : ProviderValue) (w : W) : Run W :=
  { r with
    container := storedContainer r.container declared value
    initializedProviders := if (r.container.pendingOverride declared.typeId).isNone then
      r.initializedProviders ++ [declared.typeId] else r.initializedProviders
    world := w
    trace := r.trace ++ [⟨createAction r.container declared, none⟩] ++
      [⟨initAction r.container declared value, none⟩] }

theorem initializeProvider_ok {graph : ModuleGraph W} {q : ProviderRegistration W} {r r' : Run W}
    (h : initializeProvider graph q r = (.ok (), r')) :
    r' = r.declare q.typeId ∨
    (r.container.services q.typeId = none ∧ ∃ value w, value.typeId = q.typeId ∧
      r' = (r.declare q.typeId).constructed q.definition value w) := by
  rcases initializeProvider_cases graph q r with ⟨-, he⟩ | ⟨hNone, -, x, hx, he⟩
  · rw [he] at h
    cases h
    exact Or.inl rfl
  · rw [he] at h
    have hOk := orRollback_ok h
    subst hOk
    cases hx with
    | done value w hValue => exact Or.inr ⟨hNone, value, w, hValue, rfl⟩

/-- The run after the pair of a handler was registered on a bus. -/
def Run.subscribed (r : Run W) (handler : EventHandlerDef W) (value bus : ProviderValue) (w : W) :
    Run W :=
  { r with
    buses := Function.update r.buses bus.inst ((r.buses bus.inst).register handler.eventType value)
    world := w
    trace := r.trace ++ [⟨.registerHandler handler, none⟩] }

theorem Container.resolve_ok {c : Container} {target : ProviderDependency} {v : ProviderValue}
    (h : c.resolve target = .ok v) : c.services target.typeId = some v ∧ v.typeId = target.typeId := by
  have hRegistered : c.resolveRegistered target = .ok v := by
    unfold resolve at h
    split at h
    · split at h
      · cases h
      · exact h
    · exact h
  unfold resolveRegistered at hRegistered
  split at hRegistered
  · cases hRegistered
  · rename_i value hValue
    split at hRegistered
    · rename_i hType
      cases hRegistered
      exact ⟨hValue, hType⟩
    · cases hRegistered

theorem registerHandler_ok {graph : ModuleGraph W} {p : Nat × EventHandlerDef W} {r r' : Run W}
    (h : registerHandler graph p r = (.ok (), r')) :
    ∃ value bus w, value.typeId = p.2.typeId ∧ r.container.services TypeId.eventBus = some bus ∧
      r' = r.subscribed p.2 value bus w := by
  have hx := register_registration p.2 r
  rw [orRollback_ok h] at hx
  cases hx with
  | done value bus w hValue hBus =>
    exact ⟨value, bus, w, (Container.resolve_ok hValue).2, (Container.resolve_ok hBus).1, rfl⟩

theorem registerModule_ok {P : Program W} {root : ModuleDef} {r r' : Run W}
    (h : registerModule P root r = (.ok (), r')) :
    ∃ graph order mid, discoverFrom P root = .ok graph ∧
      graph.preflight (some r.container) = .ok order ∧
      runAll (initializeProvider graph) order r.opened = (.ok (), mid) ∧
      runAll (registerHandler graph) graph.eventHandlers mid = (.ok (), r') := by
  rcases registerModule_cases P root r with ⟨f, -, he⟩ |
    ⟨graph, hDiscover, ⟨f, -, he⟩ | ⟨order, hPreflight, he⟩⟩
  · rw [he] at h
    cases h
  · rw [he] at h
    cases h
  · rw [he] at h
    have hFirst := (andThen_ok (congrArg Prod.fst h)).1
    generalize hMid : runAll (initializeProvider graph) order r.opened = x at h hFirst
    obtain ⟨result, mid⟩ := x
    cases hFirst
    exact ⟨graph, order, mid, hDiscover, hPreflight, hMid, h⟩

/-! ## Providers -/

/-- The type of a construction. -/
def Event.created : Event W → Option TypeId
  | ⟨.create provider _ _, _⟩ => some provider.typeId
  | _ => none

/-- The type of an init hook, overridden or not. -/
def Event.moduleInit : Event W → Option TypeId
  | ⟨.moduleInit provider _ _, _⟩ => some provider.typeId
  | _ => none

/-- Each provider in the trace was constructed and initialised once, and is registered. -/
structure ConstructedOnce (r : Run W) : Prop where
  nodup : (r.trace.filterMap Event.created).Nodup
  initialised : r.trace.filterMap Event.moduleInit = r.trace.filterMap Event.created
  stored : ∀ t ∈ r.trace.filterMap Event.created, ∃ v, r.container.services t = some v

namespace ConstructedOnce

variable {r : Run W}

theorem log (h : ConstructedOnce r) {r' : Run W} {e : Event W} (hTrace : r'.trace = r.trace ++ [e])
    (hContainer : r'.container = r.container) (hCreated : e.created = none)
    (hInit : e.moduleInit = none) : ConstructedOnce r' := by
  have hTypes : r'.trace.filterMap Event.created = r.trace.filterMap Event.created := by
    rw [hTrace, List.filterMap_append]
    simp [hCreated]
  refine ⟨?_, ?_, ?_⟩
  · rw [hTypes]
    exact h.nodup
  · rw [hTypes, hTrace, List.filterMap_append, h.initialised]
    simp [hInit]
  · rw [hTypes, hContainer]
    exact h.stored

theorem construct (h : ConstructedOnce r) {d : ProviderDef W} {value : ProviderValue} {w : W}
    (hNone : r.container.services d.typeId = none) : ConstructedOnce (r.constructed d value w) := by
  have hCreated : (r.constructed d value w).trace.filterMap Event.created =
      r.trace.filterMap Event.created ++ [d.typeId] := by
    show (r.trace ++ [_] ++ [_]).filterMap _ = _
    rw [List.filterMap_append, List.filterMap_append]
    simp [createAction, initAction, Event.created]
  have hInit : (r.constructed d value w).trace.filterMap Event.moduleInit =
      r.trace.filterMap Event.moduleInit ++ [d.typeId] := by
    show (r.trace ++ [_] ++ [_]).filterMap _ = _
    rw [List.filterMap_append, List.filterMap_append]
    simp [createAction, initAction, Event.moduleInit]
  have hServices : (r.constructed d value w).container.services =
      Function.update r.container.services d.typeId (some value) := by
    simp [Run.constructed, storedContainer]
  have hNew : d.typeId ∉ r.trace.filterMap Event.created := by
    intro hMem
    obtain ⟨v, hv⟩ := h.stored _ hMem
    rw [hNone] at hv
    cases hv
  refine ⟨?_, ?_, ?_⟩
  · rw [hCreated, List.nodup_append]
    refine ⟨h.nodup, List.nodup_singleton _, ?_⟩
    intro t ht u hu he
    rw [List.mem_singleton.mp hu] at he
    exact hNew (he ▸ ht)
  · rw [hCreated, hInit, h.initialised]
  · rw [hCreated, hServices]
    intro t ht
    by_cases hType : t = d.typeId
    · exact ⟨value, by rw [hType, Function.update_self]⟩
    · rw [Function.update_of_ne hType]
      rcases List.mem_append.mp ht with ht | ht
      · exact h.stored t ht
      · exact absurd (List.mem_singleton.mp ht) hType

theorem registerModule (h : ConstructedOnce r) {P : Program W} {root : ModuleDef} {r' : Run W}
    (hCall : registerModule P root r = (.ok (), r')) : ConstructedOnce r' := by
  obtain ⟨graph, order, mid, -, -, hProviders, hHandlers⟩ := registerModule_ok hCall
  have hDiscovered : ConstructedOnce (r.log .discover none) := h.log rfl rfl rfl rfl
  have hOpened : ConstructedOnce r.opened := hDiscovered.log rfl rfl rfl rfl
  have hMid : ConstructedOnce mid := by
    refine runAll_ok (fun _ => ConstructedOnce) hOpened hProviders ?_
    intro _ q _ r₁ r₂ h₁ hStep
    have hDeclared : ConstructedOnce (r₁.declare q.typeId) := ⟨h₁.nodup, h₁.initialised, h₁.stored⟩
    rcases initializeProvider_ok hStep with rfl | ⟨hNone, value, w, -, rfl⟩
    · exact hDeclared
    · exact hDeclared.construct hNone
  refine runAll_ok (fun _ => ConstructedOnce) hMid hHandlers ?_
  intro _ p _ r₁ r₂ h₁ hStep
  obtain ⟨value, bus, w, -, -, rfl⟩ := registerHandler_ok hStep
  exact h₁.log rfl rfl rfl rfl

theorem registerModules (P : Program W) {roots : List ModuleDef} {c : RootContainer W} {w : W}
    (hRuns : runAll (Caelix.registerModule P) roots (Run.fresh c w) = (.ok (), r)) :
    ConstructedOnce r := by
  have hFresh : ConstructedOnce (Run.fresh c w) := ⟨List.nodup_nil, rfl, by simp [Run.fresh]⟩
  refine runAll_ok (fun _ => ConstructedOnce) hFresh hRuns ?_
  intro _ root _ r₁ r₂ h₁ hStep
  exact h₁.registerModule hStep

end ConstructedOnce

/-! ## Handlers -/

/-- Event type and handler type of a declared event handler. -/
def EventHandlerDef.pair (handler : EventHandlerDef W) : TypeId × TypeId :=
  (handler.eventType, handler.typeId)

/-- The pairs that a registration of the root registers. -/
def registeredPairs (P : Program W) (root : ModuleDef) : List (TypeId × TypeId) :=
  match discoverFrom P root with
  | .ok graph => graph.eventHandlers.map fun p => p.2.pair
  | .error _ => []

/-- How often a pair is registered on a bus. -/
def EventBus.count (bus : EventBus) (pair : TypeId × TypeId) : Nat :=
  (bus.handlers pair.1).countP fun h => h.handler.typeId = pair.2

theorem EventBus.count_register (bus : EventBus) {handler : EventHandlerDef W} {value : ProviderValue}
    (hValue : value.typeId = handler.typeId) (pair : TypeId × TypeId) :
    (bus.register handler.eventType value).count pair =
      bus.count pair + [handler.pair].count pair := by
  obtain ⟨eventType, handlerType⟩ := pair
  unfold count
  by_cases hEvent : eventType = handler.eventType
  · subst hEvent
    rw [register_handlers_self, List.countP_append]
    by_cases hType : handler.typeId = handlerType
    · simp [hValue, hType, EventHandlerDef.pair]
    · simp [hValue, hType, EventHandlerDef.pair]
  · have hNe : handler.pair ≠ (eventType, handlerType) := fun h => hEvent (congrArg Prod.fst h).symm
    rw [register_handlers_of_ne _ _ hEvent, List.count_singleton]
    simp [hNe]

/-- The bus of the container has each pair as often as `pairs` lists it. Until the container
has a bus, this holds of all of them. -/
structure HandlersCounted (pairs : List (TypeId × TypeId)) (r : Run W) : Prop where
  count : ∀ n, (∀ bus, r.container.services TypeId.eventBus = some bus → bus.inst = n) →
    ∀ pair, (r.buses n).count pair = pairs.count pair
  bus : pairs ≠ [] → ∃ bus, r.container.services TypeId.eventBus = some bus

namespace HandlersCounted

variable {r : Run W} {pairs : List (TypeId × TypeId)}

/-- Services are only added. -/
theorem grow (h : HandlersCounted pairs r) {r' : Run W}
    (hServices : ∀ t v, r.container.services t = some v → r'.container.services t = some v)
    (hBuses : r'.buses = r.buses) : HandlersCounted pairs r' := by
  constructor
  · intro n hn pair
    rw [hBuses]
    exact h.count n (fun bus hBus => hn bus (hServices _ _ hBus)) pair
  · intro hSome
    obtain ⟨bus, hBus⟩ := h.bus hSome
    exact ⟨bus, hServices _ _ hBus⟩

theorem subscribe (h : HandlersCounted pairs r) {handler : EventHandlerDef W}
    {value bus : ProviderValue} {w : W} (hValue : value.typeId = handler.typeId)
    (hBus : r.container.services TypeId.eventBus = some bus) :
    HandlersCounted (pairs ++ [handler.pair]) (r.subscribed handler value bus w) := by
  constructor
  · intro n hn pair
    obtain rfl : bus.inst = n := hn bus hBus
    show (Function.update r.buses bus.inst _ bus.inst).count pair = _
    rw [Function.update_self, EventBus.count_register _ hValue, List.count_append]
    have hCount := h.count bus.inst (fun bus' hBus' => by rw [Option.some.inj (hBus'.symm.trans hBus)])
      pair
    rw [hCount]
  · exact fun _ => ⟨bus, hBus⟩

theorem registerModule (h : HandlersCounted pairs r) {P : Program W} {root : ModuleDef} {r' : Run W}
    (hCall : registerModule P root r = (.ok (), r')) :
    HandlersCounted (pairs ++ registeredPairs P root) r' := by
  obtain ⟨graph, order, mid, hDiscover, -, hProviders, hHandlers⟩ := registerModule_ok hCall
  have hMid : HandlersCounted pairs mid := by
    have hOpened : HandlersCounted pairs r.opened := ⟨h.count, h.bus⟩
    refine runAll_ok (fun _ => HandlersCounted pairs) hOpened hProviders ?_
    intro _ q _ r₁ r₂ h₁ hStep
    have hProgress := initializeProvider_progress graph q r₁
    rw [hStep] at hProgress
    refine h₁.grow hProgress.services ?_
    rcases initializeProvider_ok hStep with rfl | ⟨-, value, w, -, rfl⟩ <;> rfl
  have hEnd := runAll_ok
    (fun done => HandlersCounted (pairs ++ done.map fun p : Nat × EventHandlerDef W => p.2.pair))
    (by simpa using hMid) hHandlers (by
      intro done p _ r₁ r₂ h₁ hStep
      obtain ⟨value, bus, w, hValue, hBus, rfl⟩ := registerHandler_ok hStep
      rw [List.map_append, ← List.append_assoc]
      exact h₁.subscribe hValue hBus)
  rw [registeredPairs, hDiscover]
  exact hEnd

theorem registerModules (P : Program W) {roots : List ModuleDef} {c : RootContainer W} {w : W}
    (hRuns : runAll (Caelix.registerModule P) roots (Run.fresh c w) = (.ok (), r)) :
    HandlersCounted (roots.flatMap (registeredPairs P)) r := by
  have hFresh : HandlersCounted [] (Run.fresh c w) := ⟨fun _ _ _ => rfl, fun h => absurd rfl h⟩
  refine runAll_ok (fun done => HandlersCounted (done.flatMap (registeredPairs P))) hFresh hRuns ?_
  intro done root _ r₁ r₂ h₁ hStep
  rw [List.flatMap_append, List.flatMap_singleton]
  exact h₁.registerModule hStep

end HandlersCounted

/-! ## Declarations -/

/-- The pairs that a module declares. -/
def handlerPairs (P : Program W) (m : TypeId) : List (TypeId × TypeId) :=
  (P.metadataFn m).eventHandlers.map EventHandlerDef.pair

/-- Each pair is declared once in the union of the graphs of the roots. -/
structure DeclaredOnce (P : Program W) (roots : List ModuleDef) : Prop where
  within : ∀ root ∈ roots, ∀ m, Reaches P root.typeId m → (handlerPairs P m).Nodup
  across : ∀ root ∈ roots, ∀ root' ∈ roots, ∀ m m', Reaches P root.typeId m →
    Reaches P root'.typeId m' → ∀ pair ∈ handlerPairs P m, pair ∈ handlerPairs P m' → m = m'

theorem registeredPairs_eq {P : Program W} {root : ModuleDef} {graph : ModuleGraph W}
    (hDiscover : discoverFrom P root = .ok graph) :
    registeredPairs P root = (graph.nodes.map ModuleNode.typeId).flatMap (handlerPairs P) := by
  have hMetadata := (discovered_of_ok hDiscover).metadata
  rw [registeredPairs, hDiscover]
  show graph.eventHandlers.map _ = _
  have hNodes : ∀ (nodes : List (ModuleNode W)) k,
      (∀ node ∈ nodes, node.metadata = { P.metadataFn node.typeId with imports := [] }) →
      ((nodes.zipIdx k).flatMap fun p => p.1.metadata.eventHandlers.map
        fun handler => (p.2, handler)).map (fun p => p.2.pair) =
        (nodes.map ModuleNode.typeId).flatMap (handlerPairs P) := by
    intro nodes
    induction nodes with
    | nil => intro k _; rfl
    | cons node nodes ih =>
      intro k hAll
      rw [List.zipIdx_cons, List.flatMap_cons, List.map_append, List.map_cons, List.flatMap_cons,
        ih _ fun n hn => hAll n (List.mem_cons_of_mem _ hn)]
      congr 1
      rw [hAll node List.mem_cons_self, List.map_map]
      rfl
  exact hNodes graph.nodes 0 hMetadata

section Once

variable {P : Program W} {roots : List ModuleDef} {root : ModuleDef} {graph : ModuleGraph W}

theorem mem_registeredPairs (hDiscover : discoverFrom P root = .ok graph) {pair : TypeId × TypeId} :
    pair ∈ registeredPairs P root ↔ ∃ m, Reaches P root.typeId m ∧ pair ∈ handlerPairs P m := by
  rw [registeredPairs_eq hDiscover, List.mem_flatMap]
  simp only [(discovered_of_ok hDiscover).complete]

/-- One call registers each pair at most once. -/
theorem DeclaredOnce.registeredPairs_nodup (hOnce : DeclaredOnce P roots) (hRoot : root ∈ roots)
    (hDiscover : discoverFrom P root = .ok graph) : (registeredPairs P root).Nodup := by
  have hDiscovered := discovered_of_ok hDiscover
  rw [registeredPairs_eq hDiscover, List.nodup_flatMap]
  constructor
  · intro m hm
    exact hOnce.within root hRoot m ((hDiscovered.complete m).mp hm)
  · refine hDiscovered.nodup.imp_of_mem ?_
    intro m m' hm hm' hNe pair hPair hPair'
    exact hNe (hOnce.across root hRoot root hRoot m m' ((hDiscovered.complete m).mp hm)
      ((hDiscovered.complete m').mp hm') pair hPair hPair')

end Once

/-! ## The result -/

/-- The bus of the container has the pair once, so that an emit whose handlers all succeed
invokes the handler once. -/
def RegisteredOnce (r : Run W) (pair : TypeId × TypeId) : Prop :=
  ∃ bus, r.container.services TypeId.eventBus = some bus ∧ (r.buses bus.inst).count pair = 1 ∧
    ∀ (handle : TypedHandler → W → Except HttpException Unit × W) (w : W),
      (∀ handler w, (handle handler w).1 = .ok ()) →
      ((r.buses bus.inst).emit handle pair.1 w).1.countP
        (fun h => h.handler.typeId = pair.2) = 1

theorem discovered_of_runs {P : Program W} {roots : List ModuleDef} {r₀ r : Run W}
    (hRuns : runAll (registerModule P) roots r₀ = (.ok (), r)) :
    ∀ root ∈ roots, ∃ graph, discoverFrom P root = .ok graph := by
  refine runAll_ok (fun done _ => ∀ root ∈ done, ∃ graph, discoverFrom P root = .ok graph)
    (by simp) hRuns ?_
  intro done root _ r₁ r₂ h₁ hStep root' hMem
  rcases List.mem_append.mp hMem with hMem | hMem
  · exact h₁ root' hMem
  · rw [List.mem_singleton.mp hMem]
    obtain ⟨graph, -, -, hDiscover, -⟩ := registerModule_ok hStep
    exact ⟨graph, hDiscover⟩

/-- Over a sequence of successful registrations on one container, every provider is
constructed and initialised once, and every declared event handler is registered once
exactly when no two calls share a module that declares an event handler. -/
theorem handlers_once_iff (P : Program W) (roots : List ModuleDef) (c : RootContainer W) (w : W)
    (r : Run W) (hRuns : runAll (registerModule P) roots (Run.fresh c w) = (.ok (), r))
    (hOnce : DeclaredOnce P roots) :
    (r.trace.filterMap Event.created).Nodup ∧ (r.trace.filterMap Event.moduleInit).Nodup ∧
    ((∀ root ∈ roots, ∀ m, Reaches P root.typeId m → ∀ pair ∈ handlerPairs P m,
        RegisteredOnce r pair) ↔
      roots.Pairwise fun a b => ∀ m, Reaches P a.typeId m → Reaches P b.typeId m →
        (P.metadataFn m).eventHandlers = []) := by
  have hConstructed := ConstructedOnce.registerModules P hRuns
  have hCounted := HandlersCounted.registerModules P hRuns
  have hDiscovers := discovered_of_runs hRuns
  refine ⟨hConstructed.nodup, by rw [hConstructed.initialised]; exact hConstructed.nodup, ?_⟩
  have hDeclared : ∀ pair, pair ∈ roots.flatMap (registeredPairs P) ↔
      ∃ root ∈ roots, ∃ m, Reaches P root.typeId m ∧ pair ∈ handlerPairs P m := by
    intro pair
    rw [List.mem_flatMap]
    apply exists_congr
    intro root
    apply and_congr_right
    intro hRoot
    obtain ⟨graph, hDiscover⟩ := hDiscovers root hRoot
    exact mem_registeredPairs hDiscover
  have hRegistered : ∀ pair ∈ roots.flatMap (registeredPairs P),
      (RegisteredOnce r pair ↔ (roots.flatMap (registeredPairs P)).count pair = 1) := by
    intro pair hPair
    obtain ⟨bus, hBus⟩ := hCounted.bus (List.ne_nil_of_mem hPair)
    have hCount := hCounted.count bus.inst
      (fun bus' hBus' => by rw [Option.some.inj (hBus'.symm.trans hBus)]) pair
    rw [← hCount]
    constructor
    · rintro ⟨bus', hBus', hOne, -⟩
      rwa [Option.some.inj (hBus'.symm.trans hBus)] at hOne
    · intro hOne
      refine ⟨bus, hBus, hOne, ?_⟩
      intro handle w' hOk
      rw [EventBus.emit_invoked hOk]
      exact hOne
  have hNodup : (∀ root ∈ roots, ∀ m, Reaches P root.typeId m → ∀ pair ∈ handlerPairs P m,
      RegisteredOnce r pair) ↔ (roots.flatMap (registeredPairs P)).Nodup := by
    rw [List.nodup_iff_count_eq_one]
    constructor
    · intro h pair hPair
      obtain ⟨root, hRoot, m, hReach, hMem⟩ := (hDeclared pair).mp hPair
      exact (hRegistered pair hPair).mp (h root hRoot m hReach pair hMem)
    · intro h root hRoot m hReach pair hMem
      have hPair := (hDeclared pair).mpr ⟨root, hRoot, m, hReach, hMem⟩
      exact (hRegistered pair hPair).mpr (h pair hPair)
  rw [hNodup, List.nodup_flatMap]
  have hEach : ∀ root ∈ roots, (registeredPairs P root).Nodup := by
    intro root hRoot
    obtain ⟨graph, hDiscover⟩ := hDiscovers root hRoot
    exact hOnce.registeredPairs_nodup hRoot hDiscover
  rw [and_iff_right hEach]
  apply List.Pairwise.iff_of_mem
  intro a b ha hb
  obtain ⟨graph, hDiscover⟩ := hDiscovers a ha
  obtain ⟨graph', hDiscover'⟩ := hDiscovers b hb
  constructor
  · intro hDisjoint m hm hm'
    by_contra hSome
    have hPairs : handlerPairs P m ≠ [] := fun hNil => hSome (List.map_eq_nil_iff.mp hNil)
    obtain ⟨pair, hPair⟩ := List.exists_mem_of_ne_nil _ hPairs
    exact hDisjoint ((mem_registeredPairs hDiscover).mpr ⟨m, hm, hPair⟩)
      ((mem_registeredPairs hDiscover').mpr ⟨m, hm', hPair⟩)
  · intro hShared pair hPair hPair'
    obtain ⟨m, hm, hMem⟩ := (mem_registeredPairs hDiscover).mp hPair
    obtain ⟨m', hm', hMem'⟩ := (mem_registeredPairs hDiscover').mp hPair'
    obtain rfl := hOnce.across a ha b hb m m' hm hm' pair hMem hMem'
    rw [handlerPairs, hShared m hm hm'] at hMem
    cases hMem

/-- Two roots with an import of the event module; the first declares an event handler. -/
def auditProgram : Program Unit where
  metadataFn t :=
    match t with
    | 10 =>
      { ModuleMetadata.new with
        imports := [⟨12, "EventModule"⟩]
        providers := [plainProvider 20 "AuditHandler" []]
        eventHandlers := [⟨20, "AuditHandler", 30, fun w => (.ok (), w)⟩] }
    | 11 => { ModuleMetadata.new with imports := [⟨12, "EventModule"⟩] }
    | 12 =>
      { ModuleMetadata.new with
        providers := [plainProvider TypeId.eventBus "EventBus" []]
        exports := [⟨TypeId.eventBus, "EventBus"⟩] }
    | _ => ModuleMetadata.new
  modules := {10, 11, 12}
  closed := by decide

theorem audit_handlerPairs {m : TypeId} {pair : TypeId × TypeId}
    (h : pair ∈ handlerPairs auditProgram m) : m = 10 := by
  unfold handlerPairs auditProgram at h
  dsimp only at h
  split at h
  · rfl
  · cases h
  · cases h
  · cases h

theorem audit_declaredOnce (roots : List ModuleDef) : DeclaredOnce auditProgram roots := by
  constructor
  · intro root _ m _
    by_cases hm : m = 10
    · rw [hm]
      exact List.nodup_singleton _
    · have hNone : handlerPairs auditProgram m = [] :=
        List.eq_nil_iff_forall_not_mem.mpr fun pair hPair => hm (audit_handlerPairs hPair)
      rw [hNone]
      exact List.nodup_nil
  · intro _ _ _ _ m m' _ _ pair hPair hPair'
    rw [audit_handlerPairs hPair, audit_handlerPairs hPair']

theorem audit_reaches {m : TypeId} (h : Reaches auditProgram 11 m) : m = 11 ∨ m = 12 := by
  induction h with
  | refl => exact Or.inl rfl
  | tail _ hImport ih =>
    obtain ⟨d, hd, rfl⟩ := hImport
    rcases ih with rfl | rfl
    · exact Or.inr (congrArg ModuleDef.typeId (List.mem_singleton.mp hd))
    · cases hd

/-- The run after a list of roots was registered on a new container. -/
def auditRuns (roots : List ModuleDef) : Outcome Unit :=
  runAll (registerModule auditProgram) roots (Run.fresh RootContainer.new ())

theorem handlers_once_iff_audit :
    (auditRuns [⟨10, "App"⟩, ⟨11, "Jobs"⟩]).1 = .ok () ∧
    RegisteredOnce (auditRuns [⟨10, "App"⟩, ⟨11, "Jobs"⟩]).2 (30, 20) := by
  have hOk : (auditRuns [⟨10, "App"⟩, ⟨11, "Jobs"⟩]).1 = .ok () := rfl
  refine ⟨hOk, ?_⟩
  obtain ⟨-, -, hIff⟩ := handlers_once_iff auditProgram [⟨10, "App"⟩, ⟨11, "Jobs"⟩]
    RootContainer.new () (auditRuns [⟨10, "App"⟩, ⟨11, "Jobs"⟩]).2 (Prod.ext hOk rfl)
    (audit_declaredOnce _)
  refine hIff.mpr ?_ ⟨10, "App"⟩ List.mem_cons_self 10 Relation.ReflTransGen.refl (30, 20)
    List.mem_cons_self
  rw [List.pairwise_pair]
  intro m _ hm
  rcases audit_reaches hm with rfl | rfl <;> rfl

/-- Registering the same root twice succeeds and leaves its event handler on the bus twice. -/
theorem handlers_twice_audit :
    DeclaredOnce auditProgram [⟨10, "App"⟩, ⟨10, "App"⟩] ∧
    (auditRuns [⟨10, "App"⟩, ⟨10, "App"⟩]).1 = .ok () ∧
    (30, 20) ∈ handlerPairs auditProgram 10 ∧
    ¬ RegisteredOnce (auditRuns [⟨10, "App"⟩, ⟨10, "App"⟩]).2 (30, 20) := by
  refine ⟨audit_declaredOnce _, rfl, List.mem_cons_self, ?_⟩
  rintro ⟨bus, hBus, hOne, -⟩
  have hService : (auditRuns [⟨10, "App"⟩, ⟨10, "App"⟩]).2.container.services TypeId.eventBus =
      some ⟨TypeId.eventBus, 0⟩ := rfl
  have hTwo : ((auditRuns [⟨10, "App"⟩, ⟨10, "App"⟩]).2.buses 0).count (30, 20) = 2 := rfl
  rw [Option.some.inj (hBus.symm.trans hService), hTwo] at hOne
  cases hOne

end Caelix
