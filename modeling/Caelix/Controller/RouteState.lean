import Caelix.Controller.Handler
import Caelix.Core.Injection

/-!
# Route state

What the generated handlers of a controller resolve when its routes are registered on a container.

* `ControllerDef.of`: a controller depends on the guards and interceptors of its routes as well.
* `RouteState.new`: the guards and interceptors are expected to be registered.
* `route_state_resolves`: after a start-up they are, for every controller of the module tree that
  is not replaced by an override.
-/

namespace Caelix

open Fallible

variable {W : Type}

/-! ## The controller as a provider -/

/-- A dependency, unless its type is listed already. -/
def addDependency (provider : ProviderDef W) (dependency : ProviderDependency) : ProviderDef W :=
  if provider.dependencies.any fun existing => existing.typeId = dependency.typeId then provider
  else { provider with dependencies := provider.dependencies ++ [dependency] }

/-- `validate_routes` of the generated controller. -/
def validateRoutes (clock : Clock) (now : Instant) (routes : List Route) : Except HttpException Unit :=
  (routeThrottlePolicies routes).forM fun p => validatePolicy clock now (ThrottlePolicy.new p.1 p.2)

/-- `ControllerDef::of`, from the definition of the controller as a provider and its routes. -/
def ControllerDef.of (provider : ProviderDef W) (throttle : ProviderDependency) (clock : Clock)
    (now : Instant) (routes : List Route) : ControllerDef W where
  provider := (routeDependencies throttle routes).foldl addDependency provider
  validateRoutes := Caelix.validateRoutes clock now routes

/-! ## What a route resolves -/

/-- `expect` of what the container resolves; the panic shows the error besides the message. -/
def expectResolved (c : Container) (message : String) (dependency : ProviderDependency) :
    Except String Unit :=
  match c.resolve dependency with
  | .ok _ => .ok ()
  | .error _ => .error message

/-- `new` of the generated route state; `policy` is the default policy of a throttle service. -/
def RouteState.new (c : Container) (policy : ProviderValue → ThrottlePolicy)
    (controller throttle : ProviderDependency) (route : Route) : Except String RouteState := do
  expectResolved c "validated route controller must be registered" controller
  let service := if route.throttleEnabled then (c.resolve throttle).toOption else none
  route.guards.forM (expectResolved c "validated route guard must be registered")
  route.interceptors.forM (expectResolved c "validated route interceptor must be registered")
  return ⟨service.map policy⟩

/-! ## Dependencies of a controller -/

theorem addDependency_typeId (provider : ProviderDef W) (dependency : ProviderDependency) :
    (addDependency provider dependency).typeId = provider.typeId := by
  unfold addDependency
  split_ifs <;> rfl

theorem mem_addDependency {provider : ProviderDef W} {dependency : ProviderDependency} {t : TypeId} :
    t ∈ (addDependency provider dependency).dependencies.map ProviderDependency.typeId ↔
      t ∈ provider.dependencies.map ProviderDependency.typeId ∨ t = dependency.typeId := by
  unfold addDependency
  split_ifs with hListed
  · refine ⟨.inl, fun h => h.elim id ?_⟩
    rintro rfl
    obtain ⟨existing, hMem, hType⟩ := List.any_eq_true.mp hListed
    exact List.mem_map.mpr ⟨existing, hMem, of_decide_eq_true hType⟩
  · rw [List.map_append, List.mem_append, List.map_singleton, List.mem_singleton]

theorem foldl_addDependency (dependencies : List ProviderDependency) (provider : ProviderDef W) :
    (dependencies.foldl addDependency provider).typeId = provider.typeId ∧
      ∀ d ∈ dependencies, d.typeId ∈
        (dependencies.foldl addDependency provider).dependencies.map ProviderDependency.typeId := by
  -- what is listed stays listed
  have hKeeps : ∀ (ds : List ProviderDependency) (p : ProviderDef W) t,
      t ∈ p.dependencies.map ProviderDependency.typeId →
      t ∈ (ds.foldl addDependency p).dependencies.map ProviderDependency.typeId := by
    intro ds
    induction ds with
    | nil => exact fun p t h => h
    | cons d ds ih => exact fun p t h => ih _ t (mem_addDependency.mpr (.inl h))
  induction dependencies generalizing provider with
  | nil => exact ⟨rfl, List.forall_mem_nil _⟩
  | cons d ds ih =>
    obtain ⟨hType, hRest⟩ := ih (addDependency provider d)
    refine ⟨hType.trans (addDependency_typeId provider d), List.forall_mem_cons.mpr ⟨?_, hRest⟩⟩
    exact hKeeps ds _ _ (mem_addDependency.mpr (.inr rfl))

theorem ControllerDef.of_typeId (provider : ProviderDef W) (throttle : ProviderDependency)
    (clock : Clock) (now : Instant) (routes : List Route) :
    (ControllerDef.of provider throttle clock now routes).provider.typeId = provider.typeId :=
  (foldl_addDependency _ provider).1

theorem ControllerDef.of_dependencies (provider : ProviderDef W) (throttle : ProviderDependency)
    (clock : Clock) (now : Instant) {routes : List Route} {route : Route} (hRoute : route ∈ routes) :
    ∀ d ∈ route.dependencies throttle, d.typeId ∈ (ControllerDef.of provider throttle clock now
      routes).provider.dependencies.map ProviderDependency.typeId := by
  intro d hd
  exact (foldl_addDependency _ provider).2 d (List.mem_flatMap.mpr ⟨route, hRoute, hd⟩)

/-! ## The container of a start-up -/

/-- No start-up leaves a scope on its container. -/
theorem initializeProvider_scope (graph : ModuleGraph W) (q : ProviderRegistration W) {r : Run W}
    (h : r.container.dependencyScope = none) :
    (initializeProvider graph q r).2.container.dependencyScope = none := by
  have hClaim : ∀ (c : RootContainer W) t, (c.claim t).2.dependencyScope = c.dependencyScope := by
    intro c t
    unfold RootContainer.claim RootContainer.takePendingOverride
    dsimp only
    split_ifs <;> rfl
  rcases initializeProvider_cases graph q r with ⟨-, he⟩ | ⟨-, -, x, hx, he⟩
  · rw [he]
    exact h
  · rw [he, orRollback_container]
    cases hx with
    | buildFailed e w _ => exact (hClaim _ _).trans h
    | initFailed value e w _ _ => exact (hClaim _ _).trans h
    | done value w _ _ => exact (hClaim _ _).trans h

theorem registerModule_scope (P : Program W) (root : ModuleDef) {r : Run W}
    (h : r.container.dependencyScope = none) :
    (registerModule P root r).2.container.dependencyScope = none :=
  registerModule_container (I := fun c => c.dependencyScope = none) P root h
    fun graph q _ hScope => initializeProvider_scope graph q hScope

theorem Container.Typed.resolve_ok {c : Container} (hTyped : c.Typed)
    (hScope : c.dependencyScope = none) {d : ProviderDependency} {v : ProviderValue}
    (h : c.services d.typeId = some v) : ∃ v, c.resolve d = .ok v := by
  unfold Container.resolve
  rw [hScope]
  exact (hTyped.resolveRegistered_ok_iff d).mpr ⟨v, h⟩

/-- A dependency that preflight found met is registered in the end. -/
theorem Built.met {c : RootContainer W} {base : List (ProviderDef W × ProviderValue)}
    {order : List (ProviderRegistration W)} {r : Run W} {graph : ModuleGraph W} {m : Nat} {t : TypeId}
    (hBuilt : Built c base order r) (hScheduled : graph.Scheduled (some c) order)
    (h : graph.DependencyMet (some c) m t) : ∃ v, r.container.services t = some v := by
  by_cases hDeclares : graph.Declares t
  · obtain ⟨q, hq, rfl⟩ := List.mem_map.mp (hScheduled.complete t hDeclares)
    exact hBuilt.provided q hq
  · obtain ⟨v, hv⟩ := (c.containsTypeId_iff t).mp (by simpa using h.2 hDeclares)
    exact ⟨v, hBuilt.progress.services t v hv⟩

theorem mem_definitions_controller {graph : ModuleGraph W} {module : Nat} {node : ModuleNode W}
    (hNode : graph.nodes[module]? = some node) {controller : ControllerDef W}
    (hController : controller ∈ node.metadata.controllers) :
    ∃ q ∈ graph.definitions, q.definition = controller.provider := by
  obtain ⟨index, hIndex⟩ := List.mem_iff_getElem?.mp hController
  refine ⟨⟨module, .controller index, controller.provider⟩, ?_, rfl⟩
  refine ModuleGraph.mem_definitions.mpr ⟨node, hNode, ?_⟩
  have hMem : (⟨module, .controller index, controller.provider⟩ : ProviderRegistration W) ∈
      ModuleMetadata.registrations module .controller ControllerDef.provider
        node.metadata.controllers := by
    refine List.mem_map.mpr ⟨(controller, index), ?_, rfl⟩
    exact List.mk_mem_zipIdx_iff_getElem?.mpr hIndex
  simp [ModuleMetadata.definitions, hMem]

/-- After a start-up, the providers of the tree and the dependencies of those that no override
replaces are resolved. -/
theorem build_resolves {P : Program W} {root : ModuleDef} {given : ProviderOverrides W} {w : W}
    {r : Run W} (hBuild : buildContainerWithOverrides P root given w = (.ok (), r)) :
    ∃ graph, discoverFrom P root = .ok graph ∧ ∀ q ∈ graph.definitions,
      (∀ name, ∃ v, r.container.toContainer.resolve ⟨q.typeId, name⟩ = .ok v) ∧
      ((seeded given).pendingOverride q.typeId = none → ∀ d : ProviderDependency,
        d.typeId ∈ q.definition.dependencies.map ProviderDependency.typeId →
        ∃ v, r.container.toContainer.resolve d = .ok v) := by
  obtain ⟨r', hRegister, -, hContainer⟩ := buildContainerWithOverrides_ok hBuild
  obtain ⟨graph, order, hDiscover, hPreflight, hBuilt⟩ :=
    registerModule_built P root (r := Run.fresh (seeded given) w) (seeded_settled given)
      (by rw [hRegister])
  have hProgress := registerModule_progress P root (Run.fresh (seeded given) w)
  have hScope := registerModule_scope P root (r := Run.fresh (seeded given) w) rfl
  rw [hRegister] at hBuilt hProgress hScope
  have hTyped : r'.container.toContainer.Typed := hProgress.typed (seeded_typed given)
  obtain ⟨hAccepted, hSchedule⟩ := (ModuleGraph.preflight_ok_iff
    (ModuleGraph.importsFirst_of_discovered (discovered_of_ok hDiscover))).mp hPreflight
  have hScheduled := ModuleGraph.scheduleAll_scheduled hSchedule
  refine ⟨graph, hDiscover, fun q hq => ?_⟩
  rw [hContainer]
  constructor
  · intro name
    obtain ⟨q', hq', hSame⟩ := List.mem_map.mp (hScheduled.complete q.typeId ⟨q, hq, rfl⟩)
    obtain ⟨v, hv⟩ := hBuilt.provided q' hq'
    rw [hSame] at hv
    exact hTyped.resolve_ok hScope hv
  · intro hOwn d hd
    have hEffective : effectiveDef (some (seeded given)) q.definition = q.definition := by
      have hNone : (seeded given).pendingOverride q.definition.typeId = none := hOwn
      simp [effectiveDef, hNone]
    have hServices : ∃ v, r'.container.services d.typeId = some v := by
      by_cases hLogger : d.typeId = TypeId.logger
      · obtain ⟨v, hv⟩ := seeded_logger given
        exact ⟨v, hLogger ▸ hProgress.services _ v hv⟩
      · obtain ⟨d', hd', hSame⟩ := List.mem_map.mp hd
        rw [← hSame] at hLogger ⊢
        refine hBuilt.met hScheduled (hAccepted.dependencies q hq d' ?_ hLogger)
        show d' ∈ (effectiveDef (some (seeded given)) q.definition).dependencies
        rwa [hEffective]
    obtain ⟨v, hv⟩ := hServices
    exact hTyped.resolve_ok hScope hv

/-! ## The state of a route -/

theorem expectResolved_ok {c : Container} {d : ProviderDependency} (h : ∃ v, c.resolve d = .ok v)
    (message : String) : expectResolved c message d = .ok () := by
  obtain ⟨v, hv⟩ := h
  rw [expectResolved, hv]

theorem Route.throttleEnabled_of_explicit {route : Route} (h : route.explicitThrottle = true) :
    route.throttleEnabled = true := by
  unfold explicitThrottle at h
  unfold throttleEnabled
  cases hThrottle : route.throttle with
  | none => rfl
  | some setting =>
    cases setting with
    | policy limit window => rfl
    | skip =>
      rw [hThrottle] at h
      cases h

theorem RouteState.new_ok {c : Container} {controller throttle : ProviderDependency} {route : Route}
    (hController : ∃ v, c.resolve controller = .ok v)
    (hDependencies : ∀ d ∈ route.dependencies throttle, ∃ v, c.resolve d = .ok v)
    (policy : ProviderValue → ThrottlePolicy) :
    ∃ state, RouteState.new c policy controller throttle route = .ok state ∧
      (route.explicitThrottle = true → state.throttle.isSome = true) := by
  have hAll : ∀ (l : List ProviderDependency) message, l ⊆ route.dependencies throttle →
      l.forM (expectResolved c message) = .ok () := by
    intro l message hSub
    exact forM_ok_iff.mpr fun d hd => expectResolved_ok (hDependencies d (hSub hd)) message
  have hGuards : route.guards ⊆ route.dependencies throttle := by
    unfold Route.dependencies
    exact List.Subset.trans (List.subset_append_right _ _) (List.subset_append_left _ _)
  have hInterceptors : route.interceptors ⊆ route.dependencies throttle :=
    List.subset_append_right _ _
  refine ⟨⟨(if route.throttleEnabled then (c.resolve throttle).toOption else none).map policy⟩, ?_, ?_⟩
  · unfold RouteState.new
    rw [expectResolved_ok hController, hAll _ _ hGuards, hAll _ _ hInterceptors]
    rfl
  · intro hExplicit
    obtain ⟨v, hv⟩ := hDependencies throttle (by simp [Route.dependencies, hExplicit])
    simp only [Route.throttleEnabled_of_explicit hExplicit, if_true, hv]
    rfl

/-- After a start-up every route of a controller in the module tree has its state, with the throttle
service if the route names a policy, unless an override replaces the controller. -/
theorem route_state_resolves {P : Program W} {root : ModuleDef} {given : ProviderOverrides W} {w : W}
    {r : Run W} (hBuild : buildContainerWithOverrides P root given w = (.ok (), r)) {t : TypeId}
    (hModule : Reaches P root.typeId t) {provider : ProviderDef W} {throttle : ProviderDependency}
    {clock : Clock} {now : Instant} {routes : List Route}
    (hController : ControllerDef.of provider throttle clock now routes ∈ (P.metadataFn t).controllers)
    (hOwn : (seeded given).pendingOverride provider.typeId = none) {route : Route}
    (hRoute : route ∈ routes) (policy : ProviderValue → ThrottlePolicy) :
    ∃ state, RouteState.new r.container.toContainer policy ⟨provider.typeId, provider.typeName⟩
        throttle route = .ok state ∧
      (route.explicitThrottle = true → state.throttle.isSome = true) := by
  obtain ⟨graph, hDiscover, hResolves⟩ := build_resolves hBuild
  have hDiscovered := discovered_of_ok hDiscover
  -- the controller among the definitions of the graph
  obtain ⟨node, hNode, hType⟩ := List.mem_map.mp ((hDiscovered.complete t).mpr hModule)
  obtain ⟨module, hAt⟩ := List.mem_iff_getElem?.mp hNode
  have hControllers : ControllerDef.of provider throttle clock now routes ∈
      node.metadata.controllers := by
    rw [hDiscovered.metadata node hNode, hType]
    exact hController
  obtain ⟨q, hq, hDefinition⟩ := mem_definitions_controller hAt hControllers
  have hSame : q.typeId = provider.typeId := by
    rw [ProviderRegistration.typeId, hDefinition, ControllerDef.of_typeId]
  obtain ⟨hOwnType, hDependencies⟩ := hResolves q hq
  rw [hSame] at hOwnType hDependencies
  refine RouteState.new_ok (hOwnType _) (fun d hd => hDependencies hOwn d ?_) policy
  rw [hDefinition]
  exact ControllerDef.of_dependencies provider throttle clock now hRoute d hd

def guardedRoute : Route := ⟨"get", "/me", "show", [⟨30, "AuthGuard"⟩], [], none, none, []⟩

/-- A module with a controller whose only route has a guard. -/
def guardedProgram : Program Unit where
  metadataFn t :=
    match t with
    | 10 =>
      { ModuleMetadata.new with
        providers := [plainProvider 30 "AuthGuard" []]
        controllers := [ControllerDef.of (plainProvider 21 "UsersController" []) ⟨9, "Throttle"⟩
          Clock.full 0 [guardedRoute]] }
    | _ => ModuleMetadata.new
  modules := {10}
  closed := by decide

theorem route_state_resolves_guarded :
    ∃ state, RouteState.new (buildContainerWithOverrides guardedProgram ⟨10, "App"⟩
      ProviderOverrides.new ()).2.container.toContainer (fun _ => ThrottlePolicy.new 1 1)
      ⟨21, "UsersController"⟩ ⟨9, "Throttle"⟩ guardedRoute = .ok state ∧
      (guardedRoute.explicitThrottle = true → state.throttle.isSome = true) := by
  have hBuild : (buildContainerWithOverrides guardedProgram ⟨10, "App"⟩
      ProviderOverrides.new ()).1 = .ok () := rfl
  have hController : ControllerDef.of (plainProvider 21 "UsersController" []) ⟨9, "Throttle"⟩
      Clock.full 0 [guardedRoute] ∈ (guardedProgram.metadataFn 10).controllers :=
    List.mem_singleton_self _
  exact route_state_resolves (Prod.ext hBuild rfl) Relation.ReflTransGen.refl hController rfl
    (List.mem_singleton_self _) _

end Caelix
