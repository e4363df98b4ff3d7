import Mathlib.Algebra.GroupWithZero.Nat
import Caelix.Core.DiscoverExact

/-!
# The route log

`log_module_routes` of `logging.rs` walks the imports on its own, with a set of visited
module types, while `register_module_controllers` of `module.rs` mounts the controllers of
the discovered graph, node by node.

* `logRoutes_follows`: the log follows the depth-first walk over module types.
* `logRoutes_of_walk`: where that walk succeeds, the log calls the controllers of the
  finished modules in their order, each module once, and counts them.
* `route_log_agrees`: with valid routes and no cycle these are the mounted controllers, and
  the counted routes are the mounted ones where each controller lists what it mounts.

A controller carries no routes here: what `C::routes` lists, which the log counts, and what
`C::register_routes` mounts are two parameters. The default of `routes` lists nothing.
-/

namespace Caelix

open Relation Fallible

variable {W : Type}

/-! ## The code -/

structure RouteDef where
  method : String
  path : String
  handler : String
  deriving DecidableEq, Repr

/-- A route of the router or the service configuration. -/
structure MountedRoute where
  method : String
  path : String
  deriving DecidableEq, Repr

def RouteDef.mounted (route : RouteDef) : MountedRoute := ⟨route.method, route.path⟩

/-- The visited types, and the controllers whose `route_log_fn` was called, in that order. -/
structure RouteLog (W : Type) where
  visited : Finset TypeId
  logged : List (ControllerDef W)

namespace RouteLog

def empty : RouteLog W := ⟨∅, []⟩

def visit (log : RouteLog W) (t : TypeId) : RouteLog W where
  visited := insert t log.visited
  logged := log.logged

def call (log : RouteLog W) (controller : ControllerDef W) : RouteLog W where
  visited := log.visited
  logged := log.logged ++ [controller]

end RouteLog

/-- The counts of routes and controllers so far, and the log. -/
abbrev Tally (W : Type) := (Nat × Nat) × RouteLog W

/-- The loop body over the imports; `logRoutes` is the recursive call. -/
def logImport (P : Program W) (logRoutes : ModuleMetadata W → RouteLog W → Except Fault (Tally W))
    (tally : Tally W) (d : ModuleDef) : Except Fault (Tally W) :=
  let ((routes, controllers), log) := tally
  if d.typeId ∈ log.visited then .ok tally
  else do
    let ((importRoutes, importControllers), log) ←
      logRoutes (P.metadataFn d.typeId) (log.visit d.typeId)
    .ok ((routes + importRoutes, controllers + importControllers), log)

def logController (routeCountFn : ControllerDef W → Nat) (tally : Tally W)
    (controller : ControllerDef W) : Tally W :=
  let ((routes, controllers), log) := tally
  ((routes + routeCountFn controller, controllers + 1), log.call controller)

def logRoutesForMetadata (P : Program W) (routeCountFn : ControllerDef W → Nat) :
    Nat → ModuleMetadata W → RouteLog W → Except Fault (Tally W)
  | 0, _, _ => .error .outOfFuel
  | fuel + 1, metadata, log => do
    let tally ← metadata.imports.foldlM (logImport P (logRoutesForMetadata P routeCountFn fuel))
      ((0, 0), log)
    .ok (metadata.controllers.foldl (logController routeCountFn) tally)

def routesMessage (routes controllers : Nat) : String :=
  let routeLabel := if routes = 1 then "route" else "routes"
  let controllerLabel := if controllers = 1 then "controller" else "controllers"
  s!"{routes} {routeLabel} registered across {controllers} {controllerLabel}"

/-- The controllers logged, and the message under `routes`. -/
def logModuleRoutes (P : Program W) (routeCountFn : ControllerDef W → Nat) (root : ModuleDef) :
    Except Fault (List (ControllerDef W) × String) := do
  let ((routes, controllers), log) ← logRoutesForMetadata P routeCountFn (P.modules.card + 1)
    (P.metadataFn root.typeId) RouteLog.empty
  .ok (log.logged, routesMessage routes controllers)

/-- The controllers whose `register_fn` is called, in that order. A failed discovery mounts
nothing. -/
def registerModuleControllers (P : Program W) (root : ModuleDef) : List (ControllerDef W) :=
  match discoverFrom P root with
  | .ok graph => graph.nodes.flatMap fun node => node.metadata.controllers
  | .error _ => []

/-- The routes that the calls of `register_fn` mount, in that order. -/
def mountedRoutes (P : Program W) (registerRoutes : ControllerDef W → List MountedRoute)
    (root : ModuleDef) : List MountedRoute :=
  (registerModuleControllers P root).flatMap registerRoutes

/-- The controllers list what they mount. -/
def ListMounted (routes : ControllerDef W → List RouteDef)
    (registerRoutes : ControllerDef W → List MountedRoute)
    (controllers : List (ControllerDef W)) : Prop :=
  ∀ controller ∈ controllers, (routes controller).map RouteDef.mounted = registerRoutes controller

section LogImport

variable {P : Program W} {logRoutes : ModuleMetadata W → RouteLog W → Except Fault (Tally W)}
  {start tally : Tally W} {d : ModuleDef}

theorem logImport_seen (h : d.typeId ∈ start.2.visited) :
    logImport P logRoutes start d = .ok start := by
  rw [logImport, if_pos h]

theorem logImport_new (h : d.typeId ∉ start.2.visited)
    (hOk : logRoutes (P.metadataFn d.typeId) (start.2.visit d.typeId) = .ok tally) :
    logImport P logRoutes start d =
      .ok ((start.1.1 + tally.1.1, start.1.2 + tally.1.2), tally.2) := by
  rw [logImport, if_neg h, hOk]
  rfl

end LogImport

/-! ## What is logged for a list of modules -/

def controllersOf (P : Program W) (modules : List ModuleDef) : List (ControllerDef W) :=
  modules.flatMap fun d => (P.metadataFn d.typeId).controllers

theorem controllersOf_append (P : Program W) (l l' : List ModuleDef) :
    controllersOf P (l ++ l') = controllersOf P l ++ controllersOf P l' :=
  List.flatMap_append

/-- The tally has gone on from `start` by calling `controllers`. -/
structure Logs (routeCountFn : ControllerDef W → Nat) (start : Tally W)
    (controllers : List (ControllerDef W)) (tally : Tally W) : Prop where
  routesCounted : tally.1.1 = start.1.1 + (controllers.map routeCountFn).sum
  controllersCounted : tally.1.2 = start.1.2 + controllers.length
  logged : tally.2.logged = start.2.logged ++ controllers
  grows : start.2.visited ⊆ tally.2.visited

namespace Logs

variable {routeCountFn : ControllerDef W → Nat}

theorem refl (start : Tally W) : Logs routeCountFn start [] start where
  routesCounted := by simp
  controllersCounted := by simp
  logged := by simp
  grows := Finset.Subset.refl _

theorem trans {start middle tally : Tally W} {l l' : List (ControllerDef W)}
    (h : Logs routeCountFn start l middle) (h' : Logs routeCountFn middle l' tally) :
    Logs routeCountFn start (l ++ l') tally where
  routesCounted := by
    rw [h'.routesCounted, h.routesCounted, List.map_append, List.sum_append, Nat.add_assoc]
  controllersCounted := by
    rw [h'.controllersCounted, h.controllersCounted, List.length_append, Nat.add_assoc]
  logged := by rw [h'.logged, h.logged, List.append_assoc]
  grows := h.grows.trans h'.grows

theorem call (start : Tally W) (controller : ControllerDef W) :
    Logs routeCountFn start [controller] (logController routeCountFn start controller) where
  routesCounted := by simp [logController]
  controllersCounted := rfl
  logged := rfl
  grows := Finset.Subset.refl _

/-- The loop over the controllers of a module calls each of them. -/
theorem loop (controllers : List (ControllerDef W)) (start : Tally W) :
    Logs routeCountFn start controllers (controllers.foldl (logController routeCountFn) start) := by
  induction controllers generalizing start with
  | nil => exact refl start
  | cons controller rest ih => exact (call start controller).trans (ih _)

end Logs

theorem visited_loop (routeCountFn : ControllerDef W → Nat) (controllers : List (ControllerDef W))
    (start : Tally W) :
    (controllers.foldl (logController routeCountFn) start).2.visited = start.2.visited := by
  induction controllers generalizing start with
  | nil => rfl
  | cons controller rest ih => exact ih _

/-! ## The log follows the walk -/

/-- The visited set contains the finished types, and of the others only open ones. -/
structure Seen (visited : Finset TypeId) (stack done : List ModuleDef) : Prop where
  finished : ∀ t ∈ done.map ModuleDef.typeId, t ∈ visited
  only : ∀ t ∈ visited, t ∈ done.map ModuleDef.typeId ∨ t ∈ stack.map ModuleDef.typeId

theorem Seen.enter {visited : Finset TypeId} {stack done : List ModuleDef}
    (h : Seen visited stack done) (d : ModuleDef) :
    Seen (insert d.typeId visited) (stack ++ [d]) done where
  finished := fun t ht => Finset.mem_insert_of_mem (h.finished t ht)
  only := by
    intro t ht
    rcases Finset.mem_insert.mp ht with rfl | ht
    · exact Or.inr (by simp)
    · rcases h.only t ht with hDone | hOpen
      · exact Or.inl hDone
      · exact Or.inr (by simp [List.mem_append.mpr, hOpen])

theorem Seen.leave {visited : Finset TypeId} {stack done : List ModuleDef} {d : ModuleDef}
    (h : Seen visited (stack ++ [d]) done) :
    Seen (insert d.typeId visited) stack (done ++ [d]) := by
  have hMem : ∀ t, t ∈ (done ++ [d]).map ModuleDef.typeId ↔
      t ∈ done.map ModuleDef.typeId ∨ t = d.typeId := by
    intro t
    rw [List.map_append, List.mem_append, List.map_singleton, List.mem_singleton]
  constructor
  · intro t ht
    rcases (hMem t).mp ht with ht | rfl
    · exact Finset.mem_insert_of_mem (h.finished t ht)
    · exact Finset.mem_insert_self _ _
  · intro t ht
    rw [hMem]
    rcases Finset.mem_insert.mp ht with rfl | ht
    · exact Or.inl (Or.inr rfl)
    · rcases h.only t ht with hDone | hOpen
      · exact Or.inl (Or.inl hDone)
      · rw [List.map_append, List.mem_append, List.map_singleton, List.mem_singleton] at hOpen
        rcases hOpen with hOpen | rfl
        · exact Or.inr hOpen
        · exact Or.inl (Or.inr rfl)

section Follows

variable {P : Program W} {routeCountFn : ControllerDef W → Nat}

/-- What logging the module `d` does when the walk finishes it, and `done'` with it. -/
def LogFollows (P : Program W) (routeCountFn : ControllerDef W → Nat) (stack done : List ModuleDef)
    (d : ModuleDef) (log : RouteLog W) (done' : List ModuleDef)
    (run : Except Fault (Tally W)) : Prop :=
  ∃ new tally, done' = done ++ new ∧ run = .ok tally ∧
    Logs routeCountFn ((0, 0), log) (controllersOf P new) tally ∧
    Seen (insert d.typeId tally.2.visited) stack done'

/-- What the loop over the imports does when the walk gets from `done` to `done'`. -/
def LogFollowsImports (P : Program W) (routeCountFn : ControllerDef W → Nat)
    (stack done : List ModuleDef) (start : Tally W) (done' : List ModuleDef)
    (run : Except Fault (Tally W)) : Prop :=
  ∃ new tally, done' = done ++ new ∧ run = .ok tally ∧
    Logs routeCountFn start (controllersOf P new) tally ∧ Seen tally.2.visited stack done'

/-- One import: it is logged when the walk enters it, and skipped when the walk does. -/
theorem logImport_follows {n : Nat} {stack done done' : List ModuleDef} {d : ModuleDef}
    (hRun : ∀ log, d.typeId ∉ done.map ModuleDef.typeId → Seen log.visited (stack ++ [d]) done →
      LogFollows P routeCountFn stack done d log done'
        (logRoutesForMetadata P routeCountFn n (P.metadataFn d.typeId) log))
    (hWalk : DepthFirst.visit ModuleDef.typeId (importsOf P) n stack done d = .ok done')
    {start : Tally W} (hSeen : Seen start.2.visited stack done) :
    LogFollowsImports P routeCountFn stack done start done'
      (logImport P (logRoutesForMetadata P routeCountFn n) start d) := by
  by_cases hVisited : d.typeId ∈ start.2.visited
  · -- an open module would stop the walk, so the import is finished
    have hDone : d.typeId ∈ done.map ModuleDef.typeId := by
      by_contra hDone
      have hOpen := (hSeen.only _ hVisited).resolve_left hDone
      cases n with
      | zero => cases hWalk
      | succ n =>
        rw [DepthFirst.visit_open hDone hOpen] at hWalk
        cases hWalk
    have hSame : done' = done := by
      cases n with
      | zero => cases hWalk
      | succ n =>
        rw [DepthFirst.visit_seen hDone] at hWalk
        cases hWalk
        rfl
    exact ⟨[], start, by simp [hSame], logImport_seen hVisited, Logs.refl start, hSame ▸ hSeen⟩
  · have hNew : d.typeId ∉ done.map ModuleDef.typeId := fun h => hVisited (hSeen.finished _ h)
    obtain ⟨new, tally, hDone', hOk, hLogs, hAfter⟩ :=
      hRun (start.2.visit d.typeId) hNew (hSeen.enter d)
    have hMem : d.typeId ∈ tally.2.visited := hLogs.grows (Finset.mem_insert_self _ _)
    rw [Finset.insert_eq_of_mem hMem] at hAfter
    refine ⟨new, _, hDone', logImport_new hVisited hOk, ?_, hAfter⟩
    refine ⟨?_, ?_, hLogs.logged, (Finset.subset_insert _ _).trans hLogs.grows⟩
    · simp [hLogs.routesCounted]
    · simp [hLogs.controllersCounted]

theorem logImports_follows {n : Nat} {stack : List ModuleDef}
    (hVisit : ∀ done done' d log,
      DepthFirst.visit ModuleDef.typeId (importsOf P) n stack done d = .ok done' →
      d.typeId ∉ done.map ModuleDef.typeId → Seen log.visited (stack ++ [d]) done →
      LogFollows P routeCountFn stack done d log done'
        (logRoutesForMetadata P routeCountFn n (P.metadataFn d.typeId) log))
    (imports : List ModuleDef) :
    ∀ done done' start,
      imports.foldlM (DepthFirst.visit ModuleDef.typeId (importsOf P) n stack) done = .ok done' →
      Seen start.2.visited stack done →
      LogFollowsImports P routeCountFn stack done start done'
        (imports.foldlM (logImport P (logRoutesForMetadata P routeCountFn n)) start) := by
  induction imports with
  | nil =>
    intro done done' start hWalk hSeen
    cases hWalk
    exact ⟨[], start, by simp, rfl, Logs.refl start, hSeen⟩
  | cons d imports ih =>
    intro done done' start hWalk hSeen
    obtain ⟨middle, hFirst, hRest⟩ := foldlM_ok_cons hWalk
    obtain ⟨new, tally, hMiddle, hOk, hLogs, hSeen'⟩ :=
      logImport_follows (fun log => hVisit done middle d log hFirst) hFirst hSeen
    obtain ⟨new', tally', hDone', hOk', hLogs', hSeen''⟩ := ih middle done' tally hRest hSeen'
    refine ⟨new ++ new', tally', by rw [hDone', hMiddle, List.append_assoc], ?_, ?_, hSeen''⟩
    · rw [List.foldlM_cons, hOk]
      exact hOk'
    · rw [controllersOf_append]
      exact hLogs.trans hLogs'

/-- When the walk finishes the module `d`, the log calls the controllers of all modules
that the walk finishes with it, in the order of the walk. -/
theorem logRoutes_follows (routeCountFn : ControllerDef W → Nat) (n : Nat) :
    ∀ stack done done' d log,
      DepthFirst.visit ModuleDef.typeId (importsOf P) n stack done d = .ok done' →
      d.typeId ∉ done.map ModuleDef.typeId → Seen log.visited (stack ++ [d]) done →
      LogFollows P routeCountFn stack done d log done'
        (logRoutesForMetadata P routeCountFn n (P.metadataFn d.typeId) log) := by
  induction n with
  | zero =>
    intro stack done done' d log hWalk _ _
    cases hWalk
  | succ n ih =>
    intro stack done done' d log hWalk hNew hSeen
    have hClosed : d.typeId ∉ stack.map ModuleDef.typeId := by
      intro hOpen
      rw [DepthFirst.visit_open hNew hOpen] at hWalk
      cases hWalk
    rw [DepthFirst.visit_fresh hNew hClosed] at hWalk
    obtain ⟨middle, hImports, rfl⟩ := map_ok hWalk
    obtain ⟨new, tally, hMiddle, hOk, hLogs, hSeen'⟩ :=
      logImports_follows (ih (stack ++ [d])) _ done middle ((0, 0), log) hImports hSeen
    have hOwn : Logs routeCountFn tally (controllersOf P [d])
        ((P.metadataFn d.typeId).controllers.foldl (logController routeCountFn) tally) := by
      simpa [controllersOf] using Logs.loop (P.metadataFn d.typeId).controllers tally
    refine ⟨new ++ [d], (P.metadataFn d.typeId).controllers.foldl (logController routeCountFn) tally,
      by rw [hMiddle, List.append_assoc], ?_, ?_, ?_⟩
    · show (_ >>= _) = _
      rw [show (P.metadataFn d.typeId).imports = importsOf P d from rfl, hOk]
      rfl
    · rw [controllersOf_append]
      exact hLogs.trans hOwn
    · rw [visited_loop]
      exact hSeen'.leave

end Follows

/-! ## Logging a module -/

/-- Logging always returns, on import cycles too: every nested call marks one more module. -/
theorem logRoutes_total {P : Program W} (routeCountFn : ControllerDef W → Nat) (n : Nat) :
    ∀ (metadata : ModuleMetadata W) (log : RouteLog W),
      (∀ d ∈ metadata.imports, d.typeId ∈ P.modules) → log.visited ⊆ P.modules →
      P.modules.card < n + log.visited.card →
      ∃ tally, logRoutesForMetadata P routeCountFn n metadata log = .ok tally ∧
        log.visited ⊆ tally.2.visited ∧ tally.2.visited ⊆ P.modules := by
  induction n with
  | zero =>
    intro metadata log _ hVisited hFuel
    have := Finset.card_le_card hVisited
    omega
  | succ n ih =>
    intro metadata log hImports hVisited hFuel
    have hStep : ∀ d ∈ metadata.imports, ∀ start : Tally W,
        log.visited ⊆ start.2.visited ∧ start.2.visited ⊆ P.modules →
        ∃ tally, logImport P (logRoutesForMetadata P routeCountFn n) start d = .ok tally ∧
          log.visited ⊆ tally.2.visited ∧ tally.2.visited ⊆ P.modules := by
      rintro d hd start ⟨hGrows, hModules⟩
      by_cases hSeen : d.typeId ∈ start.2.visited
      · exact ⟨start, logImport_seen hSeen, hGrows, hModules⟩
      · have hCard := Finset.card_le_card hGrows
        have hInsert := Finset.card_insert_of_notMem hSeen
        obtain ⟨tally, hOk, hGrows', hModules'⟩ := ih (P.metadataFn d.typeId)
          (start.2.visit d.typeId) (P.closed _ (hImports d hd))
          (Finset.insert_subset (hImports d hd) hModules) (by
            show _ < n + (insert d.typeId start.2.visited).card
            omega)
        refine ⟨_, logImport_new hSeen hOk, ?_, hModules'⟩
        exact hGrows.trans ((Finset.subset_insert _ _).trans hGrows')
    obtain ⟨tally, hOk, hGrows, hModules⟩ := foldlM_ok_of
      (fun tally : Tally W => log.visited ⊆ tally.2.visited ∧ tally.2.visited ⊆ P.modules)
      metadata.imports (b := ((0, 0), log)) ⟨Finset.Subset.refl _, hVisited⟩ hStep
    refine ⟨metadata.controllers.foldl (logController routeCountFn) tally, ?_, ?_⟩
    · rw [logRoutesForMetadata, hOk]
      rfl
    · rw [visited_loop]
      exact ⟨hGrows, hModules⟩

theorem logModuleRoutes_total (P : Program W) (routeCountFn : ControllerDef W → Nat)
    (root : ModuleDef) (hRoot : root.typeId ∈ P.modules) :
    ∃ result, logModuleRoutes P routeCountFn root = .ok result := by
  obtain ⟨tally, hOk, -⟩ := logRoutes_total routeCountFn (P.modules.card + 1)
    (P.metadataFn root.typeId) RouteLog.empty (P.closed _ hRoot) (Finset.empty_subset _) (by omega)
  exact ⟨_, by rw [logModuleRoutes, hOk]; rfl⟩

/-- Where the walk from the root succeeds, the log calls the controllers of the finished
modules in their order. -/
theorem logRoutes_of_walk {P : Program W} (routeCountFn : ControllerDef W → Nat) {root : ModuleDef}
    {done : List ModuleDef} {n : Nat}
    (hWalk : DepthFirst.visit ModuleDef.typeId (importsOf P) n [] [] root = .ok done) :
    ∃ log, logRoutesForMetadata P routeCountFn n (P.metadataFn root.typeId) RouteLog.empty =
        .ok ((((controllersOf P done).map routeCountFn).sum, (controllersOf P done).length), log) ∧
      log.logged = controllersOf P done := by
  have hSeen : Seen (RouteLog.empty : RouteLog W).visited ([] ++ [root]) [] :=
    ⟨by simp, by simp [RouteLog.empty]⟩
  obtain ⟨new, tally, hDone, hOk, hLogs, -⟩ :=
    logRoutes_follows routeCountFn n [] [] done root RouteLog.empty hWalk (by simp) hSeen
  obtain rfl : done = new := by simpa using hDone
  have hCounts : tally.1 =
      (((controllersOf P done).map routeCountFn).sum, (controllersOf P done).length) := by
    apply Prod.ext
    · simpa using hLogs.routesCounted
    · simpa using hLogs.controllersCounted
  refine ⟨tally.2, ?_, by simpa [RouteLog.empty] using hLogs.logged⟩
  rw [hOk, ← hCounts]

/-! ## The controllers mounted from the graph -/

/-- What is mounted from a graph, module by module. -/
theorem registered_of_graph {P : Program W} {root : ModuleDef} {graph : ModuleGraph W}
    (h : discoverFrom P root = .ok graph) :
    registerModuleControllers P root =
      (graph.nodes.map ModuleNode.typeId).flatMap fun t => (P.metadataFn t).controllers := by
  have hExact := discovered_of_ok h
  rw [registerModuleControllers, h, List.flatMap_map]
  apply List.flatMap_congr
  intro node hNode
  rw [hExact.metadata node hNode]

/-- The graph lists the modules as the walk finishes them, so it mounts their controllers
in that order. -/
theorem registered_of_walk {P : Program W} {root : ModuleDef} {graph : ModuleGraph W}
    (h : discoverFrom P root = .ok graph) : ∃ done,
      DepthFirst.visit ModuleDef.typeId (importsOf P) (P.modules.card + 1) [] [] root = .ok done ∧
      registerModuleControllers P root = controllersOf P done := by
  obtain ⟨done, hWalk, hTypes⟩ := discovered_order h
  refine ⟨done, hWalk, ?_⟩
  rw [registered_of_graph h, hTypes, List.flatMap_map]
  rfl

/-- Controllers that list what they mount list as many routes as they mount. -/
theorem routes_counted {routes : ControllerDef W → List RouteDef}
    {registerRoutes : ControllerDef W → List MountedRoute} {controllers : List (ControllerDef W)}
    (h : ListMounted routes registerRoutes controllers) :
    (controllers.map fun controller => (routes controller).length).sum =
      (controllers.flatMap registerRoutes).length := by
  rw [List.length_flatMap]
  congr 1
  apply List.map_congr_left
  intro controller hMem
  rw [← h controller hMem, List.length_map]

/-- For an acyclic root whose controllers have valid routes, the log calls exactly the
controllers mounted from the discovered graph, those of each reachable module once, in the
same order, and reports their number and that of the routes they list: the mounted ones, where
the controllers list what they mount. -/
theorem route_log_agrees (P : Program W) (routes : ControllerDef W → List RouteDef)
    (registerRoutes : ControllerDef W → List MountedRoute) (root : ModuleDef)
    (hRoot : root.typeId ∈ P.modules) (hAcyclic : ¬ CycleReachable P root.typeId)
    (hRoutes : ∀ t, Reaches P root.typeId t → RoutesValid P t) :
    ∃ graph log count, discoverFrom P root = .ok graph ∧ Discovered P root.typeId graph ∧
      registerModuleControllers P root =
        (graph.nodes.map ModuleNode.typeId).flatMap (fun t => (P.metadataFn t).controllers) ∧
      log.logged = registerModuleControllers P root ∧
      logRoutesForMetadata P (fun c => (routes c).length) (P.modules.card + 1)
        (P.metadataFn root.typeId) RouteLog.empty =
          .ok ((count, (registerModuleControllers P root).length), log) ∧
      logModuleRoutes P (fun c => (routes c).length) root = .ok (registerModuleControllers P root,
        routesMessage count (registerModuleControllers P root).length) ∧
      count = ((registerModuleControllers P root).map fun c => (routes c).length).sum ∧
      (ListMounted routes registerRoutes (registerModuleControllers P root) →
        count = (mountedRoutes P registerRoutes root).length) := by
  obtain ⟨graph, hGraph, hExact, -⟩ : ∃ graph, discoverFrom P root = .ok graph ∧
      Discovered P root.typeId graph ∧ ¬ CycleReachable P root.typeId := by
    rcases discoverFrom_cases hRoot with hOk | ⟨path, -, hCycle⟩ |
      ⟨f, -, t, hReach, controller, hMem, e, hRoute, -⟩
    · exact hOk
    · exact absurd hCycle hAcyclic
    · rw [hRoutes t hReach controller hMem] at hRoute
      cases hRoute
  obtain ⟨done, hWalk, hRegistered⟩ := registered_of_walk hGraph
  obtain ⟨log, hLog, hLogged⟩ := logRoutes_of_walk (fun c => (routes c).length) hWalk
  rw [← hRegistered] at hLog hLogged
  refine ⟨graph, log, _, hGraph, hExact, registered_of_graph hGraph, hLogged, hLog, ?_, rfl,
    routes_counted⟩
  rw [logModuleRoutes, hLog, ← hLogged]
  rfl

/-! ## Sample programs -/

/-- Imports that only lead to later types have no cycle. -/
theorem acyclic_of_lt {P : Program W} {root : TypeId} (h : ∀ t u, Imports P t u → t < u) :
    ¬ CycleReachable P root := by
  rintro ⟨t, -, hCycle⟩
  have hLt : TransGen (· < ·) t t := TransGen.mono h _ _ hCycle
  rw [transGen_eq_self] at hLt
  exact Nat.lt_irrefl t hLt

def sampleController (typeId : TypeId) (typeName : String)
    (validateRoutes : Except HttpException Unit) : ControllerDef Unit where
  provider := ProviderDef.of typeId typeName [] (fun _ w => (.ok 0, w)) noopLifecycle noopLifecycle
    noopLifecycle
  validateRoutes := validateRoutes

/-- The diamond of modules `10` to `13` with a repeated import, a controller in each of them
and two in the shared one. -/
def shop : Program Unit where
  metadataFn t :=
    match t with
    | 10 => { ModuleMetadata.new with
        imports := [⟨11, "Orders"⟩, ⟨12, "Carts"⟩, ⟨11, "Orders"⟩]
        controllers := [sampleController 20 "AppController" (.ok ())] }
    | 11 => { ModuleMetadata.new with
        imports := [⟨13, "Products"⟩]
        controllers := [sampleController 21 "OrdersController" (.ok ())] }
    | 12 => { ModuleMetadata.new with
        imports := [⟨13, "Products"⟩]
        controllers := [sampleController 22 "CartsController" (.ok ())] }
    | 13 => { ModuleMetadata.new with
        controllers := [sampleController 23 "ProductsController" (.ok ()),
          sampleController 24 "PricesController" (.ok ())] }
    | _ => ModuleMetadata.new
  modules := {10, 11, 12, 13}
  closed := by decide

theorem shop_routesValid (t : TypeId) : RoutesValid shop t := by
  intro controller h
  unfold shop sampleController at h
  dsimp only at h
  split at h <;> simp only [ModuleMetadata.new, List.mem_cons, List.not_mem_nil, or_false] at h
  · rw [h]
  · rw [h]
  · rw [h]
  · rcases h with rfl | rfl
    · rfl
    · rfl

theorem shop_imports_lt (t u : TypeId) (h : Imports shop t u) : t < u := by
  obtain ⟨d, hd, rfl⟩ := h
  unfold shop at hd
  dsimp only at hd
  split at hd <;> simp only [ModuleMetadata.new, List.mem_cons, List.not_mem_nil, or_false] at hd
  · rcases hd with rfl | rfl | rfl <;> decide
  · rw [hd]
    decide
  · rw [hd]
    decide

/-- Each controller of the shop lists and mounts the two routes of its type. -/
def shopRoutes (controller : ControllerDef Unit) : List RouteDef :=
  let path := "/" ++ controller.provider.typeName
  [⟨"get", path, "all"⟩, ⟨"post", path, "create"⟩]

def shopMounts (controller : ControllerDef Unit) : List MountedRoute :=
  let path := "/" ++ controller.provider.typeName
  [⟨"get", path⟩, ⟨"post", path⟩]

theorem route_log_agrees_shop :
    logModuleRoutes shop (fun c => (shopRoutes c).length) ⟨10, "App"⟩ =
      .ok (registerModuleControllers shop ⟨10, "App"⟩,
        routesMessage (mountedRoutes shop shopMounts ⟨10, "App"⟩).length
          (registerModuleControllers shop ⟨10, "App"⟩).length) := by
  have hAcyclic : ¬ CycleReachable shop 10 := acyclic_of_lt shop_imports_lt
  obtain ⟨graph, log, count, -, -, -, -, -, hMessage, -, hCount⟩ := route_log_agrees shop
    shopRoutes shopMounts ⟨10, "App"⟩ (by decide) hAcyclic fun t _ => shop_routesValid t
  rw [hMessage, hCount fun _ _ => rfl]

example : (registerModuleControllers shop ⟨10, "App"⟩).map (fun c => c.provider.typeName) =
    ["ProductsController", "PricesController", "OrdersController", "CartsController",
      "AppController"] := by decide

/-- One module with one controller. -/
def single (controller : ControllerDef Unit) : Program Unit where
  metadataFn t :=
    if t = 10 then { ModuleMetadata.new with controllers := [controller] } else ModuleMetadata.new
  modules := {10}
  closed := by
    intro t ht d hd
    split at hd <;> cases hd

theorem single_acyclic (controller : ControllerDef Unit) :
    ¬ CycleReachable (single controller) 10 := by
  have hNoImports : ∀ t u, ¬ Imports (single controller) t u := by
    rintro t u ⟨d, hd, -⟩
    unfold single at hd
    dsimp only at hd
    split at hd <;> cases hd
  exact acyclic_of_lt fun t u h => absurd h (hNoImports t u)

/-- A route with a throttle window beyond the clock range. -/
def overlongWindow : ControllerDef Unit :=
  sampleController 20 "AppController" (.error (startupError "throttle window exceeds the clock range"))

/-- A controller written by hand, which keeps the default of `routes`. -/
def usersController : ControllerDef Unit := sampleController 20 "UsersController" (.ok ())

/-- Without imports there is no cycle. Where the routes are not valid, discovery fails: nothing
is mounted, while the log calls the controller and counts it. A controller that keeps the
default of `routes` mounts two routes, of which the log counts none. -/
theorem route_log_disagrees :
    (¬ CycleReachable (single overlongWindow) 10 ∧
      registerModuleControllers (single overlongWindow) ⟨10, "App"⟩ = [] ∧
      ∃ log, logRoutesForMetadata (single overlongWindow) (fun _ => 1) 2
          ((single overlongWindow).metadataFn 10) RouteLog.empty = .ok ((1, 1), log) ∧
        log.logged ≠ registerModuleControllers (single overlongWindow) ⟨10, "App"⟩) ∧
    ¬ CycleReachable (single usersController) 10 ∧
      (mountedRoutes (single usersController)
        (fun _ => [⟨"post", "/users"⟩, ⟨"get", "/users/backend"⟩]) ⟨10, "App"⟩).length = 2 ∧
      ∃ log, logRoutesForMetadata (single usersController) (fun _ => 0) 2
        ((single usersController).metadataFn 10) RouteLog.empty = .ok ((0, 1), log) := by
  have hNone : registerModuleControllers (single overlongWindow) ⟨10, "App"⟩ = [] := rfl
  refine ⟨⟨single_acyclic _, hNone, _, rfl, ?_⟩, single_acyclic _, rfl, _, rfl⟩
  rw [hNone]
  exact List.cons_ne_nil _ _

end Caelix
