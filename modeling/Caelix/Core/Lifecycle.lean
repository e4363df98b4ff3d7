import Caelix.Core.Discover
import Caelix.Core.Events
import Caelix.Core.Preflight
import Caelix.Lib.Steps

/-!
# The module lifecycle

Registration, bootstrap, shutdown and rollback of a module graph on one container, and
the start-ups built from them, as functions on the state of a run. The two lists behind
locks (`initialized_providers`, `bootstrapped_providers`) are shared by all clones of a
container and belong to the run; so do the event buses. The run keeps a trace of every
step that may fail, with its outcome.

User code runs inside `build`, the lifecycle hooks and `register_into`, and acts on the
world only; it does not call the lifecycle functions itself.
-/

namespace Caelix

open Steps

variable {W : Type}

inductive Hook where
  | onModuleInit
  | onBootstrap
  | onShutdown
  deriving DecidableEq, Repr

def Hook.name : Hook → String
  | .onModuleInit => "on_module_init"
  | .onBootstrap => "on_bootstrap"
  | .onShutdown => "on_shutdown"

/-- The steps that a run records. -/
inductive Action (W : Type) where
  | discover
  | preflight
  | validate
  | create (provider : ProviderDef W) (overridden : Bool) (scopedContainer : Container)
  | moduleInit (provider : ProviderDef W) (overridden : Bool) (value : ProviderValue)
  | registerHandler (handler : EventHandlerDef W)
  | bootstrap (provider : ProviderDef W) (value : ProviderValue)
  | shutdown (provider : ProviderDef W) (value : ProviderValue)
  | missing (hook : Hook) (provider : ProviderDef W)

/-- A recorded step; `fault` is `none` when it succeeded. -/
structure Event (W : Type) where
  action : Action W
  fault : Option Fault

structure Run (W : Type) where
  container : RootContainer W
  initializedProviders : List TypeId
  bootstrappedProviders : Finset TypeId
  /-- The event buses by the identity of their instance. -/
  buses : Nat → EventBus
  world : W
  trace : List (Event W)

/-- The outcome of a fallible framework call together with the run after it. -/
abbrev Outcome (W : Type) := Except Fault Unit × Run W

namespace Run

/-- A run on a container nothing has been done with yet. -/
def fresh (container : RootContainer W) (world : W) : Run W where
  container := container
  initializedProviders := []
  bootstrappedProviders := ∅
  buses := fun _ => EventBus.new
  world := world
  trace := []

def log (r : Run W) (action : Action W) (fault : Option Fault) : Run W :=
  { r with trace := r.trace ++ [⟨action, fault⟩] }

/-- Record a step that only reads the run, and end with its outcome. -/
def check (r : Run W) (action : Action W) {α : Type} (result : Except Fault α) : Except Fault α × Run W :=
  match result with
  | .ok a => (.ok a, r.log action none)
  | .error f => (.error f, r.log action (some f))

/-- Record the outcome of user code run as `action`. -/
def finish (r : Run W) (action : Action W) (result : Except HttpException Unit × W) : Outcome W :=
  match result with
  | (.ok (), w) => (.ok (), { r with world := w }.log action none)
  | (.error e, w) => (.error (.exception e), { r with world := w }.log action (some (.exception e)))

end Run

/-! ## Hooks, shutdown and rollback -/

/-- `run_lifecycle`. -/
def runLifecycle (d : ProviderDef W) (value : ProviderValue) (hook : Hook)
    (callback : LifecycleFn W) (w : W) : Except HttpException Unit × W :=
  match callback value w with
  | (.ok (), w) => (.ok (), w)
  | (.error e, w) => (.error (startupError (hook.name ++ " failed for " ++ d.typeName ++ ": " ++
      e.error ++ ": " ++ e.message)), w)

/-- `Container::register`: create the provider on this container, run its init hook and store it. -/
def RootContainer.register (c : RootContainer W) (d : ProviderDef W) (w : W) :
    Except HttpException Unit × W × RootContainer W :=
  match d.build c.toContainer w with
  | (.error e, w) => (.error e, w, c)
  | (.ok value, w) =>
    match runLifecycle d value .onModuleInit d.initFn w with
    | (.error e, w) => (.error e, w, c)
    | (.ok (), w) => (.ok (), w, c.update fun c => c.registerErased d.typeId value)

/-- `run_lifecycle_from_container`; `action` records the hook run on the resolved value. -/
def runLifecycleFromContainer (d : ProviderDef W) (hook : Hook) (callback : LifecycleFn W)
    (action : ProviderValue → Action W) (r : Run W) : Outcome W :=
  match r.container.resolveErased d.typeId with
  | none => r.check (.missing hook d) (.error (.startup ("missing provider during " ++ hook.name ++
      ": " ++ d.typeName ++ " was declared by module metadata but was not registered")))
  | some value => r.finish (action value) (runLifecycle d value hook callback r.world)

/-- `on_shutdown` of one provider. -/
def runShutdown (d : ProviderDef W) (r : Run W) : Outcome W :=
  runLifecycleFromContainer d .onShutdown d.shutdownFn (.shutdown d) r

/-- One round of the shutdown loop; `first` is the first shutdown error so far. -/
def shutdownStep (graph : ModuleGraph W) (s : Option Fault × Run W) (t : TypeId) :
    Option Fault × Run W :=
  match graph.defByType t with
  | none => s
  | some d =>
    match runShutdown d s.2 with
    | (.ok (), r) => (s.1, r)
    | (.error f, r) => (s.1.or (some f), r)

/-- The loop of `rollback_graph` and `shutdown_module` over the providers taken from the
container, last initialised first. -/
def shutdownProviders (graph : ModuleGraph W) (r : Run W) : Option Fault × Run W :=
  r.initializedProviders.reverse.foldl (shutdownStep graph) (none, { r with initializedProviders := [] })

/-- `rollback_graph`, which drops the shutdown errors. -/
def rollbackGraph (graph : ModuleGraph W) (r : Run W) : Run W := (shutdownProviders graph r).2

/-- Roll back when a step has failed. -/
def orRollback (graph : ModuleGraph W) (x : Outcome W) : Outcome W :=
  match x with
  | (.ok (), r) => (.ok (), r)
  | (.error f, r) => (.error f, rollbackGraph graph r)

/-! ## Registration -/

/-- Build a provider, store it, run its init hook and record it as initialised. -/
def constructProvider (declared : ProviderDef W) (r : Run W) : Outcome W :=
  let (overrideDef, container) := r.container.claim declared.typeId
  let effective := overrideDef.getD declared
  let scopedContainer := container.scopedForProvider effective.typeName effective.dependencies
  let create := Action.create effective overrideDef.isSome scopedContainer
  match effective.build scopedContainer r.world with
  | (.error e, w) =>
    (.error (.exception e), { r with container, world := w }.log create (some (.exception e)))
  | (.ok value, w) =>
    let container := container.update fun c => c.registerErased effective.typeId value
    andThen (({ r with container, world := w }.log create none).finish
        (.moduleInit effective overrideDef.isSome value)
        (runLifecycle effective value .onModuleInit effective.initFn w))
      fun r => (.ok (), { r with
        initializedProviders := if overrideDef.isNone then
          r.initializedProviders ++ [declared.typeId] else r.initializedProviders })

/-- One round of the loop of `initialize_graph` over the schedule. -/
def initializeProvider (graph : ModuleGraph W) (registration : ProviderRegistration W) (r : Run W) :
    Outcome W :=
  let declared := registration.definition
  let r := { r with container := r.container.update fun c => c.markProviderDeclared declared.typeId }
  if r.container.containsTypeId declared.typeId || r.container.wasOverridden declared.typeId then
    (.ok (), r)
  else orRollback graph (constructProvider declared r)

/-- `EventHandlerDef::register`: resolve the handler and the bus, and register the pair. -/
def EventHandlerDef.register (handler : EventHandlerDef W) (r : Run W) : Outcome W :=
  match r.container.resolve ⟨handler.typeId, handler.typeName⟩ with
  | .error e => r.check (.registerHandler handler) (.error (.exception e))
  | .ok value =>
    match r.container.resolve ⟨TypeId.eventBus, "caelix_core::events::EventBus"⟩ with
    | .error e => r.check (.registerHandler handler) (.error (.exception e))
    | .ok bus =>
      andThen (r.finish (.registerHandler handler) (handler.registerInto r.world)) fun r =>
        (.ok (), { r with
          buses := Function.update r.buses bus.inst
            ((r.buses bus.inst).register handler.eventType value) })

def registerHandler (graph : ModuleGraph W) (p : Nat × EventHandlerDef W) (r : Run W) : Outcome W :=
  orRollback graph (p.2.register r)

def initializeGraph (graph : ModuleGraph W) (r : Run W) : Outcome W :=
  match r.check .preflight (graph.preflight (some r.container)) with
  | (.error f, r) => (.error f, r)
  | (.ok order, r) =>
    andThen (runAll (initializeProvider graph) order r) (runAll (registerHandler graph) graph.eventHandlers)

/-- `register_module`. -/
def registerModule (P : Program W) (root : ModuleDef) (r : Run W) : Outcome W :=
  match r.check .discover (discoverFrom P root) with
  | (.error f, r) => (.error f, r)
  | (.ok graph, r) => initializeGraph graph r

/-! ## Bootstrap and shutdown -/

/-- One round of the loop of `bootstrap_graph`: the providers of this container that are
initialised, not overridden and not bootstrapped before. -/
def bootstrapProvider (graph : ModuleGraph W) (initialized : List TypeId)
    (registration : ProviderRegistration W) (r : Run W) : Outcome W :=
  let d := registration.definition
  if d.typeId ∈ initialized ∧ r.container.wasOverridden d.typeId = false ∧
      d.typeId ∉ r.bootstrappedProviders then
    orRollback graph (runLifecycleFromContainer d .onBootstrap d.bootstrapFn (.bootstrap d)
      { r with bootstrappedProviders := insert d.typeId r.bootstrappedProviders })
  else (.ok (), r)

def bootstrapGraph (graph : ModuleGraph W) (r : Run W) : Outcome W :=
  match r.check .preflight (graph.preflight (some r.container)) with
  | (.error f, r) => (.error f, r)
  | (.ok order, r) => runAll (bootstrapProvider graph r.initializedProviders) order r

/-- `bootstrap_module`. -/
def bootstrapModule (P : Program W) (root : ModuleDef) (r : Run W) : Outcome W :=
  match r.check .discover (discoverFrom P root) with
  | (.error f, r) => (.error f, r)
  | (.ok graph, r) => bootstrapGraph graph r

/-- `shutdown_module`. -/
def shutdownModule (P : Program W) (root : ModuleDef) (r : Run W) : Outcome W :=
  match r.check .discover (discoverFrom P root) with
  | (.error f, r) => (.error f, r)
  | (.ok graph, r) =>
    match shutdownProviders graph r with
    | (none, r) => (.ok (), r)
    | (some f, r) => (.error f, r)

/-! ## Start-up -/

def ProviderDef.assertRegistered (d : ProviderDef W) (c : Container) : Except Fault Unit :=
  if c.containsTypeId d.typeId then .ok ()
  else .error (.startup ("missing provider at startup: " ++ d.typeName ++
    " was declared by module metadata but was not registered"))

def validateModuleProviders (P : Program W) (root : ModuleDef) (c : RootContainer W) :
    Except Fault Unit := do
  let graph ← discoverFrom P root
  let _ ← graph.preflight (some c)
  graph.definitions.forM fun r => r.definition.assertRegistered c.toContainer

namespace ModuleGraph

/-- All gateways of the graph, in order. -/
def gateways (graph : ModuleGraph W) : List (GatewayDef W) :=
  graph.nodes.flatMap fun node => node.metadata.gateways

def checkGatewayPath (paths : List (String × Bool)) (gateway : GatewayDef W) :
    Except Fault (List (String × Bool)) :=
  if gateway.path.startsWith "/" then
    if (gateway.path, gateway.isWebsocket) ∈ paths then
      .error (.startup ("duplicate gateway path: " ++ gateway.path))
    else .ok ((gateway.path, gateway.isWebsocket) :: paths)
  else .error (.startup ("websocket gateway path must start with '/': " ++ gateway.path))

/-- `validate_gateway_paths_in_graph`. -/
def validateGatewayPaths (graph : ModuleGraph W) : Except Fault Unit := do
  let _ ← graph.gateways.foldlM checkGatewayPath []
  .ok ()

end ModuleGraph

def validateGatewayPaths (P : Program W) (root : ModuleDef) : Except Fault Unit := do
  let graph ← discoverFrom P root
  graph.validateGatewayPaths

/-- How a container is prepared before its root module is registered. -/
inductive StartUp (W : Type) where
  | setup (instances : List ProviderValue)
  | overrides (given : ProviderOverrides W)

namespace StartUp

/-- The container that a start-up begins with. -/
def container : StartUp W → RootContainer W
  | .setup instances =>
    RootContainer.new.update fun c => instances.foldl Container.registerInstance c
  | .overrides given => RootContainer.new.seedOverrides given

/-- The checks between registration and bootstrap. -/
def checks (P : Program W) (root : ModuleDef) (c : RootContainer W) : StartUp W → Except Fault Unit
  | .setup _ => do
    validateModuleProviders P root c
    validateGatewayPaths P root
  | .overrides _ => do
    c.assertNoUnusedOverrides.mapError .exception
    validateModuleProviders P root c
    validateGatewayPaths P root

/-- Register, check and bootstrap the root module. -/
def run (P : Program W) (root : ModuleDef) (start : StartUp W) (w : W) : Outcome W :=
  andThen (registerModule P root (Run.fresh start.container w)) fun r =>
    match r.check .validate (start.checks P root r.container) with
    | (.ok (), r) => bootstrapModule P root r
    | (.error f, r) =>
      -- the graph is discovered again for the rollback
      match r.check .discover (discoverFrom P root) with
      | (.error f', r) => (.error f', r)
      | (.ok graph, r) => (.error f, rollbackGraph graph r)

end StartUp

/-- `build_container_with_setup`, for a setup that registers instances. -/
def buildContainerWithSetup (P : Program W) (root : ModuleDef) (instances : List ProviderValue)
    (w : W) : Outcome W :=
  (StartUp.setup instances).run P root w

/-- `build_container_with_overrides`. -/
def buildContainerWithOverrides (P : Program W) (root : ModuleDef)
    (overrides : ProviderOverrides W) (w : W) : Outcome W :=
  (StartUp.overrides overrides).run P root w

end Caelix
