import Caelix.Core.Marks
import Caelix.Core.Module
import Caelix.Core.Subject

/-!
# The preflight check

`ModuleGraph::preflight` pass by pass: the index of declared types, exports, provider
dependencies, event handlers, message subjects, and the depth-first schedule of the
providers. Without a container it validates the metadata only; with one, pending and
applied overrides and registered services are taken into account.

Hash maps and sets appear as functions and lists. The code reads the keys of the two
subject maps in an unspecified order; the model reads them in insertion order, which
changes at most which of several overlaps is reported. In a discovered graph every
index of a module is in range, so the sets of exports are a function of the index.
-/

namespace Caelix

variable {W : Type}

/-- The definition that `preflight` reads dependencies from. -/
def effectiveDef (container : Option (RootContainer W)) (declared : ProviderDef W) : ProviderDef W :=
  (container.bind fun c => c.pendingOverride declared.typeId).getD declared

/-- A repeated declaration of the type is accepted: an override provides it. -/
def overriddenIn (container : Option (RootContainer W)) (typeId : TypeId) : Bool :=
  container.any fun c => c.hasPendingOverride typeId || c.wasOverridden typeId

def EventHandlerDef.assertRegisteredOrDeclared (handler : EventHandlerDef W)
    (declared : List TypeId) : Except Fault Unit :=
  if handler.typeId ∈ declared then .ok ()
  else .error (.startup ("missing event handler provider at startup: " ++ handler.typeName ++
    " was declared by module metadata but was not registered as a provider"))

/-- `command_patterns` and `event_patterns`: subject and declaring module, as inserted. -/
structure Subjects where
  commands : List (String × Nat)
  events : List (String × Nat)

/-- `states`, `stack` and `sorted` of the provider scheduler. -/
structure Schedule (W : Type) where
  states : TypeId → Option VisitState
  stack : List String
  sorted : List (ProviderRegistration W)

/-- `by_type`. -/
abbrev TypeIndex (W : Type) := TypeId → Option (ProviderRegistration W)

def dependencyCycle (path : List String) : Fault :=
  .startup ("provider dependency cycle: " ++ " -> ".intercalate path)

namespace ModuleGraph

variable (graph : ModuleGraph W) (container : Option (RootContainer W))

/-! ## Declared types -/

def indexType (byType : TypeIndex W) (r : ProviderRegistration W) : Except Fault (TypeIndex W) :=
  match byType r.typeId with
  | some existing =>
    if overriddenIn container r.typeId then .ok (Function.update byType r.typeId (some r))
    else .error (.startup ("duplicate provider registration for " ++ r.definition.typeName ++
      " in " ++ graph.moduleName existing.module ++ " and " ++ graph.moduleName r.module))
  | none => .ok (Function.update byType r.typeId (some r))

def indexTypes : Except Fault (TypeIndex W) :=
  graph.definitions.foldlM (graph.indexType container) fun _ => none

/-! ## Exports and visibility -/

/-- The exports of module `index` with one more export of `node`. -/
def addExport (index : Nat) (node : ModuleNode W) (exports : Nat → List TypeId)
    (exported : ProviderDependency) : Except Fault (Nat → List TypeId) :=
  if exported.typeId ∈ graph.localTypes index ∨
      ∃ child ∈ node.imports, exported.typeId ∈ exports child then
    .ok (Function.update exports index (exports index ++ [exported.typeId]))
  else
    .error (.startup ("module " ++ node.typeName ++ " cannot export " ++ exported.typeName ++
      ": it is neither declared locally nor exported by a direct import"))

def collectExports : Except Fault (Nat → List TypeId) :=
  graph.nodes.zipIdx.foldlM
    (fun exports p => p.1.metadata.exports.foldlM (graph.addExport p.2 p.1) exports) fun _ => []

def globalExports (exports : Nat → List TypeId) : List TypeId :=
  (graph.nodes.zipIdx.filter fun p => p.1.metadata.global).flatMap fun p => exports p.2

def visible (exports : Nat → List TypeId) (module : Nat) (typeId : TypeId) : Bool :=
  typeId ∈ graph.localTypes module || typeId ∈ graph.globalExports exports ||
    (importsAt graph.nodes module).any fun child => typeId ∈ exports child

/-! ## Dependencies and event handlers -/

def checkDependency (byType : TypeIndex W) (exports : Nat → List TypeId) (module : Nat)
    (effective : ProviderDef W) (dependency : ProviderDependency) : Except Fault Unit :=
  if dependency.typeId = TypeId.logger then .ok ()
  else if (byType dependency.typeId).isSome then
    if graph.visible exports module dependency.typeId then .ok ()
    else .error (.startup (effective.typeName ++ " depends on " ++ dependency.typeName ++
      " but it is not visible in module " ++ graph.moduleName module ++
      "; import and export its module"))
  else if container.any fun c => c.containsTypeId dependency.typeId then .ok ()
  else .error (.startup ("missing provider at startup: " ++ effective.typeName ++ " depends on " ++
    dependency.typeName ++ " but no provider is registered"))

def checkDependencies (byType : TypeIndex W) (exports : Nat → List TypeId) : Except Fault Unit :=
  graph.definitions.forM fun r =>
    let effective := effectiveDef container r.definition
    effective.dependencies.forM (graph.checkDependency container byType exports r.module effective)

/-- The event handlers with the index of their module, in order. -/
def eventHandlers : List (Nat × EventHandlerDef W) :=
  graph.nodes.zipIdx.flatMap fun p => p.1.metadata.eventHandlers.map fun handler => (p.2, handler)

def checkEventHandlers (exports : Nat → List TypeId) : Except Fault Unit :=
  graph.eventHandlers.forM fun p => do
    p.2.assertRegisteredOrDeclared (graph.localTypes p.1)
    if graph.visible exports p.1 TypeId.eventBus then .ok ()
    else .error (.startup ("no provider registered for EventBus in module " ++
      graph.moduleName p.1 ++ "; import EventModule"))

/-! ## Message subjects -/

/-- The message handlers with the index of their module, in order. -/
def messageHandlers : List (Nat × MessageHandlerDef) :=
  graph.nodes.zipIdx.flatMap fun p =>
    p.1.metadata.microservices.flatMap fun microservice =>
      microservice.handlers.map fun handler => (p.2, handler)

def addSubject (subjects : Subjects) (p : Nat × MessageHandlerDef) : Except Fault Subjects :=
  let handler := p.2
  let command := handler.kind == .command
  if validMicroservicePattern handler.pattern command then
    let others := if command then subjects.events else subjects.commands
    let own := if command then subjects.commands else subjects.events
    match others.lookup handler.pattern with
    | some other => .error (.startup ("command and event handlers cannot share subject `" ++
        handler.pattern ++ "` in " ++ graph.moduleName other ++ " and " ++ graph.moduleName p.1))
    | none =>
      match own.lookup handler.pattern with
      | some existing => .error (.startup ("duplicate " ++ handler.kind.debug ++
          " handler subject `" ++ handler.pattern ++ "` in " ++ graph.moduleName existing ++
          " and " ++ graph.moduleName p.1))
      | none =>
        if command then
          .ok { subjects with commands := subjects.commands ++ [(handler.pattern, p.1)] }
        else .ok { subjects with events := subjects.events ++ [(handler.pattern, p.1)] }
  else
    .error (.startup ("invalid microservice subject `" ++ handler.pattern ++ "` in module " ++
      graph.moduleName p.1))

def collectSubjects : Except Fault Subjects :=
  graph.messageHandlers.foldlM graph.addSubject ⟨[], []⟩

/-- The loops over pairs of event subjects. -/
def checkEventOverlaps : List String → Except Fault Unit
  | [] => .ok ()
  | first :: later => do
    later.forM fun second =>
      if microservicePatternsIntersect first second then
        .error (.startup ("event subjects `" ++ first ++ "` and `" ++ second ++
          "` overlap; each event delivery must have one owner"))
      else .ok ()
    checkEventOverlaps later

def checkSubjects (subjects : Subjects) : Except Fault Unit := do
  subjects.commands.forM fun command => subjects.events.forM fun event =>
    if microservicePatternsIntersect command.1 event.1 then
      .error (.startup ("command subject `" ++ command.1 ++ "` overlaps event subject `" ++
        event.1 ++ "`; command and event transports must be disjoint"))
    else .ok ()
  checkEventOverlaps (subjects.events.map Prod.fst)

/-! ## The schedule -/

/-- Providers in construction order, one registration at a time. -/
def schedule (byType : TypeIndex W) :
    Nat → Schedule W → ProviderRegistration W → Except Fault (Schedule W)
  | 0, _, _ => .error .outOfFuel
  | fuel + 1, s, r =>
    match s.states r.typeId with
    | some .visited => .ok s
    | some .visiting => .error (dependencyCycle (s.stack ++ [r.definition.typeName]))
    | none => do
      let effective := effectiveDef container r.definition
      let opened : Schedule W :=
        { s with
          states := Function.update s.states r.typeId (some .visiting)
          stack := s.stack ++ [r.definition.typeName] }
      let closed ← effective.dependencies.foldlM (fun s dependency =>
        match byType dependency.typeId with
        | some next => schedule byType fuel s next
        | none => .ok s) opened
      .ok { states := Function.update closed.states r.typeId (some .visited)
            stack := closed.stack.dropLast
            sorted := closed.sorted ++ [r] }

def scheduleAll (byType : TypeIndex W) : Except Fault (List (ProviderRegistration W)) :=
  (graph.definitions.foldlM (schedule container byType (graph.definitions.length + 1))
    ⟨fun _ => none, [], []⟩).map Schedule.sorted

def preflight : Except Fault (List (ProviderRegistration W)) := do
  let byType ← graph.indexTypes container
  let exports ← graph.collectExports
  graph.checkDependencies container byType exports
  graph.checkEventHandlers exports
  let subjects ← graph.collectSubjects
  checkSubjects subjects
  graph.scheduleAll container byType

end ModuleGraph

end Caelix
