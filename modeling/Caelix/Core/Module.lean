import Caelix.Core.Provider

/-!
# Module metadata and the module graph

The declarations of `module.rs`, `events.rs` and `microservice.rs` that registration
reads, the program they belong to, and the graph that discovery produces.

The metadata of a module is computed by a function of its type (`M::register`). A
compiled program has finitely many module types, closed under imports; `Program`
carries both.
-/

namespace Caelix

/-- Whether a message handler answers commands or consumes events. -/
inductive MessageHandlerKind where
  | command
  | event
  deriving DecidableEq, Repr

/-- `{:?}` of the kind. -/
def MessageHandlerKind.debug : MessageHandlerKind → String
  | .command => "Command"
  | .event => "Event"

structure MessageHandlerDef where
  kind : MessageHandlerKind
  pattern : String
  deriving DecidableEq, Repr

structure MicroserviceDef (W : Type) where
  provider : ProviderDef W
  handlers : List MessageHandlerDef

structure ControllerDef (W : Type) where
  provider : ProviderDef W
  validateRoutes : Except HttpException Unit

structure GatewayDef (W : Type) where
  path : String
  provider : ProviderDef W
  isWebsocket : Bool

/-- `EventHandlerDef`: handler type `H`, event type `E`, and the outcome of
`H::register_into`, which registers the pair on the bus when it succeeds. -/
structure EventHandlerDef (W : Type) where
  typeId : TypeId
  typeName : String
  eventType : TypeId
  registerInto : W → Except HttpException Unit × W

structure ModuleDef where
  typeId : TypeId
  typeName : String
  deriving DecidableEq, Repr

structure ModuleMetadata (W : Type) where
  imports : List ModuleDef
  providers : List (ProviderDef W)
  controllers : List (ControllerDef W)
  eventHandlers : List (EventHandlerDef W)
  gateways : List (GatewayDef W)
  microservices : List (MicroserviceDef W)
  exports : List ProviderDependency
  global : Bool

/-- `ModuleMetadata::new`. -/
def ModuleMetadata.new {W : Type} : ModuleMetadata W where
  imports := []
  providers := []
  controllers := []
  eventHandlers := []
  gateways := []
  microservices := []
  exports := []
  global := false

/-- The module types of a compiled program and what each of them registers. -/
structure Program (W : Type) where
  metadataFn : TypeId → ModuleMetadata W
  modules : Finset TypeId
  closed : ∀ m ∈ modules, ∀ i ∈ (metadataFn m).imports, i.typeId ∈ modules

structure ModuleNode (W : Type) where
  typeId : TypeId
  typeName : String
  metadata : ModuleMetadata W
  imports : List Nat

structure ModuleGraph (W : Type) where
  nodes : List (ModuleNode W)

/-- The import indices of the node at an index. -/
def importsAt {W : Type} (nodes : List (ModuleNode W)) (index : Nat) : List Nat :=
  (nodes[index]?.map ModuleNode.imports).getD []

theorem importsAt_some {W : Type} {nodes : List (ModuleNode W)} {i : Nat} {node : ModuleNode W}
    (h : nodes[i]? = some node) : importsAt nodes i = node.imports := by
  simp [importsAt, h]

/-- Where in its module's metadata a provider is declared. -/
inductive ProviderSlot where
  | provider (index : Nat)
  | controller (index : Nat)
  | gateway (index : Nat)
  | microservice (index : Nat)
  deriving DecidableEq, Repr

/-- A declared provider: its module, its slot, and the definition found there. -/
structure ProviderRegistration (W : Type) where
  module : Nat
  slot : ProviderSlot
  definition : ProviderDef W

variable {W : Type}

def ProviderRegistration.typeId (r : ProviderRegistration W) : TypeId := r.definition.typeId

namespace ModuleMetadata

/-- The definition in a slot. -/
def slotDef (m : ModuleMetadata W) : ProviderSlot → Option (ProviderDef W)
  | .provider index => m.providers[index]?
  | .controller index => (m.controllers[index]?).map ControllerDef.provider
  | .gateway index => (m.gateways[index]?).map GatewayDef.provider
  | .microservice index => (m.microservices[index]?).map MicroserviceDef.provider

/-- The registrations of one list of declarations. -/
def registrations {α : Type} (module : Nat) (slot : Nat → ProviderSlot)
    (provider : α → ProviderDef W) (declared : List α) : List (ProviderRegistration W) :=
  declared.zipIdx.map fun p => ⟨module, slot p.2, provider p.1⟩

/-- All registrations of one module, in the order of `definitions`. -/
def definitions (m : ModuleMetadata W) (module : Nat) : List (ProviderRegistration W) :=
  registrations module .provider id m.providers ++
  registrations module .controller ControllerDef.provider m.controllers ++
  registrations module .gateway GatewayDef.provider m.gateways ++
  registrations module .microservice MicroserviceDef.provider m.microservices

theorem mem_registrations {α : Type} {module : Nat} {slot : Nat → ProviderSlot}
    {provider : α → ProviderDef W} {declared : List α} {r : ProviderRegistration W} :
    r ∈ registrations module slot provider declared ↔
      ∃ a i, declared[i]? = some a ∧ r = ⟨module, slot i, provider a⟩ := by
  simp only [registrations, List.mem_map, Prod.exists, List.mk_mem_zipIdx_iff_getElem?]
  constructor
  · rintro ⟨a, i, ha, rfl⟩
    exact ⟨a, i, ha, rfl⟩
  · rintro ⟨a, i, ha, rfl⟩
    exact ⟨a, i, ha, rfl⟩

theorem definitions_slot {m : ModuleMetadata W} {module : Nat} {r : ProviderRegistration W}
    (h : r ∈ m.definitions module) : r.module = module ∧ m.slotDef r.slot = some r.definition := by
  simp only [definitions, List.mem_append, mem_registrations] at h
  rcases h with ((⟨d, i, hd, rfl⟩ | ⟨d, i, hd, rfl⟩) | ⟨d, i, hd, rfl⟩) | ⟨d, i, hd, rfl⟩ <;>
    simp [slotDef, hd]

end ModuleMetadata

namespace ModuleGraph

def definitions (graph : ModuleGraph W) : List (ProviderRegistration W) :=
  graph.nodes.zipIdx.flatMap fun p => p.1.metadata.definitions p.2

def localTypes (graph : ModuleGraph W) (module : Nat) : List TypeId :=
  (graph.definitions.filter fun r => r.module = module).map ProviderRegistration.typeId

def defByType (graph : ModuleGraph W) (typeId : TypeId) : Option (ProviderDef W) :=
  graph.definitions.findSome? fun r => if r.typeId = typeId then some r.definition else none

/-- The name of a module by index, for messages. -/
def moduleName (graph : ModuleGraph W) (module : Nat) : String :=
  (graph.nodes[module]?.map ModuleNode.typeName).getD ""

theorem mem_definitions {graph : ModuleGraph W} {r : ProviderRegistration W} :
    r ∈ graph.definitions ↔
      ∃ node, graph.nodes[r.module]? = some node ∧ r ∈ node.metadata.definitions r.module := by
  simp only [definitions, List.mem_flatMap, Prod.exists, List.mk_mem_zipIdx_iff_getElem?]
  constructor
  · rintro ⟨node, i, hNode, hr⟩
    obtain ⟨rfl, -⟩ := ModuleMetadata.definitions_slot hr
    exact ⟨node, hNode, hr⟩
  · rintro ⟨node, hNode, hr⟩
    exact ⟨node, r.module, hNode, hr⟩

/-- A type that some module of the graph declares. -/
def Declares (graph : ModuleGraph W) (t : TypeId) : Prop :=
  ∃ r ∈ graph.definitions, r.typeId = t

theorem defByType_some {graph : ModuleGraph W} {t : TypeId} {d : ProviderDef W}
    (h : graph.defByType t = some d) : ∃ r ∈ graph.definitions, r.definition = d ∧ r.typeId = t := by
  obtain ⟨r, hr, hSome⟩ := List.exists_of_findSome?_eq_some h
  by_cases ht : r.typeId = t
  · rw [if_pos ht] at hSome
    exact ⟨r, hr, Option.some.inj hSome, ht⟩
  · rw [if_neg ht] at hSome
    cases hSome

theorem defByType_isSome {graph : ModuleGraph W} {t : TypeId} :
    (graph.defByType t).isSome ↔ graph.Declares t := by
  rw [defByType, List.findSome?_isSome_iff]
  apply exists_congr
  intro r
  apply and_congr_right
  intro _
  by_cases ht : r.typeId = t
  · simp [ht]
  · simp [ht]

end ModuleGraph

end Caelix
