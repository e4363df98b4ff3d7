import Caelix.Core.Marks
import Caelix.Core.Module
import Mathlib.Data.Finset.Card

/-!
# Module discovery

`ModuleGraph::discover_from`: the recursive `visit` that reads the metadata of every
imported module and marks it visiting and visited, the post-order `order` over the
nodes found, and the remapping of the import indices to that order.

Every place where the code would panic (`expect`, indexing) is an explicit
`Fault.panic`, and both recursions take fuel.
-/

namespace Caelix

variable {W : Type}

/-- The mutable state of `visit`: nodes found so far, marks, and names of the open modules. -/
structure Discovery (W : Type) where
  graph : List (ModuleNode W)
  states : TypeId → Option VisitState
  path : List String

def circularImport (path : List String) : Fault :=
  .startup ("circular module import: " ++ " -> ".intercalate path)

namespace Discovery

def empty : Discovery W := ⟨[], fun _ => none, []⟩

/-- Mark a module as visiting and push its node, with the imports taken out of the metadata. -/
def enter (s : Discovery W) (d : ModuleDef) (metadata : ModuleMetadata W) : Discovery W where
  graph := s.graph ++ [⟨d.typeId, d.typeName, { metadata with imports := [] }, []⟩]
  states := Function.update s.states d.typeId (some .visiting)
  path := s.path ++ [d.typeName]

def leave (s : Discovery W) (d : ModuleDef) : Discovery W where
  graph := s.graph
  states := Function.update s.states d.typeId (some .visited)
  path := s.path.dropLast

/-- `graph[index].imports.push(child)`. -/
def pushImport (s : Discovery W) (index child : Nat) : Except Fault (Discovery W) :=
  match s.graph[index]? with
  | none => .error (.panic "index out of bounds")
  | some node =>
    .ok { s with graph := s.graph.set index { node with imports := node.imports ++ [child] } }

end Discovery

def visit (P : Program W) : Nat → ModuleDef → Discovery W → Except Fault (Nat × Discovery W)
  | 0, _, _ => .error .outOfFuel
  | fuel + 1, d, s =>
    match s.states d.typeId with
    | some .visited =>
      match s.graph.findIdx? (fun node => node.typeId = d.typeId) with
      | some index => .ok (index, s)
      | none => .error (.panic "discovered module missing")
    | some .visiting => .error (circularImport (s.path ++ [d.typeName]))
    | none => do
      let metadata := P.metadataFn d.typeId
      metadata.controllers.forM fun controller => controller.validateRoutes.mapError .exception
      let index := s.graph.length
      let closed ← metadata.imports.foldlM (fun s child => do
        let (child, s) ← visit P fuel child s
        s.pushImport index child) (s.enter d metadata)
      .ok (index, closed.leave d)

/-- Imported-first order of the nodes: the indices already seen, and the order so far. -/
def order (nodes : List (ModuleNode W)) :
    Nat → Finset Nat × List Nat → Nat → Except Fault (Finset Nat × List Nat)
  | 0, _, _ => .error .outOfFuel
  | fuel + 1, (seen, ordered), index =>
    if index ∈ seen then .ok (seen, ordered)
    else
      match nodes[index]? with
      | none => .error (.panic "index out of bounds")
      | some node => do
        let (seen, ordered) ← node.imports.foldlM (order nodes fuel) (insert index seen, ordered)
        .ok (seen, ordered ++ [index])

/-- The map from the index of a node to its place in the order. -/
def remapIndices (ordered : List Nat) : Nat → Option Nat :=
  ordered.zipIdx.foldl (fun remap p => Function.update remap p.1 (some p.2)) fun _ => none

def remapImport (remap : Nat → Option Nat) (index : Nat) : Except Fault Nat :=
  match remap index with
  | some new => .ok new
  | none => .error (.panic "no entry found for key")

/-- Move the nodes into their order; `slots` loses each node it hands out. -/
def takeNodes (remap : Nat → Option Nat) :
    List (Option (ModuleNode W)) → List Nat → Except Fault (List (ModuleNode W))
  | _, [] => .ok []
  | slots, old :: rest =>
    match slots[old]? with
    | some (some node) => do
      let imports ← node.imports.mapM (remapImport remap)
      let result ← takeNodes remap (slots.set old none) rest
      .ok ({ node with imports } :: result)
    | _ => .error (.panic "module graph ordering repeated a node")

def discoverFrom (P : Program W) (root : ModuleDef) : Except Fault (ModuleGraph W) := do
  let (rootIndex, found) ← visit P (P.modules.card + 1) root Discovery.empty
  let nodes := found.graph
  let (_, ordered) ← order nodes (nodes.length + 1) (∅, []) rootIndex
  let remap := remapIndices ordered
  let result ← takeNodes remap (nodes.map some) ordered
  let _ ← remapImport remap rootIndex
  .ok ⟨result⟩

/-! ## The import relation -/

/-- Module `t` declares an import of module `u`. -/
def Imports (P : Program W) (t u : TypeId) : Prop :=
  ∃ d ∈ (P.metadataFn t).imports, d.typeId = u

def Reaches (P : Program W) : TypeId → TypeId → Prop := Relation.ReflTransGen (Imports P)

/-- Some cycle of imports can be reached from the module. -/
def CycleReachable (P : Program W) (root : TypeId) : Prop :=
  ∃ t, Reaches P root t ∧ Relation.TransGen (Imports P) t t

/-- Route validation succeeds for every controller of a module. -/
def RoutesValid (P : Program W) (t : TypeId) : Prop :=
  ∀ controller ∈ (P.metadataFn t).controllers, controller.validateRoutes = .ok ()

/-- What discovery of a root produces when it succeeds. -/
structure Discovered (P : Program W) (root : TypeId) (graph : ModuleGraph W) : Prop where
  nodup : (graph.nodes.map ModuleNode.typeId).Nodup
  complete : ∀ t, t ∈ graph.nodes.map ModuleNode.typeId ↔ Reaches P root t
  imports_lt : ∀ (i : Nat) (node : ModuleNode W), graph.nodes[i]? = some node → ∀ c ∈ node.imports, c < i
  imports_exact : ∀ (i : Nat) (node : ModuleNode W), graph.nodes[i]? = some node →
    node.imports.map (fun c => graph.nodes[c]?.map ModuleNode.typeId) =
      (P.metadataFn node.typeId).imports.map fun d => some d.typeId
  metadata : ∀ node ∈ graph.nodes, node.metadata = { P.metadataFn node.typeId with imports := [] }

end Caelix
