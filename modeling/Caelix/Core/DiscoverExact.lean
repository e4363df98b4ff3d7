import Caelix.Core.DiscoverWalk

/-!
# Discovery is exact

* `discoverFrom_cases`: discovery of a module of the program ends with the exact graph of
  the reachable modules and no cycle, with the report of a circular import that exists, or
  with the fault of a route validation. It never panics and never runs out of fuel.
* `discoverFrom_exact`: with valid routes only the first two are left.
-/

namespace Caelix

open Relation Fallible

variable {W : Type}

/-! ## The walk over module types -/

theorem imports_of_edge {P : Program W} {d e : ModuleDef}
    (h : DepthFirst.Edge (importsOf P) d e) : Imports P d.typeId e.typeId := ⟨e, h, rfl⟩

theorem keyEdge_iff {P : Program W} {done : List ModuleDef} {t u : TypeId} :
    DepthFirst.KeyEdge ModuleDef.typeId (importsOf P) done t u ↔
      t ∈ done.map ModuleDef.typeId ∧ Imports P t u := by
  constructor
  · rintro ⟨a, ha, rfl, b, hb, rfl⟩
    exact ⟨List.mem_map_of_mem ha, b, hb, rfl⟩
  · rintro ⟨ht, e, he, rfl⟩
    obtain ⟨a, ha, rfl⟩ := List.mem_map.mp ht
    exact ⟨a, ha, rfl, e, he, rfl⟩

/-- The finished types are closed under imports. -/
theorem finished_closed {P : Program W} {done : List ModuleDef}
    (hF : DepthFirst.Finished ModuleDef.typeId (importsOf P) done) {t u : TypeId}
    (h : Reaches P t u) (ht : t ∈ done.map ModuleDef.typeId) : u ∈ done.map ModuleDef.typeId := by
  induction h with
  | refl => exact ht
  | tail _ hEdge ih =>
    obtain ⟨l₁, a, l₂, rfl, -, -, hBefore⟩ := hF.keyEdge_before (keyEdge_iff.mpr ⟨ih, hEdge⟩)
    exact DepthFirst.mem_map_mono (List.prefix_append _ _) hBefore

/-- A finished walk from the root has reached exactly the modules reachable from it,
none of them on a cycle. -/
theorem visited_types {P : Program W} {root : ModuleDef} {done : List ModuleDef}
    (h : DepthFirst.Visited ModuleDef.typeId (importsOf P) [] [root] [] done) :
    (∀ t, t ∈ done.map ModuleDef.typeId ↔ Reaches P root.typeId t) ∧
      ¬ CycleReachable P root.typeId := by
  have hRoot : root.typeId ∈ done.map ModuleDef.typeId := h.covers root (by simp)
  constructor
  · intro t
    constructor
    · intro ht
      obtain ⟨x, hx, rfl⟩ := List.mem_map.mp ht
      rcases h.reached x hx with hNil | ⟨a, ha, hPath, -⟩
      · simp at hNil
      · obtain rfl : a = root := by simpa using ha
        exact ReflTransGen.lift ModuleDef.typeId (fun _ _ => imports_of_edge) _ _ hPath
    · intro hReach
      exact finished_closed h.finished hReach hRoot
  · rintro ⟨t, hReach, hCycle⟩
    apply h.finished.acyclic t
    have ht := finished_closed h.finished hReach hRoot
    -- every module on the cycle is finished
    have hLift : ∀ {u}, TransGen (Imports P) t u →
        TransGen (DepthFirst.KeyEdge ModuleDef.typeId (importsOf P) done) t u := by
      intro u hu
      induction hu with
      | single hEdge => exact TransGen.single (keyEdge_iff.mpr ⟨ht, hEdge⟩)
      | tail hPath hEdge ih =>
        exact ih.tail (keyEdge_iff.mpr ⟨finished_closed h.finished hPath.to_reflTransGen ht, hEdge⟩)
    exact hLift hCycle

theorem cycleReachable_of_walk {P : Program W} {root c : ModuleDef} {n : Nat} {p : List ModuleDef}
    (h : DepthFirst.visit ModuleDef.typeId (importsOf P) n [] [] root = .error (.cycle p c)) :
    CycleReachable P root.typeId := by
  obtain ⟨x, he, hCycle, -, hx⟩ :=
    DepthFirst.visit_cycle n [] [] root p c DepthFirst.Finished.nil (by simp) h
  have hReach := hx.resolve_left (by simp)
  refine ⟨x.typeId, ?_, ?_⟩
  · exact ReflTransGen.lift ModuleDef.typeId (fun _ _ => imports_of_edge) _ _ hReach
  · have hTypes := TransGen.lift ModuleDef.typeId (fun _ _ => imports_of_edge) _ _ hCycle
    change TransGen (Imports P) x.typeId c.typeId at hTypes
    rwa [← he] at hTypes

theorem walk_ne_fuel {P : Program W} {root : ModuleDef} (hRoot : root.typeId ∈ P.modules) :
    DepthFirst.visit ModuleDef.typeId (importsOf P) (P.modules.card + 1) [] [] root ≠
      .error .fuel := by
  apply DepthFirst.visit_ne_fuel (fun a b ha hb => P.closed _ ha b hb) _ _ _ _ hRoot
  · simp
  · simp
  · simp

/-! ## The walk over indices -/

theorem imports_of_index {P : Program W} {nodes : List (ModuleNode W)}
    (hLinked : LinkedFrom P 0 nodes) {i c : Nat} {node : ModuleNode W} (hNode : nodes[i]? = some node)
    (hc : c ∈ node.imports) : ∃ u, (ids nodes)[c]? = some u ∧ Imports P node.typeId u := by
  have hMem : (ids nodes)[c]? ∈ node.imports.map fun c => (ids nodes)[c]? := List.mem_map_of_mem hc
  rw [hLinked i node (Nat.zero_le _) hNode] at hMem
  obtain ⟨d, hd, he⟩ := List.mem_map.mp hMem
  exact ⟨d.typeId, he.symm, d, hd, rfl⟩

theorem inRange_of_linked {P : Program W} {nodes : List (ModuleNode W)}
    (hLinked : LinkedFrom P 0 nodes) : InRange nodes := by
  intro node hNode c hc
  obtain ⟨i, hi⟩ := List.mem_iff_getElem?.mp hNode
  obtain ⟨u, hu, -⟩ := imports_of_index hLinked hi hc
  simpa [ids] using (List.getElem?_eq_some_iff.mp hu).1

/-- The type at an index, for indices in range. -/
def typeAt (nodes : List (ModuleNode W)) (i : Nat) : TypeId := ((ids nodes)[i]?).getD 0

theorem imports_typeAt {P : Program W} {nodes : List (ModuleNode W)}
    (hLinked : LinkedFrom P 0 nodes) {i c : Nat} (h : DepthFirst.Edge (importsAt nodes) i c) :
    typeAt nodes i ∈ ids nodes ∧ Imports P (typeAt nodes i) (typeAt nodes c) := by
  cases hNode : nodes[i]? with
  | none =>
    simp [DepthFirst.Edge, importsAt, hNode] at h
  | some node =>
    rw [DepthFirst.Edge, importsAt_some hNode] at h
    obtain ⟨u, hu, hEdge⟩ := imports_of_index hLinked hNode h
    have hi : typeAt nodes i = node.typeId := by simp [typeAt, ids, hNode]
    have hc : typeAt nodes c = u := by rw [typeAt, hu]; rfl
    rw [hi, hc]
    exact ⟨List.mem_map_of_mem (List.mem_of_getElem? hNode), hEdge⟩

/-- `order` succeeds on the nodes of a finished visit and lists the indices in the order
of the walk from the root. -/
theorem order_ok {P : Program W} {nodes : List (ModuleNode W)} {index : Nat} {root : TypeId}
    (hLinked : LinkedFrom P 0 nodes) (hIndex : (ids nodes)[index]? = some root)
    (hReach : ∀ t ∈ ids nodes, Reaches P root t) (hAcyclic : ¬ CycleReachable P root) :
    ∃ seen ordered, order nodes (nodes.length + 1) (∅, []) index = .ok (seen, ordered) ∧
      DepthFirst.visit id (importsAt nodes) (nodes.length + 1) [] [] index = .ok ordered := by
  have hRange := inRange_of_linked hLinked
  have hLt : index < nodes.length := by
    simpa [ids] using (List.getElem?_eq_some_iff.mp hIndex).1
  cases hWalk : DepthFirst.visit id (importsAt nodes) (nodes.length + 1) [] [] index with
  | ok ordered =>
    obtain ⟨seen, hOrder, -⟩ := order_follows hRange (nodes.length + 1) [] [] ordered index ∅ hLt
      (by simp) hWalk
    exact ⟨seen, ordered, hOrder, rfl⟩
  | error e =>
    cases e with
    | fuel =>
      have hNext : ∀ a b, id a ∈ Finset.range nodes.length → b ∈ importsAt nodes a →
          id b ∈ Finset.range nodes.length :=
        fun a b _ hb => Finset.mem_range.mpr (hRange.next hb)
      have hFuel := DepthFirst.visit_ne_fuel hNext (nodes.length + 1) [] [] index
        (Finset.mem_range.mpr hLt) (by simp) (by simp) (by simp)
      exact absurd hWalk hFuel
    | cycle p c =>
      exfalso
      obtain ⟨x, he, hCycle, -, -⟩ := DepthFirst.visit_cycle _ _ _ _ _ _
        DepthFirst.Finished.nil (by simp) hWalk
      obtain rfl : x = c := he
      have hTypes : TransGen (Imports P) (typeAt nodes x) (typeAt nodes x) :=
        TransGen.lift (typeAt nodes) (fun _ _ h => (imports_typeAt hLinked h).2) _ _ hCycle
      apply hAcyclic
      refine ⟨typeAt nodes x, hReach _ ?_, hTypes⟩
      obtain ⟨y, hEdge, -⟩ := TransGen.head'_iff.mp hCycle
      exact (imports_typeAt hLinked hEdge).1

/-! ## The discovered graph -/

theorem typeAt_of_some {nodes : List (ModuleNode W)} {i : Nat} {t : TypeId}
    (h : (ids nodes)[i]? = some t) : typeAt nodes i = t := by
  simp [typeAt, h]

theorem ids_of_lt {nodes : List (ModuleNode W)} {i : Nat} (h : i < nodes.length) :
    (ids nodes)[i]? = some (typeAt nodes i) := by
  have hLt : i < (ids nodes).length := by simpa [ids] using h
  simp [typeAt, List.getElem?_eq_getElem hLt]

/-- Every index is ordered: the order follows the imports from the root. -/
theorem mem_ordered {P : Program W} {nodes : List (ModuleNode W)} {index : Nat} {root : TypeId}
    {ordered : List Nat} (hLinked : LinkedFrom P 0 nodes) (hIndex : (ids nodes)[index]? = some root)
    (hOrder : DepthFirst.Visited id (importsAt nodes) [] [index] [] ordered) {t : TypeId}
    (hReach : Reaches P root t) : ∃ i ∈ ordered, (ids nodes)[i]? = some t := by
  induction hReach with
  | refl => exact ⟨index, by simpa using hOrder.covers index (by simp), hIndex⟩
  | tail _ hEdge ih =>
    obtain ⟨i, hi, hType⟩ := ih
    obtain ⟨d, hd, rfl⟩ := hEdge
    obtain ⟨node, hNode, rfl⟩ : ∃ node, nodes[i]? = some node ∧ node.typeId = _ := by
      simpa [ids] using hType
    -- the declared import is the type at one of the import indices
    have hMem : some d.typeId ∈ node.imports.map fun c => (ids nodes)[c]? := by
      rw [hLinked i node (Nat.zero_le _) hNode]
      exact List.mem_map_of_mem hd
    obtain ⟨c, hc, hcType⟩ := List.mem_map.mp hMem
    obtain ⟨l₁, l₂, rfl⟩ := List.append_of_mem hi
    have hBefore := hOrder.finished.closed l₁ i l₂ rfl c (by rwa [importsAt_some hNode])
    exact ⟨c, List.mem_append_left _ (by simpa using hBefore), hcType⟩

/-- Where a node of the result comes from. -/
theorem moved_at {nodes result : List (ModuleNode W)} {ordered : List Nat} (hNodup : ordered.Nodup)
    (hMoved : List.Forall₂ (Moved nodes (remapIndices ordered)) ordered result) {i : Nat}
    {moved : ModuleNode W} (h : result[i]? = some moved) :
    ∃ old node imports, ordered[i]? = some old ∧ nodes[old]? = some node ∧
      moved = { node with imports } ∧
      List.Forall₂ (fun c j => ordered[j]? = some c) node.imports imports := by
  obtain ⟨old, hOld, node, imports, hNode, rfl, hAll⟩ := forall₂_getElem? hMoved h
  exact ⟨old, node, imports, hOld, hNode, rfl, hAll.imp fun c j => (remapIndices_iff hNodup c j).mp⟩

theorem moved_types {nodes result : List (ModuleNode W)} {remap : Nat → Option Nat}
    {ordered : List Nat} (hMoved : List.Forall₂ (Moved nodes remap) ordered result) :
    result.map ModuleNode.typeId = ordered.map (typeAt nodes) := by
  induction hMoved with
  | nil => rfl
  | cons h _ ih =>
    obtain ⟨node, imports, hNode, rfl, -⟩ := h
    rw [List.map_cons, List.map_cons, ih,
      typeAt_of_some (t := node.typeId) (by simp [ids, hNode])]

/-- The walk over indices finishes the types in the order of the walk over types. -/
theorem walks_agree {P : Program W} {nodes : List (ModuleNode W)} {index n m : Nat}
    {root : ModuleDef} {done : List ModuleDef} {ordered : List Nat}
    (hNodup : (ids nodes).Nodup) (hLinked : LinkedFrom P 0 nodes)
    (hIndex : (ids nodes)[index]? = some root.typeId)
    (hWalk : DepthFirst.visit ModuleDef.typeId (importsOf P) n [] [] root = .ok done)
    (hOrder : DepthFirst.visit id (importsAt nodes) m [] [] index = .ok ordered) :
    ordered.map (typeAt nodes) = done.map ModuleDef.typeId := by
  have hAll : List.Forall₂ (fun (d : ModuleDef) (i : Nat) => (ids nodes)[i]? = some d.typeId)
      done ordered := by
    refine DepthFirst.visit_related ?_ ?_ n m List.Forall₂.nil List.Forall₂.nil hIndex hWalk hOrder
    · intro d i d' i' hi hi'
      constructor
      · intro he
        rw [← he, ← hi] at hi'
        exact (List.getElem?_inj (List.getElem?_eq_some_iff.mp hi).1 hNodup).mp hi'.symm
      · intro he
        obtain rfl : i = i' := he
        exact Option.some.inj (hi.symm.trans hi')
    · intro d i hi
      obtain ⟨node, hNode, hType⟩ : ∃ node, nodes[i]? = some node ∧ node.typeId = d.typeId := by
        simpa [ids] using hi
      have hImports := hLinked i node (Nat.zero_le _) hNode
      rw [Linked, hType] at hImports
      rw [importsAt_some hNode]
      have hEqs : List.Forall₂ (· = ·) ((importsOf P d).map fun e => some e.typeId)
          (node.imports.map fun c => (ids nodes)[c]?) := by
        rw [List.forall₂_eq_eq_eq]
        exact hImports.symm
      rw [List.forall₂_map_left_iff, List.forall₂_map_right_iff] at hEqs
      exact hEqs.imp fun _ _ h => h.symm
  clear hWalk hOrder
  induction hAll with
  | nil => rfl
  | cons h _ ih => rw [List.map_cons, List.map_cons, ih, typeAt_of_some h]

theorem idxOf_lt_of_before {l₁ l₂ : List Nat} {x c i j : Nat} (hNodup : (l₁ ++ x :: l₂).Nodup)
    (hi : (l₁ ++ x :: l₂)[i]? = some x) (hc : c ∈ l₁) (hj : (l₁ ++ x :: l₂)[j]? = some c) :
    j < i := by
  have hiLt := (List.getElem?_eq_some_iff.mp hi).1
  have hjLt := (List.getElem?_eq_some_iff.mp hj).1
  have hx : (l₁ ++ x :: l₂)[l₁.length]? = some x := by simp
  have hi' : i = l₁.length := (List.getElem?_inj hiLt hNodup).mp (hi.trans hx.symm)
  obtain ⟨k, hk⟩ := List.mem_iff_getElem?.mp hc
  have hkLt := (List.getElem?_eq_some_iff.mp hk).1
  have hk' : (l₁ ++ x :: l₂)[k]? = some c := by rw [List.getElem?_append_left hkLt, hk]
  have hj' : j = k := (List.getElem?_inj hjLt hNodup).mp (hj.trans hk'.symm)
  omega

/-- The order only lists indices of nodes. -/
theorem ordered_lt {P : Program W} {nodes : List (ModuleNode W)} {index : Nat} {root : TypeId}
    {ordered : List Nat} (hLinked : LinkedFrom P 0 nodes) (hIndex : (ids nodes)[index]? = some root)
    (hOrder : DepthFirst.Visited id (importsAt nodes) [] [index] [] ordered) :
    ∀ i ∈ ordered, i < nodes.length := by
  intro i hi
  rcases hOrder.reached i hi with hNil | ⟨a, ha, hPath, -⟩
  · simp at hNil
  · obtain rfl : a = index := by simpa using ha
    rcases ReflTransGen.cases_tail hPath with rfl | ⟨b, -, hEdge⟩
    · simpa [ids] using (List.getElem?_eq_some_iff.mp hIndex).1
    · exact (inRange_of_linked hLinked).next hEdge

/-- A node keeps its type where the order puts it. -/
theorem moved_typeId {nodes result : List (ModuleNode W)} {ordered : List Nat}
    (hNodup : ordered.Nodup)
    (hMoved : List.Forall₂ (Moved nodes (remapIndices ordered)) ordered result) {j c : Nat}
    (hj : ordered[j]? = some c) : result[j]?.map ModuleNode.typeId = (ids nodes)[c]? := by
  have hLt : j < result.length := by
    rw [← hMoved.length_eq]
    exact (List.getElem?_eq_some_iff.mp hj).1
  obtain ⟨old, node, imports, hOld, hNode, he, -⟩ :=
    moved_at hNodup hMoved (List.getElem?_eq_getElem hLt)
  obtain rfl : old = c := Option.some.inj (hOld.symm.trans hj)
  rw [List.getElem?_eq_getElem hLt, he, ids, List.getElem?_map, hNode]
  rfl

/-- The remapped imports of a node denote the types that they denoted before. -/
theorem moved_imports {nodes result : List (ModuleNode W)} {ordered olds news : List Nat}
    (hNodup : ordered.Nodup)
    (hMoved : List.Forall₂ (Moved nodes (remapIndices ordered)) ordered result)
    (hAll : List.Forall₂ (fun c j => ordered[j]? = some c) olds news) :
    news.map (fun j => result[j]?.map ModuleNode.typeId) = olds.map fun c => (ids nodes)[c]? := by
  induction hAll with
  | nil => rfl
  | cons hNew _ ih => rw [List.map_cons, List.map_cons, moved_typeId hNodup hMoved hNew, ih]

/-- The nodes of a finished visit, moved into a finished order, are the exact graph. -/
theorem discovered_of_moved {P : Program W} {nodes result : List (ModuleNode W)} {index : Nat}
    {root : TypeId} {ordered : List Nat} (hLinked : LinkedFrom P 0 nodes)
    (hNodupIds : (ids nodes).Nodup) (hDescribed : Described P nodes)
    (hReach : ∀ t, t ∈ ids nodes ↔ Reaches P root t) (hIndex : (ids nodes)[index]? = some root)
    (hOrder : DepthFirst.Visited id (importsAt nodes) [] [index] [] ordered)
    (hMoved : List.Forall₂ (Moved nodes (remapIndices ordered)) ordered result) :
    Discovered P root ⟨result⟩ := by
  have hNodup : ordered.Nodup := by simpa using hOrder.finished.nodup
  have hTypes := moved_types hMoved
  have hLt := ordered_lt hLinked hIndex hOrder
  constructor
  · rw [hTypes]
    refine hNodup.map_on ?_
    intro i hi j hj he
    have hi' := ids_of_lt (hLt i hi)
    have hj' := ids_of_lt (hLt j hj)
    rw [he] at hi'
    exact (List.getElem?_inj (by simpa [ids] using hLt i hi) hNodupIds).mp (hi'.trans hj'.symm)
  · intro t
    rw [hTypes, List.mem_map]
    constructor
    · rintro ⟨i, hi, rfl⟩
      exact (hReach _).mp (List.mem_of_getElem? (ids_of_lt (hLt i hi)))
    · intro ht
      obtain ⟨i, hi, hType⟩ := mem_ordered hLinked hIndex hOrder ht
      exact ⟨i, hi, typeAt_of_some hType⟩
  · intro i moved hi j hj
    obtain ⟨old, node, imports, hOld, hNode, rfl, hAll⟩ := moved_at hNodup hMoved hi
    obtain ⟨k, hk⟩ := List.mem_iff_getElem?.mp hj
    obtain ⟨c, hc, hNew⟩ := forall₂_getElem? hAll hk
    obtain ⟨l₁, l₂, rfl⟩ := List.append_of_mem (List.mem_of_getElem? hOld)
    have hBefore := hOrder.finished.closed l₁ old l₂ rfl c
      (by rw [importsAt_some hNode]; exact List.mem_of_getElem? hc)
    exact idxOf_lt_of_before hNodup hOld (by simpa using hBefore) hNew
  · intro i moved hi
    obtain ⟨old, node, imports, -, hNode, rfl, hAll⟩ := moved_at hNodup hMoved hi
    rw [← hLinked old node (Nat.zero_le _) hNode]
    exact moved_imports hNodup hMoved hAll
  · intro moved hMem
    obtain ⟨i, hi⟩ := List.mem_iff_getElem?.mp hMem
    obtain ⟨old, node, imports, -, hNode, rfl, -⟩ := moved_at hNodup hMoved hi
    exact hDescribed node (List.mem_of_getElem? hNode)

/-- After a finished visit, the rest of discovery succeeds with the exact graph, its nodes
in the order of the walk over module types. -/
theorem discoverFrom_of_visited {P : Program W} {root : ModuleDef} {done : List ModuleDef}
    {index n : Nat} {found : Discovery W}
    (hWalk : DepthFirst.visit ModuleDef.typeId (importsOf P) n [] [] root = .ok done)
    (hVisit : visit P (P.modules.card + 1) root Discovery.empty = .ok (index, found))
    (hFollows : Follows P Discovery.empty [] root done (index, found)) :
    ∃ graph, discoverFrom P root = .ok graph ∧ Discovered P root.typeId graph ∧
      graph.nodes.map ModuleNode.typeId = done.map ModuleDef.typeId := by
  obtain ⟨hTracks, -, hIndex, hLinked⟩ := hFollows
  obtain ⟨hTypes, hAcyclic⟩ :=
    visited_types (DepthFirst.visit_ok _ _ _ _ _ DepthFirst.Finished.nil hWalk)
  dsimp only at hTracks hIndex hLinked
  have hReach : ∀ t, t ∈ ids found.graph ↔ Reaches P root.typeId t := by
    intro t
    rw [hTracks.found, ← hTypes, ← hTracks.visited]
    cases hMark : found.states t with
    | none => simp
    | some mark =>
      cases mark with
      | visited => simp
      | visiting =>
        have hOpen := (hTracks.visiting t).mp hMark
        simp at hOpen
  obtain ⟨seen, ordered, hOrder, hOrderWalk⟩ :=
    order_ok hLinked hIndex (fun t => (hReach t).mp) hAcyclic
  have hOrdered := DepthFirst.visit_ok _ _ _ _ _ DepthFirst.Finished.nil hOrderWalk
  have hNodup : ordered.Nodup := by simpa using hOrdered.finished.nodup
  have hRemap : ∀ i ∈ ordered, ∃ j, remapIndices ordered i = some j := by
    intro i hi
    obtain ⟨j, hj⟩ := List.mem_iff_getElem?.mp hi
    exact ⟨j, (remapIndices_iff hNodup i j).mpr hj⟩
  have hRoot : index ∈ ordered := by simpa using hOrdered.covers index (by simp)
  have hLt := ordered_lt hLinked hIndex hOrdered
  have hSlots : ∀ old ∈ ordered, ∃ node, found.graph[old]? = some node ∧
      (found.graph.map some)[old]? = some (some node) ∧
      ∀ c ∈ node.imports, ∃ j, remapIndices ordered c = some j := by
    intro old hOld
    have hNode := List.getElem?_eq_getElem (hLt old hOld)
    refine ⟨_, hNode, by rw [List.getElem?_map, hNode]; rfl, ?_⟩
    intro c hc
    obtain ⟨l₁, l₂, rfl⟩ := List.append_of_mem hOld
    have hBefore := hOrdered.finished.closed l₁ old l₂ rfl c (by rwa [importsAt_some hNode])
    exact hRemap c (List.mem_append_left _ (by simpa using hBefore))
  obtain ⟨result, hTake, hMoved⟩ := takeNodes_ok ordered (found.graph.map some) hNodup hSlots
  obtain ⟨j, hj⟩ := hRemap index hRoot
  refine ⟨⟨result⟩, ?_, discovered_of_moved hLinked hTracks.nodup hTracks.described hReach hIndex
    hOrdered hMoved, (moved_types hMoved).trans
    (walks_agree hTracks.nodup hLinked hIndex hWalk hOrderWalk)⟩
  simp only [discoverFrom, hVisit]
  show (order found.graph (found.graph.length + 1) (∅, []) index >>= _) = _
  rw [hOrder]
  show (takeNodes (remapIndices ordered) (found.graph.map some) ordered >>= _) = _
  rw [hTake]
  show (remapImport (remapIndices ordered) index >>= _) = _
  rw [remapImport, hj]
  rfl

theorem tracks_empty (P : Program W) : Tracks P Discovery.empty [] [] := by
  refine ⟨Marks.none, ?_, ?_, ?_⟩
  · simp [Discovery.empty, ids]
  · simp [Discovery.empty, ids]
  · intro node hNode
    simp [Discovery.empty] at hNode

/-- The visit of the root, seen from the walk. -/
theorem visit_root_follows (P : Program W) (root : ModuleDef) :
    Alike P (Reaches P root.typeId) (Follows P Discovery.empty [] root)
      (DepthFirst.visit ModuleDef.typeId (importsOf P) (P.modules.card + 1) [] [] root)
      (visit P (P.modules.card + 1) root Discovery.empty) :=
  visit_follows (fun _ _ hReach hEdge => ReflTransGen.tail hReach hEdge) (P.modules.card + 1) [] []
    Discovery.empty root ReflTransGen.refl (tracks_empty P)

/-- A visit of the root that succeeds leads to the exact graph, in the order of the walk. -/
theorem discoverFrom_of_visit {P : Program W} {root : ModuleDef} {result : Nat × Discovery W}
    (hVisit : visit P (P.modules.card + 1) root Discovery.empty = .ok result) :
    ∃ graph done, discoverFrom P root = .ok graph ∧ Discovered P root.typeId graph ∧
      DepthFirst.visit ModuleDef.typeId (importsOf P) (P.modules.card + 1) [] [] root = .ok done ∧
      graph.nodes.map ModuleNode.typeId = done.map ModuleDef.typeId := by
  have hAlike := visit_root_follows P root
  rw [hVisit] at hAlike
  cases hWalk : DepthFirst.visit ModuleDef.typeId (importsOf P) (P.modules.card + 1) [] [] root with
  | ok done =>
    rw [hWalk] at hAlike
    obtain ⟨graph, hGraph, hExact, hTypes⟩ := discoverFrom_of_visited hWalk hVisit hAlike
    exact ⟨graph, done, hGraph, hExact, rfl, hTypes⟩
  | error e =>
    rw [hWalk] at hAlike
    exact hAlike.elim

/-- What a successful discovery returns. -/
theorem discovered_of_ok {P : Program W} {root : ModuleDef} {graph : ModuleGraph W}
    (h : discoverFrom P root = .ok graph) : Discovered P root.typeId graph := by
  obtain ⟨result, hVisit, -⟩ := bind_ok_iff.mp h
  obtain ⟨graph', -, hGraph, hExact, -⟩ := discoverFrom_of_visit hVisit
  rw [h] at hGraph
  cases hGraph
  exact hExact

/-- The nodes of a discovered graph stand in the order of the walk over module types. -/
theorem discovered_order {P : Program W} {root : ModuleDef} {graph : ModuleGraph W}
    (h : discoverFrom P root = .ok graph) : ∃ done,
      DepthFirst.visit ModuleDef.typeId (importsOf P) (P.modules.card + 1) [] [] root = .ok done ∧
      graph.nodes.map ModuleNode.typeId = done.map ModuleDef.typeId := by
  obtain ⟨result, hVisit, -⟩ := bind_ok_iff.mp h
  obtain ⟨graph', done, hGraph, -, hWalk, hTypes⟩ := discoverFrom_of_visit hVisit
  rw [h] at hGraph
  cases hGraph
  exact ⟨done, hWalk, hTypes⟩

/-- How discovery of a module of the program ends. -/
theorem discoverFrom_cases {P : Program W} {root : ModuleDef} (hRoot : root.typeId ∈ P.modules) :
    (∃ graph, discoverFrom P root = .ok graph ∧ Discovered P root.typeId graph ∧
      ¬ CycleReachable P root.typeId) ∨
    (∃ path, discoverFrom P root = .error (circularImport path) ∧
      CycleReachable P root.typeId) ∨
    (∃ f, discoverFrom P root = .error f ∧ RouteFault P (Reaches P root.typeId) f) := by
  have hAlike := visit_root_follows P root
  cases hRun : visit P (P.modules.card + 1) root Discovery.empty with
  | ok result =>
    obtain ⟨graph, done, hGraph, hExact, hWalk, -⟩ := discoverFrom_of_visit hRun
    have hVisited := DepthFirst.visit_ok _ _ _ _ _ DepthFirst.Finished.nil hWalk
    exact Or.inl ⟨graph, hGraph, hExact, (visited_types hVisited).2⟩
  | error f =>
    have hFault : discoverFrom P root = .error f := by
      simp only [discoverFrom, hRun]
      rfl
    rw [hRun] at hAlike
    cases hWalk : DepthFirst.visit ModuleDef.typeId (importsOf P) (P.modules.card + 1) [] [] root with
    | ok done =>
      rw [hWalk] at hAlike
      exact Or.inr (Or.inr ⟨f, hFault, hAlike⟩)
    | error e =>
      rw [hWalk] at hAlike
      cases e with
      | fuel => exact absurd hWalk (walk_ne_fuel hRoot)
      | cycle p c =>
        rcases hAlike with ⟨path, rfl⟩ | hRoute
        · exact Or.inr (Or.inl ⟨path, hFault, cycleReachable_of_walk hWalk⟩)
        · exact Or.inr (Or.inr ⟨f, hFault, hRoute⟩)

/-- Discovery of a module of the program whose routes are valid reports a circular import
exactly when a cycle is reachable; otherwise it returns the exact graph. -/
theorem discoverFrom_exact (P : Program W) (root : ModuleDef) (hRoot : root.typeId ∈ P.modules)
    (hRoutes : ∀ t, Reaches P root.typeId t → RoutesValid P t) :
    ((∃ path, discoverFrom P root = .error (circularImport path)) ↔
      CycleReachable P root.typeId) ∧
    (¬ CycleReachable P root.typeId →
      ∃ graph, discoverFrom P root = .ok graph ∧ Discovered P root.typeId graph) := by
  rcases discoverFrom_cases hRoot with ⟨graph, hGraph, hExact, hNone⟩ | ⟨path, hErr, hCycle⟩ |
    ⟨f, -, t, hReach, controller, hMem, e, hRoute, -⟩
  · constructor
    · constructor
      · rintro ⟨path, hErr⟩
        rw [hGraph] at hErr
        cases hErr
      · intro hCycle
        exact absurd hCycle hNone
    · intro _
      exact ⟨graph, hGraph, hExact⟩
  · exact ⟨⟨fun _ => hCycle, fun _ => ⟨path, hErr⟩⟩, fun hNone => absurd hCycle hNone⟩
  · have hValid := hRoutes t hReach controller hMem
    rw [hRoute] at hValid
    cases hValid

/-- The modules `10` to `13`: `10` has imports of `11` and `12`, and both have one of `13`. -/
def diamond : Program Unit where
  metadataFn t :=
    match t with
    | 10 => { ModuleMetadata.new with imports := [⟨11, "Left"⟩, ⟨12, "Right"⟩, ⟨11, "Left"⟩] }
    | 11 => { ModuleMetadata.new with imports := [⟨13, "Shared"⟩] }
    | 12 => { ModuleMetadata.new with imports := [⟨13, "Shared"⟩] }
    | _ => ModuleMetadata.new
  modules := {10, 11, 12, 13}
  closed := by decide

theorem diamond_routesValid (t : TypeId) : RoutesValid diamond t := by
  intro controller h
  unfold diamond at h
  dsimp only at h
  split at h <;> cases h

theorem discoverFrom_exact_diamond :
    (⟨10, "App"⟩ : ModuleDef).typeId ∈ diamond.modules ∧
    (∀ t, Reaches diamond 10 t → RoutesValid diamond t) ∧
    ((∃ path, discoverFrom diamond ⟨10, "App"⟩ = .error (circularImport path)) ↔
      CycleReachable diamond 10) ∧
    (¬ CycleReachable diamond 10 →
      ∃ graph, discoverFrom diamond ⟨10, "App"⟩ = .ok graph ∧ Discovered diamond 10 graph) := by
  refine ⟨by decide, fun t _ => diamond_routesValid t, ?_⟩
  exact discoverFrom_exact diamond ⟨10, "App"⟩ (by decide) fun t _ => diamond_routesValid t

end Caelix
