import Caelix.Core.Discover
import Caelix.Lib.DepthFirst

/-!
# Discovery as a depth-first walk

`visit` is followed step by step by the walk `DepthFirst.visit` over module types
(`visit_follows`): the marks are the open and finished keys, the nodes found so far are
exactly the marked types, and the nodes added by a successful visit have their imports
resolved. Only a failing route validation makes the visit end otherwise. `order` is
followed by the same walk over the node indices (`order_follows`), and `takeNodes` moves
every node once (`takeNodes_ok`).
-/

namespace Caelix

open Relation Fallible

variable {W : Type}

/-! ## The visit follows a depth-first walk -/

/-- Successors of a module in the walk. -/
def importsOf (P : Program W) (d : ModuleDef) : List ModuleDef := (P.metadataFn d.typeId).imports

/-- The types of the nodes found, by index. -/
def ids (nodes : List (ModuleNode W)) : List TypeId := nodes.map ModuleNode.typeId

/-- The imports of a node point at its declared imports, in their order. -/
def Linked (P : Program W) (types : List TypeId) (node : ModuleNode W) : Prop :=
  node.imports.map (fun c => types[c]?) = (P.metadataFn node.typeId).imports.map fun d => some d.typeId

/-- The nodes carry the metadata of their type, without the imports. -/
def Described (P : Program W) (nodes : List (ModuleNode W)) : Prop :=
  ∀ node ∈ nodes, node.metadata = { P.metadataFn node.typeId with imports := [] }

/-- The state of `visit` seen from the walk with open modules `stack` and finished ones `done`. -/
structure Tracks (P : Program W) (s : Discovery W) (stack done : List ModuleDef) : Prop
    extends Marks s.states (stack.map ModuleDef.typeId) (done.map ModuleDef.typeId) where
  found : ∀ t, t ∈ ids s.graph ↔ s.states t ≠ none
  nodup : (ids s.graph).Nodup
  described : Described P s.graph

theorem getElem?_of_grows {α : Type} {l l' : List α} (h : l <+: l') {i : Nat} {a : α}
    (ha : l[i]? = some a) : l'[i]? = some a := by
  obtain ⟨r, rfl⟩ := h
  rw [List.getElem?_append_left (List.getElem?_eq_some_iff.mp ha).1, ha]

theorem Linked.grow {P : Program W} {types types' : List TypeId} (h : types <+: types')
    {node : ModuleNode W} (hLinked : Linked P types node) : Linked P types' node := by
  have hSome : ∀ c ∈ node.imports, types[c]? = types'[c]? := by
    intro c hc
    have hMem : types[c]? ∈ node.imports.map (fun c => types[c]?) := List.mem_map_of_mem hc
    rw [hLinked] at hMem
    obtain ⟨d, -, hd⟩ := List.mem_map.mp hMem
    rw [← hd, getElem?_of_grows h hd.symm]
  rw [Linked, ← hLinked]
  exact List.map_congr_left fun c hc => (hSome c hc).symm

theorem ids_set {nodes : List (ModuleNode W)} {index : Nat} {node : ModuleNode W}
    (hNode : nodes[index]? = some node) (imports : List Nat) :
    ids (nodes.set index { node with imports }) = ids nodes := by
  obtain ⟨hLt, rfl⟩ := List.getElem?_eq_some_iff.mp hNode
  have hLt' : index < (ids nodes).length := by simpa [ids] using hLt
  rw [ids, List.map_set]
  simpa [ids] using List.set_getElem_self hLt'

namespace Tracks

variable {P : Program W} {s : Discovery W} {stack done : List ModuleDef} {d : ModuleDef}

theorem enter (h : Tracks P s stack done) (hFresh : s.states d.typeId = none) :
    Tracks P (s.enter d (P.metadataFn d.typeId)) (stack ++ [d]) done where
  toMarks := by simpa [Discovery.enter] using h.toMarks.enter hFresh
  found := by
    intro t
    by_cases ht : t = d.typeId
    · subst ht
      simp [Discovery.enter, ids]
    · simp only [Discovery.enter, Function.update_of_ne ht, ← h.found, ids, List.map_append,
        List.mem_append]
      simp [ht]
  nodup := by
    have hNew : d.typeId ∉ ids s.graph := fun hMem => (h.found _).mp hMem hFresh
    simp only [Discovery.enter, ids, List.map_append, List.nodup_append]
    refine ⟨h.nodup, by simp, ?_⟩
    intro t ht u hu he
    obtain rfl : u = d.typeId := by simpa using hu
    exact hNew (he ▸ ht)
  described := by
    intro node hNode
    rcases List.mem_append.mp hNode with hNode | hNode
    · exact h.described node hNode
    · obtain rfl : node = _ := by simpa using hNode
      rfl

theorem leave (h : Tracks P s (stack ++ [d]) done)
    (hOpen : d.typeId ∉ stack.map ModuleDef.typeId) :
    Tracks P (s.leave d) stack (done ++ [d]) where
  toMarks := by
    have hMarks : Marks s.states (stack.map ModuleDef.typeId ++ [d.typeId])
        (done.map ModuleDef.typeId) := by simpa using h.toMarks
    simpa [Discovery.leave] using hMarks.leave hOpen
  found := by
    intro t
    by_cases ht : t = d.typeId
    · subst ht
      have hMark := (h.visiting d.typeId).mpr (by simp)
      simp [Discovery.leave, h.found, hMark]
    · simp only [Discovery.leave, Function.update_of_ne ht]
      exact h.found t
  nodup := h.nodup
  described := h.described

/-- Resolving one more import of a node changes neither types nor metadata. -/
theorem setImports (h : Tracks P s stack done) {index : Nat} {node : ModuleNode W}
    (hNode : s.graph[index]? = some node) (imports : List Nat) :
    Tracks P { s with graph := s.graph.set index { node with imports } } stack done := by
  have hIds := ids_set hNode imports
  refine ⟨h.toMarks, ?_, ?_, ?_⟩
  · intro t
    rw [hIds]
    exact h.found t
  · rw [hIds]
    exact h.nodup
  · intro m hm
    rcases List.mem_or_eq_of_mem_set hm with hm | rfl
    · exact h.described m hm
    · exact h.described node (List.mem_of_getElem? hNode)

end Tracks

/-- Every node from `start` on has its imports resolved. -/
def LinkedFrom (P : Program W) (start : Nat) (nodes : List (ModuleNode W)) : Prop :=
  ∀ j node, start ≤ j → nodes[j]? = some node → Linked P (ids nodes) node

/-- A fault raised by the route validation of some module in `V`. -/
def RouteFault (P : Program W) (V : TypeId → Prop) (f : Fault) : Prop :=
  ∃ t, V t ∧ ∃ controller ∈ (P.metadataFn t).controllers,
    ∃ e, controller.validateRoutes = .error e ∧ f = .exception e

/-- The fault for each way in which the walk stops. -/
def StopFault : DepthFirst.Stop ModuleDef → Fault → Prop
  | .cycle _ _, f => ∃ path, f = circularImport path
  | .fuel, f => f = .outOfFuel

/-- The code ends as the walk does, with `Q` relating their results, unless the route
validation of a module in `V` fails. -/
abbrev Alike {α β : Type} (P : Program W) (V : TypeId → Prop) (Q : α → β → Prop) :
    Except (DepthFirst.Stop ModuleDef) α → Except Fault β → Prop :=
  Sim StopFault (RouteFault P V) Q

/-- What a finished visit of `d` leaves behind. -/
def Follows (P : Program W) (s : Discovery W) (stack : List ModuleDef) (d : ModuleDef)
    (done : List ModuleDef) (result : Nat × Discovery W) : Prop :=
  Tracks P result.2 stack done ∧ s.graph <+: result.2.graph ∧
    (ids result.2.graph)[result.1]? = some d.typeId ∧ LinkedFrom P s.graph.length result.2.graph

/-- What the finished loop over imports `rest` of the node at `index` leaves behind. -/
def FollowsImports (P : Program W) (s : Discovery W) (stack : List ModuleDef) (index : Nat)
    (node : ModuleNode W) (rest done : List ModuleDef) (s' : Discovery W) : Prop :=
  Tracks P s' stack done ∧ s'.graph.take index = s.graph.take index ∧
    ids s.graph <+: ids s'.graph ∧
    (∃ children, s'.graph[index]? = some { node with imports := node.imports ++ children } ∧
      children.map (fun c => (ids s'.graph)[c]?) = rest.map fun d => some d.typeId) ∧
    LinkedFrom P (index + 1) s'.graph

/-- The loop body of `visit` over the imports. -/
def visitImport (P : Program W) (fuel index : Nat) (s : Discovery W) (child : ModuleDef) :
    Except Fault (Discovery W) := do
  let (child, s) ← visit P fuel child s
  s.pushImport index child

/-- Pushing the index of a visited child onto the open node. -/
theorem pushImport_follows {P : Program W} {s s₁ : Discovery W} {stack done₁ : List ModuleDef}
    {index child : Nat} {node : ModuleNode W} {d : ModuleDef}
    (hNode : s.graph[index]? = some node) (hLinked : LinkedFrom P (index + 1) s.graph)
    (h : Follows P s stack d done₁ (child, s₁)) :
    ∃ s₂, s₁.pushImport index child = .ok s₂ ∧ Tracks P s₂ stack done₁ ∧
      s₂.graph[index]? = some { node with imports := node.imports ++ [child] } ∧
      LinkedFrom P (index + 1) s₂.graph ∧ s₂.graph.take index = s.graph.take index ∧
      ids s.graph <+: ids s₂.graph ∧ (ids s₂.graph)[child]? = some d.typeId := by
  obtain ⟨hTracks, hGrows, hChild, hLinked₁⟩ := h
  dsimp only at hTracks hGrows hChild hLinked₁
  have hNode₁ : s₁.graph[index]? = some node := getElem?_of_grows hGrows hNode
  have hLt := (List.getElem?_eq_some_iff.mp hNode).1
  have hIds := ids_set hNode₁ (node.imports ++ [child])
  refine ⟨_, by rw [Discovery.pushImport, hNode₁], hTracks.setImports hNode₁ _, ?_, ?_, ?_, ?_, ?_⟩
  · exact List.getElem?_set_self (List.getElem?_eq_some_iff.mp hNode₁).1
  · intro j m hj hm
    dsimp only at hm ⊢
    rw [List.getElem?_set_ne (by omega)] at hm
    rw [hIds]
    by_cases hOld : j < s.graph.length
    · obtain ⟨r, hr⟩ := hGrows
      have hm' : s.graph[j]? = some m := by
        rw [← hm, ← hr, List.getElem?_append_left hOld]
      exact (hLinked j m hj hm').grow (hr ▸ (List.prefix_append _ _).map _)
    · exact hLinked₁ j m (by omega) hm
  · obtain ⟨r, hr⟩ := hGrows
    dsimp only
    rw [List.take_set_of_le (Nat.le_refl index), ← hr, List.take_append_of_le_length (by omega)]
  · dsimp only
    rw [hIds]
    exact hGrows.map _
  · dsimp only
    rw [hIds]
    exact hChild

theorem followsImports {P : Program W} {n : Nat} {V : TypeId → Prop}
    (hVisit : ∀ (stack done : List ModuleDef) (s : Discovery W) (d : ModuleDef), V d.typeId →
      Tracks P s stack done → Alike P V (Follows P s stack d)
        (DepthFirst.visit ModuleDef.typeId (importsOf P) n stack done d) (visit P n d s))
    (stack : List ModuleDef) (index : Nat) (rest : List ModuleDef) :
    ∀ (done : List ModuleDef) (s : Discovery W) (node : ModuleNode W), (∀ d ∈ rest, V d.typeId) →
      Tracks P s stack done → s.graph[index]? = some node → LinkedFrom P (index + 1) s.graph →
      Alike P V (FollowsImports P s stack index node rest)
        (rest.foldlM (DepthFirst.visit ModuleDef.typeId (importsOf P) n stack) done)
        (rest.foldlM (visitImport P n index) s) := by
  induction rest with
  | nil =>
    intro done s node _ hTracks hNode hLinked
    exact ⟨hTracks, rfl, List.prefix_rfl, ⟨[], by simpa using hNode, rfl⟩, hLinked⟩
  | cons d rest ih =>
    intro done s node hV hTracks hNode hLinked
    rw [List.foldlM_cons, List.foldlM_cons]
    have hBody : (visitImport P n index s d >>= fun s => rest.foldlM (visitImport P n index) s) =
        visit P n d s >>= fun p => p.2.pushImport index p.1 >>= fun s =>
          rest.foldlM (visitImport P n index) s := by
      show ((visit P n d s >>= _) >>= _) = _
      rw [bind_assoc]
    rw [hBody]
    apply Sim.bind (hVisit stack done s d (hV d List.mem_cons_self) hTracks)
    rintro done₁ ⟨child, s₁⟩ hFollows
    obtain ⟨s₂, hPush, hTracks₂, hNode₂, hLinked₂, hTake₂, hIds₂, hChild₂⟩ :=
      pushImport_follows hNode hLinked hFollows
    have hRest := ih done₁ s₂ _ (fun e he => hV e (List.mem_cons_of_mem _ he)) hTracks₂ hNode₂
      hLinked₂
    dsimp only
    rw [hPush]
    -- only the results of the remaining loop are left to carry over
    have hWalk : ∀ walked : Except (DepthFirst.Stop ModuleDef) (List ModuleDef),
        walked = (walked >>= fun done => .ok done) := fun walked => by cases walked <;> rfl
    have hRun : ∀ run : Except Fault (Discovery W), run = (run >>= fun s => .ok s) :=
      fun run => by cases run <;> rfl
    show Alike P V _ (List.foldlM _ done₁ rest) (List.foldlM (visitImport P n index) s₂ rest)
    rw [hWalk (List.foldlM _ done₁ rest), hRun (List.foldlM (visitImport P n index) s₂ rest)]
    apply Sim.bind hRest
    rintro done₂ s₃ ⟨hTracks₃, hTake₃, hIds₃, ⟨children, hNode₃, hChildren⟩, hLinked₃⟩
    refine ⟨hTracks₃, hTake₃.trans hTake₂, hIds₂.trans hIds₃, ⟨child :: children, ?_, ?_⟩, hLinked₃⟩
    · simpa using hNode₃
    · rw [List.map_cons, List.map_cons, hChildren, getElem?_of_grows hIds₃ hChild₂]

/-- The visit of a module that is already visited finds its node. -/
theorem visit_seen_follows {P : Program W} {n : Nat} {stack done : List ModuleDef}
    {s : Discovery W} {d : ModuleDef} (hTracks : Tracks P s stack done)
    (hDone : d.typeId ∈ done.map ModuleDef.typeId) :
    ∃ index, visit P (n + 1) d s = .ok (index, s) ∧ Follows P s stack d done (index, s) := by
  have hMark := (hTracks.visited _).mpr hDone
  have hFound : d.typeId ∈ ids s.graph := (hTracks.found _).mpr (by simp [hMark])
  simp only [visit, hMark]
  cases hIndex : s.graph.findIdx? (fun node => node.typeId = d.typeId) with
  | none =>
    obtain ⟨node, hNode, he⟩ := List.mem_map.mp hFound
    have := List.findIdx?_eq_none_iff.mp hIndex node hNode
    simp [he] at this
  | some index =>
    obtain ⟨hLt, hType, -⟩ := List.findIdx?_eq_some_iff_getElem.mp hIndex
    refine ⟨index, rfl, hTracks, List.prefix_rfl, ?_, ?_⟩
    · rw [ids, List.getElem?_map, List.getElem?_eq_getElem hLt]
      simpa using hType
    · intro j node hj hNode
      have := (List.getElem?_eq_some_iff.mp hNode).1
      dsimp only at this
      omega

/-- Route validation of one module: all controllers pass, or the fault of one is raised. -/
theorem validateRoutes_cases (P : Program W) {V : TypeId → Prop} {t : TypeId} (hV : V t) :
    (RoutesValid P t ∧ ((P.metadataFn t).controllers.forM fun controller =>
        controller.validateRoutes.mapError Fault.exception) = .ok ()) ∨
      ∃ f, RouteFault P V f ∧ ((P.metadataFn t).controllers.forM fun controller =>
        controller.validateRoutes.mapError Fault.exception) = .error f := by
  have hError : ∀ (controller : ControllerDef W) (f : Fault),
      controller.validateRoutes.mapError Fault.exception = .error f →
      ∃ e, controller.validateRoutes = .error e ∧ f = .exception e := by
    intro controller f h
    cases hc : controller.validateRoutes with
    | ok u =>
      rw [hc] at h
      cases h
    | error e =>
      rw [hc] at h
      cases h
      exact ⟨e, rfl, rfl⟩
  cases hRun : (P.metadataFn t).controllers.forM fun controller =>
      controller.validateRoutes.mapError Fault.exception with
  | ok u =>
    refine Or.inl ⟨?_, rfl⟩
    intro controller hMem
    have hOk := forM_ok_iff.mp hRun controller hMem
    cases hc : controller.validateRoutes with
    | ok u => rfl
    | error e =>
      rw [hc] at hOk
      cases hOk
  | error f =>
    obtain ⟨controller, hMem, hErr⟩ := forM_error hRun
    obtain ⟨e, he, rfl⟩ := hError controller f hErr
    exact Or.inr ⟨_, ⟨t, hV, controller, hMem, e, he, rfl⟩, rfl⟩

/-- For modules in a set `V` closed under imports, the visit ends as the walk does
unless the route validation of one of them fails. -/
theorem visit_follows {P : Program W} {V : TypeId → Prop}
    (hImports : ∀ t u, V t → Imports P t u → V u) (n : Nat) :
    ∀ (stack done : List ModuleDef) (s : Discovery W) (d : ModuleDef), V d.typeId →
      Tracks P s stack done → Alike P V (Follows P s stack d)
        (DepthFirst.visit ModuleDef.typeId (importsOf P) n stack done d) (visit P n d s) := by
  induction n with
  | zero =>
    intro stack done s d _ _
    exact Or.inl rfl
  | succ n ih =>
    intro stack done s d hV hTracks
    by_cases hDone : d.typeId ∈ done.map ModuleDef.typeId
    · obtain ⟨index, hRun, hFollows⟩ := visit_seen_follows (n := n) hTracks hDone
      rw [DepthFirst.visit_seen hDone, hRun]
      exact hFollows
    by_cases hOpen : d.typeId ∈ stack.map ModuleDef.typeId
    · rw [DepthFirst.visit_open hDone hOpen]
      simp only [visit, (hTracks.visiting _).mpr hOpen]
      exact Or.inl ⟨_, rfl⟩
    have hFresh := hTracks.fresh hDone hOpen
    rw [DepthFirst.visit_fresh hDone hOpen]
    rcases validateRoutes_cases P hV with ⟨-, hValid⟩ | ⟨f, hFault, hValid⟩
    · have hUnfold : visit P (n + 1) d s =
          (((P.metadataFn d.typeId).imports.foldlM (visitImport P n s.graph.length)
            (s.enter d (P.metadataFn d.typeId))) >>= fun closed =>
              .ok (s.graph.length, closed.leave d)) := by
        simp only [visit, hFresh, hValid]
        rfl
      have hMap : ∀ walked : Except (DepthFirst.Stop ModuleDef) (List ModuleDef),
          walked.map (· ++ [d]) = walked >>= fun done => .ok (done ++ [d]) :=
        fun walked => by cases walked <;> rfl
      have hNode : (s.enter d (P.metadataFn d.typeId)).graph[s.graph.length]? =
          some ⟨d.typeId, d.typeName, { P.metadataFn d.typeId with imports := [] }, []⟩ := by
        simp [Discovery.enter]
      rw [hUnfold, hMap]
      apply Sim.bind (followsImports ih (stack ++ [d]) s.graph.length
        (P.metadataFn d.typeId).imports done (s.enter d (P.metadataFn d.typeId)) _
        (fun e he => hImports _ _ hV ⟨e, he, rfl⟩) (hTracks.enter hFresh) hNode (by
          intro j node hj hm
          have := (List.getElem?_eq_some_iff.mp hm).1
          simp only [Discovery.enter, List.length_append, List.length_singleton] at this
          omega))
      rintro done₁ s₁ ⟨hTracks₁, hTake, -, ⟨children, hNode₁, hChildren⟩, hLinked⟩
      refine ⟨hTracks₁.leave hOpen, ?_, ?_, ?_⟩
      · have hPrefix : s₁.graph.take s.graph.length = s.graph := by
          rw [hTake]
          simp [Discovery.enter]
        have hTaken := List.take_prefix s.graph.length s₁.graph
        rwa [hPrefix] at hTaken
      · simp [Discovery.leave, ids, hNode₁]
      · intro j node hj hm
        rcases Nat.eq_or_lt_of_le hj with rfl | hj
        · have he : some node = _ := hm.symm.trans hNode₁
          cases he
          simpa [Linked, Discovery.leave] using hChildren
        · exact hLinked j node hj hm
    · have hUnfold : visit P (n + 1) d s = .error f := by
        simp only [visit, hFresh, hValid]
        rfl
      rw [hUnfold]
      exact Sim.of_side hFault _

/-! ## The order follows the same walk over the indices -/

/-- Every import index points into the node list. -/
def InRange (nodes : List (ModuleNode W)) : Prop :=
  ∀ node ∈ nodes, ∀ c ∈ node.imports, c < nodes.length

theorem InRange.next {nodes : List (ModuleNode W)} (h : InRange nodes) {i c : Nat}
    (hc : c ∈ importsAt nodes i) : c < nodes.length := by
  cases hNode : nodes[i]? with
  | none => simp [importsAt, hNode] at hc
  | some node =>
    rw [importsAt_some hNode] at hc
    exact h node (List.mem_of_getElem? hNode) c hc

theorem order_fold_follows {nodes : List (ModuleNode W)} {n : Nat} {stack : List Nat}
    (hVisit : ∀ done done' index seen, index < nodes.length →
      (∀ i, i ∈ seen ↔ i ∈ stack ∨ i ∈ done) →
      DepthFirst.visit id (importsAt nodes) n stack done index = .ok done' →
      ∃ seen', order nodes n (seen, done) index = .ok (seen', done') ∧
        ∀ i, i ∈ seen' ↔ i ∈ stack ∨ i ∈ done') (rest : List Nat) :
    ∀ done done' seen, (∀ c ∈ rest, c < nodes.length) → (∀ i, i ∈ seen ↔ i ∈ stack ∨ i ∈ done) →
      rest.foldlM (DepthFirst.visit id (importsAt nodes) n stack) done = .ok done' →
      ∃ seen', rest.foldlM (order nodes n) (seen, done) = .ok (seen', done') ∧
        ∀ i, i ∈ seen' ↔ i ∈ stack ∨ i ∈ done' := by
  induction rest with
  | nil =>
    intro done done' seen _ hSeen h
    cases h
    exact ⟨seen, rfl, hSeen⟩
  | cons c rest ih =>
    intro done done' seen hRange hSeen h
    obtain ⟨mid, hMid, hRest⟩ := foldlM_ok_cons h
    obtain ⟨seen₁, hOrder, hSeen₁⟩ := hVisit done mid c seen (hRange c List.mem_cons_self) hSeen hMid
    obtain ⟨seen₂, hOrders, hSeen₂⟩ := ih mid done' seen₁
      (fun c' hc' => hRange c' (List.mem_cons_of_mem _ hc')) hSeen₁ hRest
    refine ⟨seen₂, ?_, hSeen₂⟩
    rw [List.foldlM_cons, hOrder]
    exact hOrders

/-- `order` finishes the nodes as the walk does when the walk meets no cycle. -/
theorem order_follows {nodes : List (ModuleNode W)} (hRange : InRange nodes) (n : Nat) :
    ∀ (stack done done' : List Nat) (index : Nat) (seen : Finset Nat), index < nodes.length →
      (∀ i, i ∈ seen ↔ i ∈ stack ∨ i ∈ done) →
      DepthFirst.visit id (importsAt nodes) n stack done index = .ok done' →
      ∃ seen', order nodes n (seen, done) index = .ok (seen', done') ∧
        ∀ i, i ∈ seen' ↔ i ∈ stack ∨ i ∈ done' := by
  induction n with
  | zero =>
    intro stack done done' index seen _ _ h
    cases h
  | succ n ih =>
    intro stack done done' index seen hIndex hSeen h
    by_cases hDone : id index ∈ done.map id
    · rw [DepthFirst.visit_seen hDone] at h
      cases h
      have hMem : index ∈ seen := (hSeen index).mpr (Or.inr (by simpa using hDone))
      exact ⟨seen, by rw [order, if_pos hMem], hSeen⟩
    · by_cases hOpen : id index ∈ stack.map id
      · rw [DepthFirst.visit_open hDone hOpen] at h
        cases h
      · rw [DepthFirst.visit_fresh hDone hOpen] at h
        obtain ⟨mid, hMid, rfl⟩ := map_ok h
        have hNew : index ∉ seen := by
          rw [hSeen]
          rintro (hk | hk)
          · exact hOpen (by simpa using hk)
          · exact hDone (by simpa using hk)
        have hNode := List.getElem?_eq_getElem hIndex
        rw [importsAt_some hNode] at hMid
        have hSeen' : ∀ i, i ∈ insert index seen ↔ i ∈ stack ++ [index] ∨ i ∈ done := by
          intro i
          simp only [Finset.mem_insert, hSeen, List.mem_append, List.mem_singleton]
          tauto
        obtain ⟨seen₁, hOrder, hSeen₁⟩ := order_fold_follows (ih (stack ++ [index])) _ done mid
          (insert index seen) (hRange _ (List.getElem_mem hIndex)) hSeen' hMid
        refine ⟨seen₁, ?_, ?_⟩
        · simp only [order, if_neg hNew, hNode, hOrder]
          rfl
        · intro i
          simp only [hSeen₁, List.mem_append, List.mem_singleton]
          tauto

/-! ## Moving the nodes into their order -/

theorem remapIndices_snoc (l : List Nat) (x : Nat) :
    remapIndices (l ++ [x]) = Function.update (remapIndices l) x (some l.length) := by
  simp [remapIndices, List.zipIdx_append]

theorem remapIndices_iff {ordered : List Nat} (hNodup : ordered.Nodup) (old new : Nat) :
    remapIndices ordered old = some new ↔ ordered[new]? = some old := by
  induction ordered using List.reverseRecOn with
  | nil => simp [remapIndices]
  | append_singleton l x ih =>
    rw [List.nodup_append] at hNodup
    have hx : x ∉ l := fun hMem => hNodup.2.2 x hMem x (by simp) rfl
    rw [remapIndices_snoc]
    by_cases hOld : old = x
    · subst hOld
      simp only [Function.update_self, Option.some.injEq]
      constructor
      · rintro rfl
        simp
      · intro h
        by_contra hne
        have hLt : new < l.length := by
          have := (List.getElem?_eq_some_iff.mp h).1
          rw [List.length_append, List.length_singleton] at this
          omega
        rw [List.getElem?_append_left hLt] at h
        exact hx (List.mem_of_getElem? h)
    · rw [Function.update_of_ne hOld, ih hNodup.1]
      constructor
      · intro h
        rw [List.getElem?_append_left (List.getElem?_eq_some_iff.mp h).1, h]
      · intro h
        have hLt : new < l.length := by
          by_contra hLe
          have hLen := (List.getElem?_eq_some_iff.mp h).1
          rw [List.length_append, List.length_singleton] at hLen
          obtain rfl : new = l.length := by omega
          exact hOld (by simpa using h.symm)
        rwa [List.getElem?_append_left hLt] at h

theorem mapM_remapImport {remap : Nat → Option Nat} {l : List Nat}
    (h : ∀ c ∈ l, ∃ j, remap c = some j) :
    ∃ js, l.mapM (remapImport remap) = .ok js ∧ List.Forall₂ (fun c j => remap c = some j) l js := by
  induction l with
  | nil => exact ⟨[], rfl, List.Forall₂.nil⟩
  | cons c l ih =>
    obtain ⟨j, hj⟩ := h c List.mem_cons_self
    obtain ⟨js, hjs, hAll⟩ := ih fun c' hc' => h c' (List.mem_cons_of_mem _ hc')
    refine ⟨j :: js, ?_, List.Forall₂.cons hj hAll⟩
    rw [List.mapM_cons, remapImport, hj, hjs]
    rfl

/-- The node at `old`, with its imports remapped. -/
def Moved (nodes : List (ModuleNode W)) (remap : Nat → Option Nat) (old : Nat)
    (moved : ModuleNode W) : Prop :=
  ∃ node imports, nodes[old]? = some node ∧ moved = { node with imports } ∧
    List.Forall₂ (fun c j => remap c = some j) node.imports imports

theorem takeNodes_ok {nodes : List (ModuleNode W)} {remap : Nat → Option Nat} (rest : List Nat) :
    ∀ slots : List (Option (ModuleNode W)), rest.Nodup →
      (∀ old ∈ rest, ∃ node, nodes[old]? = some node ∧ slots[old]? = some (some node) ∧
        ∀ c ∈ node.imports, ∃ j, remap c = some j) →
      ∃ result, takeNodes remap slots rest = .ok result ∧
        List.Forall₂ (Moved nodes remap) rest result := by
  induction rest with
  | nil =>
    intro slots _ _
    exact ⟨[], rfl, List.Forall₂.nil⟩
  | cons old rest ih =>
    intro slots hNodup hSlots
    obtain ⟨hNew, hNodup⟩ := List.nodup_cons.mp hNodup
    obtain ⟨node, hNode, hSlot, hImports⟩ := hSlots old List.mem_cons_self
    obtain ⟨imports, hMap, hAll⟩ := mapM_remapImport hImports
    obtain ⟨result, hRest, hMoved⟩ := ih (slots.set old none) hNodup (by
      intro old' hOld'
      obtain ⟨node', hNode', hSlot', hImports'⟩ := hSlots old' (List.mem_cons_of_mem _ hOld')
      have hne : old ≠ old' := fun he => hNew (he ▸ hOld')
      exact ⟨node', hNode', by rw [List.getElem?_set_ne hne, hSlot'], hImports'⟩)
    refine ⟨{ node with imports } :: result, ?_, ?_⟩
    · simp only [takeNodes, hSlot, hMap, hRest]
      rfl
    · exact List.Forall₂.cons ⟨node, imports, hNode, rfl, hAll⟩ hMoved

theorem forall₂_getElem? {α β : Type} {R : α → β → Prop} {l : List α} {l' : List β}
    (h : List.Forall₂ R l l') {i : Nat} {b : β} (hb : l'[i]? = some b) :
    ∃ a, l[i]? = some a ∧ R a b := by
  induction h generalizing i with
  | nil => simp at hb
  | cons hab _ ih =>
    cases i with
    | zero =>
      obtain rfl := Option.some.inj hb
      exact ⟨_, rfl, hab⟩
    | succ i => exact ih hb

end Caelix
