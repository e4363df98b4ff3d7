import Caelix.Core.DiscoverExact
import Caelix.Core.Schedule
import Mathlib.Data.List.Pairwise

/-!
# Preflight decides the module specification

Each pass of `preflight` is matched with the condition it checks, for a graph whose
imports point at smaller indices.

* `preflight_ok_iff`: with any container, preflight returns an order exactly when the
  conditions hold (`Accepted`) and the order is a schedule.
* `preflight_none_ok_iff`: without a container, preflight decides `ModuleSpec`.
-/

namespace Caelix

open Relation Fallible

variable {W : Type}

namespace ModuleGraph

variable {graph : ModuleGraph W} {container : Option (RootContainer W)}

/-- Every import points at an earlier module, as discovery arranges it. -/
def ImportsFirst (graph : ModuleGraph W) : Prop :=
  ∀ m, ∀ c ∈ importsAt graph.nodes m, c < m

theorem importsFirst_of_discovered {P : Program W} {root : TypeId} (h : Discovered P root graph) :
    graph.ImportsFirst := by
  intro m c hc
  cases hNode : graph.nodes[m]? with
  | none => simp [importsAt, hNode] at hc
  | some node =>
    rw [importsAt_some hNode] at hc
    exact h.imports_lt m node hNode c hc

/-! ## Declared types -/

/-- A type declared more than once is provided by an override. -/
def RepeatsOverridden (graph : ModuleGraph W) (container : Option (RootContainer W)) : Prop :=
  ∀ t, 1 < (graph.definitions.map ProviderRegistration.typeId).count t →
    overriddenIn container t = true

theorem indexType_ok_iff {byType byType' : TypeIndex W} {r : ProviderRegistration W} :
    graph.indexType container byType r = .ok byType' ↔
      ((byType r.typeId).isSome → overriddenIn container r.typeId = true) ∧
        byType' = Function.update byType r.typeId (some r) := by
  rw [indexType]
  cases byType r.typeId with
  | none =>
    constructor
    · intro h
      cases h
      exact ⟨fun hSome => absurd hSome Bool.false_ne_true, rfl⟩
    · rintro ⟨-, rfl⟩
      rfl
  | some existing =>
    by_cases hOverride : overriddenIn container r.typeId = true
    · simp only [hOverride, if_true, Except.ok.injEq, implies_true, true_and]
      exact eq_comm
    · simp [hOverride]

theorem indexTypes_fold (l : List (ProviderRegistration W)) (byType : TypeIndex W) :
    l.foldlM (graph.indexType container) (fun _ => none) = .ok byType ↔
      (∀ t, 1 < (l.map ProviderRegistration.typeId).count t → overriddenIn container t = true) ∧
        byType = fun t => l.reverse.find? fun r => r.typeId = t := by
  induction l using List.reverseRecOn generalizing byType with
  | nil =>
    constructor
    · intro h
      cases h
      exact ⟨by simp, rfl⟩
    · rintro ⟨-, rfl⟩
      rfl
  | append_singleton l r ih =>
    have hLast : (fun t => (l ++ [r]).reverse.find? fun r => r.typeId = t) =
        Function.update (fun t => l.reverse.find? fun r => r.typeId = t) r.typeId (some r) := by
      funext t
      by_cases ht : t = r.typeId
      · simp [ht]
      · rw [Function.update_of_ne ht]
        simp [Ne.symm ht]
    have hCount : ∀ t, ((l ++ [r]).map ProviderRegistration.typeId).count t =
        (l.map ProviderRegistration.typeId).count t + if t = r.typeId then 1 else 0 := by
      intro t
      rw [List.map_append, List.count_append, List.map_singleton, List.count_singleton]
      by_cases ht : t = r.typeId
      · simp [ht]
      · simp [ht, Ne.symm ht]
    have hSeen : (l.reverse.find? fun q => q.typeId = r.typeId).isSome ↔
        0 < (l.map ProviderRegistration.typeId).count r.typeId := by
      simp [List.count_pos_iff]
    rw [List.foldlM_append, bind_ok_iff, hLast]
    simp only [List.foldlM_cons, List.foldlM_nil, bind_pure, hCount, ih, indexType_ok_iff]
    constructor
    · rintro ⟨_, ⟨hRepeats, rfl⟩, hAgain, rfl⟩
      refine ⟨?_, rfl⟩
      intro t ht
      by_cases hType : t = r.typeId
      · subst hType
        rw [if_pos rfl] at ht
        exact hAgain (hSeen.mpr (by omega))
      · rw [if_neg hType] at ht
        exact hRepeats t ht
    · rintro ⟨hRepeats, rfl⟩
      refine ⟨_, ⟨fun t ht => hRepeats t (by omega), rfl⟩, ?_, rfl⟩
      intro hFound
      have hPos := hSeen.mp hFound
      exact hRepeats r.typeId (by rw [if_pos rfl]; omega)

theorem indexTypes_ok_iff {byType : TypeIndex W} :
    graph.indexTypes container = .ok byType ↔
      graph.RepeatsOverridden container ∧ byType = graph.lastDeclared :=
  indexTypes_fold graph.definitions byType

/-! ## Exports and visibility -/

/-- The types that a module exports. -/
def exportTypes (graph : ModuleGraph W) (m : Nat) : List TypeId :=
  (graph.nodes[m]?.map fun node => node.metadata.exports.map ProviderDependency.typeId).getD []

/-- Every export is declared locally or exported by a direct import. -/
def ExportsLegal (graph : ModuleGraph W) : Prop :=
  ∀ m, ∀ t ∈ graph.exportTypes m,
    t ∈ graph.localTypes m ∨ ∃ c ∈ importsAt graph.nodes m, t ∈ graph.exportTypes c

/-- A type can be seen from a module: it is declared there, exported by a global module, or
exported by a direct import. -/
def Visible (graph : ModuleGraph W) (m : Nat) (t : TypeId) : Prop :=
  t ∈ graph.localTypes m ∨
  (∃ (g : Nat) (node : ModuleNode W), graph.nodes[g]? = some node ∧
    node.metadata.global = true ∧ t ∈ graph.exportTypes g) ∨
  ∃ c ∈ importsAt graph.nodes m, t ∈ graph.exportTypes c

theorem addExports_ok_iff {k : Nat} {node : ModuleNode W} (hSmaller : ∀ c ∈ node.imports, c ≠ k)
    (l : List ProviderDependency) (exports exports' : Nat → List TypeId) :
    l.foldlM (graph.addExport k node) exports = .ok exports' ↔
      (∀ e ∈ l, e.typeId ∈ graph.localTypes k ∨ ∃ c ∈ node.imports, e.typeId ∈ exports c) ∧
        exports' = Function.update exports k
          (exports k ++ l.map ProviderDependency.typeId) := by
  induction l generalizing exports with
  | nil =>
    simp only [List.map_nil, List.append_nil, Function.update_eq_self]
    constructor
    · intro h
      cases h
      exact ⟨by simp, rfl⟩
    · rintro ⟨-, rfl⟩
      rfl
  | cons e l ih =>
    rw [List.foldlM_cons, List.forall_mem_cons, bind_ok_iff]
    by_cases hLegal : e.typeId ∈ graph.localTypes k ∨ ∃ c ∈ node.imports, e.typeId ∈ exports c
    · have hAdd : graph.addExport k node exports e =
          .ok (Function.update exports k (exports k ++ [e.typeId])) := if_pos hLegal
      -- the sets of the imports are not touched while module `k` is processed
      have hOther : ∀ u, (∃ c ∈ node.imports,
            u ∈ Function.update exports k (exports k ++ [e.typeId]) c) ↔
          ∃ c ∈ node.imports, u ∈ exports c := by
        intro u
        apply exists_congr
        intro c
        apply and_congr_right
        intro hc
        rw [Function.update_of_ne (hSmaller c hc)]
      rw [hAdd]
      constructor
      · rintro ⟨_, h, hRest⟩
        cases h
        obtain ⟨hAll, rfl⟩ := (ih _).mp hRest
        refine ⟨⟨hLegal, fun e' he' => ?_⟩, ?_⟩
        · rw [← hOther]
          exact hAll e' he'
        · simp
      · rintro ⟨⟨-, hAll⟩, rfl⟩
        refine ⟨_, rfl, (ih _).mpr ⟨fun e' he' => ?_, ?_⟩⟩
        · rw [hOther]
          exact hAll e' he'
        · simp
    · have hAdd : ∃ f, graph.addExport k node exports e = .error f := ⟨_, if_neg hLegal⟩
      obtain ⟨f, hf⟩ := hAdd
      rw [hf]
      constructor
      · rintro ⟨_, h, -⟩
        cases h
      · rintro ⟨⟨h, -⟩, -⟩
        exact absurd h hLegal

/-- The exports of the modules below `k`, as collected before module `k` is processed. -/
def exportsBelow (graph : ModuleGraph W) (k : Nat) : Nat → List TypeId := fun m =>
  if m < k then graph.exportTypes m else []

theorem exportTypes_of_le {m : Nat} (h : graph.nodes.length ≤ m) : graph.exportTypes m = [] := by
  rw [exportTypes, List.getElem?_eq_none_iff.mpr h]
  rfl

theorem exportsBelow_length : graph.exportsBelow graph.nodes.length = graph.exportTypes := by
  funext m
  by_cases hm : m < graph.nodes.length
  · rw [exportsBelow, if_pos hm]
  · rw [exportsBelow, if_neg hm, exportTypes_of_le (Nat.le_of_not_lt hm)]

theorem exportsBelow_succ {k : Nat} {node : ModuleNode W} (hNode : graph.nodes[k]? = some node) :
    Function.update (graph.exportsBelow k) k (graph.exportsBelow k k ++
      node.metadata.exports.map ProviderDependency.typeId) = graph.exportsBelow (k + 1) := by
  funext m
  by_cases hm : m = k
  · subst hm
    simp [exportsBelow, exportTypes, hNode]
  · rw [Function.update_of_ne hm, exportsBelow, exportsBelow]
    by_cases hLt : m < k
    · rw [if_pos hLt, if_pos (by omega)]
    · rw [if_neg hLt, if_neg (by omega)]

theorem collectExports_fold (hFirst : graph.ImportsFirst) (l : List (ModuleNode W)) :
    ∀ (k : Nat) (exports : Nat → List TypeId), k + l.length = graph.nodes.length →
      (∀ i, l[i]? = graph.nodes[k + i]?) →
      ((l.zipIdx k).foldlM (fun exports p => p.1.metadata.exports.foldlM
          (graph.addExport p.2 p.1) exports) (graph.exportsBelow k) = .ok exports ↔
        (∀ m, k ≤ m → ∀ t ∈ graph.exportTypes m, t ∈ graph.localTypes m ∨
          ∃ c ∈ importsAt graph.nodes m, t ∈ graph.exportTypes c) ∧
        exports = graph.exportTypes) := by
  induction l with
  | nil =>
    intro k exports hLen _
    rw [List.length_nil, Nat.add_zero] at hLen
    subst hLen
    rw [exportsBelow_length]
    constructor
    · intro h
      cases h
      refine ⟨?_, rfl⟩
      intro m hm t ht
      rw [exportTypes_of_le hm] at ht
      cases ht
    · rintro ⟨-, rfl⟩
      rfl
  | cons node l ih =>
    intro k exports hLen hNodes
    have hNode : graph.nodes[k]? = some node := by simpa using (hNodes 0).symm
    have hImports := importsAt_some hNode
    have hSmaller : ∀ c ∈ node.imports, c < k := by
      intro c hc
      exact hFirst k c (by rwa [hImports])
    have hStep := exportsBelow_succ hNode
    have hHere : ∀ t, (∃ c ∈ node.imports, t ∈ graph.exportsBelow k c) ↔
        ∃ c ∈ node.imports, t ∈ graph.exportTypes c := by
      intro t
      apply exists_congr
      intro c
      apply and_congr_right
      intro hc
      rw [exportsBelow, if_pos (hSmaller c hc)]
    have hRest := ih (k + 1) exports (by rw [List.length_cons] at hLen; omega) (fun i => by
      have := hNodes (i + 1)
      rw [List.getElem?_cons_succ] at this
      rw [this]
      congr 1
      omega)
    rw [List.zipIdx_cons, List.foldlM_cons, bind_ok_iff]
    have hTypes : graph.exportTypes k = node.metadata.exports.map ProviderDependency.typeId := by
      simp [exportTypes, hNode]
    constructor
    · rintro ⟨_, hMod, hLater⟩
      obtain ⟨hLegal, rfl⟩ := (addExports_ok_iff (fun c hc => (hSmaller c hc).ne) _ _ _).mp hMod
      dsimp only at hLater
      rw [hStep] at hLater
      obtain ⟨hAll, rfl⟩ := hRest.mp hLater
      refine ⟨?_, rfl⟩
      intro m hm t ht
      rcases Nat.eq_or_lt_of_le hm with rfl | hm
      · rw [hTypes] at ht
        obtain ⟨e, he, rfl⟩ := List.mem_map.mp ht
        rw [hImports, ← hHere]
        exact hLegal e he
      · exact hAll m hm t ht
    · rintro ⟨hAll, rfl⟩
      refine ⟨_, (addExports_ok_iff (fun c hc => (hSmaller c hc).ne) _ _ _).mpr ⟨?_, rfl⟩, ?_⟩
      · intro e he
        rw [hHere, ← hImports]
        exact hAll k (le_refl k) e.typeId (by rw [hTypes]; exact List.mem_map_of_mem he)
      · dsimp only
        rw [hStep]
        exact hRest.mpr ⟨fun m hm => hAll m (by omega), rfl⟩

theorem collectExports_ok_iff (hFirst : graph.ImportsFirst) {exports : Nat → List TypeId} :
    graph.collectExports = .ok exports ↔ graph.ExportsLegal ∧ exports = graph.exportTypes := by
  have hFold := collectExports_fold hFirst graph.nodes 0 exports (by omega) (by simp)
  have hStart : graph.exportsBelow 0 = fun _ => [] := by
    funext m
    simp [exportsBelow]
  rw [hStart] at hFold
  rw [collectExports, hFold]
  simp [ExportsLegal]

theorem visible_iff {m : Nat} {t : TypeId} :
    graph.visible graph.exportTypes m t = true ↔ graph.Visible m t := by
  have hGlobal : t ∈ graph.globalExports graph.exportTypes ↔
      ∃ (g : Nat) (node : ModuleNode W), graph.nodes[g]? = some node ∧
        node.metadata.global = true ∧ t ∈ graph.exportTypes g := by
    simp only [globalExports, List.mem_flatMap, List.mem_filter, Prod.exists,
      List.mk_mem_zipIdx_iff_getElem?]
    constructor
    · rintro ⟨node, g, ⟨hNode, hFlag⟩, ht⟩
      exact ⟨g, node, hNode, hFlag, ht⟩
    · rintro ⟨g, node, hNode, hFlag, ht⟩
      exact ⟨node, g, ⟨hNode, hFlag⟩, ht⟩
  rw [visible, Visible, ← hGlobal]
  simp [or_assoc]

/-! ## Dependencies and event handlers -/

/-- A dependency of a provider in module `m` is met: by a declared and visible type, or,
if no module declares it, by a service registered beforehand. -/
def DependencyMet (graph : ModuleGraph W) (container : Option (RootContainer W)) (m : Nat)
    (t : TypeId) : Prop :=
  (graph.Declares t → graph.Visible m t) ∧
    (¬ graph.Declares t → (container.any fun c => c.containsTypeId t) = true)

/-- All effective dependencies but the logger are met. -/
def DependenciesMet (graph : ModuleGraph W) (container : Option (RootContainer W)) : Prop :=
  ∀ r ∈ graph.definitions, ∀ d ∈ (effectiveDef container r.definition).dependencies,
    d.typeId ≠ TypeId.logger → graph.DependencyMet container r.module d.typeId

theorem checkDependency_ok_iff {m : Nat} {effective : ProviderDef W} {d : ProviderDependency} :
    graph.checkDependency container graph.lastDeclared graph.exportTypes m effective d = .ok () ↔
      (d.typeId ≠ TypeId.logger → graph.DependencyMet container m d.typeId) := by
  unfold checkDependency DependencyMet
  by_cases hLogger : d.typeId = TypeId.logger
  · simp [hLogger]
  · rw [if_neg hLogger]
    by_cases hDeclared : graph.Declares d.typeId
    · rw [if_pos (lastDeclared_isSome.mpr hDeclared), ite_ok_iff, visible_iff]
      exact ⟨fun h _ => ⟨fun _ => h, fun hNone => absurd hDeclared hNone⟩,
        fun h => (h hLogger).1 hDeclared⟩
    · rw [if_neg (fun h => hDeclared (lastDeclared_isSome.mp h)), ite_ok_iff]
      exact ⟨fun h _ => ⟨fun hSome => absurd hSome hDeclared, fun _ => h⟩,
        fun h => (h hLogger).2 hDeclared⟩

theorem checkDependencies_ok_iff :
    graph.checkDependencies container graph.lastDeclared graph.exportTypes = .ok () ↔
      graph.DependenciesMet container := by
  unfold checkDependencies DependenciesMet
  rw [forM_ok_iff]
  simp only [forM_ok_iff, checkDependency_ok_iff]

/-- Every event handler is declared in its module, from which the event bus is visible. -/
def EventHandlersMet (graph : ModuleGraph W) : Prop :=
  ∀ p ∈ graph.eventHandlers, p.2.typeId ∈ graph.localTypes p.1 ∧ graph.Visible p.1 TypeId.eventBus

theorem checkEventHandlers_ok_iff :
    graph.checkEventHandlers graph.exportTypes = .ok () ↔ graph.EventHandlersMet := by
  unfold checkEventHandlers EventHandlersMet
  rw [forM_ok_iff]
  apply forall₂_congr
  intro p _
  rw [bind_ok_iff, ite_ok_iff, visible_iff, EventHandlerDef.assertRegisteredOrDeclared]
  constructor
  · rintro ⟨⟨⟩, hDeclared, hVisible⟩
    exact ⟨ite_ok_iff.mp hDeclared, hVisible⟩
  · rintro ⟨hDeclared, hVisible⟩
    exact ⟨(), ite_ok_iff.mpr hDeclared, hVisible⟩

/-! ## Message subjects -/

/-- The entries of the two subject maps once the handlers `l` are added. -/
def subjectsOf (l : List (Nat × MessageHandlerDef)) : Subjects where
  commands := (l.filter fun p => p.2.kind = .command).map fun p => (p.2.pattern, p.1)
  events := (l.filter fun p => p.2.kind = .event).map fun p => (p.2.pattern, p.1)

theorem subjectsOf_command (l : List (Nat × MessageHandlerDef)) (m : Nat) (pattern : String) :
    subjectsOf (l ++ [(m, ⟨.command, pattern⟩)]) =
      ⟨(subjectsOf l).commands ++ [(pattern, m)], (subjectsOf l).events⟩ := by
  simp [subjectsOf]

theorem subjectsOf_event (l : List (Nat × MessageHandlerDef)) (m : Nat) (pattern : String) :
    subjectsOf (l ++ [(m, ⟨.event, pattern⟩)]) =
      ⟨(subjectsOf l).commands, (subjectsOf l).events ++ [(pattern, m)]⟩ := by
  simp [subjectsOf]

/-- The subjects of the handlers are valid and distinct. -/
def SubjectsValid (l : List (Nat × MessageHandlerDef)) : Prop :=
  (∀ p ∈ l, ValidPattern p.2.pattern (p.2.kind == .command)) ∧ (l.map fun p => p.2.pattern).Nodup

theorem lookup_none_iff {l : List (Nat × MessageHandlerDef)} {kind : MessageHandlerKind}
    {pattern : String} :
    ((l.filter fun p => p.2.kind = kind).map fun p => (p.2.pattern, p.1)).lookup pattern = none ↔
      ∀ p ∈ l, p.2.kind = kind → p.2.pattern ≠ pattern := by
  rw [List.lookup_eq_none_iff]
  constructor
  · intro h p hp hKind he
    have := h (p.2.pattern, p.1) (List.mem_map_of_mem (List.mem_filter.mpr ⟨hp, by simpa using hKind⟩))
    simp [he] at this
  · intro h q hq
    obtain ⟨p, hp, rfl⟩ := List.mem_map.mp hq
    obtain ⟨hp, hKind⟩ := List.mem_filter.mp hp
    have := h p hp (by simpa using hKind)
    simpa using Ne.symm this

/-- The two maps together tell whether a subject is taken. -/
theorem notMem_patterns_iff {l : List (Nat × MessageHandlerDef)} {pattern : String} :
    pattern ∉ l.map (fun p => p.2.pattern) ↔
      (subjectsOf l).commands.lookup pattern = none ∧ (subjectsOf l).events.lookup pattern = none := by
  rw [subjectsOf, lookup_none_iff, lookup_none_iff, List.mem_map, not_exists]
  constructor
  · intro h
    exact ⟨fun p hp _ he => h p ⟨hp, he⟩, fun p hp _ he => h p ⟨hp, he⟩⟩
  · rintro ⟨hCommand, hEvent⟩ p ⟨hp, he⟩
    cases hKind : p.2.kind with
    | command => exact hCommand p hp hKind he
    | event => exact hEvent p hp hKind he

theorem addSubject_ok_iff {l : List (Nat × MessageHandlerDef)} {p : Nat × MessageHandlerDef}
    {subjects : Subjects} :
    graph.addSubject (subjectsOf l) p = .ok subjects ↔
      (validMicroservicePattern p.2.pattern (p.2.kind == .command) = true ∧
        p.2.pattern ∉ l.map fun q => q.2.pattern) ∧ subjects = subjectsOf (l ++ [p]) := by
  rw [notMem_patterns_iff]
  obtain ⟨m, kind, pattern⟩ := p
  unfold addSubject
  by_cases hValid : validMicroservicePattern pattern (kind == .command) = true
  · simp only [hValid, if_true, true_and]
    cases hCommands : (subjectsOf l).commands.lookup pattern with
    | some other =>
      cases kind with
      | command =>
        cases hEvents : (subjectsOf l).events.lookup pattern <;> simp [hCommands, hEvents]
      | event =>
        simp [hCommands]
    | none =>
      cases hEvents : (subjectsOf l).events.lookup pattern with
      | some other => cases kind <;> simp [hCommands, hEvents]
      | none =>
        cases kind with
        | command =>
          rw [subjectsOf_command]
          simp [hCommands, hEvents, eq_comm (b := subjects)]
        | event =>
          rw [subjectsOf_event]
          simp [hCommands, hEvents, eq_comm (b := subjects)]
  · simp [hValid]

theorem collectSubjects_fold (l : List (Nat × MessageHandlerDef)) (subjects : Subjects) :
    l.foldlM graph.addSubject ⟨[], []⟩ = .ok subjects ↔
      SubjectsValid l ∧ subjects = subjectsOf l := by
  induction l using List.reverseRecOn generalizing subjects with
  | nil =>
    constructor
    · intro h
      cases h
      exact ⟨⟨by simp, by simp⟩, rfl⟩
    · rintro ⟨-, rfl⟩
      rfl
  | append_singleton l p ih =>
    have hSingle : ∀ s, [p].foldlM graph.addSubject s = graph.addSubject s p := by
      intro s
      rw [List.foldlM_cons]
      cases graph.addSubject s p <;> rfl
    have hValid : SubjectsValid (l ++ [p]) ↔ SubjectsValid l ∧
        (validMicroservicePattern p.2.pattern (p.2.kind == .command) = true ∧
          p.2.pattern ∉ l.map fun q => q.2.pattern) := by
      rw [SubjectsValid, SubjectsValid, validMicroservicePattern_iff, List.map_append,
        List.nodup_append]
      constructor
      · rintro ⟨hAll, hNodup, -, hNew⟩
        refine ⟨⟨fun q hq => hAll q (List.mem_append_left _ hq), hNodup⟩, hAll p (by simp), ?_⟩
        intro hMem
        exact hNew _ hMem p.2.pattern (by simp) rfl
      · rintro ⟨⟨hAll, hNodup⟩, hPattern, hNew⟩
        refine ⟨?_, hNodup, by simp, ?_⟩
        · intro q hq
          rcases List.mem_append.mp hq with hq | hq
          · exact hAll q hq
          · obtain rfl : q = p := by simpa using hq
            exact hPattern
        · intro t ht u hu he
          obtain rfl : u = p.2.pattern := by simpa using hu
          exact hNew (he ▸ ht)
    rw [List.foldlM_append, bind_ok_iff, hValid]
    constructor
    · rintro ⟨_, h, hStep⟩
      obtain ⟨hAll, rfl⟩ := (ih _).mp h
      rw [hSingle] at hStep
      obtain ⟨hNew, rfl⟩ := addSubject_ok_iff.mp hStep
      exact ⟨⟨hAll, hNew⟩, rfl⟩
    · rintro ⟨⟨hAll, hNew⟩, rfl⟩
      refine ⟨_, (ih _).mpr ⟨hAll, rfl⟩, ?_⟩
      rw [hSingle]
      exact addSubject_ok_iff.mpr ⟨hNew, rfl⟩

/-- No command subject overlaps an event pattern, and no two event patterns overlap. -/
def SubjectsDisjoint (l : List (Nat × MessageHandlerDef)) : Prop :=
  (∀ p ∈ l, p.2.kind = .command → ∀ q ∈ l, q.2.kind = .event →
    ¬ Overlap p.2.pattern q.2.pattern) ∧
  ∀ p ∈ l, p.2.kind = .event → ∀ q ∈ l, q.2.kind = .event → p.2.pattern ≠ q.2.pattern →
    ¬ Overlap p.2.pattern q.2.pattern

theorem checkEventOverlaps_ok_iff (l : List String) :
    checkEventOverlaps l = .ok () ↔
      l.Pairwise fun first second => microservicePatternsIntersect first second = false := by
  induction l with
  | nil => simp [checkEventOverlaps]
  | cons first later ih =>
    rw [checkEventOverlaps, bind_ok_iff, List.pairwise_cons, ih]
    have hPair : ∀ second e, (if microservicePatternsIntersect first second then .error e
        else .ok () : Except Fault Unit) = .ok () ↔
          microservicePatternsIntersect first second = false := by
      intro second e
      cases microservicePatternsIntersect first second <;> simp
    constructor
    · rintro ⟨⟨⟩, hLater, hRest⟩
      refine ⟨?_, hRest⟩
      intro second hSecond
      exact (hPair second _).mp (forM_ok_iff.mp hLater second hSecond)
    · rintro ⟨hLater, hRest⟩
      refine ⟨(), forM_ok_iff.mpr ?_, hRest⟩
      intro second hSecond
      exact (hPair second _).mpr (hLater second hSecond)

theorem checkSubjects_ok_iff {l : List (Nat × MessageHandlerDef)} (hValid : SubjectsValid l) :
    checkSubjects (subjectsOf l) = .ok () ↔ SubjectsDisjoint l := by
  have hOverlap : ∀ p ∈ l, ∀ q ∈ l, microservicePatternsIntersect p.2.pattern q.2.pattern = true ↔
      Overlap p.2.pattern q.2.pattern := fun p hp q hq =>
    microservicePatternsIntersect_iff (hValid.1 p hp) (hValid.1 q hq)
  have hFalse : ∀ p ∈ l, ∀ q ∈ l, microservicePatternsIntersect p.2.pattern q.2.pattern = false ↔
      ¬ Overlap p.2.pattern q.2.pattern := by
    intro p hp q hq
    rw [← hOverlap p hp q hq, Bool.not_eq_true]
  have hNodup : ((subjectsOf l).events.map Prod.fst).Nodup := by
    rw [subjectsOf, List.map_map]
    exact hValid.2.sublist (List.filter_sublist.map _)
  have hEvent : ∀ pattern, pattern ∈ (subjectsOf l).events.map Prod.fst ↔
      ∃ p ∈ l, p.2.kind = .event ∧ p.2.pattern = pattern := by
    intro pattern
    simp [subjectsOf, and_assoc]
  rw [checkSubjects, bind_ok_iff, SubjectsDisjoint, checkEventOverlaps_ok_iff]
  constructor
  · rintro ⟨⟨⟩, hCross, hPairs⟩
    constructor
    · intro p hp hCommand q hq hEventKind
      have hp' : (p.2.pattern, p.1) ∈ (subjectsOf l).commands :=
        List.mem_map_of_mem (List.mem_filter.mpr ⟨hp, by simpa using hCommand⟩)
      have hq' : (q.2.pattern, q.1) ∈ (subjectsOf l).events :=
        List.mem_map_of_mem (List.mem_filter.mpr ⟨hq, by simpa using hEventKind⟩)
      have hCheck := forM_ok_iff.mp (forM_ok_iff.mp hCross _ hp') _ hq'
      rw [← hFalse p hp q hq]
      cases hIntersect : microservicePatternsIntersect p.2.pattern q.2.pattern with
      | false => rfl
      | true => simp [hIntersect] at hCheck
    · intro p hp hpKind q hq hqKind hne
      -- one of the two stands before the other in the list of event subjects
      have hSplit := List.pairwise_iff_getElem.mp hPairs
      obtain ⟨i, hi, hpi⟩ := List.mem_iff_getElem.mp ((hEvent _).mpr ⟨p, hp, hpKind, rfl⟩)
      obtain ⟨j, hj, hqj⟩ := List.mem_iff_getElem.mp ((hEvent _).mpr ⟨q, hq, hqKind, rfl⟩)
      rcases Nat.lt_trichotomy i j with hLt | rfl | hLt
      · have := hSplit i j hi hj hLt
        rw [hpi, hqj] at this
        exact (hFalse p hp q hq).mp this
      · exact absurd (hpi.symm.trans hqj) hne
      · have := hSplit j i hj hi hLt
        rw [hpi, hqj] at this
        rintro ⟨subject, hConcrete, hpMatch, hqMatch⟩
        exact (hFalse q hq p hp).mp this ⟨subject, hConcrete, hqMatch, hpMatch⟩
  · rintro ⟨hCross, hEvents⟩
    refine ⟨(), forM_ok_iff.mpr ?_, ?_⟩
    · intro command hCommand
      obtain ⟨p, hp, rfl⟩ := List.mem_map.mp hCommand
      obtain ⟨hp, hpKind⟩ := List.mem_filter.mp hp
      refine forM_ok_iff.mpr ?_
      intro event hEventMem
      obtain ⟨q, hq, rfl⟩ := List.mem_map.mp hEventMem
      obtain ⟨hq, hqKind⟩ := List.mem_filter.mp hq
      have := (hFalse p hp q hq).mpr (hCross p hp (by simpa using hpKind) q hq (by simpa using hqKind))
      simp [this]
    · refine hNodup.pairwise_of_forall_ne ?_
      intro first hFirst second hSecond hne
      obtain ⟨p, hp, hpKind, rfl⟩ := (hEvent _).mp hFirst
      obtain ⟨q, hq, hqKind, rfl⟩ := (hEvent _).mp hSecond
      exact (hFalse p hp q hq).mpr (hEvents p hp hpKind q hq hqKind hne)

/-! ## All passes together -/

/-- The conditions that preflight checks before it schedules. -/
structure Accepted (graph : ModuleGraph W) (container : Option (RootContainer W)) : Prop where
  repeats : graph.RepeatsOverridden container
  exports : graph.ExportsLegal
  dependencies : graph.DependenciesMet container
  eventHandlers : graph.EventHandlersMet
  subjects : SubjectsValid graph.messageHandlers
  disjoint : SubjectsDisjoint graph.messageHandlers

theorem preflight_ok_iff (hFirst : graph.ImportsFirst) {sorted : List (ProviderRegistration W)} :
    graph.preflight container = .ok sorted ↔
      graph.Accepted container ∧ graph.scheduleAll container graph.lastDeclared = .ok sorted := by
  unfold preflight
  simp only [bind_ok_iff, indexTypes_ok_iff, collectExports_ok_iff hFirst]
  constructor
  · rintro ⟨_, ⟨hRepeats, rfl⟩, _, ⟨hExports, rfl⟩, ⟨⟩, hDependencies, ⟨⟩, hHandlers, _, hSubjects,
      ⟨⟩, hDisjoint, hSchedule⟩
    obtain ⟨hValid, rfl⟩ := (collectSubjects_fold _ _).mp hSubjects
    exact ⟨⟨hRepeats, hExports, checkDependencies_ok_iff.mp hDependencies,
      checkEventHandlers_ok_iff.mp hHandlers, hValid, (checkSubjects_ok_iff hValid).mp hDisjoint⟩,
      hSchedule⟩
  · rintro ⟨⟨hRepeats, hExports, hDependencies, hHandlers, hValid, hDisjoint⟩, hSchedule⟩
    exact ⟨_, ⟨hRepeats, rfl⟩, _, ⟨hExports, rfl⟩, (), checkDependencies_ok_iff.mpr hDependencies,
      (), checkEventHandlers_ok_iff.mpr hHandlers, _, (collectSubjects_fold _ _).mpr ⟨hValid, rfl⟩,
      (), (checkSubjects_ok_iff hValid).mpr hDisjoint, hSchedule⟩

/-- What a module graph must satisfy, without a container. -/
structure ModuleSpec (graph : ModuleGraph W) : Prop where
  unique : (graph.definitions.map ProviderRegistration.typeId).Nodup
  exports : graph.ExportsLegal
  dependencies : ∀ r ∈ graph.definitions, ∀ d ∈ r.definition.dependencies,
    d.typeId ≠ TypeId.logger → graph.Declares d.typeId ∧ graph.Visible r.module d.typeId
  eventHandlers : graph.EventHandlersMet
  subjects : SubjectsValid graph.messageHandlers
  disjoint : SubjectsDisjoint graph.messageHandlers
  acyclic : ∀ t, ¬ TransGen (graph.DependsOn none) t t

theorem repeatsOverridden_none :
    graph.RepeatsOverridden none ↔ (graph.definitions.map ProviderRegistration.typeId).Nodup := by
  rw [RepeatsOverridden, List.nodup_iff_count_le_one]
  simp [overriddenIn]

theorem dependenciesMet_none :
    graph.DependenciesMet none ↔ ∀ r ∈ graph.definitions, ∀ d ∈ r.definition.dependencies,
      d.typeId ≠ TypeId.logger → graph.Declares d.typeId ∧ graph.Visible r.module d.typeId := by
  unfold DependenciesMet DependencyMet
  constructor
  · intro h r hr d hd hLogger
    obtain ⟨hVisible, hMissing⟩ := h r hr d hd hLogger
    have hDeclared : graph.Declares d.typeId := by
      by_contra hNone
      simpa using hMissing hNone
    exact ⟨hDeclared, hVisible hDeclared⟩
  · intro h r hr d hd hLogger
    obtain ⟨hDeclared, hVisible⟩ := h r hr d hd hLogger
    exact ⟨fun _ => hVisible, fun hNone => absurd hDeclared hNone⟩

theorem preflight_none_ok_iff (hFirst : graph.ImportsFirst) :
    (∃ sorted, graph.preflight none = .ok sorted) ↔ graph.ModuleSpec := by
  simp only [preflight_ok_iff hFirst]
  constructor
  · rintro ⟨sorted, hAccepted, hSchedule⟩
    have hUnique := repeatsOverridden_none.mp hAccepted.repeats
    exact ⟨hUnique, hAccepted.exports, dependenciesMet_none.mp hAccepted.dependencies,
      hAccepted.eventHandlers, hAccepted.subjects, hAccepted.disjoint,
      (scheduleAll_ok_iff_acyclic hUnique).mp ⟨sorted, hSchedule⟩⟩
  · intro h
    obtain ⟨sorted, hSchedule⟩ := (scheduleAll_ok_iff_acyclic h.unique).mpr h.acyclic
    exact ⟨sorted, ⟨repeatsOverridden_none.mpr h.unique, h.exports,
      dependenciesMet_none.mpr h.dependencies, h.eventHandlers, h.subjects, h.disjoint⟩, hSchedule⟩

end ModuleGraph

/-- Preflight without a container accepts a discovered graph exactly when it satisfies
the module specification. -/
theorem preflight_decides_moduleSpec (P : Program W) (root : ModuleDef) (graph : ModuleGraph W)
    (hDiscover : discoverFrom P root = .ok graph) :
    (∃ sorted, graph.preflight none = .ok sorted) ↔ graph.ModuleSpec :=
  ModuleGraph.preflight_none_ok_iff
    (ModuleGraph.importsFirst_of_discovered (discovered_of_ok hDiscover))

/-- A provider with an empty factory and no hooks. -/
def plainProvider (typeId : TypeId) (typeName : String) (dependencies : List ProviderDependency) :
    ProviderDef Unit :=
  ProviderDef.of typeId typeName dependencies (fun _ w => (.ok 0, w)) noopLifecycle noopLifecycle
    noopLifecycle

/-- A root module with a controller that uses the exported service of its only import. -/
def usersProgram : Program Unit where
  metadataFn t :=
    match t with
    | 10 =>
      { ModuleMetadata.new with
        imports := [⟨11, "UsersModule"⟩]
        controllers := [⟨plainProvider 21 "UsersController" [⟨20, "UsersService"⟩], .ok ()⟩] }
    | 11 =>
      { ModuleMetadata.new with
        providers := [plainProvider 20 "UsersService" []]
        exports := [⟨20, "UsersService"⟩] }
    | _ => ModuleMetadata.new
  modules := {10, 11}
  closed := by decide

def usersGraph : ModuleGraph Unit where
  nodes :=
    [⟨11, "UsersModule", usersProgram.metadataFn 11, []⟩,
      ⟨10, "App", { usersProgram.metadataFn 10 with imports := [] }, [0]⟩]

theorem preflight_decides_moduleSpec_users :
    discoverFrom usersProgram ⟨10, "App"⟩ = .ok usersGraph ∧
    ((∃ sorted, usersGraph.preflight none = .ok sorted) ↔ usersGraph.ModuleSpec) ∧
    ∃ sorted, usersGraph.preflight none = .ok sorted :=
  ⟨rfl, preflight_decides_moduleSpec usersProgram ⟨10, "App"⟩ usersGraph rfl, _, rfl⟩

end Caelix
