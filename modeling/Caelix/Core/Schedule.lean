import Caelix.Core.Preflight
import Caelix.Lib.DepthFirst

/-!
# The schedule as a depth-first walk

`schedule` runs in step with the walk `DepthFirst.visit` over registrations, so
`scheduleAll` returns exactly the finished list of that walk (`scheduleAll_ok_iff`).

* `Scheduled`: a schedule lists every declared type once, after its effective dependencies.
* `scheduleAll_ok_iff_acyclic`: with one registration for each type, a schedule exists
  exactly when the dependency relation between declared types is acyclic.
-/

namespace Caelix

open Relation Fallible

variable {W : Type}

/-- Successors of a registration in the walk. -/
def dependenciesOf (container : Option (RootContainer W)) (byType : TypeIndex W)
    (r : ProviderRegistration W) : List (ProviderRegistration W) :=
  (effectiveDef container r.definition).dependencies.filterMap fun d => byType d.typeId

@[simp] theorem effectiveDef_typeId (container : Option (RootContainer W)) (d : ProviderDef W) :
    (effectiveDef container d).typeId = d.typeId := by
  cases container with
  | none => rfl
  | some c => exact c.effective_typeId d

/-- The scheduler's state seen from the walk with open providers `stack` and finished ones `done`. -/
structure ScheduleTracks (s : Schedule W) (stack done : List (ProviderRegistration W)) : Prop
    extends Marks s.states (stack.map ProviderRegistration.typeId)
      (done.map ProviderRegistration.typeId) where
  names : s.stack = stack.map fun r => r.definition.typeName
  sorted : s.sorted = done

/-- The fault for each way in which the walk stops. A cycle names the open providers. -/
def ScheduleFault : DepthFirst.Stop (ProviderRegistration W) → Fault → Prop
  | .cycle stack r, f => f = dependencyCycle ((stack ++ [r]).map fun r => r.definition.typeName)
  | .fuel, f => f = .outOfFuel

theorem schedule_follows (container : Option (RootContainer W)) (byType : TypeIndex W) (n : Nat) :
    ∀ (stack done : List (ProviderRegistration W)) (s : Schedule W) (r : ProviderRegistration W),
      ScheduleTracks s stack done →
      Sim ScheduleFault (fun _ => False) (fun done' s' => ScheduleTracks s' stack done')
        (DepthFirst.visit ProviderRegistration.typeId (dependenciesOf container byType) n stack done r)
        (ModuleGraph.schedule container byType n s r) := by
  induction n with
  | zero =>
    intro stack done s r _
    exact Or.inl rfl
  | succ n ih =>
    intro stack done s r hTracks
    by_cases hDone : r.typeId ∈ done.map ProviderRegistration.typeId
    · rw [DepthFirst.visit_seen hDone, ModuleGraph.schedule]
      simp only [(hTracks.visited _).mpr hDone]
      exact hTracks
    by_cases hOpen : r.typeId ∈ stack.map ProviderRegistration.typeId
    · rw [DepthFirst.visit_open hDone hOpen, ModuleGraph.schedule]
      simp only [(hTracks.visiting _).mpr hOpen]
      refine Or.inl ?_
      rw [ScheduleFault, hTracks.names, List.map_append]
      rfl
    have hFresh := hTracks.fresh hDone hOpen
    rw [DepthFirst.visit_fresh hDone hOpen, ModuleGraph.schedule]
    simp only [hFresh]
    rw [dependenciesOf, List.foldlM_filterMap]
    have hMap : ∀ walked : Except (DepthFirst.Stop (ProviderRegistration W)) _,
        walked.map (· ++ [r]) = walked >>= fun done => .ok (done ++ [r]) :=
      fun walked => by cases walked <;> rfl
    rw [hMap]
    apply Sim.bind (Q := fun done' s' => ScheduleTracks s' (stack ++ [r]) done')
    · apply Sim.foldlM
      · intro d _ done₁ s₁ hTracks₁
        cases hNext : byType d.typeId with
        | none => exact hTracks₁
        | some next => exact ih (stack ++ [r]) done₁ s₁ next hTracks₁
      · exact ⟨by simpa using hTracks.toMarks.enter hFresh, by simp [hTracks.names], hTracks.sorted⟩
    · intro done₁ s₁ hTracks₁
      have hMarks : Marks s₁.states (stack.map ProviderRegistration.typeId ++ [r.typeId])
          (done₁.map ProviderRegistration.typeId) := by simpa using hTracks₁.toMarks
      exact ⟨by simpa using hMarks.leave hOpen, by simp [hTracks₁.names], by simp [hTracks₁.sorted]⟩

namespace ModuleGraph

variable {graph : ModuleGraph W} {container : Option (RootContainer W)} {byType : TypeIndex W}

theorem scheduleAll_follows :
    Sim ScheduleFault (fun _ => False) Eq
      (DepthFirst.visitAll ProviderRegistration.typeId (dependenciesOf container byType)
        (graph.definitions.length + 1) graph.definitions)
      (graph.scheduleAll container byType) := by
  apply Sim.map_right (Q := fun done s => ScheduleTracks s [] done)
  · apply Sim.foldlM
    · intro r _ done s hTracks
      exact schedule_follows container byType _ [] done s r hTracks
    · exact ⟨Marks.none, rfl, rfl⟩
  · intro done s hTracks
    exact hTracks.sorted.symm

theorem scheduleAll_ok_iff {sorted : List (ProviderRegistration W)} :
    graph.scheduleAll container byType = .ok sorted ↔
      DepthFirst.visitAll ProviderRegistration.typeId (dependenciesOf container byType)
        (graph.definitions.length + 1) graph.definitions = .ok sorted :=
  Sim.ok_iff scheduleAll_follows

/-! ## What a schedule lists -/

/-- `by_type` when it is complete: the last registration of a type. -/
def lastDeclared (graph : ModuleGraph W) : TypeIndex W := fun t =>
  graph.definitions.reverse.find? fun r => r.typeId = t

theorem lastDeclared_some {t : TypeId} {r : ProviderRegistration W}
    (h : graph.lastDeclared t = some r) : r ∈ graph.definitions ∧ r.typeId = t := by
  refine ⟨?_, by simpa using List.find?_some h⟩
  simpa using List.mem_of_find?_eq_some h

theorem lastDeclared_isSome {t : TypeId} : (graph.lastDeclared t).isSome ↔ graph.Declares t := by
  simp [lastDeclared, Declares]

theorem Declares.lastDeclared {t : TypeId} (h : graph.Declares t) :
    ∃ r, graph.lastDeclared t = some r ∧ r.typeId = t := by
  obtain ⟨r, hr⟩ := Option.isSome_iff_exists.mp (lastDeclared_isSome.mpr h)
  exact ⟨r, hr, (lastDeclared_some hr).2⟩

theorem mem_dependenciesOf {r next : ProviderRegistration W} :
    next ∈ dependenciesOf container graph.lastDeclared r ↔
      ∃ d ∈ (effectiveDef container r.definition).dependencies,
        graph.lastDeclared d.typeId = some next := by
  simp [dependenciesOf]

/-- A schedule of the graph: every declared type once, after its effective dependencies. -/
structure Scheduled (graph : ModuleGraph W) (container : Option (RootContainer W))
    (sorted : List (ProviderRegistration W)) : Prop where
  nodup : (sorted.map ProviderRegistration.typeId).Nodup
  declared : ∀ r ∈ sorted, r ∈ graph.definitions
  complete : ∀ t, graph.Declares t → t ∈ sorted.map ProviderRegistration.typeId
  before : ∀ l₁ r l₂, sorted = l₁ ++ r :: l₂ →
    ∀ d ∈ (effectiveDef container r.definition).dependencies, graph.Declares d.typeId →
      d.typeId ∈ l₁.map ProviderRegistration.typeId

theorem scheduleAll_scheduled {sorted : List (ProviderRegistration W)}
    (h : graph.scheduleAll container graph.lastDeclared = .ok sorted) :
    graph.Scheduled container sorted := by
  have hVisited := DepthFirst.visitAll_ok (scheduleAll_ok_iff.mp h)
  refine ⟨hVisited.finished.nodup, ?_, ?_, ?_⟩
  · intro r hr
    rcases hVisited.reached r hr with hNil | ⟨a, ha, hPath, -⟩
    · simp at hNil
    · rcases ReflTransGen.cases_tail hPath with rfl | ⟨b, -, hEdge⟩
      · exact ha
      · obtain ⟨d, -, hd⟩ := mem_dependenciesOf.mp hEdge
        exact (lastDeclared_some hd).1
  · rintro t ⟨r, hr, rfl⟩
    exact hVisited.covers r hr
  · intro l₁ r l₂ hSplit d hd hDeclared
    obtain ⟨next, hNext, hType⟩ := hDeclared.lastDeclared
    have hBefore := hVisited.finished.closed l₁ r l₂ hSplit next (mem_dependenciesOf.mpr ⟨d, hd, hNext⟩)
    rwa [← hType]

/-! ## Schedules and cycles -/

/-- The effective dependency relation between declared types. -/
def DependsOn (graph : ModuleGraph W) (container : Option (RootContainer W)) (t u : TypeId) : Prop :=
  ∃ r ∈ graph.definitions, r.typeId = t ∧ graph.Declares u ∧
    ∃ d ∈ (effectiveDef container r.definition).dependencies, d.typeId = u

theorem scheduleAll_ne_fuel :
    DepthFirst.visitAll ProviderRegistration.typeId (dependenciesOf container graph.lastDeclared)
      (graph.definitions.length + 1) graph.definitions ≠ .error .fuel := by
  have hNext : ∀ a b : ProviderRegistration W,
      a.typeId ∈ (graph.definitions.map ProviderRegistration.typeId).toFinset →
      b ∈ dependenciesOf container graph.lastDeclared a →
      b.typeId ∈ (graph.definitions.map ProviderRegistration.typeId).toFinset := by
    intro a b _ hb
    obtain ⟨d, -, hd⟩ := mem_dependenciesOf.mp hb
    exact List.mem_toFinset.mpr (List.mem_map_of_mem (lastDeclared_some hd).1)
  apply DepthFirst.visitAll_ne_fuel hNext
  · intro r hr
    exact List.mem_toFinset.mpr (List.mem_map_of_mem hr)
  · have hCard := List.toFinset_card_le (graph.definitions.map ProviderRegistration.typeId)
    rw [List.length_map] at hCard
    omega

/-- With one registration for each type, schedules exist exactly for acyclic graphs. -/
theorem scheduleAll_ok_iff_acyclic
    (hNodup : (graph.definitions.map ProviderRegistration.typeId).Nodup) :
    (∃ sorted, graph.scheduleAll container graph.lastDeclared = .ok sorted) ↔
      ∀ t, ¬ TransGen (graph.DependsOn container) t t := by
  have hUnique := List.inj_on_of_nodup_map hNodup
  constructor
  · rintro ⟨sorted, h⟩ t hCycle
    have hScheduled := scheduleAll_scheduled h
    have hFinished := (DepthFirst.visitAll_ok (scheduleAll_ok_iff.mp h)).finished
    apply hFinished.acyclic t
    refine TransGen.mono ?_ _ _ hCycle
    rintro _ u ⟨r, hr, rfl, hDeclared, d, hd, rfl⟩
    -- the registration of a type is the one that the schedule lists
    obtain ⟨r', hr', hType⟩ := List.mem_map.mp (hScheduled.complete r.typeId ⟨r, hr, rfl⟩)
    obtain rfl := hUnique (hScheduled.declared r' hr') hr hType
    obtain ⟨next, hNext, hNextType⟩ := hDeclared.lastDeclared
    exact ⟨r', hr', rfl, next, mem_dependenciesOf.mpr ⟨d, hd, hNext⟩, hNextType⟩
  · intro hAcyclic
    cases hWalk : DepthFirst.visitAll ProviderRegistration.typeId
        (dependenciesOf container graph.lastDeclared) (graph.definitions.length + 1)
        graph.definitions with
    | ok sorted => exact ⟨sorted, scheduleAll_ok_iff.mpr hWalk⟩
    | error e =>
      exfalso
      cases e with
      | fuel => exact scheduleAll_ne_fuel hWalk
      | cycle p c =>
        obtain ⟨r, hr, x, hReach, hCycle, hKey⟩ := DepthFirst.visitAll_cycle hWalk
        have hDeclared : ∀ y, ReflTransGen
            (DepthFirst.Edge (dependenciesOf container graph.lastDeclared)) r y →
            y ∈ graph.definitions := by
          intro y hPath
          rcases ReflTransGen.cases_tail hPath with rfl | ⟨b, -, hEdge⟩
          · exact hr
          · obtain ⟨d, -, hd⟩ := mem_dependenciesOf.mp hEdge
            exact (lastDeclared_some hd).1
        have hLift : ∀ y, TransGen (DepthFirst.Edge (dependenciesOf container graph.lastDeclared)) x y →
            TransGen (graph.DependsOn container) x.typeId y.typeId := by
          intro y hPath
          induction hPath with
          | single hEdge =>
            obtain ⟨d, hd, hNext⟩ := mem_dependenciesOf.mp hEdge
            obtain ⟨hMem, hType⟩ := lastDeclared_some hNext
            exact TransGen.single ⟨x, hDeclared x hReach, rfl, ⟨_, hMem, rfl⟩, d, hd, hType.symm⟩
          | @tail b c hPath hEdge ih =>
            obtain ⟨d, hd, hNext⟩ := mem_dependenciesOf.mp hEdge
            obtain ⟨hMem, hType⟩ := lastDeclared_some hNext
            have hb := hDeclared b (hReach.trans hPath.to_reflTransGen)
            exact ih.tail ⟨b, hb, rfl, ⟨_, hMem, rfl⟩, d, hd, hType.symm⟩
        have hTypes := hLift c hCycle
        rw [← hKey] at hTypes
        exact hAcyclic _ hTypes

end ModuleGraph

end Caelix
