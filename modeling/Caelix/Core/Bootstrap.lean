import Caelix.Core.LifecycleTrace

/-!
# The bootstrap loop

On a container that has registered the graph, the bootstrap loop runs `on_bootstrap` on
the initialised providers in the order of its schedule, up to and including the first
hook that fails.

* `bootstrapLoop_ends`: the hooks run, in either case.
* `StartUp.bootstrap_ends`: the bootstrap phase of a start-up.
-/

namespace Caelix

open Steps Fallible

variable {W : Type}

/-- The `on_bootstrap` hooks of a list of providers, one after another. -/
def bootstrapHooks : List (ProviderDef W × ProviderValue) → W → Except HttpException Unit × W :=
  runAll fun p => p.1.bootstrapFn p.2

/-- The providers of a schedule on which the bootstrap loop runs `on_bootstrap`. -/
def bootstrapTargets (types : List TypeId) (c : Container) (order : List (ProviderRegistration W)) :
    List (ProviderDef W × ProviderValue) :=
  order.filterMap fun q =>
    if q.typeId ∈ types ∧ q.typeId ∉ c.appliedOverrides then
      (c.services q.typeId).map fun value => (q.definition, value)
    else none

theorem bootstrapped_of_isShutdown {events : List (Event W)}
    (h : ∀ e ∈ events, e.isShutdown = true) : bootstrapped events = [] := by
  rw [bootstrapped, List.filterMap_eq_nil_iff]
  intro e he
  have hShutdown := h e he
  obtain ⟨action, fault⟩ := e
  cases action <;> first | rfl | simp [Event.isShutdown] at hShutdown

theorem bootstrapHooks_append (l l' : List (ProviderDef W × ProviderValue)) (w : W) :
    bootstrapHooks (l ++ l') w = andThen (bootstrapHooks l w) (bootstrapHooks l') :=
  runAll_append _ l l' w

/-- The types of the targets, when all of them are stored. -/
theorem bootstrapTargets_types {types : List TypeId} {c : Container}
    (hStored : ∀ t ∈ types, ∃ v, c.services t = some v) (order : List (ProviderRegistration W)) :
    (bootstrapTargets types c order).map (fun p => p.1.typeId) =
      (order.map ProviderRegistration.typeId).filter fun t => t ∈ types ∧ t ∉ c.appliedOverrides := by
  induction order with
  | nil => rfl
  | cons q order ih =>
    rw [bootstrapTargets] at ih ⊢
    by_cases hDue : q.typeId ∈ types ∧ q.typeId ∉ c.appliedOverrides
    · obtain ⟨v, hv⟩ := hStored _ hDue.1
      simp only [List.filterMap_cons, if_pos hDue, hv, Option.map_some, List.map_cons, ih]
      rw [List.filter_cons_of_pos (by simpa using hDue)]
      rfl
    · simp only [List.filterMap_cons, if_neg hDue, List.map_cons, ih]
      rw [List.filter_cons_of_neg (by simpa using hDue)]

/-! ## One round -/

section Round

variable {graph : ModuleGraph W} {types : List TypeId} {q : ProviderRegistration W} {r : Run W}

theorem bootstrapProvider_skip
    (h : ¬ (q.typeId ∈ types ∧ q.typeId ∉ r.container.appliedOverrides)) :
    bootstrapProvider graph types q r = (.ok (), r) := by
  rcases bootstrapProvider_cases graph types q r with he | ⟨hType, hOwn, -⟩
  · exact he
  · exact absurd ⟨hType, hOwn⟩ h

/-- The run after the hook of `q` on its stored value. -/
def Run.bootstrap (r : Run W) (q : ProviderRegistration W) (value : ProviderValue)
    (fault : Option Fault) : Run W :=
  { r with
    bootstrappedProviders := insert q.typeId r.bootstrappedProviders
    world := (q.definition.bootstrapFn value r.world).2
    trace := r.trace ++ [⟨.bootstrap q.definition value, fault⟩] }

/-- A round that is due runs the hook; it rolls back when the hook fails. -/
theorem bootstrapProvider_due (graph : ModuleGraph W) {value : ProviderValue} (hType : q.typeId ∈ types)
    (hOwn : q.typeId ∉ r.container.appliedOverrides) (hNew : q.typeId ∉ r.bootstrappedProviders)
    (hValue : r.container.services q.typeId = some value) :
    ((q.definition.bootstrapFn value r.world).1 = .ok () ∧
      bootstrapProvider graph types q r = (.ok (), r.bootstrap q value none)) ∨
    ∃ f, (q.definition.bootstrapFn value r.world).1 ≠ .ok () ∧
      bootstrapProvider graph types q r =
        (.error f, rollbackGraph graph (r.bootstrap q value (some f))) := by
  have hDue : q.definition.typeId ∈ types ∧ r.container.wasOverridden q.definition.typeId = false ∧
      q.definition.typeId ∉ r.bootstrappedProviders := by
    refine ⟨hType, ?_, hNew⟩
    rw [Bool.eq_false_iff, Ne, Container.wasOverridden_iff]
    exact hOwn
  have hService : r.container.services q.definition.typeId = some value := hValue
  unfold bootstrapProvider
  dsimp only
  rw [if_pos hDue]
  unfold runLifecycleFromContainer Container.resolveErased runLifecycle
  simp only [hService]
  rcases hHook : q.definition.bootstrapFn value r.world with ⟨result, w⟩
  cases result with
  | ok u =>
    left
    refine ⟨rfl, ?_⟩
    simp [Run.bootstrap, hHook, Run.finish, Run.log, orRollback, ProviderRegistration.typeId]
  | error e =>
    right
    refine ⟨.exception (startupError (Hook.onBootstrap.name ++ " failed for " ++
      q.definition.typeName ++ ": " ++ e.error ++ ": " ++ e.message)), by simp, ?_⟩
    simp only [Run.bootstrap, hHook, Run.finish, Run.log, orRollback, ProviderRegistration.typeId]

end Round

/-! ## The loop -/

/-- The loop after the registrations `done`, all of whose hooks succeeded. -/
structure Bootstrapping (types : List TypeId) (r₀ : Run W) (done : List (ProviderRegistration W))
    (r : Run W) : Prop where
  container : r.container = r₀.container
  marked : ∀ t ∈ r.bootstrappedProviders,
    t ∈ r₀.bootstrappedProviders ∨ t ∈ done.map ProviderRegistration.typeId
  bootstrapped : bootstrapped r.trace =
    bootstrapped r₀.trace ++ bootstrapTargets types r₀.container.toContainer done
  initialized : initialized r.trace = initialized r₀.trace
  hooks : bootstrapHooks (bootstrapTargets types r₀.container.toContainer done) r₀.world =
    (.ok (), r.world)

/-- The loop stopped at the hook of `p`, after the hooks of `before` succeeded. -/
structure BootstrapStopped (types : List TypeId) (r₀ : Run W) (order : List (ProviderRegistration W))
    (before : List (ProviderDef W × ProviderValue)) (p : ProviderDef W × ProviderValue) (f : Fault)
    (r : Run W) : Prop where
  within : before ++ [p] <+: bootstrapTargets types r₀.container.toContainer order
  bootstrapped : bootstrapped r.trace = bootstrapped r₀.trace ++ before ++ [p]
  initialized : initialized r.trace = initialized r₀.trace
  hooks : (bootstrapHooks before r₀.world).1 = .ok ()
  failed : (bootstrapHooks (before ++ [p]) r₀.world).1 ≠ .ok ()
  recorded : ⟨.bootstrap p.1 p.2, some f⟩ ∈ r.trace

theorem bootstrapTargets_append (types : List TypeId) (c : Container)
    (l l' : List (ProviderRegistration W)) :
    bootstrapTargets types c (l ++ l') = bootstrapTargets types c l ++ bootstrapTargets types c l' :=
  List.filterMap_append

theorem bootstrapTargets_skip {types : List TypeId} {c : Container} {q : ProviderRegistration W}
    (h : ¬ (q.typeId ∈ types ∧ q.typeId ∉ c.appliedOverrides)) :
    bootstrapTargets types c [q] = [] := by
  simp only [bootstrapTargets, List.filterMap_cons, if_neg h, List.filterMap_nil]

theorem bootstrapTargets_due {types : List TypeId} {c : Container} {q : ProviderRegistration W}
    {value : ProviderValue} (h : q.typeId ∈ types ∧ q.typeId ∉ c.appliedOverrides)
    (hValue : c.services q.typeId = some value) :
    bootstrapTargets types c [q] = [(q.definition, value)] := by
  simp only [bootstrapTargets, List.filterMap_cons, if_pos h, hValue, Option.map_some,
    List.filterMap_nil]

variable {graph : ModuleGraph W} {types : List TypeId} {r₀ r : Run W}

theorem Bootstrapping.step (hStored : ∀ t ∈ types, ∃ v, r₀.container.services t = some v)
    {done later : List (ProviderRegistration W)} {q : ProviderRegistration W}
    (hNew : q.typeId ∉ r₀.bootstrappedProviders ∧ q.typeId ∉ done.map ProviderRegistration.typeId)
    (h : Bootstrapping types r₀ done r) :
    Ends (bootstrapProvider graph types q r) (Bootstrapping types r₀ (done ++ [q]))
      fun f r' => ∃ before p, BootstrapStopped types r₀ (done ++ q :: later) before p f r' := by
  have hMarked : ∀ {t}, t ∈ r₀.bootstrappedProviders ∨ t ∈ done.map ProviderRegistration.typeId →
      t ∈ r₀.bootstrappedProviders ∨ t ∈ (done ++ [q]).map ProviderRegistration.typeId := by
    rintro t (ht | ht)
    · exact Or.inl ht
    · exact Or.inr (by simp [List.mem_map.mp ht])
  by_cases hDue : q.typeId ∈ types ∧ q.typeId ∉ r₀.container.appliedOverrides
  · obtain ⟨value, hValue⟩ := hStored _ hDue.1
    have hUnmarked : q.typeId ∉ r.bootstrappedProviders := fun hMem =>
      (h.marked _ hMem).elim hNew.1 hNew.2
    have hTargets : bootstrapTargets types r₀.container.toContainer (done ++ [q]) =
        bootstrapTargets types r₀.container.toContainer done ++ [(q.definition, value)] := by
      rw [bootstrapTargets_append, bootstrapTargets_due hDue hValue]
    have hHooks : ∀ w, bootstrapHooks [(q.definition, value)] w =
        andThen (q.definition.bootstrapFn value w) fun w => (.ok (), w) := fun _ => rfl
    rcases bootstrapProvider_due graph hDue.1 (h.container ▸ hDue.2) hUnmarked
      (h.container ▸ hValue) with ⟨hOk, he⟩ | ⟨f, hFailed, he⟩
    · rw [he]
      refine ⟨h.container, ?_, ?_, ?_, ?_⟩
      · intro t ht
        rcases Finset.mem_insert.mp ht with rfl | ht
        · exact Or.inr (by simp)
        · exact hMarked (h.marked t ht)
      · show Caelix.bootstrapped (r.trace ++ [_]) = _
        rw [bootstrapped_append, h.bootstrapped, hTargets, List.append_assoc]
        rfl
      · show Caelix.initialized (r.trace ++ [_]) = _
        rw [initialized_append, h.initialized, initialized_singleton]
        exact List.append_nil _
      · rw [hTargets, bootstrapHooks_append, h.hooks]
        show bootstrapHooks [(q.definition, value)] r.world = _
        rw [hHooks]
        show _ = ((.ok () : Except HttpException Unit), (q.definition.bootstrapFn value r.world).2)
        generalize q.definition.bootstrapFn value r.world = x at hOk
        obtain ⟨result, w⟩ := x
        cases hOk
        rfl
    · rw [he]
      obtain ⟨events, hTrace, hShutdown⟩ := rollbackGraph_trace graph (r.bootstrap q value (some f))
      refine ⟨_, (q.definition, value), ?_, ?_, ?_, by rw [h.hooks], ?_, ?_⟩
      · rw [← hTargets, List.append_cons done q later, bootstrapTargets_append types _ (done ++ [q])]
        exact List.prefix_append _ _
      · rw [hTrace, bootstrapped_append, bootstrapped_of_isShutdown hShutdown, List.append_nil]
        show Caelix.bootstrapped (r.trace ++ [_]) = _
        rw [bootstrapped_append, h.bootstrapped]
        rfl
      · rw [hTrace, initialized_append, initialized_of_isShutdown hShutdown, List.append_nil]
        show Caelix.initialized (r.trace ++ [_]) = _
        rw [initialized_append, h.initialized, initialized_singleton]
        exact List.append_nil _
      · rw [bootstrapHooks_append, h.hooks]
        show (bootstrapHooks [(q.definition, value)] r.world).1 ≠ _
        rw [hHooks]
        generalize q.definition.bootstrapFn value r.world = x at hFailed
        obtain ⟨result, w⟩ := x
        cases result with
        | ok u => exact absurd rfl hFailed
        | error e => exact fun hOk => nomatch hOk
      · rw [hTrace]
        exact List.mem_append_left _ (List.mem_append_right _ List.mem_cons_self)
  · rw [bootstrapProvider_skip (h.container ▸ hDue)]
    refine ⟨h.container, fun t ht => hMarked (h.marked t ht), ?_, h.initialized, ?_⟩
    · rw [bootstrapTargets_append, bootstrapTargets_skip hDue, List.append_nil]
      exact h.bootstrapped
    · rw [bootstrapTargets_append, bootstrapTargets_skip hDue, List.append_nil]
      exact h.hooks

/-- The bootstrap loop runs the hooks of its targets in order; it stops at the first that fails. -/
theorem bootstrapLoop_ends (graph : ModuleGraph W)
    (hStored : ∀ t ∈ types, ∃ v, r₀.container.services t = some v)
    {order : List (ProviderRegistration W)} (hNodup : (order.map ProviderRegistration.typeId).Nodup)
    (hNew : ∀ q ∈ order, q.typeId ∉ r₀.bootstrappedProviders) :
    Ends (runAll (bootstrapProvider graph types) order r₀) (Bootstrapping types r₀ order)
      fun f r' => ∃ before p, BootstrapStopped types r₀ order before p f r' := by
  apply ends_runAll (I := Bootstrapping types r₀) order
  · refine ⟨rfl, fun t ht => Or.inl ht, ?_, rfl, rfl⟩
    rw [bootstrapTargets, List.filterMap_nil, List.append_nil]
  · intro done q later hOrder r h
    rw [hOrder] at hNodup ⊢
    refine h.step hStored ⟨hNew q (by simp [hOrder]), ?_⟩
    rw [List.map_append, List.map_cons] at hNodup
    exact fun hMem => (List.nodup_append.mp hNodup).2.2 _ hMem _ List.mem_cons_self rfl

/-! ## The bootstrap phase of a start-up -/

/-- No bootstrap between two runs. -/
structure Unbooted (r r' : Run W) : Prop where
  marked : r'.bootstrappedProviders = r.bootstrappedProviders
  bootstrapped : bootstrapped r'.trace = bootstrapped r.trace

theorem Unbooted.trans {r r' r'' : Run W} (h : Unbooted r r') (h' : Unbooted r' r'') :
    Unbooted r r'' :=
  ⟨h'.marked.trans h.marked, h'.bootstrapped.trans h.bootstrapped⟩

theorem rollbackGraph_unbooted (graph : ModuleGraph W) (r : Run W) :
    Unbooted r (rollbackGraph graph r) := by
  obtain ⟨events, h⟩ := shutdownProviders_spec graph r
  refine ⟨h.logged.bootstrapped, ?_⟩
  rw [rollbackGraph, h.logged.trace, bootstrapped_append, bootstrapped_of_isShutdown h.shutdown,
    List.append_nil]

theorem orRollback_unbooted {graph : ModuleGraph W} {r : Run W} {x : Outcome W}
    (h : Unbooted r x.2) : Unbooted r (orRollback graph x).2 := by
  obtain ⟨result, r'⟩ := x
  cases result with
  | ok u => exact h
  | error f => exact h.trans (rollbackGraph_unbooted graph r')

theorem Construction.unbooted {declared : ProviderDef W} {r : Run W} {x : Outcome W}
    (h : Construction declared r x) : Unbooted r x.2 := by
  cases h with
  | buildFailed e w =>
    refine ⟨rfl, ?_⟩
    rw [bootstrapped_append, bootstrapped_singleton]
    exact List.append_nil _
  | initFailed value e w hValue =>
    refine ⟨rfl, ?_⟩
    rw [bootstrapped_append, bootstrapped_append, bootstrapped_singleton, bootstrapped_singleton]
    exact (List.append_nil _).trans (List.append_nil _)
  | done value w hValue =>
    refine ⟨rfl, ?_⟩
    rw [bootstrapped_append, bootstrapped_append, bootstrapped_singleton, bootstrapped_singleton]
    exact (List.append_nil _).trans (List.append_nil _)

theorem HandlerRegistration.unbooted {handler : EventHandlerDef W} {r : Run W} {x : Outcome W}
    (h : HandlerRegistration handler r x) : Unbooted r x.2 := by
  cases h with
  | failed f w =>
    refine ⟨rfl, ?_⟩
    rw [bootstrapped_append, bootstrapped_singleton]
    exact List.append_nil _
  | done value bus w _ _ =>
    refine ⟨rfl, ?_⟩
    rw [bootstrapped_append, bootstrapped_singleton]
    exact List.append_nil _

theorem registerModule_unbooted (P : Program W) (root : ModuleDef) (r : Run W) :
    Unbooted r (registerModule P root r).2 := by
  have hLog : ∀ (r : Run W) action fault, Event.bootstrapped (⟨action, fault⟩ : Event W) = none →
      Unbooted r (r.log action fault) := by
    intro r action fault hNone
    refine ⟨rfl, ?_⟩
    rw [Run.log, bootstrapped_append, bootstrapped_singleton, hNone]
    exact List.append_nil _
  rcases registerModule_cases P root r with ⟨f, -, he⟩ | ⟨graph, -, ⟨f, -, he⟩ | ⟨order, -, he⟩⟩
  · rw [he]
    exact hLog _ _ _ rfl
  · rw [he]
    exact (hLog _ _ _ rfl).trans (hLog _ _ _ rfl)
  · rw [he]
    have hOpened : Unbooted r r.opened := (hLog _ _ _ rfl).trans (hLog _ _ _ rfl)
    have hStep : ∀ {r' : Run W} {x : Outcome W}, Unbooted r r' → Unbooted r' x.2 →
        Ends x (Unbooted r) fun _ => Unbooted r := by
      intro r' x h h'
      obtain ⟨result, r''⟩ := x
      cases result <;> exact h.trans h'
    refine Ends.always (Ends.andThen (Q := Unbooted r) ?_ ?_)
    · apply ends_runAll_of_keeps order hOpened
      intro q _ r' h
      refine hStep h ?_
      rcases initializeProvider_cases graph q r' with ⟨-, he⟩ | ⟨-, -, x, hx, he⟩
      · rw [he]
        exact ⟨rfl, rfl⟩
      · rw [he]
        exact orRollback_unbooted ⟨hx.unbooted.marked, hx.unbooted.bootstrapped⟩
    · intro r' h
      apply ends_runAll_of_keeps _ h
      intro p _ r'' h'
      exact hStep h' (orRollback_unbooted (register_registration p.2 r'').unbooted)

/-- A start-up that passes its checks runs the bootstrap loop on the schedule that these
checks accepted. -/
theorem StartUp.run_bootstraps {P : Program W} {root : ModuleDef} {start : StartUp W} {w : W}
    {r : Run W} (hRegister : registerModule P root (Run.fresh start.container w) = (.ok (), r))
    (hChecks : start.checks P root r.container = .ok ()) :
    ∃ graph order, discoverFrom P root = .ok graph ∧ graph.preflight (some r.container) = .ok order ∧
      Running graph start.container r ∧
      start.run P root w =
        runAll (bootstrapProvider graph r.initializedProviders) order (r.log .validate none).opened := by
  have hEnds := registerModule_ends P root start.container w
  rw [hRegister] at hEnds
  obtain ⟨graph, hDiscover, hRunning⟩ := hEnds
  obtain ⟨⟨order, hPreflight⟩, -⟩ := validateModuleProviders_ok hDiscover (StartUp.checks_ok hChecks).1
  refine ⟨graph, order, hDiscover, hPreflight, hRunning, ?_⟩
  have hRun : start.run P root w = bootstrapModule P root (r.log .validate none) := by
    unfold StartUp.run
    rw [hRegister, andThen, hChecks]
    rfl
  rw [hRun]
  rcases bootstrapModule_cases P root (r.log .validate none) with ⟨f, hErr, -⟩ |
    ⟨graph', hGraph, ⟨f, hErr, -⟩ | ⟨order', hOrder, he⟩⟩
  · rw [hDiscover] at hErr
    cases hErr
  · rw [hDiscover] at hGraph
    cases hGraph
    have hSame := hPreflight.symm.trans hErr
    cases hSame
  · rw [hDiscover] at hGraph
    cases hGraph
    have hSame := hPreflight.symm.trans hOrder
    cases hSame
    exact he

/-- The bootstrap phase runs the hooks of its targets in order; it stops at the first that fails. -/
theorem StartUp.bootstrap_ends {P : Program W} {root : ModuleDef} (start : StartUp W) {w : W}
    {r : Run W} (hRegister : registerModule P root (Run.fresh start.container w) = (.ok (), r))
    (hChecks : start.checks P root r.container = .ok ()) :
    ∃ graph order, discoverFrom P root = .ok graph ∧ graph.preflight (some r.container) = .ok order ∧
      Running graph start.container r ∧
      Ends (start.run P root w)
        (Bootstrapping r.initializedProviders (r.log .validate none).opened order)
        fun f r' => ∃ before p, BootstrapStopped r.initializedProviders
          (r.log .validate none).opened order before p f r' := by
  obtain ⟨graph, order, hDiscover, hPreflight, hRunning, he⟩ :=
    StartUp.run_bootstraps hRegister hChecks
  refine ⟨graph, order, hDiscover, hPreflight, hRunning, ?_⟩
  rw [he]
  have hFirst := ModuleGraph.importsFirst_of_discovered (discovered_of_ok hDiscover)
  have hUnbooted := registerModule_unbooted P root (Run.fresh start.container w)
  rw [hRegister] at hUnbooted
  apply bootstrapLoop_ends
  · intro t ht
    rw [← hRunning.live.listed] at ht
    obtain ⟨p, hp, rfl⟩ := List.mem_map.mp ht
    exact ⟨p.2, hRunning.live.stored p hp⟩
  · exact (ModuleGraph.scheduleAll_scheduled
      ((ModuleGraph.preflight_ok_iff hFirst).mp hPreflight).2).nodup
  · intro q _
    have hNone : (r.log .validate none).opened.bootstrappedProviders = ∅ := hUnbooted.marked
    rw [hNone]
    exact Finset.notMem_empty _

end Caelix
