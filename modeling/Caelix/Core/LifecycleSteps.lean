import Caelix.Core.Lifecycle

/-!
# What the steps of the lifecycle do

One inversion lemma for each step of a run. Everything later is derived from these.

* `Construction`: the three ways in which the construction of a provider ends.
* `Progress`: what registration does to the container.
* `Logged`: steps that change nothing but the world and the trace.
* `shutdownProviders_spec`: the shutdown loop runs one hook for each provider it finds.
-/

namespace Caelix

open Steps

variable {W : Type}

/-! ## Reading the trace -/

namespace Event

/-- The outcome that a step ends with. -/
def result (e : Event W) : Except Fault Unit :=
  match e.fault with
  | none => .ok ()
  | some f => .error f

/-- A successful init hook of a provider that is not overridden. -/
def initialized : Event W → Option (ProviderDef W × ProviderValue)
  | ⟨.moduleInit d false value, none⟩ => some (d, value)
  | _ => none

/-- A bootstrap hook, whatever its outcome. -/
def bootstrapped : Event W → Option (ProviderDef W × ProviderValue)
  | ⟨.bootstrap d value, _⟩ => some (d, value)
  | _ => none

/-- A shutdown hook, whatever its outcome. -/
def shutDown : Event W → Option (ProviderDef W × ProviderValue)
  | ⟨.shutdown d value, _⟩ => some (d, value)
  | _ => none

/-- The step belongs to a shutdown loop. -/
def isShutdown : Event W → Bool
  | ⟨.shutdown _ _, _⟩ => true
  | ⟨.missing .onShutdown _, _⟩ => true
  | _ => false

end Event

/-- The providers initialised in a trace, in order. -/
def initialized (trace : List (Event W)) : List (ProviderDef W × ProviderValue) :=
  trace.filterMap Event.initialized

/-- The providers on which `on_bootstrap` was run, in order. -/
def bootstrapped (trace : List (Event W)) : List (ProviderDef W × ProviderValue) :=
  trace.filterMap Event.bootstrapped

/-- The providers on which `on_shutdown` was run, in order. -/
def shutDown (trace : List (Event W)) : List (ProviderDef W × ProviderValue) :=
  trace.filterMap Event.shutDown

/-- The faults of all steps outside shutdown loops. -/
def startFaults (trace : List (Event W)) : List Fault :=
  (trace.filter fun e => !e.isShutdown).filterMap Event.fault

/-- The faults of shutdown hooks. -/
def shutdownFaults (trace : List (Event W)) : List Fault :=
  (trace.filter Event.isShutdown).filterMap Event.fault

section Append

variable (trace trace' : List (Event W))

@[simp] theorem initialized_append :
    initialized (trace ++ trace') = initialized trace ++ initialized trace' :=
  List.filterMap_append

@[simp] theorem bootstrapped_append :
    bootstrapped (trace ++ trace') = bootstrapped trace ++ bootstrapped trace' :=
  List.filterMap_append

@[simp] theorem shutDown_append :
    shutDown (trace ++ trace') = shutDown trace ++ shutDown trace' :=
  List.filterMap_append

@[simp] theorem startFaults_append :
    startFaults (trace ++ trace') = startFaults trace ++ startFaults trace' := by
  simp [startFaults]

@[simp] theorem shutdownFaults_append :
    shutdownFaults (trace ++ trace') = shutdownFaults trace ++ shutdownFaults trace' := by
  simp [shutdownFaults]

@[simp] theorem initialized_singleton (e : Event W) : initialized [e] = e.initialized.toList := by
  cases h : e.initialized <;> simp [initialized, h]

@[simp] theorem bootstrapped_singleton (e : Event W) :
    bootstrapped [e] = e.bootstrapped.toList := by
  cases h : e.bootstrapped <;> simp [bootstrapped, h]

@[simp] theorem shutDown_singleton (e : Event W) : shutDown [e] = e.shutDown.toList := by
  cases h : e.shutDown <;> simp [shutDown, h]

end Append

/-! ## Steps that only log -/

/-- Nothing but the world and the trace changes, which grows by `events`. -/
structure Logged (r r' : Run W) (events : List (Event W)) : Prop where
  container : r'.container = r.container
  initialized : r'.initializedProviders = r.initializedProviders
  bootstrapped : r'.bootstrappedProviders = r.bootstrappedProviders
  buses : r'.buses = r.buses
  trace : r'.trace = r.trace ++ events

theorem Logged.refl (r : Run W) : Logged r r [] := ⟨rfl, rfl, rfl, rfl, by simp⟩

theorem Logged.trans {r r' r'' : Run W} {events events' : List (Event W)}
    (h : Logged r r' events) (h' : Logged r' r'' events') : Logged r r'' (events ++ events') where
  container := h'.container.trans h.container
  initialized := h'.initialized.trans h.initialized
  bootstrapped := h'.bootstrapped.trans h.bootstrapped
  buses := h'.buses.trans h.buses
  trace := by rw [h'.trace, h.trace, List.append_assoc]

/-- A finished step ends with the fault that it records. -/
theorem Run.finish_logged (r : Run W) (action : Action W) (result : Except HttpException Unit × W) :
    ∃ fault, Logged r (r.finish action result).2 [⟨action, fault⟩] ∧
      (r.finish action result).1 = Event.result ⟨action, fault⟩ := by
  obtain ⟨result, w⟩ := result
  cases result with
  | ok u => exact ⟨none, ⟨rfl, rfl, rfl, rfl, rfl⟩, rfl⟩
  | error e => exact ⟨some (.exception e), ⟨rfl, rfl, rfl, rfl, rfl⟩, rfl⟩

/-- A hook run from the container records one step. -/
theorem runLifecycleFromContainer_logged (d : ProviderDef W) (hook : Hook)
    (callback : LifecycleFn W) (action : ProviderValue → Action W) (r : Run W) :
    ∃ e : Event W, Logged r (runLifecycleFromContainer d hook callback action r).2 [e] ∧
      (runLifecycleFromContainer d hook callback action r).1 = e.result ∧
      e.action = match r.container.services d.typeId with
        | some value => action value
        | none => .missing hook d := by
  unfold runLifecycleFromContainer Container.resolveErased
  cases r.container.services d.typeId with
  | none => exact ⟨⟨_, some _⟩, ⟨rfl, rfl, rfl, rfl, rfl⟩, rfl, rfl⟩
  | some value =>
    obtain ⟨fault, hLogged, hResult⟩ :=
      r.finish_logged (action value) (runLifecycle d value hook callback r.world)
    exact ⟨⟨action value, fault⟩, hLogged, hResult, rfl⟩

/-! ## The shutdown loop -/

/-- The providers of a list that a shutdown loop finds in the graph and in the container. -/
def shutdownTargets (graph : ModuleGraph W) (c : Container) (types : List TypeId) :
    List (ProviderDef W × ProviderValue) :=
  types.filterMap fun t =>
    (graph.defByType t).bind fun d => (c.services d.typeId).map fun value => (d, value)

/-- The loop finds all providers of a list that the graph and the container know. -/
theorem shutdownTargets_of_found {graph : ModuleGraph W} {c : Container}
    (listed : List (ProviderDef W × ProviderValue))
    (hStored : ∀ p ∈ listed, c.services p.1.typeId = some p.2)
    (hFound : ∀ p ∈ listed, graph.defByType p.1.typeId = some p.1) :
    shutdownTargets graph c (listed.map fun p => p.1.typeId) = listed := by
  induction listed with
  | nil => rfl
  | cons p listed ih =>
    have hRest := ih (fun q hq => hStored q (List.mem_cons_of_mem _ hq))
      fun q hq => hFound q (List.mem_cons_of_mem _ hq)
    rw [shutdownTargets] at hRest ⊢
    rw [List.map_cons, List.filterMap_cons, hFound p List.mem_cons_self, Option.bind_some,
      hStored p List.mem_cons_self]
    exact congrArg _ hRest

/-- What a shutdown loop over `types` does: one hook for each provider it finds, whatever
the outcomes, and the first fault is kept. -/
structure ShutsDown (graph : ModuleGraph W) (types : List TypeId) (r : Run W) (first : Option Fault)
    (result : Option Fault × Run W) (events : List (Event W)) : Prop where
  logged : Logged r result.2 events
  targets : shutDown events = shutdownTargets graph r.container.toContainer types
  shutdown : ∀ e ∈ events, e.isShutdown = true
  first : result.1 = first.or (shutdownFaults events).head?

theorem shutdownStep_spec (graph : ModuleGraph W) (r : Run W) (first : Option Fault) (t : TypeId) :
    ∃ events, ShutsDown graph [t] r first (shutdownStep graph (first, r) t) events := by
  unfold shutdownStep
  cases hDef : graph.defByType t with
  | none =>
    refine ⟨[], Logged.refl r, ?_, by simp, by simp [shutdownFaults]⟩
    simp [shutdownTargets, hDef, shutDown]
  | some d =>
    obtain ⟨e, hLogged, hResult, hAction⟩ :=
      runLifecycleFromContainer_logged d .onShutdown d.shutdownFn (.shutdown d) r
    obtain ⟨action, fault⟩ := e
    dsimp only
    rw [show runShutdown d r = runLifecycleFromContainer d .onShutdown d.shutdownFn (.shutdown d) r
      from rfl]
    revert hLogged hResult
    generalize runLifecycleFromContainer d .onShutdown d.shutdownFn (.shutdown d) r = x
    obtain ⟨result, r'⟩ := x
    rintro hLogged rfl
    dsimp only at hLogged hAction
    refine ⟨[⟨action, fault⟩], ?_, ?_, ?_, ?_⟩
    · cases fault <;> exact hLogged
    · cases hValue : r.container.services d.typeId with
      | none =>
        rw [hValue] at hAction
        subst hAction
        simp [shutdownTargets, hDef, hValue, shutDown, Event.shutDown]
      | some value =>
        rw [hValue] at hAction
        subst hAction
        simp [shutdownTargets, hDef, hValue, shutDown, Event.shutDown]
    · intro e he
      obtain rfl : e = ⟨action, fault⟩ := by simpa using he
      cases hValue : r.container.services d.typeId <;> rw [hValue] at hAction <;> subst hAction <;> rfl
    · have hShutdown : Event.isShutdown ⟨action, fault⟩ = true := by
        cases hValue : r.container.services d.typeId <;> rw [hValue] at hAction <;> subst hAction <;> rfl
      cases fault with
      | none => simp [Event.result, shutdownFaults, hShutdown]
      | some f => simp [Event.result, shutdownFaults, hShutdown]

theorem shutdownLoop_spec (graph : ModuleGraph W) (types : List TypeId) :
    ∀ (r : Run W) (first : Option Fault), ∃ events,
      ShutsDown graph types r first (types.foldl (shutdownStep graph) (first, r)) events := by
  induction types with
  | nil =>
    intro r first
    exact ⟨[], Logged.refl r, rfl, by simp, by simp [shutdownFaults]⟩
  | cons t types ih =>
    intro r first
    obtain ⟨events, hStep⟩ := shutdownStep_spec graph r first t
    obtain ⟨later, hRest⟩ := ih (shutdownStep graph (first, r) t).2 (shutdownStep graph (first, r) t).1
    refine ⟨events ++ later, hStep.logged.trans hRest.logged, ?_, ?_, ?_⟩
    · rw [shutDown_append, hStep.targets, hRest.targets, hStep.logged.container]
      exact List.filterMap_append.symm
    · intro e he
      rcases List.mem_append.mp he with he | he
      · exact hStep.shutdown e he
      · exact hRest.shutdown e he
    · rw [List.foldl_cons, hRest.first, hStep.first, shutdownFaults_append, List.head?_append,
        Option.or_assoc]

/-- The shutdown of a graph empties the list of initialised providers and runs one hook
for each of them that it finds. -/
theorem shutdownProviders_spec (graph : ModuleGraph W) (r : Run W) :
    ∃ events, ShutsDown graph r.initializedProviders.reverse { r with initializedProviders := [] }
      none (shutdownProviders graph r) events :=
  shutdownLoop_spec graph _ _ none

/-! ## Containers during registration -/

namespace RootContainer

variable (c : RootContainer W) (t : TypeId)

@[simp] theorem update_toContainer (f : Container → Container) :
    (c.update f).toContainer = f c.toContainer := rfl

@[simp] theorem update_pendingOverride (f : Container → Container) :
    (c.update f).pendingOverride t = c.pendingOverride t := rfl

@[simp] theorem claim_fst : (c.claim t).1 = c.pendingOverride t := rfl

@[simp] theorem claim_services : (c.claim t).2.services = c.services := by
  unfold claim takePendingOverride
  dsimp only
  split <;> rfl

theorem claim_applied :
    (c.claim t).2.appliedOverrides =
      if (c.pendingOverride t).isSome then insert t c.appliedOverrides else c.appliedOverrides := by
  unfold claim takePendingOverride
  dsimp only
  split <;> rfl

theorem claim_pendingOverride (u : TypeId) :
    (c.claim t).2.pendingOverride u = if u = t then none else c.pendingOverride u := by
  have hDrop : (c.claim t).2.pendingOverride u = (c.dropPendingOverride t).pendingOverride u := by
    unfold claim takePendingOverride
    dsimp only
    split <;> rfl
  rw [hDrop]
  by_cases hu : u = t
  · rw [if_pos hu, hu, pendingOverride_drop_self]
  · rw [if_neg hu, pendingOverride_drop_of_ne _ hu]

/-- What registration does to the container: services and marks are only added, and an
override leaves the pending ones only by being applied. -/
structure Progress (c c' : RootContainer W) : Prop where
  services : ∀ t v, c.services t = some v → c'.services t = some v
  applied : c.appliedOverrides ⊆ c'.appliedOverrides
  pending : ∀ t, c'.pendingOverride t = c.pendingOverride t ∨
    (c'.pendingOverride t = none ∧ t ∈ c'.appliedOverrides)
  typed : c.Typed → c'.Typed

namespace Progress

variable {c c' c'' : RootContainer W} {t : TypeId}

theorem refl (c : RootContainer W) : Progress c c :=
  ⟨fun _ _ h => h, Finset.Subset.refl _, fun _ => Or.inl rfl, fun h => h⟩

theorem trans (h : Progress c c') (h' : Progress c' c'') : Progress c c'' where
  services t v hv := h'.services t v (h.services t v hv)
  applied := h.applied.trans h'.applied
  pending t := by
    rcases h'.pending t with he | hNone
    · rcases h.pending t with he' | ⟨hNone, hMem⟩
      · exact Or.inl (he.trans he')
      · exact Or.inr ⟨he.trans hNone, h'.applied hMem⟩
    · exact Or.inr hNone
  typed hc := h'.typed (h.typed hc)

theorem declare (c : RootContainer W) (t : TypeId) :
    Progress c (c.update fun c => c.markProviderDeclared t) :=
  ⟨fun _ _ h => h, Finset.Subset.refl _, fun _ => Or.inl rfl, fun h => h⟩

theorem claim (c : RootContainer W) (t : TypeId) : Progress c (c.claim t).2 where
  services u v h := by rwa [claim_services]
  applied := by
    rw [claim_applied]
    split
    · exact Finset.subset_insert _ _
    · exact Finset.Subset.refl _
  pending u := by
    rw [claim_pendingOverride, claim_applied]
    by_cases hu : u = t
    · subst hu
      cases hPending : c.pendingOverride u with
      | none => simp
      | some d => simp
    · simp [hu]
  typed h := by
    intro u v hv
    rw [claim_services] at hv
    exact h u v hv

theorem store (c : RootContainer W) {t : TypeId} {v : ProviderValue} (hNew : c.services t = none)
    (hv : v.typeId = t) : Progress c (c.update fun c => c.registerErased t v) where
  services u w hw := by
    have hu : u ≠ t := by
      rintro rfl
      rw [hNew] at hw
      cases hw
    simpa [Function.update_of_ne hu] using hw
  applied := Finset.Subset.refl _
  pending _ := Or.inl rfl
  typed h := Container.Typed.registerErased h hv

theorem contains (h : Progress c c') (ht : c.containsTypeId t = true) :
    c'.containsTypeId t = true := by
  rw [Container.containsTypeId_iff] at ht ⊢
  obtain ⟨v, hv⟩ := ht
  exact ⟨v, h.services t v hv⟩

/-- A type without pending or applied override had none before. -/
theorem not_overridden (h : Progress c c') (hPending : c'.pendingOverride t = none)
    (hApplied : t ∉ c'.appliedOverrides) : overriddenIn (some c) t = false := by
  have hOld : c.pendingOverride t = none := by
    rcases h.pending t with he | ⟨-, hMem⟩
    · rw [← he, hPending]
    · exact absurd hMem hApplied
  have hOldApplied : t ∉ c.appliedOverrides := fun hMem => hApplied (h.applied hMem)
  simp [overriddenIn, hasPendingOverride, hOld, Container.wasOverridden, hOldApplied]

end Progress

end RootContainer

/-! ## Construction of a provider -/

/-- The scoped container that the factory of a provider is given. -/
def scopedContainerOf (c : RootContainer W) (declared : ProviderDef W) : Container :=
  (c.claim declared.typeId).2.scopedForProvider (c.effective declared).typeName
    (c.effective declared).dependencies

/-- The step that records the construction. -/
def createAction (c : RootContainer W) (declared : ProviderDef W) : Action W :=
  .create (c.effective declared) (c.hasPendingOverride declared.typeId) (scopedContainerOf c declared)

def initAction (c : RootContainer W) (declared : ProviderDef W) (value : ProviderValue) : Action W :=
  .moduleInit (c.effective declared) (c.hasPendingOverride declared.typeId) value

/-- The factory run for a declared provider. -/
def buildEffective (c : RootContainer W) (declared : ProviderDef W) (w : W) :
    Except HttpException ProviderValue × W :=
  (c.effective declared).build (scopedContainerOf c declared) w

/-- The container with the built value stored. -/
def storedContainer (c : RootContainer W) (declared : ProviderDef W) (value : ProviderValue) :
    RootContainer W :=
  (c.claim declared.typeId).2.update fun c => c.registerErased declared.typeId value

theorem storedContainer_services (c : RootContainer W) (declared : ProviderDef W)
    (value : ProviderValue) : (storedContainer c declared value).services =
      Function.update c.services declared.typeId (some value) := by
  simp only [storedContainer, RootContainer.update_toContainer, Container.registerErased_services,
    RootContainer.claim_services]

theorem storedContainer_appliedOverrides (c : RootContainer W) (declared : ProviderDef W)
    (value : ProviderValue) : (storedContainer c declared value).appliedOverrides =
      if (c.pendingOverride declared.typeId).isSome then insert declared.typeId c.appliedOverrides
      else c.appliedOverrides := by
  simp only [storedContainer, RootContainer.update_toContainer,
    Container.registerErased_appliedOverrides, RootContainer.claim_applied]

/-- The three ways in which the construction of a provider ends. -/
inductive Construction (declared : ProviderDef W) (r : Run W) : Outcome W → Prop
  | buildFailed (e : HttpException) (w : W)
    (hBuild : buildEffective r.container declared r.world = (.error e, w)) :
    Construction declared r (.error (.exception e), { r with
      container := (r.container.claim declared.typeId).2
      world := w
      trace := r.trace ++ [⟨createAction r.container declared, some (.exception e)⟩] })
  | initFailed (value : ProviderValue) (e : HttpException) (w : W)
    (hValue : value.typeId = declared.typeId)
    (hBuild : (buildEffective r.container declared r.world).1 = .ok value) :
    Construction declared r (.error (.exception e), { r with
      container := storedContainer r.container declared value
      world := w
      trace := r.trace ++ [⟨createAction r.container declared, none⟩] ++
        [⟨initAction r.container declared value, some (.exception e)⟩] })
  | done (value : ProviderValue) (w : W) (hValue : value.typeId = declared.typeId)
    (hBuild : (buildEffective r.container declared r.world).1 = .ok value) :
    Construction declared r (.ok (), { r with
      container := storedContainer r.container declared value
      initializedProviders := if (r.container.pendingOverride declared.typeId).isNone then
        r.initializedProviders ++ [declared.typeId] else r.initializedProviders
      world := w
      trace := r.trace ++ [⟨createAction r.container declared, none⟩] ++
        [⟨initAction r.container declared value, none⟩] })

theorem constructProvider_construction (declared : ProviderDef W) (r : Run W) :
    Construction declared r (constructProvider declared r) := by
  have hEffective : (r.container.effective declared).typeId = declared.typeId :=
    r.container.effective_typeId declared
  unfold constructProvider
  dsimp only
  rw [RootContainer.claim_fst]
  split
  · rename_i e w hBuild
    exact Construction.buildFailed e w hBuild
  · rename_i value w hBuild
    have hValue : value.typeId = declared.typeId := by
      rw [← hEffective]
      apply (r.container.effective declared).build_typed (scopedContainerOf r.container declared) r.world
      exact congrArg Prod.fst hBuild
    change Construction declared r (andThen (Run.finish (Run.log { r with
      container := (r.container.claim declared.typeId).2.update fun c =>
        c.registerErased (r.container.effective declared).typeId value
      world := w } _ _) _ (runLifecycle (r.container.effective declared) value .onModuleInit
        (r.container.effective declared).initFn w)) _)
    rw [hEffective]
    rcases runLifecycle (r.container.effective declared) value .onModuleInit
      (r.container.effective declared).initFn w with ⟨result, w'⟩
    cases result with
    | error e => exact Construction.initFailed value e w' hValue (congrArg Prod.fst hBuild)
    | ok u => exact Construction.done value w' hValue (congrArg Prod.fst hBuild)

theorem Construction.progress {declared : ProviderDef W} {r : Run W} {x : Outcome W}
    (h : Construction declared r x) (hNew : r.container.services declared.typeId = none) :
    r.container.Progress x.2.container := by
  have hClaim := RootContainer.Progress.claim r.container declared.typeId
  have hStore : ∀ value : ProviderValue, value.typeId = declared.typeId →
      r.container.Progress (storedContainer r.container declared value) := by
    intro value hValue
    exact hClaim.trans (RootContainer.Progress.store _ (by simpa using hNew) hValue)
  cases h with
  | buildFailed e w => exact hClaim
  | initFailed value e w hValue => exact hStore value hValue
  | done value w hValue => exact hStore value hValue

/-! ## Rounds of the registration loops -/

@[simp] theorem rollbackGraph_container (graph : ModuleGraph W) (r : Run W) :
    (rollbackGraph graph r).container = r.container := by
  obtain ⟨events, h⟩ := shutdownProviders_spec graph r
  exact h.logged.container

@[simp] theorem rollbackGraph_buses (graph : ModuleGraph W) (r : Run W) :
    (rollbackGraph graph r).buses = r.buses := by
  obtain ⟨events, h⟩ := shutdownProviders_spec graph r
  exact h.logged.buses

theorem rollbackGraph_trace (graph : ModuleGraph W) (r : Run W) :
    ∃ events, (rollbackGraph graph r).trace = r.trace ++ events ∧
      ∀ e ∈ events, e.isShutdown = true := by
  obtain ⟨events, h⟩ := shutdownProviders_spec graph r
  exact ⟨events, h.logged.trace, h.shutdown⟩

@[simp] theorem orRollback_fst (graph : ModuleGraph W) (x : Outcome W) :
    (orRollback graph x).1 = x.1 := by
  obtain ⟨result, r⟩ := x
  cases result <;> rfl

@[simp] theorem orRollback_container (graph : ModuleGraph W) (x : Outcome W) :
    (orRollback graph x).2.container = x.2.container := by
  obtain ⟨result, r⟩ := x
  cases result with
  | ok u => rfl
  | error f => exact rollbackGraph_container graph r

theorem ends_orRollback {graph : ModuleGraph W} {x : Outcome W} {Q : Run W → Prop}
    {R R' : Fault → Run W → Prop} (h : Ends x Q R) (hRoll : ∀ f r, R f r → R' f (rollbackGraph graph r)) :
    Ends (orRollback graph x) Q R' := by
  obtain ⟨result, r⟩ := x
  cases result with
  | ok u => exact h
  | error f => exact hRoll f r h

/-- The run with a type marked as declared. -/
def Run.declare (r : Run W) (t : TypeId) : Run W :=
  { r with container := r.container.update fun c => c.markProviderDeclared t }

/-- A type already provided is only marked. -/
theorem initializeProvider_skip {graph : ModuleGraph W} {registration : ProviderRegistration W}
    {r : Run W} (h : (∃ v, r.container.services registration.typeId = some v) ∨
      registration.typeId ∈ r.container.appliedOverrides) :
    initializeProvider graph registration r = (.ok (), r.declare registration.typeId) := by
  unfold initializeProvider
  dsimp only
  rw [if_pos]
  · rfl
  · rw [Bool.or_eq_true, Container.containsTypeId_iff, Container.wasOverridden_iff]
    exact h

/-- Any other type is constructed. -/
theorem initializeProvider_construct {graph : ModuleGraph W}
    {registration : ProviderRegistration W} {r : Run W}
    (hNew : r.container.services registration.typeId = none)
    (hApplied : registration.typeId ∉ r.container.appliedOverrides) :
    ∃ x, Construction registration.definition (r.declare registration.typeId) x ∧
      initializeProvider graph registration r = orRollback graph x := by
  refine ⟨_, constructProvider_construction _ _, ?_⟩
  unfold initializeProvider
  dsimp only
  rw [if_neg]
  · rfl
  · rw [Bool.or_eq_true, Container.containsTypeId_iff, Container.wasOverridden_iff]
    rintro (⟨v, hv⟩ | hMem)
    · have hNone : r.container.services registration.typeId = some v := hv
      rw [hNew] at hNone
      cases hNone
    · exact hApplied hMem

/-- The two cases of a round, as one case analysis. -/
theorem initializeProvider_cases (graph : ModuleGraph W) (registration : ProviderRegistration W)
    (r : Run W) :
    (((∃ v, r.container.services registration.typeId = some v) ∨
        registration.typeId ∈ r.container.appliedOverrides) ∧
      initializeProvider graph registration r = (.ok (), r.declare registration.typeId)) ∨
    (r.container.services registration.typeId = none ∧
      registration.typeId ∉ r.container.appliedOverrides ∧
      ∃ x, Construction registration.definition (r.declare registration.typeId) x ∧
        initializeProvider graph registration r = orRollback graph x) := by
  by_cases hApplied : registration.typeId ∈ r.container.appliedOverrides
  · exact Or.inl ⟨Or.inr hApplied, initializeProvider_skip (Or.inr hApplied)⟩
  · cases hService : r.container.services registration.typeId with
    | some v => exact Or.inl ⟨Or.inl ⟨v, rfl⟩, initializeProvider_skip (Or.inl ⟨v, hService⟩)⟩
    | none => exact Or.inr ⟨rfl, hApplied, initializeProvider_construct hService hApplied⟩

theorem initializeProvider_progress (graph : ModuleGraph W) (registration : ProviderRegistration W)
    (r : Run W) : r.container.Progress (initializeProvider graph registration r).2.container := by
  have hDeclare := RootContainer.Progress.declare r.container registration.typeId
  rcases initializeProvider_cases graph registration r with ⟨-, he⟩ | ⟨hNew, -, x, hx, he⟩
  · rw [he]
    exact hDeclare
  · rw [he, orRollback_container]
    exact hDeclare.trans (hx.progress hNew)

theorem runAll_progress (graph : ModuleGraph W) (l : List (ProviderRegistration W)) (r : Run W) :
    r.container.Progress (runAll (initializeProvider graph) l r).2.container := by
  refine Ends.always (Q := fun r' : Run W => r.container.Progress r'.container) ?_
  apply ends_runAll_of_keeps (I := fun r' : Run W => r.container.Progress r'.container) l
    (RootContainer.Progress.refl _)
  intro q _ r' hI
  exact ends_of_always _ (hI.trans (initializeProvider_progress graph q r'))

/-- How the registration of an event handler ends. -/
inductive HandlerRegistration (handler : EventHandlerDef W) (r : Run W) : Outcome W → Prop
  | failed (f : Fault) (w : W) :
    HandlerRegistration handler r (.error f, { r with
      world := w
      trace := r.trace ++ [⟨.registerHandler handler, some f⟩] })
  | done (value bus : ProviderValue) (w : W)
    (hValue : r.container.resolve ⟨handler.typeId, handler.typeName⟩ = .ok value)
    (hBus : r.container.resolve ⟨TypeId.eventBus, "caelix_core::events::EventBus"⟩ = .ok bus) :
    HandlerRegistration handler r (.ok (), { r with
      buses := Function.update r.buses bus.inst
        ((r.buses bus.inst).register handler.eventType value)
      world := w
      trace := r.trace ++ [⟨.registerHandler handler, none⟩] })

theorem register_registration (handler : EventHandlerDef W) (r : Run W) :
    HandlerRegistration handler r (handler.register r) := by
  unfold EventHandlerDef.register
  cases hValue : r.container.resolve ⟨handler.typeId, handler.typeName⟩ with
  | error e => exact HandlerRegistration.failed (.exception e) r.world
  | ok value =>
    dsimp only
    cases hBus : r.container.resolve ⟨TypeId.eventBus, "caelix_core::events::EventBus"⟩ with
    | error e => exact HandlerRegistration.failed (.exception e) r.world
    | ok bus =>
      dsimp only
      rcases handler.registerInto r.world with ⟨result, w⟩
      cases result with
      | error e => exact HandlerRegistration.failed (.exception e) w
      | ok u => exact HandlerRegistration.done value bus w hValue hBus

theorem HandlerRegistration.container {handler : EventHandlerDef W} {r : Run W} {x : Outcome W}
    (h : HandlerRegistration handler r x) : x.2.container = r.container := by
  cases h <;> rfl

/-- A handler loop leaves the container alone. -/
theorem registerHandler_container (graph : ModuleGraph W) (p : Nat × EventHandlerDef W) (r : Run W) :
    (registerHandler graph p r).2.container = r.container := by
  rw [registerHandler, orRollback_container]
  exact (register_registration p.2 r).container

/-- A round of the bootstrap loop runs one hook, or there is nothing to do. -/
theorem bootstrapProvider_cases (graph : ModuleGraph W) (types : List TypeId)
    (registration : ProviderRegistration W) (r : Run W) :
    bootstrapProvider graph types registration r = (.ok (), r) ∨
    (registration.typeId ∈ types ∧ registration.typeId ∉ r.container.appliedOverrides ∧
      registration.typeId ∉ r.bootstrappedProviders ∧ ∃ (e : Event W) (x : Outcome W),
        Logged { r with bootstrappedProviders := insert registration.typeId r.bootstrappedProviders }
          x.2 [e] ∧ x.1 = e.result ∧
        (e.action = match r.container.services registration.typeId with
          | some value => .bootstrap registration.definition value
          | none => .missing .onBootstrap registration.definition) ∧
        bootstrapProvider graph types registration r = orRollback graph x) := by
  unfold bootstrapProvider
  dsimp only
  split
  · rename_i hRun
    obtain ⟨e, hLogged, hResult, hAction⟩ := runLifecycleFromContainer_logged
      registration.definition .onBootstrap registration.definition.bootstrapFn
      (.bootstrap registration.definition)
      { r with bootstrappedProviders := insert registration.typeId r.bootstrappedProviders }
    have hApplied : registration.definition.typeId ∉ r.container.appliedOverrides := by
      simpa [Container.wasOverridden] using hRun.2.1
    exact Or.inr ⟨hRun.1, hApplied, hRun.2.2, e, _, hLogged, hResult, hAction, rfl⟩
  · exact Or.inl rfl

/-! ## What a step adds -/

def faultsOf : Except Fault Unit → List Fault
  | .ok _ => []
  | .error f => [f]

/-- A step of registration or bootstrap before any rollback: the container only progresses,
the trace grows by `events` with the fault of the step, and the providers `new` are
initialised and join the list. -/
structure Adds (r : Run W) (x : Outcome W) (events : List (Event W))
    (new : List (ProviderDef W × ProviderValue)) : Prop where
  progress : r.container.Progress x.2.container
  trace : x.2.trace = r.trace ++ events
  faults : events.filterMap Event.fault = faultsOf x.1
  isShutdown : ∀ e ∈ events, e.isShutdown = false
  initialized : initialized events = new
  listed : x.2.initializedProviders = r.initializedProviders ++ new.map fun p => p.1.typeId
  stored : ∀ p ∈ new, x.2.container.services p.1.typeId = some p.2
  fresh : ∀ p ∈ new, r.container.services p.1.typeId = none
  nodup : (new.map fun p => p.1.typeId).Nodup

namespace Adds

variable {r : Run W} {x : Outcome W} {events : List (Event W)}
  {new : List (ProviderDef W × ProviderValue)}

theorem startFaults (h : Adds r x events new) : startFaults events = faultsOf x.1 := by
  rw [← h.faults, Caelix.startFaults, List.filter_eq_self.mpr]
  intro e he
  simp [h.isShutdown e he]

theorem shutdownFaults (h : Adds r x events new) : shutdownFaults events = [] := by
  rw [Caelix.shutdownFaults, List.filter_eq_nil_iff.mpr]
  · rfl
  · intro e he
    simp [h.isShutdown e he]

theorem shutDown (h : Adds r x events new) : shutDown events = [] := by
  rw [Caelix.shutDown, List.filterMap_eq_nil_iff]
  intro e he
  have hShutdown := h.isShutdown e he
  obtain ⟨action, fault⟩ := e
  cases action <;> first | rfl | simp [Event.isShutdown] at hShutdown

/-- One event that is neither a successful init hook nor part of a shutdown. -/
theorem single {e : Event W} (hContainer : r.container.Progress x.2.container)
    (hListed : x.2.initializedProviders = r.initializedProviders) (hTrace : x.2.trace = r.trace ++ [e])
    (hResult : x.1 = e.result) (hInit : e.initialized = none) (hShutdown : e.isShutdown = false) :
    Adds r x [e] [] where
  progress := hContainer
  trace := hTrace
  faults := by
    rw [hResult, Event.result]
    cases h : e.fault <;> simp [h, faultsOf]
  isShutdown e' he := by
    obtain rfl : e' = e := by simpa using he
    exact hShutdown
  initialized := by
    rw [initialized_singleton, hInit]
    rfl
  listed := by simpa using hListed
  stored := by simp
  fresh := by simp
  nodup := by simp

/-- A step that reads the run and logs its outcome. -/
theorem log_ok (r : Run W) {action : Action W} (hInit : Event.initialized ⟨action, none⟩ = none)
    (hShutdown : Event.isShutdown ⟨action, none⟩ = false) :
    Adds r (.ok (), r.log action none) [⟨action, none⟩] [] :=
  single (RootContainer.Progress.refl _) rfl rfl rfl hInit hShutdown

end Adds

/-- A construction initialises the declared provider when it succeeds without override. -/
theorem Construction.adds {declared : ProviderDef W} {r : Run W} {x : Outcome W}
    (h : Construction declared r x) (hNew : r.container.services declared.typeId = none) :
    ∃ events new, Adds r x events new ∧
      ∀ p ∈ new, p.1 = declared ∧ r.container.pendingOverride declared.typeId = none := by
  have hProgress := h.progress hNew
  cases h with
  | buildFailed e w =>
    exact ⟨_, [], Adds.single hProgress rfl rfl rfl rfl rfl, by simp⟩
  | initFailed value e w hValue =>
    refine ⟨[⟨createAction r.container declared, none⟩,
      ⟨initAction r.container declared value, some (.exception e)⟩], [], ?_, by simp⟩
    refine ⟨hProgress, by simp, rfl, ?_, ?_, by simp, by simp, by simp, by simp⟩
    · intro e' he
      simp only [List.mem_cons, List.not_mem_nil, or_false] at he
      rcases he with rfl | rfl <;> rfl
    · cases hPending : r.container.hasPendingOverride declared.typeId <;>
        simp [initialized, initAction, createAction, Event.initialized]
  | done value w hValue =>
    refine ⟨[⟨createAction r.container declared, none⟩,
      ⟨initAction r.container declared value, none⟩],
      if (r.container.pendingOverride declared.typeId).isNone then [(declared, value)] else [], ?_, ?_⟩
    · have hStored : (storedContainer r.container declared value).services declared.typeId =
          some value := by rw [storedContainer_services, Function.update_self]
      cases hPending : r.container.pendingOverride declared.typeId with
      | none =>
        refine ⟨hProgress, by simp, rfl, ?_, ?_, by simp, ?_, ?_, by simp⟩
        · intro e' he
          simp only [List.mem_cons, List.not_mem_nil, or_false] at he
          rcases he with rfl | rfl <;> rfl
        · simp only [initAction, createAction, RootContainer.hasPendingOverride,
            RootContainer.effective, hPending]
          rfl
        · intro p hp
          obtain rfl : p = _ := by simpa using hp
          exact hStored
        · intro p hp
          obtain rfl : p = _ := by simpa using hp
          exact hNew
      | some override =>
        refine ⟨hProgress, by simp, rfl, ?_, ?_, by simp, by simp, by simp, by simp⟩
        · intro e' he
          simp only [List.mem_cons, List.not_mem_nil, or_false] at he
          rcases he with rfl | rfl <;> rfl
        · simp [initialized, initAction, createAction, Event.initialized,
            RootContainer.hasPendingOverride, hPending]
    · intro p hp
      cases hPending : r.container.pendingOverride declared.typeId with
      | none =>
        rw [hPending] at hp
        obtain rfl : p = _ := by simpa using hp
        exact ⟨rfl, rfl⟩
      | some override => simp [hPending] at hp

theorem HandlerRegistration.adds {handler : EventHandlerDef W} {r : Run W} {x : Outcome W}
    (h : HandlerRegistration handler r x) : ∃ e, Adds r x [e] [] := by
  cases h with
  | failed f w => exact ⟨_, Adds.single (RootContainer.Progress.refl _) rfl rfl rfl rfl rfl⟩
  | done value bus w _ _ =>
    exact ⟨_, Adds.single (RootContainer.Progress.refl _) rfl rfl rfl rfl rfl⟩

/-- A bootstrap round adds the event of the hook, if it runs one. -/
theorem bootstrapProvider_adds (graph : ModuleGraph W) (types : List TypeId)
    (registration : ProviderRegistration W) (r : Run W) :
    bootstrapProvider graph types registration r = (.ok (), r) ∨
    ∃ e x, Adds r x [e] [] ∧ bootstrapProvider graph types registration r = orRollback graph x := by
  rcases bootstrapProvider_cases graph types registration r with
    he | ⟨-, -, -, ⟨action, fault⟩, x, hLogged, hResult, hAction, he⟩
  · exact Or.inl he
  · refine Or.inr ⟨⟨action, fault⟩, x, ?_, he⟩
    dsimp only at hAction
    refine Adds.single ?_ hLogged.initialized hLogged.trace hResult ?_ ?_
    · rw [hLogged.container]
      exact RootContainer.Progress.refl _
    · cases hValue : r.container.services registration.typeId <;> rw [hValue] at hAction <;>
        subst hAction <;> rfl
    · cases hValue : r.container.services registration.typeId <;> rw [hValue] at hAction <;>
        subst hAction <;> rfl

/-! ## Calls -/

/-- The run in which a call has discovered and checked its graph. -/
def Run.opened (r : Run W) : Run W := (r.log .discover none).log .preflight none

@[simp] theorem initialized_opened (r : Run W) : initialized r.opened.trace = initialized r.trace := by
  show initialized (r.trace ++ [⟨.discover, none⟩] ++ [⟨.preflight, none⟩]) = _
  rw [initialized_append, initialized_append, initialized_singleton, initialized_singleton]
  exact (List.append_nil _).trans (List.append_nil _)

/-- How `register_module` goes: it fails in discovery or in preflight, or it runs the two
loops of its graph. -/
theorem registerModule_cases (P : Program W) (root : ModuleDef) (r : Run W) :
    (∃ f, discoverFrom P root = .error f ∧
      registerModule P root r = (.error f, r.log .discover (some f))) ∨
    ∃ graph, discoverFrom P root = .ok graph ∧
      ((∃ f, graph.preflight (some r.container) = .error f ∧
        registerModule P root r = (.error f, (r.log .discover none).log .preflight (some f))) ∨
      ∃ order, graph.preflight (some r.container) = .ok order ∧
        registerModule P root r = andThen (runAll (initializeProvider graph) order r.opened)
          (runAll (registerHandler graph) graph.eventHandlers)) := by
  unfold registerModule
  cases discoverFrom P root with
  | error f => exact Or.inl ⟨f, rfl, rfl⟩
  | ok graph =>
    refine Or.inr ⟨graph, rfl, ?_⟩
    show (∃ f, _ ∧ initializeGraph graph (r.log .discover none) = _) ∨
      ∃ order, _ ∧ initializeGraph graph (r.log .discover none) = _
    unfold initializeGraph
    rw [show (r.log .discover none).container = r.container from rfl]
    cases graph.preflight (some r.container) with
    | error f => exact Or.inl ⟨f, rfl, rfl⟩
    | ok order => exact Or.inr ⟨order, rfl, rfl⟩

/-- A property of the container that every round keeps holds after the registration,
whatever its outcome. -/
theorem registerModule_container {I : RootContainer W → Prop} (P : Program W) (root : ModuleDef)
    {r : Run W} (h : I r.container)
    (hRound : ∀ (graph : ModuleGraph W) q (r : Run W), I r.container →
      I (initializeProvider graph q r).2.container) : I (registerModule P root r).2.container := by
  rcases registerModule_cases P root r with ⟨f, -, he⟩ | ⟨graph, -, ⟨f, -, he⟩ | ⟨order, -, he⟩⟩
  · rw [he]
    exact h
  · rw [he]
    exact h
  · rw [he]
    have hOpened : I r.opened.container := h
    refine Ends.always (Q := fun r : Run W => I r.container) (Ends.andThen (Q := fun r : Run W => I r.container) ?_ ?_)
    · apply ends_runAll_of_keeps (I := fun r : Run W => I r.container) order hOpened
      intro q _ r' hI
      exact ends_of_always _ (hRound graph q r' hI)
    · intro r' hI
      apply ends_runAll_of_keeps (I := fun r : Run W => I r.container) _ hI
      intro p _ r'' hI'
      apply ends_of_always
      rwa [registerHandler_container]

theorem registerModule_progress (P : Program W) (root : ModuleDef) (r : Run W) :
    r.container.Progress (registerModule P root r).2.container := by
  apply registerModule_container (I := fun c => r.container.Progress c) P root
    (RootContainer.Progress.refl _)
  intro graph q r' h
  exact h.trans (initializeProvider_progress graph q r')

/-- How `bootstrap_module` goes. -/
theorem bootstrapModule_cases (P : Program W) (root : ModuleDef) (r : Run W) :
    (∃ f, discoverFrom P root = .error f ∧
      bootstrapModule P root r = (.error f, r.log .discover (some f))) ∨
    ∃ graph, discoverFrom P root = .ok graph ∧
      ((∃ f, graph.preflight (some r.container) = .error f ∧
        bootstrapModule P root r = (.error f, (r.log .discover none).log .preflight (some f))) ∨
      ∃ order, graph.preflight (some r.container) = .ok order ∧
        bootstrapModule P root r =
          runAll (bootstrapProvider graph r.initializedProviders) order r.opened) := by
  unfold bootstrapModule
  cases discoverFrom P root with
  | error f => exact Or.inl ⟨f, rfl, rfl⟩
  | ok graph =>
    refine Or.inr ⟨graph, rfl, ?_⟩
    show (∃ f, _ ∧ bootstrapGraph graph (r.log .discover none) = _) ∨
      ∃ order, _ ∧ bootstrapGraph graph (r.log .discover none) = _
    unfold bootstrapGraph
    rw [show (r.log .discover none).container = r.container from rfl]
    cases graph.preflight (some r.container) with
    | error f => exact Or.inl ⟨f, rfl, rfl⟩
    | ok order => exact Or.inr ⟨order, rfl, rfl⟩

/-- How `shutdown_module` goes. -/
theorem shutdownModule_cases (P : Program W) (root : ModuleDef) (r : Run W) :
    (∃ f, discoverFrom P root = .error f ∧
      shutdownModule P root r = (.error f, r.log .discover (some f))) ∨
    ∃ graph, discoverFrom P root = .ok graph ∧
      shutdownModule P root r =
        (match (shutdownProviders graph (r.log .discover none)).1 with
          | none => .ok ()
          | some f => .error f, (shutdownProviders graph (r.log .discover none)).2) := by
  unfold shutdownModule
  cases discoverFrom P root with
  | error f => exact Or.inl ⟨f, rfl, rfl⟩
  | ok graph =>
    refine Or.inr ⟨graph, rfl, ?_⟩
    dsimp only [Run.check]
    rcases shutdownProviders graph (r.log .discover none) with ⟨first, r'⟩
    cases first <;> rfl

/-! ## What a run records -/

/-- The trace grows by events with a property. -/
def Run.Extends (r r' : Run W) (p : Event W → Prop) : Prop :=
  ∃ events, r'.trace = r.trace ++ events ∧ ∀ e ∈ events, p e

theorem Run.Extends.refl (r : Run W) (p : Event W → Prop) : r.Extends r p :=
  ⟨[], by simp, by simp⟩

theorem Run.Extends.trans {r r' r'' : Run W} {p : Event W → Prop} (h : r.Extends r' p)
    (h' : r'.Extends r'' p) : r.Extends r'' p := by
  obtain ⟨events, hTrace, hEvents⟩ := h
  obtain ⟨later, hTrace', hLater⟩ := h'
  refine ⟨events ++ later, by rw [hTrace', hTrace, List.append_assoc], ?_⟩
  intro e he
  rcases List.mem_append.mp he with he | he
  · exact hEvents e he
  · exact hLater e he

theorem Run.Extends.single {r r' : Run W} {p : Event W → Prop} {e : Event W}
    (h : r'.trace = r.trace ++ [e]) (he : p e) : r.Extends r' p := by
  refine ⟨[e], h, ?_⟩
  intro e' he'
  rwa [List.mem_singleton.mp he']

theorem Run.Extends.ends {r r' : Run W} {p : Event W → Prop} {x : Outcome W} (h : r.Extends r' p)
    (h' : r'.Extends x.2 p) :
    Ends x (fun r'' => r.Extends r'' p) fun _ r'' => r.Extends r'' p :=
  ends_of_always x (h.trans h')

theorem Run.Extends.orRollback {graph : ModuleGraph W} {r : Run W} {x : Outcome W}
    {p : Event W → Prop} (hShutdown : ∀ e : Event W, e.isShutdown = true → p e)
    (h : r.Extends x.2 p) : r.Extends (orRollback graph x).2 p := by
  obtain ⟨result, r'⟩ := x
  cases result with
  | ok u => exact h
  | error f =>
    obtain ⟨events, hTrace, hAll⟩ := rollbackGraph_trace graph r'
    exact h.trans ⟨events, hTrace, fun e he => hShutdown e (hAll e he)⟩

end Caelix
