import Caelix.Core.OverrideStability

/-!
# Construction order and scoped injection

A factory runs in a round of the registration loop, after the rounds of the registrations
scheduled before it (`Constructs`). `Held` lists the containers that code using the
framework can hold, among them the scoped containers handed to factories.

* `Held.sound`: what holds of all these containers.
* `schedule_and_injection`: the order of construction, and what a factory may resolve.
-/

namespace Caelix

open Steps

variable {W : Type}

/-! ## Where factories run -/

/-- A recorded construction is the one of a registration `q` of the schedule, after the
rounds of the registrations scheduled before it. -/
def Constructs (graph : ModuleGraph W) (order : List (ProviderRegistration W)) (r₀ : Run W)
    (e : Event W) : Prop :=
  ∀ provider overridden scopedContainer, e.action = .create provider overridden scopedContainer →
    ∃ done q later r, order = done ++ q :: later ∧
      runAll (initializeProvider graph) done r₀ = (.ok (), r) ∧
      r.container.services q.typeId = none ∧ q.typeId ∉ r.container.appliedOverrides ∧
      e.action = createAction (r.declare q.typeId).container q.definition

theorem constructs_of_isShutdown {graph : ModuleGraph W} {order : List (ProviderRegistration W)}
    {r₀ : Run W} (e : Event W) (h : e.isShutdown = true) : Constructs graph order r₀ e := by
  intro provider overridden scopedContainer he
  obtain ⟨action, fault⟩ := e
  dsimp only at he
  subst he
  cases h

theorem initializeGraph_constructs {graph : ModuleGraph W} {r : Run W}
    {order : List (ProviderRegistration W)} (hPreflight : graph.preflight (some r.container) = .ok order) :
    r.Extends (initializeGraph graph r).2 (Constructs graph order (r.log .preflight none)) := by
  have hOther : ∀ e : Event W, (∀ p o s, e.action ≠ .create p o s) →
      Constructs graph order (r.log .preflight none) e :=
    fun e hNot p o s he => absurd he (hNot p o s)
  have hRun : initializeGraph graph r =
      andThen (runAll (initializeProvider graph) order (r.log .preflight none))
        (runAll (registerHandler graph) graph.eventHandlers) := by
    unfold initializeGraph
    rw [hPreflight]
    rfl
  rw [hRun]
  have hShutdown : ∀ e : Event W, e.isShutdown = true →
      Constructs graph order (r.log .preflight none) e := constructs_of_isShutdown
  generalize hCreates : Constructs graph order (r.log .preflight none) = p at hOther hShutdown ⊢
  refine Ends.always (Q := fun r' => r.Extends r' p) (Ends.andThen (Q := fun r' => r.Extends r' p) ?_ ?_)
  · apply ends_runAll_reached (I := fun _ r' => r.Extends r' p) order
    · exact Run.Extends.single rfl (hOther _ fun p o s h => nomatch h)
    · intro done q later hOrder r' hReached h
      apply h.ends
      rcases initializeProvider_cases graph q r' with ⟨-, he⟩ | ⟨hNone, hApplied, x, hx, he⟩
      · rw [he]
        exact Run.Extends.refl r' p
      · rw [he]
        apply Run.Extends.orRollback hShutdown
        have hCreate : ∀ fault, p ⟨createAction (r'.declare q.typeId).container q.definition, fault⟩ := by
          intro fault
          rw [← hCreates]
          exact fun _ _ _ _ => ⟨done, q, later, r', hOrder, hReached, hNone, hApplied, rfl⟩
        cases hx with
        | buildFailed e w => exact Run.Extends.single rfl (hCreate _)
        | initFailed value e w hValue =>
          have hBuilt : r'.Extends (r'.log _ none) p := Run.Extends.single rfl (hCreate none)
          exact hBuilt.trans (Run.Extends.single rfl (hOther _ fun p o s h => nomatch h))
        | done value w hValue =>
          have hBuilt : r'.Extends (r'.log _ none) p := Run.Extends.single rfl (hCreate none)
          exact hBuilt.trans (Run.Extends.single rfl (hOther _ fun p o s h => nomatch h))
  · intro r' h
    apply ends_runAll_of_keeps (I := fun r' => r.Extends r' p) _ h
    intro handler _ r'' h'
    apply h'.ends
    apply Run.Extends.orRollback hShutdown
    have hx := register_registration handler.2 r''
    generalize handler.2.register r'' = x at hx
    cases hx with
    | failed f w => exact Run.Extends.single rfl (hOther _ fun p o s h => nomatch h)
    | done value bus w hValue hBus => exact Run.Extends.single rfl (hOther _ fun p o s h => nomatch h)

/-! ## What a factory may resolve -/

/-- The scoped container resolves exactly the dependencies of its provider, the logger apart. -/
structure Injected (provider : ProviderDef W) (scopedContainer : Container) : Prop where
  declared : ∀ target, target.typeId ∈ provider.dependencies.map ProviderDependency.typeId →
    ∃ v, scopedContainer.resolve target = .ok v
  undeclared : ∀ target, target.typeId ≠ TypeId.logger →
    target.typeId ∉ provider.dependencies.map ProviderDependency.typeId →
      ∃ e, scopedContainer.resolve target = .error e

theorem scopedContainerOf_services (c : RootContainer W) (declared : ProviderDef W) :
    (scopedContainerOf c declared).services = c.services :=
  c.claim_services declared.typeId

theorem createAction_inj {c : RootContainer W} {declared provider : ProviderDef W} {overridden : Bool}
    {scopedContainer : Container}
    (h : Action.create provider overridden scopedContainer = createAction c declared) :
    provider = c.effective declared ∧ overridden = c.hasPendingOverride declared.typeId ∧
      scopedContainer = scopedContainerOf c declared := by
  cases h
  exact ⟨rfl, rfl, rfl⟩

theorem scopedContainerOf_injected {c : RootContainer W} (hTyped : c.Typed)
    (declared : ProviderDef W)
    (hStored : ∀ d ∈ (c.effective declared).dependencies, ∃ v, c.services d.typeId = some v) :
    Injected (c.effective declared) (scopedContainerOf c declared) := by
  have hClaimed : ((c.claim declared.typeId).2).Typed :=
    (RootContainer.Progress.claim c declared.typeId).typed hTyped
  have hResolve := fun target => hClaimed.resolve_scoped_ok_iff (c.effective declared).typeName
    (c.effective declared).dependencies target
  constructor
  · intro target hMem
    obtain ⟨d, hd, hType⟩ := List.mem_map.mp hMem
    obtain ⟨v, hv⟩ := hStored d hd
    refine (hResolve target).mpr ⟨Or.inr hMem, v, ?_⟩
    rw [RootContainer.claim_services, ← hType]
    exact hv
  · intro target hLogger hNot
    cases hOutcome : (scopedContainerOf c declared).resolve target with
    | error e => exact ⟨e, rfl⟩
    | ok v =>
      rcases ((hResolve target).mp ⟨v, hOutcome⟩).1 with hEq | hMem
      · exact absurd hEq hLogger
      · exact absurd hMem hNot

/-- The container in a round, seen from the one that the loop started with. -/
theorem rounds_progress {graph : ModuleGraph W} {done : List (ProviderRegistration W)} {r₀ r : Run W}
    (hReached : runAll (initializeProvider graph) done r₀ = (.ok (), r)) :
    r₀.container.Progress r.container := by
  have h := runAll_progress graph done r₀
  rwa [hReached] at h

/-- A factory that runs in a registration of an accepted graph, begun at a settled container. -/
theorem Constructs.injected {graph : ModuleGraph W} {order : List (ProviderRegistration W)}
    {r₀ : Run W} {e : Event W} (h : Constructs graph order r₀ e)
    (hAccepted : graph.Accepted (some r₀.container))
    (hScheduled : graph.Scheduled (some r₀.container) order) (hTyped : r₀.container.Typed)
    (hLogger : ∃ v, r₀.container.services TypeId.logger = some v) (hSettled : r₀.container.Settled)
    {provider : ProviderDef W} {overridden : Bool} {scopedContainer : Container}
    (he : e.action = .create provider overridden scopedContainer) :
    (∃ q ∈ graph.definitions, provider = effectiveDef (some r₀.container) q.definition) ∧
      Injected provider scopedContainer := by
  obtain ⟨done, q, later, r, hOrder, hReached, hNone, hApplied, hAction⟩ := h _ _ _ he
  obtain ⟨rfl, -, rfl⟩ := createAction_inj (he.symm.trans hAction)
  have hProgress := rounds_progress hReached
  have hBuilt : Built r₀.container (initialized r₀.trace) done r := by
    have hNodup := hScheduled.nodup
    rw [hOrder, List.map_append] at hNodup
    have hStart : Built r₀.container (initialized r₀.trace) [] r₀ := Built.start hSettled rfl rfl
    have hEnds := hStart.loop graph (List.nodup_append.mp hNodup).1
    rw [hReached] at hEnds
    exact hEnds
  -- the override of `q` is still pending in its round
  have hPending : r₀.container.pendingOverride q.typeId = r.container.pendingOverride q.typeId := by
    rcases hProgress.pending q.typeId with hSame | ⟨-, hMem⟩
    · exact hSame.symm
    · exact absurd hMem hApplied
  have hEffective : (r.declare q.typeId).container.effective q.definition =
      effectiveDef (some r₀.container) q.definition :=
    congrArg (fun pending => Option.getD pending q.definition) hPending.symm
  have hMem : q ∈ order := by simp [hOrder]
  refine ⟨⟨q, hScheduled.declared q hMem, hEffective⟩, scopedContainerOf_injected ?_ _ ?_⟩
  · exact hProgress.typed hTyped
  · rw [hEffective]
    intro d hd
    show ∃ v, r.container.services d.typeId = some v
    by_cases hDependency : d.typeId = TypeId.logger
    · obtain ⟨v, hv⟩ := hLogger
      exact ⟨v, hDependency ▸ hProgress.services _ v hv⟩
    · by_cases hDeclared : graph.Declares d.typeId
      · obtain ⟨q', hq', hType⟩ :=
          List.mem_map.mp (hScheduled.before done q later hOrder d hd hDeclared)
        rw [← hType]
        exact hBuilt.provided q' hq'
      · have hMet := hAccepted.dependencies q (hScheduled.declared q hMem) d hd hDependency
        have hService : r₀.container.containsTypeId d.typeId = true := hMet.2 hDeclared
        obtain ⟨v, hv⟩ := (Container.containsTypeId_iff _ _).mp hService
        exact ⟨v, hProgress.services _ v hv⟩

/-! ## The containers that code can hold -/

/-- A clone, which drops the pending overrides. -/
def Container.cloned (c : Container) : RootContainer W := { c with pendingOverrides := [] }

/-- The containers that code using the framework can hold: those it makes, changes, registers
modules on, gets from a start-up or clones, and those handed to factories. `plain` tells that
none of the latter came from the factory of an override. -/
inductive Held (P : Program W) (plain : Bool) : RootContainer W → Prop
  | new : Held P plain RootContainer.new
  | registerInstance {c : RootContainer W} (value : ProviderValue) :
    Held P plain c → Held P plain (c.update fun c => c.registerInstance value)
  | register {c : RootContainer W} (d : ProviderDef W) (w : W) :
    Held P plain c → Held P plain (c.register d w).2.2
  | registerModule {r : Run W} (root : ModuleDef) :
    Held P plain r.container → Held P plain (registerModule P root r).2.container
  | build {root : ModuleDef} {given : ProviderOverrides W} {w : W} {r : Run W} :
    buildContainerWithOverrides P root given w = (.ok (), r) → Held P plain r.container
  | clone {c : RootContainer W} : Held P plain c → Held P plain c.cloned
  | factory {r : Run W} (root : ModuleDef) {events : List (Event W)} {e : Event W}
    {provider : ProviderDef W} {overridden : Bool} {scopedContainer : Container} :
    Held P plain r.container → (Caelix.registerModule P root r).2.trace = r.trace ++ events →
      e ∈ events → e.action = .create provider overridden scopedContainer →
      (plain = true → overridden = false) → Held P plain scopedContainer.cloned
  | factoryOfBuild {root : ModuleDef} {given : ProviderOverrides W} {w : W} {e : Event W}
    {provider : ProviderDef W} {overridden : Bool} {scopedContainer : Container} :
    e ∈ (Caelix.registerModule P root (Run.fresh (seeded given) w)).2.trace →
      e.action = .create provider overridden scopedContainer →
      (plain = true → overridden = false) → Held P plain scopedContainer.cloned

/-- What holds of every held container. -/
structure Sound (plain : Bool) (c : RootContainer W) : Prop where
  typed : c.Typed
  logger : ∃ v, c.services TypeId.logger = some v
  pending : ∀ t, c.pendingOverride t = none
  settled : plain = true → c.Settled

theorem Construction.settled {declared : ProviderDef W} {r : Run W} {x : Outcome W}
    (h : Construction declared r x) (hNew : r.container.services declared.typeId = none)
    (hPending : r.container.pendingOverride declared.typeId = none) (hSettled : r.container.Settled) :
    x.2.container.Settled := by
  have hProgress := h.progress hNew
  have hClaim : (r.container.claim declared.typeId).2.appliedOverrides =
      r.container.appliedOverrides := by
    rw [RootContainer.claim_applied, hPending]
    rfl
  have hApplied : x.2.container.appliedOverrides = r.container.appliedOverrides := by
    cases h with
    | buildFailed e w => exact hClaim
    | initFailed value e w hValue => exact hClaim
    | done value w hValue => exact hClaim
  intro t ht
  rw [hApplied] at ht
  obtain ⟨v, hv⟩ := hSettled t ht
  exact ⟨v, hProgress.services t v hv⟩

/-- Without pending overrides a registration keeps the container settled, also when it fails. -/
theorem registerModule_settled (P : Program W) (root : ModuleDef) {r : Run W}
    (hPending : ∀ t, r.container.pendingOverride t = none) (hSettled : r.container.Settled) :
    (registerModule P root r).2.container.Settled := by
  have hEnd : (∀ t, (registerModule P root r).2.container.pendingOverride t = none) ∧
      (registerModule P root r).2.container.Settled := by
    apply registerModule_container (I := fun c => (∀ t, c.pendingOverride t = none) ∧ c.Settled) P root
      ⟨hPending, hSettled⟩
    rintro graph q r' ⟨hPending', hSettled'⟩
    constructor
    · intro t
      rcases (initializeProvider_progress graph q r').pending t with hSame | ⟨hNone, -⟩
      · rw [hSame, hPending']
      · exact hNone
    · rcases initializeProvider_cases graph q r' with ⟨-, he⟩ | ⟨hNone, -, x, hx, he⟩
      · rw [he]
        exact hSettled'
      · rw [he, orRollback_container]
        exact hx.settled (r := r'.declare q.typeId) hNone (hPending' _) hSettled'
  exact hEnd.2

/-- A start-up that succeeds returns the container that its registration left. -/
theorem buildContainerWithOverrides_ok {P : Program W} {root : ModuleDef}
    {given : ProviderOverrides W} {w : W} {r : Run W}
    (h : buildContainerWithOverrides P root given w = (.ok (), r)) :
    ∃ r', registerModule P root (Run.fresh (seeded given) w) = (.ok (), r') ∧
      (StartUp.overrides given).checks P root r'.container = .ok () ∧ r.container = r'.container := by
  have hOk : ((StartUp.overrides given).run P root w).1 = .ok () := congrArg Prod.fst h
  have hFirst : (registerModule P root (Run.fresh (seeded given) w)).1 = .ok () := (andThen_ok hOk).1
  obtain ⟨r', hRegister⟩ : ∃ r', registerModule P root (Run.fresh (seeded given) w) = (.ok (), r') :=
    ⟨_, Prod.ext hFirst rfl⟩
  have hChecks : (StartUp.overrides given).checks P root r'.container = .ok () := by
    unfold StartUp.run at hOk
    rw [show (StartUp.overrides given).container = seeded given from rfl, hRegister, andThen] at hOk
    cases hCase : (StartUp.overrides given).checks P root r'.container with
    | ok u => rfl
    | error f =>
      rw [hCase] at hOk
      cases hDiscover : discoverFrom P root with
      | error f' =>
        rw [hDiscover] at hOk
        cases hOk
      | ok graph =>
        rw [hDiscover] at hOk
        cases hOk
  obtain ⟨_, _, -, -, -, hEnds⟩ := StartUp.bootstrap_ends (StartUp.overrides given) hRegister hChecks
  have hRun : (StartUp.overrides given).run P root w = (.ok (), r) := h
  rw [hRun] at hEnds
  exact ⟨r', hRegister, hChecks, hEnds.container⟩

/-- The scoped containers of a registration that begins at a container with a logger. -/
theorem Constructs.sound {graph : ModuleGraph W} {order : List (ProviderRegistration W)}
    {r₀ : Run W} {e : Event W} (h : Constructs graph order r₀ e)
    (hScheduled : graph.Scheduled (some r₀.container) order) (hTyped : r₀.container.Typed)
    (hLogger : ∃ v, r₀.container.services TypeId.logger = some v) {plain : Bool}
    (hSettled : plain = true → r₀.container.Settled) {provider : ProviderDef W} {overridden : Bool}
    {scopedContainer : Container} (he : e.action = .create provider overridden scopedContainer)
    (hPlain : plain = true → overridden = false) :
    Sound plain (scopedContainer.cloned : RootContainer W) := by
  obtain ⟨done, q, later, r, hOrder, hReached, -, -, hAction⟩ := h _ _ _ he
  obtain ⟨-, rfl, rfl⟩ := createAction_inj (he.symm.trans hAction)
  have hProgress := rounds_progress hReached
  have hServices : (scopedContainerOf (r.declare q.typeId).container q.definition).services =
      r.container.services := scopedContainerOf_services _ _
  refine ⟨?_, ?_, fun _ => rfl, ?_⟩
  · intro t v hv
    have hStored : (scopedContainerOf (r.declare q.typeId).container q.definition).services t =
        some v := hv
    rw [hServices] at hStored
    exact hProgress.typed hTyped t v hStored
  · obtain ⟨v, hv⟩ := hLogger
    refine ⟨v, ?_⟩
    show (scopedContainerOf (r.declare q.typeId).container q.definition).services _ = _
    rw [hServices]
    exact hProgress.services _ v hv
  · intro hTrue
    have hNodup := hScheduled.nodup
    rw [hOrder, List.map_append] at hNodup
    have hStart : Built r₀.container (initialized r₀.trace) [] r₀ :=
      Built.start (hSettled hTrue) rfl rfl
    have hEnds := hStart.loop graph (List.nodup_append.mp hNodup).1
    rw [hReached] at hEnds
    have hBuilt : Built r₀.container (initialized r₀.trace) done r := hEnds
    -- without override the factory's container has the marks of the round
    have hPending : (r.container.pendingOverride q.definition.typeId).isSome = false := hPlain hTrue
    have hApplied : (scopedContainerOf (r.declare q.typeId).container
        q.definition).appliedOverrides = r.container.appliedOverrides := by
      show ((r.declare q.typeId).container.claim q.definition.typeId).2.appliedOverrides = _
      rw [RootContainer.claim_applied]
      show (if (r.container.pendingOverride q.definition.typeId).isSome = true then _ else _) = _
      rw [hPending]
      rfl
    intro t ht
    have hMem : t ∈ (scopedContainerOf (r.declare q.typeId).container
        q.definition).appliedOverrides := ht
    rw [hApplied] at hMem
    obtain ⟨v, hv⟩ := hBuilt.settled t hMem
    refine ⟨v, ?_⟩
    show (scopedContainerOf (r.declare q.typeId).container q.definition).services _ = _
    rw [hServices]
    exact hv

theorem registerModule_constructs (P : Program W) (root : ModuleDef) (r : Run W) :
    r.Extends (registerModule P root r).2 fun e => ∀ provider overridden scopedContainer,
      e.action = .create provider overridden scopedContainer → ∃ graph order,
        discoverFrom P root = .ok graph ∧ graph.preflight (some r.container) = .ok order ∧
          Constructs graph order r.opened e := by
  unfold registerModule
  cases hDiscover : discoverFrom P root with
  | error f => exact Run.Extends.single rfl fun p o s h => nomatch h
  | ok graph =>
    have hDiscovered := fun p (hOther : p ⟨.discover, none⟩) =>
      (Run.Extends.single rfl hOther : r.Extends (r.log .discover none) p)
    refine (hDiscovered _ fun p o s h => nomatch h).trans ?_
    show Run.Extends _ (initializeGraph graph (r.log .discover none)).2 _
    cases hPreflight : graph.preflight (some r.container) with
    | error f =>
      have hRun : initializeGraph graph (r.log .discover none) =
          (.error f, (r.log .discover none).log .preflight (some f)) := by
        unfold initializeGraph
        rw [show (r.log .discover none).container = r.container from rfl, hPreflight]
        rfl
      rw [hRun]
      exact Run.Extends.single rfl fun p o s h => nomatch h
    | ok order =>
      obtain ⟨events, hTrace, hAll⟩ :=
        initializeGraph_constructs (r := r.log .discover none) hPreflight
      exact ⟨events, hTrace, fun e he _ _ _ _ => ⟨graph, order, rfl, hPreflight, hAll e he⟩⟩

/-- The scoped containers of a registration from a container with typed services and a logger. -/
theorem sound_of_create {P : Program W} {root : ModuleDef} {r : Run W} {events : List (Event W)}
    (hTyped : r.container.Typed) (hLogger : ∃ v, r.container.services TypeId.logger = some v)
    {plain : Bool} (hSettled : plain = true → r.container.Settled)
    (hTrace : (registerModule P root r).2.trace = r.trace ++ events) {e : Event W} (he : e ∈ events)
    {provider : ProviderDef W} {overridden : Bool} {scopedContainer : Container}
    (hAction : e.action = .create provider overridden scopedContainer)
    (hPlain : plain = true → overridden = false) :
    Sound plain (scopedContainer.cloned : RootContainer W) := by
  obtain ⟨events', hTrace', hAll⟩ := registerModule_constructs P root r
  obtain rfl : events = events' := List.append_cancel_left (hTrace.symm.trans hTrace')
  obtain ⟨graph, order, hDiscover, hPreflight, hConstructs⟩ := hAll e he _ _ _ hAction
  have hFirst := ModuleGraph.importsFirst_of_discovered (discovered_of_ok hDiscover)
  have hScheduled := ModuleGraph.scheduleAll_scheduled
    ((ModuleGraph.preflight_ok_iff hFirst).mp hPreflight).2
  exact hConstructs.sound hScheduled hTyped hLogger hSettled hAction hPlain

theorem Sound.store {plain : Bool} {c : RootContainer W} (h : Sound plain c) {t : TypeId}
    {v : ProviderValue} (hv : v.typeId = t) :
    Sound plain (c.update fun c => c.registerErased t v) := by
  have hKept : ∀ u, (∃ w, c.services u = some w) →
      ∃ w, (c.update fun c => c.registerErased t v).services u = some w := by
    rintro u ⟨w, hw⟩
    by_cases hu : u = t
    · exact ⟨v, by simp [hu]⟩
    · exact ⟨w, by simpa [Function.update_of_ne hu] using hw⟩
  exact ⟨Container.Typed.registerErased h.typed hv, hKept _ h.logger, h.pending,
    fun hPlain u hu => hKept u (h.settled hPlain u hu)⟩

theorem seeded_typed (given : ProviderOverrides W) : (seeded given).Typed := Container.typed_new

theorem seeded_logger (given : ProviderOverrides W) :
    ∃ v, (seeded given).services TypeId.logger = some v :=
  ⟨_, (seeded_services given _ _).mpr ⟨rfl, rfl⟩⟩

theorem Held.sound {P : Program W} {plain : Bool} {c : RootContainer W} (h : Held P plain c) :
    Sound plain c := by
  induction h with
  | new =>
    exact ⟨Container.typed_new, ⟨⟨TypeId.logger, 0⟩, rfl⟩, fun _ => rfl,
      fun _ t ht => absurd ht (Finset.notMem_empty t)⟩
  | registerInstance value h ih => exact ih.store rfl
  | @register c d w h ih =>
    unfold RootContainer.register
    rcases hBuild : d.build c.toContainer w with ⟨built, w'⟩
    cases built with
    | error e => exact ih
    | ok value =>
      dsimp only
      rcases runLifecycle d value .onModuleInit d.initFn w' with ⟨result, w''⟩
      cases result with
      | error e => exact ih
      | ok u => exact ih.store (d.build_typed c.toContainer w value (by rw [hBuild]))
  | @registerModule r root h ih =>
    have hProgress := registerModule_progress P root r
    refine ⟨hProgress.typed ih.typed, ?_, ?_, ?_⟩
    · obtain ⟨v, hv⟩ := ih.logger
      exact ⟨v, hProgress.services _ v hv⟩
    · intro t
      rcases hProgress.pending t with hSame | ⟨hNone, -⟩
      · rw [hSame, ih.pending]
      · exact hNone
    · exact fun hPlain => registerModule_settled P root ih.pending (ih.settled hPlain)
  | @build root given w r hBuild =>
    obtain ⟨r', hRegister, hChecks, hContainer⟩ := buildContainerWithOverrides_ok hBuild
    have hProgress := registerModule_progress P root (Run.fresh (seeded given) w)
    rw [hRegister] at hProgress
    obtain ⟨_, _, -, -, hBuilt⟩ := registerModule_built P root (r := Run.fresh (seeded given) w)
      (seeded_settled given) (by rw [hRegister])
    rw [hRegister] at hBuilt
    have hUnused : r'.container.pendingOverrides = [] := by
      obtain ⟨⟨⟩, hOk, -⟩ := Fallible.bind_ok_iff.mp hChecks
      cases hNone : r'.container.assertNoUnusedOverrides with
      | ok u => exact (RootContainer.assertNoUnusedOverrides_ok_iff _).mp hNone
      | error e =>
        rw [hNone] at hOk
        cases hOk
    rw [hContainer]
    refine ⟨hProgress.typed (seeded_typed given), ?_, ?_, fun _ => hBuilt.settled⟩
    · obtain ⟨v, hv⟩ := seeded_logger given
      exact ⟨v, hProgress.services _ v hv⟩
    · intro t
      simp [RootContainer.pendingOverride, hUnused]
  | clone h ih => exact ⟨ih.typed, ih.logger, fun _ => rfl, ih.settled⟩
  | factory root h hTrace he hAction hPlain ih =>
    exact sound_of_create ih.typed ih.logger ih.settled hTrace he hAction hPlain
  | factoryOfBuild he hAction hPlain =>
    exact sound_of_create (r := Run.fresh (seeded _) _) (seeded_typed _) (seeded_logger _)
      (fun _ => seeded_settled _) (List.nil_append _).symm he hAction hPlain

/-! ## The result -/

/-- A schedule lists every declared type once, after its effective dependencies. When a
graph is initialised on a container that code can hold, or on one seeded with overrides, in
which every type marked as overridden is registered, each factory is run with a scoped
container that resolves exactly the dependencies of the effective provider. -/
theorem schedule_and_injection (P : Program W) (root : ModuleDef) (graph : ModuleGraph W)
    (hDiscover : discoverFrom P root = .ok graph) :
    (∀ container sorted, graph.preflight container = .ok sorted →
      graph.Scheduled container sorted) ∧
    ∀ (plain : Bool) (r : Run W),
      (Held P plain r.container ∨ ∃ given, r.container = seeded given) →
      (plain = true ∨ r.container.Settled) →
      r.Extends (initializeGraph graph r).2 fun e => ∀ provider overridden scopedContainer,
        e.action = .create provider overridden scopedContainer →
          (∃ q ∈ graph.definitions, provider = effectiveDef (some r.container) q.definition) ∧
            Injected provider scopedContainer := by
  have hFirst := ModuleGraph.importsFirst_of_discovered (discovered_of_ok hDiscover)
  constructor
  · intro container sorted hPreflight
    exact ModuleGraph.scheduleAll_scheduled ((ModuleGraph.preflight_ok_iff hFirst).mp hPreflight).2
  · intro plain r hStart hPlain
    have hSettled : r.container.Settled := by
      rcases hPlain with hPlain | hSettled
      · rcases hStart with hHeld | ⟨given, hSeeded⟩
        · exact hHeld.sound.settled hPlain
        · rw [hSeeded]
          exact seeded_settled given
      · exact hSettled
    have hBase : r.container.Typed ∧ ∃ v, r.container.services TypeId.logger = some v := by
      rcases hStart with hHeld | ⟨given, hSeeded⟩
      · exact ⟨hHeld.sound.typed, hHeld.sound.logger⟩
      · rw [hSeeded]
        exact ⟨seeded_typed given, seeded_logger given⟩
    cases hPreflight : graph.preflight (some r.container) with
    | error f =>
      have hRun : initializeGraph graph r = (.error f, r.log .preflight (some f)) := by
        unfold initializeGraph
        rw [hPreflight]
        rfl
      rw [hRun]
      exact Run.Extends.single rfl fun p o s h => nomatch h
    | ok order =>
      obtain ⟨hAccepted, hSchedule⟩ := (ModuleGraph.preflight_ok_iff hFirst).mp hPreflight
      obtain ⟨events, hTrace, hAll⟩ := initializeGraph_constructs hPreflight
      refine ⟨events, hTrace, ?_⟩
      intro e he provider overridden scopedContainer hAction
      have hConstructs : Constructs graph order (r.log .preflight none) e := hAll e he
      exact hConstructs.injected hAccepted (ModuleGraph.scheduleAll_scheduled hSchedule) hBase.1
        hBase.2 hSettled hAction

theorem schedule_and_injection_users :
    usersGraph.Scheduled none usersGraph.definitions ∧
    (Run.fresh (seeded usersOverrides) ()).Extends
      (initializeGraph usersGraph (Run.fresh (seeded usersOverrides) ())).2 fun e =>
        ∀ provider overridden scopedContainer,
          e.action = .create provider overridden scopedContainer →
            (∃ q ∈ usersGraph.definitions,
              provider = effectiveDef (some (seeded usersOverrides)) q.definition) ∧
            Injected provider scopedContainer := by
  obtain ⟨hScheduled, hInjected⟩ := schedule_and_injection usersProgram ⟨10, "App"⟩ usersGraph rfl
  exact ⟨hScheduled none _ rfl, hInjected true _ (Or.inr ⟨usersOverrides, rfl⟩) (Or.inl rfl)⟩

/-- A report service that uses a mail service. -/
def mailProgram : Program Unit where
  metadataFn t :=
    match t with
    | 10 =>
      { ModuleMetadata.new with
        providers :=
          [plainProvider 20 "MailService" [], plainProvider 21 "ReportsService" [⟨20, "MailService"⟩]] }
    | _ => ModuleMetadata.new
  modules := {10}
  closed := by decide

def mailGraph : ModuleGraph Unit where
  nodes := [⟨10, "App", mailProgram.metadataFn 10, []⟩]

/-- The mail service replaced by a factory. -/
def mailOverrides : ProviderOverrides Unit :=
  ProviderOverrides.new.insertFactory 20 "MailService" [] fun _ w => (.ok 0, w)

/-- The scoped container that this factory is given. -/
def mailFactoryContainer : Container :=
  scopedContainerOf ((seeded mailOverrides).update fun c => c.markProviderDeclared 20)
    (plainProvider 20 "MailService" [])

/-- A module registered on a clone of that container takes the mail service for provided,
and the factory of the report service cannot resolve it. -/
theorem injection_fails_for_mail :
    discoverFrom mailProgram ⟨10, "App"⟩ = .ok mailGraph ∧
    Held mailProgram false (mailFactoryContainer.cloned : RootContainer Unit) ∧
    ∃ e ∈ (initializeGraph mailGraph (Run.fresh mailFactoryContainer.cloned ())).2.trace,
      ∃ scopedContainer,
        e.action = .create (plainProvider 21 "ReportsService" [⟨20, "MailService"⟩]) false
          scopedContainer ∧
        scopedContainer.resolve ⟨20, "MailService"⟩ =
          .error (startupError "no provider registered for MailService") := by
  refine ⟨rfl, ?_, ?_⟩
  · have hCreate : (⟨createAction ((seeded mailOverrides).update fun c => c.markProviderDeclared 20)
          (plainProvider 20 "MailService" []), none⟩ : Event Unit) ∈
        (registerModule mailProgram ⟨10, "App"⟩ (Run.fresh (seeded mailOverrides) ())).2.trace :=
      List.mem_cons_of_mem _ (List.mem_cons_of_mem _ List.mem_cons_self)
    exact Held.factoryOfBuild hCreate rfl fun h => nomatch h
  · refine ⟨_, List.mem_cons_of_mem _ List.mem_cons_self, _, rfl, rfl⟩

end Caelix
