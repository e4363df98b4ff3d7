import Caelix.Core.LifecycleSteps
import Caelix.Core.PreflightSpec

/-!
# What a failed registration leaves behind

A registration that fails keeps what it has stored so far, and its rollback shuts down
providers without removing them.

* `registerModule_first`: a registration up to the first provider that it constructs.
* `services_kept_iff`: when the services are as before and no dead instance is among them.
-/

namespace Caelix

open Steps

variable {W : Type}

/-! ## Providers already there -/

/-- The registration loop skips the type. -/
def Provided (c : Container) (t : TypeId) : Prop :=
  (∃ v, c.services t = some v) ∨ t ∈ c.appliedOverrides

/-- The container with the types of all registrations marked as declared. -/
def RootContainer.declareAll (c : RootContainer W) (l : List (ProviderRegistration W)) :
    RootContainer W :=
  l.foldl (fun c q => c.update fun c => c.markProviderDeclared q.typeId) c

@[simp] theorem declareAll_services (l : List (ProviderRegistration W)) (c : RootContainer W) :
    (c.declareAll l).services = c.services := by
  induction l generalizing c with
  | nil => rfl
  | cons q l ih => exact ih _

theorem declareAll_provided (l : List (ProviderRegistration W)) (c : RootContainer W) (t : TypeId) :
    Provided (c.declareAll l).toContainer t ↔ Provided c.toContainer t := by
  induction l generalizing c with
  | nil => rfl
  | cons q l ih => exact ih _

theorem runAll_provided (graph : ModuleGraph W) {l : List (ProviderRegistration W)} {r : Run W}
    (h : ∀ q ∈ l, Provided r.container.toContainer q.typeId) :
    runAll (initializeProvider graph) l r =
      (.ok (), { r with container := r.container.declareAll l }) := by
  induction l generalizing r with
  | nil => rfl
  | cons q l ih =>
    rw [runAll, initializeProvider_skip (h q List.mem_cons_self)]
    exact ih fun p hp => h p (List.mem_cons_of_mem _ hp)

theorem exists_first {α : Type} (p : α → Prop) (l : List α) :
    (∀ a ∈ l, p a) ∨ ∃ l₁ a l₂, l = l₁ ++ a :: l₂ ∧ (∀ b ∈ l₁, p b) ∧ ¬ p a := by
  induction l with
  | nil => exact Or.inl (by simp)
  | cons a l ih =>
    by_cases ha : p a
    · rcases ih with hAll | ⟨l₁, b, l₂, hSplit, hBefore, hb⟩
      · exact Or.inl (by simpa [ha] using hAll)
      · exact Or.inr ⟨a :: l₁, b, l₂, by rw [hSplit]; rfl, by simpa [ha] using hBefore, hb⟩
    · exact Or.inr ⟨[], a, l, rfl, by simp, ha⟩

/-! ## The first construction -/

/-- The factory that the loop runs for a registration fails. -/
def FactoryFails (c : RootContainer W) (w : W) (q : ProviderRegistration W) : Prop :=
  ∃ e, (buildEffective c q.definition w).1 = .error e

/-- The run in which the factory for a registration has failed. -/
def Run.unbuilt (r : Run W) (q : ProviderRegistration W) (e : HttpException) (w : W) : Run W :=
  { r with
    container := (r.container.claim q.typeId).2
    world := w
    trace := r.trace ++ [⟨createAction r.container q.definition, some (.exception e)⟩] }

/-- A construction fails in the factory, or it stores the provider. -/
theorem Construction.cases_build {q : ProviderRegistration W} {r : Run W} {x : Outcome W}
    (h : Construction q.definition r x) :
    (FactoryFails r.container r.world q ∧ ∃ e w, x = (.error (.exception e), r.unbuilt q e w)) ∨
    (¬ FactoryFails r.container r.world q ∧ ∃ value, x.2.container.services q.typeId = some value) := by
  have hStored : ∀ value, (storedContainer r.container q.definition value).services q.typeId =
      some value := by
    intro value
    simp [storedContainer, ProviderRegistration.typeId]
  have hBuilt : ∀ value, (buildEffective r.container q.definition r.world).1 = .ok value →
      ¬ FactoryFails r.container r.world q := by
    rintro value hOk ⟨e, hFails⟩
    rw [hOk] at hFails
    cases hFails
  cases h with
  | buildFailed e w hBuild => exact Or.inl ⟨⟨e, by rw [hBuild]⟩, e, w, rfl⟩
  | initFailed value e w hValue hBuild => exact Or.inr ⟨hBuilt value hBuild, value, hStored value⟩
  | done value w hValue hBuild => exact Or.inr ⟨hBuilt value hBuild, value, hStored value⟩

theorem initializeProvider_build (graph : ModuleGraph W) {q : ProviderRegistration W} {r : Run W}
    (hNew : ¬ Provided r.container.toContainer q.typeId) :
    (FactoryFails (r.declare q.typeId).container r.world q ∧ ∃ e w, initializeProvider graph q r =
      (.error (.exception e), rollbackGraph graph ((r.declare q.typeId).unbuilt q e w))) ∨
    (¬ FactoryFails (r.declare q.typeId).container r.world q ∧ ∃ value,
      (initializeProvider graph q r).2.container.services q.typeId = some value) := by
  rcases initializeProvider_cases graph q r with ⟨hProvided, -⟩ | ⟨-, -, x, hx, he⟩
  · exact absurd hProvided hNew
  · rw [he]
    rcases hx.cases_build with ⟨hFails, e, w, rfl⟩ | ⟨hBuilds, value, hStored⟩
    · exact Or.inl ⟨hFails, e, w, rfl⟩
    · refine Or.inr ⟨hBuilds, value, ?_⟩
      rw [orRollback_container]
      exact hStored

/-! ## The run of a failed registration -/

/-- An event of neither an init hook nor a shutdown hook. -/
def Event.Quiet (e : Event W) : Prop :=
  (∀ provider overridden value, e.action ≠ .moduleInit provider overridden value) ∧
    ∀ provider value, e.action ≠ .shutdown provider value

/-- A run about to be rolled back that has stored and initialised nothing. -/
structure Untouched (r mid : Run W) : Prop where
  services : mid.container.services = r.container.services
  listed : mid.initializedProviders = r.initializedProviders
  quiet : r.Extends mid Event.Quiet

theorem Untouched.trans {r mid mid' : Run W} (h : Untouched r mid) (h' : Untouched mid mid') :
    Untouched r mid' :=
  ⟨h'.services.trans h.services, h'.listed.trans h.listed, h.quiet.trans h'.quiet⟩

theorem opened_untouched (r : Run W) : Untouched r r.opened := by
  have hQuiet : ∀ e : Event W, e.action = .discover ∨ e.action = .preflight → e.Quiet := by
    rintro ⟨action, fault⟩ (rfl | rfl)
    · exact ⟨(fun _ _ _ h => nomatch h), (fun _ _ h => nomatch h)⟩
    · exact ⟨(fun _ _ _ h => nomatch h), (fun _ _ h => nomatch h)⟩
  have hDiscovered : r.Extends (r.log .discover none) Event.Quiet :=
    Run.Extends.single rfl (hQuiet _ (Or.inl rfl))
  exact ⟨rfl, rfl, hDiscovered.trans (Run.Extends.single rfl (hQuiet _ (Or.inr rfl)))⟩

/-- A failed handler loop has registered some handlers and rolls back. -/
theorem handlerLoop_ends (graph : ModuleGraph W) (l : List (Nat × EventHandlerDef W)) (r : Run W) :
    Ends (runAll (registerHandler graph) l r) (Untouched r)
      fun _ r' => ∃ mid, Untouched r mid ∧ r' = rollbackGraph graph mid := by
  apply ends_runAll_of_keeps l ⟨rfl, rfl, Run.Extends.refl r _⟩
  intro p _ r₁ h₁
  apply ends_orRollback (R := fun _ mid => Untouched r mid) _ fun _ mid h => ⟨mid, h, rfl⟩
  have hQuiet : ∀ fault, Event.Quiet (⟨.registerHandler p.2, fault⟩ : Event W) :=
    fun _ => ⟨(fun _ _ _ h => nomatch h), (fun _ _ h => nomatch h)⟩
  have hx := register_registration p.2 r₁
  generalize p.2.register r₁ = x at hx
  cases hx with
  | failed f w => exact h₁.trans ⟨rfl, rfl, Run.Extends.single rfl (hQuiet _)⟩
  | done value bus w hValue hBus => exact h₁.trans ⟨rfl, rfl, Run.Extends.single rfl (hQuiet _)⟩

/-- How a registration of an accepted graph goes: it constructs nothing, or it runs the
factory of the first provider that the container lacks. -/
theorem loops_first (graph : ModuleGraph W) (order : List (ProviderRegistration W)) (r : Run W) :
    ((∀ q ∈ order, Provided r.container.toContainer q.typeId) ∧
      Ends (andThen (runAll (initializeProvider graph) order r)
          (runAll (registerHandler graph) graph.eventHandlers)) (fun _ => True)
        fun _ r' => ∃ mid, Untouched r mid ∧ r' = rollbackGraph graph mid) ∨
    ∃ l₁ q l₂, order = l₁ ++ q :: l₂ ∧ (∀ p ∈ l₁, Provided r.container.toContainer p.typeId) ∧
      ¬ Provided r.container.toContainer q.typeId := by
  rcases exists_first (fun q : ProviderRegistration W => Provided r.container.toContainer q.typeId)
    order with hAll | hFirst
  · refine Or.inl ⟨hAll, ?_⟩
    rw [runAll_provided graph hAll, andThen]
    have hDeclared : Untouched r { r with container := r.container.declareAll order } :=
      ⟨declareAll_services _ _, rfl, Run.Extends.refl r _⟩
    refine (handlerLoop_ends graph _ _).mono (fun _ _ => trivial) ?_
    rintro _ _ ⟨mid, hMid, rfl⟩
    exact ⟨mid, hDeclared.trans hMid, rfl⟩
  · exact Or.inr hFirst

/-- The first provider that the container lacks: its factory fails and the registration is
rolled back, or it is stored. -/
theorem loops_at_first (graph : ModuleGraph W) {order l₁ l₂ : List (ProviderRegistration W)}
    {q : ProviderRegistration W} {r : Run W} (hOrder : order = l₁ ++ q :: l₂)
    (hBefore : ∀ p ∈ l₁, Provided r.container.toContainer p.typeId)
    (hNew : ¬ Provided r.container.toContainer q.typeId) :
    (FactoryFails (r.container.declareAll (l₁ ++ [q])) r.world q ∧ ∃ mid, Untouched r mid ∧
      (andThen (runAll (initializeProvider graph) order r)
        (runAll (registerHandler graph) graph.eventHandlers)).2 = rollbackGraph graph mid) ∨
    (¬ FactoryFails (r.container.declareAll (l₁ ++ [q])) r.world q ∧ ∃ value,
      (andThen (runAll (initializeProvider graph) order r)
        (runAll (registerHandler graph) graph.eventHandlers)).2.container.services q.typeId =
          some value) := by
  have hDeclare : r.container.declareAll (l₁ ++ [q]) =
      (r.container.declareAll l₁).update fun c => c.markProviderDeclared q.typeId := by
    rw [RootContainer.declareAll, List.foldl_append]
    rfl
  rw [hDeclare]
  have hRun : runAll (initializeProvider graph) order r =
      andThen (initializeProvider graph q { r with container := r.container.declareAll l₁ })
        (runAll (initializeProvider graph) l₂) := by
    rw [hOrder, runAll_append, runAll_provided graph hBefore]
    rfl
  rw [hRun]
  have hNewThere : ¬ Provided (r.container.declareAll l₁).toContainer q.typeId := by
    rwa [declareAll_provided]
  rcases initializeProvider_build graph
    (r := { r with container := r.container.declareAll l₁ }) hNewThere with
    ⟨hFails, e, w, he⟩ | ⟨hBuilds, value, hStored⟩
  · refine Or.inl ⟨hFails, _, ?_, by rw [he]; rfl⟩
    refine ⟨?_, rfl, Run.Extends.single rfl ⟨(fun _ _ _ h => nomatch h), (fun _ _ h => nomatch h)⟩⟩
    show ((RootContainer.claim _ _).2).services = _
    rw [RootContainer.claim_services]
    exact declareAll_services _ _
  · refine Or.inr ⟨hBuilds, value, ?_⟩
    generalize initializeProvider graph q { r with container := r.container.declareAll l₁ } = x
      at hStored
    obtain ⟨result, r₁⟩ := x
    cases result with
    | error f => exact hStored
    | ok u =>
      have hRest := (runAll_progress graph l₂ r₁).services _ _ hStored
      show (andThen (runAll (initializeProvider graph) l₂ r₁) _).2.container.services _ = _
      generalize runAll (initializeProvider graph) l₂ r₁ = y at hRest
      obtain ⟨result, r₂⟩ := y
      cases result with
      | error f => exact hRest
      | ok u =>
        have hHandlers : (runAll (registerHandler graph) graph.eventHandlers r₂).2.container =
            r₂.container := by
          refine Ends.always (Q := fun r' : Run W => r'.container = r₂.container) ?_
          apply ends_runAll_of_keeps (I := fun r' : Run W => r'.container = r₂.container) _ rfl
          intro p _ r' hr'
          apply ends_of_always
          rw [registerHandler_container, hr']
        show (runAll (registerHandler graph) graph.eventHandlers r₂).2.container.services _ = _
        rw [hHandlers]
        exact hRest

/-! ## When the services are kept -/

/-- Between two runs the same types are registered, and no instance whose init hook failed
in between or on which a shutdown hook was run is among them. -/
structure ServicesKept (r r' : Run W) : Prop where
  same : ∀ t, (∃ v, r'.container.resolveErased t = some v) ↔
    ∃ v, r.container.resolveErased t = some v
  alive : r.Extends r' fun e =>
    (∀ provider overridden value f, e = ⟨.moduleInit provider overridden value, some f⟩ →
      r'.container.resolveErased provider.typeId ≠ some value) ∧
    ∀ provider value, e.action = .shutdown provider value →
      r'.container.resolveErased provider.typeId ≠ some value

/-- What a call that has discovered and accepted its graph must not do to keep the services:
construct a provider, or shut down one that was initialised before. -/
structure KeepsServices (graph : ModuleGraph W) (order : List (ProviderRegistration W)) (r : Run W) :
    Prop where
  unbuilt : ∀ l₁ q l₂, order = l₁ ++ q :: l₂ →
    (∀ p ∈ l₁, Provided r.container.toContainer p.typeId) →
    ¬ Provided r.container.toContainer q.typeId →
      FactoryFails (r.container.declareAll (l₁ ++ [q])) r.world q
  unlisted : ∀ t ∈ r.initializedProviders, ∀ d, graph.defByType t = some d →
    r.container.services d.typeId = none

theorem Event.shutDown_eq_some {e : Event W} {p : ProviderDef W × ProviderValue} :
    e.shutDown = some p ↔ e.action = .shutdown p.1 p.2 := by
  obtain ⟨action, fault⟩ := e
  obtain ⟨d, value⟩ := p
  cases action <;> simp [Event.shutDown]

theorem mem_shutdownTargets {graph : ModuleGraph W} {c : Container} {types : List TypeId}
    {d : ProviderDef W} {value : ProviderValue} :
    (d, value) ∈ shutdownTargets graph c types ↔
      ∃ t ∈ types, graph.defByType t = some d ∧ c.services d.typeId = some value := by
  unfold shutdownTargets
  rw [List.mem_filterMap]
  apply exists_congr
  intro t
  apply and_congr_right
  intro _
  cases graph.defByType t with
  | none => simp
  | some d' =>
    simp only [Option.bind_some, Option.map_eq_some_iff, Prod.mk.injEq, Option.some.injEq]
    constructor
    · rintro ⟨v, hv, rfl, rfl⟩
      exact ⟨rfl, hv⟩
    · rintro ⟨rfl, hv⟩
      exact ⟨value, hv, rfl, rfl⟩

/-- A rollback of an untouched run keeps the services when it finds nothing to shut down. -/
theorem rollback_kept_iff {graph : ModuleGraph W} {r mid : Run W} (h : Untouched r mid) :
    ServicesKept r (rollbackGraph graph mid) ↔
      ∀ t ∈ r.initializedProviders, ∀ d, graph.defByType t = some d →
        r.container.services d.typeId = none := by
  obtain ⟨events, hSpec⟩ := shutdownProviders_spec graph mid
  have hTrace : (rollbackGraph graph mid).trace = mid.trace ++ events := hSpec.logged.trace
  have hServices : ∀ t, (rollbackGraph graph mid).container.resolveErased t =
      r.container.services t := by
    intro t
    rw [rollbackGraph_container, Container.resolveErased, h.services]
  have hTargets : shutDown events =
      shutdownTargets graph mid.container.toContainer mid.initializedProviders.reverse :=
    hSpec.targets
  constructor
  · rintro ⟨-, all, hAll, hAlive⟩ t ht d hDef
    by_contra hSome
    obtain ⟨value, hValue⟩ := Option.ne_none_iff_exists'.mp hSome
    obtain ⟨quiet, hQuietTrace, -⟩ := h.quiet
    have hSplit : all = quiet ++ events := by
      rw [hTrace, hQuietTrace, List.append_assoc] at hAll
      exact (List.append_cancel_left hAll).symm
    have hMem : (d, value) ∈ shutDown events := by
      rw [hTargets, mem_shutdownTargets]
      refine ⟨t, ?_, hDef, by rw [h.services, hValue]⟩
      rw [List.mem_reverse, h.listed]
      exact ht
    obtain ⟨e, he, hShut⟩ := List.mem_filterMap.mp hMem
    have hDead := (hAlive e (by rw [hSplit]; exact List.mem_append_right _ he)).2 d value
      (Event.shutDown_eq_some.mp hShut)
    rw [hServices] at hDead
    exact hDead hValue
  · intro hNone
    have hNever : ∀ e ∈ events, e.Quiet := by
      intro e he
      have hShutdown := hSpec.shutdown e he
      constructor
      · intro provider overridden value hAction
        obtain ⟨action, fault⟩ := e
        dsimp only at hAction
        subst hAction
        cases hShutdown
      · intro provider value hAction
        have hMem : (provider, value) ∈ shutDown events :=
          List.mem_filterMap.mpr ⟨e, he, Event.shutDown_eq_some.mpr hAction⟩
        rw [hTargets, mem_shutdownTargets] at hMem
        obtain ⟨t, ht, hDef, hValue⟩ := hMem
        rw [List.mem_reverse, h.listed] at ht
        rw [h.services, hNone t ht provider hDef] at hValue
        cases hValue
    refine ⟨fun t => by rw [hServices]; rfl, ?_⟩
    obtain ⟨all, hAll, hQuiet⟩ := h.quiet.trans ⟨events, hTrace, hNever⟩
    refine ⟨all, hAll, ?_⟩
    intro e he
    obtain ⟨hInit, hShut⟩ := hQuiet e he
    constructor
    · intro provider overridden value f hEvent
      exact absurd (congrArg Event.action hEvent) (hInit provider overridden value)
    · intro provider value hAction
      exact absurd hAction (hShut provider value)

theorem Untouched.kept {r r' : Run W} (h : Untouched r r') : ServicesKept r r' := by
  obtain ⟨events, hTrace, hQuiet⟩ := h.quiet
  refine ⟨fun t => ?_, events, hTrace, ?_⟩
  · rw [Container.resolveErased, Container.resolveErased, h.services]
  · intro e he
    obtain ⟨hInit, hShut⟩ := hQuiet e he
    constructor
    · intro provider overridden value f hEvent
      exact absurd (congrArg Event.action hEvent) (hInit provider overridden value)
    · intro provider value hAction
      exact absurd hAction (hShut provider value)

/-- A registration that fails keeps the services exactly when it failed in discovery or in
preflight, or when it has constructed no provider and shut down none: all providers of the
schedule were there already or the factory of the first that was not failed, and the graph
and the container know none of the providers listed as initialised. -/
theorem services_kept_iff (P : Program W) (root : ModuleDef) (r : Run W) (f : Fault)
    (hFailed : (registerModule P root r).1 = .error f) :
    ServicesKept r (registerModule P root r).2 ↔
      ∀ graph order, discoverFrom P root = .ok graph →
        graph.preflight (some r.container) = .ok order → KeepsServices graph order r := by
  have hLogged : ∀ (r : Run W) action fault, (∀ p o v, action ≠ .moduleInit p o v) →
      (∀ p v, action ≠ .shutdown p v) → Untouched r (r.log action fault) :=
    fun r action fault hInit hShut => ⟨rfl, rfl, Run.Extends.single rfl ⟨hInit, hShut⟩⟩
  rcases registerModule_cases P root r with ⟨f', hDiscover, he⟩ |
    ⟨graph, hDiscover, ⟨f', hPreflight, he⟩ | ⟨order, hPreflight, he⟩⟩
  · rw [he, hDiscover]
    constructor
    · intro _ graph order hGraph
      cases hGraph
    · intro _
      exact (hLogged r .discover (some f') (fun _ _ _ h => nomatch h) (fun _ _ h => nomatch h)).kept
  · rw [he, hDiscover]
    constructor
    · intro _ graph' order hGraph hOrder
      cases hGraph
      rw [hPreflight] at hOrder
      cases hOrder
    · intro _
      have hDiscovered : Untouched r (r.log .discover none) :=
        hLogged r .discover none (fun _ _ _ h => nomatch h) (fun _ _ h => nomatch h)
      exact (hDiscovered.trans
        (hLogged _ .preflight (some f') (fun _ _ _ h => nomatch h) (fun _ _ h => nomatch h))).kept
  · have hOpened := opened_untouched r
    have hIff : (∀ graph' order', discoverFrom P root = .ok graph' →
        graph'.preflight (some r.container) = .ok order' → KeepsServices graph' order' r) ↔
        KeepsServices graph order r := by
      constructor
      · exact fun h => h graph order hDiscover hPreflight
      · intro h graph' order' hGraph hOrder
        rw [hDiscover] at hGraph
        cases hGraph
        rw [hPreflight] at hOrder
        cases hOrder
        exact h
    rw [hIff]
    rw [he] at hFailed ⊢
    rcases loops_first graph order r.opened with ⟨hAll, hEnds⟩ | ⟨l₁, q, l₂, hOrder, hBefore, hNew⟩
    · obtain ⟨mid, hMid, hRun⟩ := hEnds.error hFailed
      rw [hRun, rollback_kept_iff (hOpened.trans hMid)]
      constructor
      · intro hUnlisted
        refine ⟨?_, hUnlisted⟩
        intro l₁ q l₂ hOrder _ hNew
        exact absurd (hAll q (by simp [hOrder])) hNew
      · exact fun h => h.unlisted
    · constructor
      · intro hKept
        have hUnbuilt : ∀ m₁ p m₂, order = m₁ ++ p :: m₂ →
            (∀ p ∈ m₁, Provided r.container.toContainer p.typeId) →
            ¬ Provided r.container.toContainer p.typeId →
              FactoryFails (r.container.declareAll (m₁ ++ [p])) r.world p := by
          intro m₁ p m₂ hSplit hProvided hLacks
          rcases loops_at_first graph (r := r.opened) hSplit hProvided hLacks with
            ⟨hFails, -⟩ | ⟨-, value, hStored⟩
          · exact hFails
          · obtain ⟨v, hv⟩ := (hKept.same p.typeId).mp ⟨value, hStored⟩
            exact absurd (Or.inl ⟨v, hv⟩) hLacks
        refine ⟨hUnbuilt, ?_⟩
        rcases loops_at_first graph (r := r.opened) hOrder hBefore hNew with
          ⟨-, mid, hMid, hRun⟩ | ⟨hBuilds, -⟩
        · rw [hRun, rollback_kept_iff (hOpened.trans hMid)] at hKept
          exact hKept
        · exact absurd (hUnbuilt l₁ q l₂ hOrder hBefore hNew) hBuilds
      · intro h
        rcases loops_at_first graph (r := r.opened) hOrder hBefore hNew with
          ⟨-, mid, hMid, hRun⟩ | ⟨hBuilds, -⟩
        · rw [hRun, rollback_kept_iff (hOpened.trans hMid)]
          exact h.unlisted
        · exact absurd (h.unbuilt l₁ q l₂ hOrder hBefore hNew) hBuilds

/-- A root module with one provider, its factory and its init hook. -/
def cacheProgram (create : Except HttpException Nat) (onModuleInit : Except HttpException Unit) :
    Program Unit where
  metadataFn t :=
    match t with
    | 10 =>
      { ModuleMetadata.new with
        providers :=
          [ProviderDef.of 20 "CacheService" [] (fun _ w => (create, w)) (fun _ w => (onModuleInit, w))
            noopLifecycle noopLifecycle] }
    | _ => ModuleMetadata.new
  modules := {10}
  closed := by
    intro m _ i hi
    dsimp only at hi
    split at hi <;> cases hi

def cacheFailure : HttpException := HttpException.new 503 "Service Unavailable" "cache unreachable"

theorem services_kept_iff_cache :
    (registerModule (cacheProgram (.error cacheFailure) (.ok ())) ⟨10, "App"⟩
      (Run.fresh RootContainer.new ())).1 = .error (.exception cacheFailure) ∧
    ServicesKept (Run.fresh RootContainer.new ())
      (registerModule (cacheProgram (.error cacheFailure) (.ok ())) ⟨10, "App"⟩
        (Run.fresh RootContainer.new ())).2 := by
  have hFailed : (registerModule (cacheProgram (.error cacheFailure) (.ok ())) ⟨10, "App"⟩
      (Run.fresh RootContainer.new ())).1 = .error (.exception cacheFailure) := rfl
  refine ⟨hFailed, (services_kept_iff _ _ _ _ hFailed).mpr ?_⟩
  intro graph order hGraph hOrder
  cases hGraph
  cases hOrder
  refine ⟨?_, fun t ht => nomatch ht⟩
  intro l₁ q l₂ hSplit _ _
  cases l₁ with
  | nil =>
    obtain ⟨rfl, -⟩ := List.cons.inj hSplit
    exact ⟨cacheFailure, rfl⟩
  | cons p l₁ =>
    have hEmpty := (List.cons.inj hSplit).2
    exact absurd hEmpty.symm (List.append_ne_nil_of_right_ne_nil l₁ (List.cons_ne_nil q l₂))

/-- The init hook of the only provider fails: its instance stays registered, and a second
registration takes it for initialised. -/
theorem failed_init_kept_cache :
    (Run.fresh RootContainer.new ()).container.resolveErased 20 = none ∧
    (registerModule (cacheProgram (.ok 7) (.error cacheFailure)) ⟨10, "App"⟩
      (Run.fresh RootContainer.new ())).1 = .error (.exception (startupError
        "on_module_init failed for CacheService: Service Unavailable: cache unreachable")) ∧
    (registerModule (cacheProgram (.ok 7) (.error cacheFailure)) ⟨10, "App"⟩
      (Run.fresh RootContainer.new ())).2.container.resolveErased 20 = some ⟨20, 7⟩ ∧
    (registerModule (cacheProgram (.ok 7) (.error cacheFailure)) ⟨10, "App"⟩
      (registerModule (cacheProgram (.ok 7) (.error cacheFailure)) ⟨10, "App"⟩
        (Run.fresh RootContainer.new ())).2).1 = .ok () ∧
    ¬ ServicesKept (Run.fresh RootContainer.new ())
      (registerModule (cacheProgram (.ok 7) (.error cacheFailure)) ⟨10, "App"⟩
        (Run.fresh RootContainer.new ())).2 := by
  refine ⟨rfl, rfl, rfl, rfl, ?_⟩
  intro hKept
  obtain ⟨v, hv⟩ := (hKept.same 20).mp ⟨⟨20, 7⟩, rfl⟩
  cases hv

end Caelix
