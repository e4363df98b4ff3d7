import Caelix.Core.LifecycleSteps
import Caelix.Core.PreflightSpec

/-!
# What a registration leaves in the container

The registration loop, followed from the container it starts with: which services it
adds, which overrides it applies and which providers it initialises (`Built`).

* `Built.initializeProvider`: one round.
* `registerModule_built`: a registration that succeeds.
-/

namespace Caelix

open Steps

variable {W : Type}

/-- Every type marked as overridden is registered. -/
def Container.Settled (c : Container) : Prop :=
  ∀ t ∈ c.appliedOverrides, ∃ v, c.services t = some v

/-- A registration starting at the container constructs the type and calls its declared hooks. -/
def startsNew (c : RootContainer W) (t : TypeId) : Bool :=
  !c.containsTypeId t && !c.wasOverridden t && !c.hasPendingOverride t

/-- The loop of a registration that began at `c`, once the registrations `done` are processed. -/
structure Built (c : RootContainer W) (base : List (ProviderDef W × ProviderValue))
    (done : List (ProviderRegistration W)) (r : Run W) : Prop where
  progress : c.Progress r.container
  provided : ∀ q ∈ done, ∃ v, r.container.services q.typeId = some v
  settled : r.container.Settled
  origin : ∀ t v, r.container.services t = some v →
    c.services t = some v ∨ t ∈ done.map ProviderRegistration.typeId
  applied : ∀ t ∈ r.container.appliedOverrides,
    t ∈ c.appliedOverrides ∨ (c.pendingOverride t).isSome
  inits : (initialized r.trace).map (fun p => p.1.typeId) =
    base.map (fun p => p.1.typeId) ++ (done.map ProviderRegistration.typeId).filter (startsNew c)

theorem startsNew_iff {c : RootContainer W} {t : TypeId} :
    startsNew c t = true ↔
      c.services t = none ∧ t ∉ c.appliedOverrides ∧ c.pendingOverride t = none := by
  simp [startsNew, Container.containsTypeId, Container.wasOverridden,
    RootContainer.hasPendingOverride, and_assoc]

namespace Built

variable {c : RootContainer W} {base : List (ProviderDef W × ProviderValue)}
  {done : List (ProviderRegistration W)} {r : Run W}

theorem start (hSettled : c.Settled) (hContainer : r.container = c)
    (hBase : initialized r.trace = base) : Built c base [] r := by
  constructor
  · rw [hContainer]
    exact RootContainer.Progress.refl c
  · simp
  · rw [hContainer]
    exact hSettled
  · rw [hContainer]
    exact fun t v h => Or.inl h
  · rw [hContainer]
    exact fun t h => Or.inl h
  · simp [hBase]

theorem filter_snoc (l : List (ProviderRegistration W)) (q : ProviderRegistration W) (b : Bool)
    (h : startsNew c q.typeId = b) :
    ((l ++ [q]).map ProviderRegistration.typeId).filter (startsNew c) =
      (l.map ProviderRegistration.typeId).filter (startsNew c) ++ if b then [q.typeId] else [] := by
  rw [List.map_append, List.filter_append]
  cases b <;> simp [h]

/-- A round that finds its type provided. -/
theorem skip (h : Built c base done r) {q : ProviderRegistration W}
    (hNew : q.typeId ∉ done.map ProviderRegistration.typeId)
    (hProvided : (∃ v, r.container.services q.typeId = some v) ∨
      q.typeId ∈ r.container.appliedOverrides) :
    Built c base (done ++ [q]) (r.declare q.typeId) := by
  have hService : ∃ v, r.container.services q.typeId = some v := by
    rcases hProvided with hService | hApplied
    · exact hService
    · exact h.settled _ hApplied
  have hOld : startsNew c q.typeId = false := by
    rw [Bool.eq_false_iff, Ne, startsNew_iff]
    rintro ⟨hNone, hApplied, hPending⟩
    obtain ⟨v, hv⟩ := hService
    rcases h.origin _ v hv with hv | hMem
    · rw [hNone] at hv
      cases hv
    · exact hNew hMem
  refine ⟨h.progress.trans (RootContainer.Progress.declare _ _), ?_, h.settled, ?_, h.applied, ?_⟩
  · intro p hp
    rcases List.mem_append.mp hp with hp | hp
    · exact h.provided p hp
    · obtain rfl : p = q := by simpa using hp
      exact hService
  · intro t v hv
    rcases h.origin t v hv with hv | hMem
    · exact Or.inl hv
    · exact Or.inr (by simp [List.mem_map.mp hMem])
  · rw [filter_snoc done q false hOld]
    simpa [Run.declare] using h.inits

/-- A construction is listed unless an override takes its place. -/
theorem initialized_constructed (r : Run W) (q : ProviderRegistration W) (value : ProviderValue) :
    initialized ((r.declare q.typeId).trace ++
      [⟨createAction (r.declare q.typeId).container q.definition, none⟩] ++
      [⟨initAction (r.declare q.typeId).container q.definition value, none⟩]) =
      initialized r.trace ++ if (r.container.pendingOverride q.typeId).isNone then
        [((r.declare q.typeId).container.effective q.definition, value)] else [] := by
  have hFlag : (r.declare q.typeId).container.hasPendingOverride q.definition.typeId =
      (r.container.pendingOverride q.typeId).isSome := rfl
  rw [initialized_append, initialized_append, initialized_singleton, initialized_singleton,
    initAction, hFlag]
  cases r.container.pendingOverride q.typeId with
  | none => simp [createAction, Event.initialized, Run.declare]
  | some override => simp [createAction, Event.initialized, Run.declare]

/-- A round that constructs its type. -/
theorem construct (h : Built c base done r) {q : ProviderRegistration W}
    (hNone : r.container.services q.typeId = none)
    (hApplied : q.typeId ∉ r.container.appliedOverrides) {x : Outcome W}
    (hx : Construction q.definition (r.declare q.typeId) x) :
    Ends x (Built c base (done ++ [q])) fun _ _ => True := by
  have hProgress := hx.progress hNone
  have hDeclare := RootContainer.Progress.declare r.container q.typeId
  have hNoneStart : c.services q.typeId = none := by
    cases hv : c.services q.typeId with
    | none => rfl
    | some v => rw [h.progress.services _ v hv] at hNone; cases hNone
  have hAppliedStart : q.typeId ∉ c.appliedOverrides := fun hMem => hApplied (h.progress.applied hMem)
  have hPendingStart : c.pendingOverride q.typeId = r.container.pendingOverride q.typeId := by
    rcases h.progress.pending q.typeId with he | ⟨-, hMem⟩
    · exact he.symm
    · exact absurd hMem hApplied
  cases hx with
  | buildFailed e w => trivial
  | initFailed value e w hValue => trivial
  | done value w hValue =>
    have hServices : (storedContainer (r.declare q.typeId).container q.definition value).services =
        Function.update r.container.services q.typeId (some value) := storedContainer_services ..
    have hStoredApplied : (storedContainer (r.declare q.typeId).container q.definition
        value).appliedOverrides = if (r.container.pendingOverride q.typeId).isSome then
          insert q.typeId r.container.appliedOverrides else r.container.appliedOverrides :=
      storedContainer_appliedOverrides ..
    refine ⟨h.progress.trans (hDeclare.trans hProgress), ?_, ?_, ?_, ?_, ?_⟩
    · intro p hp
      rcases List.mem_append.mp hp with hp | hp
      · obtain ⟨v, hv⟩ := h.provided p hp
        exact ⟨v, hProgress.services _ v (hDeclare.services _ v hv)⟩
      · obtain rfl : p = q := by simpa using hp
        refine ⟨value, ?_⟩
        rw [hServices, Function.update_self]
    · intro t ht
      by_cases htq : t = q.typeId
      · rw [htq]
        refine ⟨value, ?_⟩
        rw [hServices, Function.update_self]
      · rw [hStoredApplied] at ht
        have htOld : t ∈ r.container.appliedOverrides := by
          split at ht
          · exact (Finset.mem_insert.mp ht).resolve_left htq
          · exact ht
        obtain ⟨v, hv⟩ := h.settled t htOld
        exact ⟨v, hProgress.services _ v (hDeclare.services _ v hv)⟩
    · intro t v hv
      by_cases htq : t = q.typeId
      · exact Or.inr (by simp [htq])
      · rw [hServices, Function.update_of_ne htq] at hv
        rcases h.origin t v hv with hv | hMem
        · exact Or.inl hv
        · exact Or.inr (by simp [List.mem_map.mp hMem])
    · intro t ht
      rw [hStoredApplied] at ht
      split at ht
      · rename_i hPending
        rcases Finset.mem_insert.mp ht with rfl | ht
        · rw [hPendingStart]
          exact Or.inr hPending
        · exact h.applied t ht
      · exact h.applied t ht
    · have hNew : startsNew c q.typeId = (r.container.pendingOverride q.typeId).isNone := by
        rw [Bool.eq_iff_iff, startsNew_iff, hPendingStart, Option.isNone_iff_eq_none]
        exact ⟨fun hAll => hAll.2.2, fun hPending => ⟨hNoneStart, hAppliedStart, hPending⟩⟩
      dsimp only
      rw [initialized_constructed, List.map_append, h.inits, filter_snoc done q _ hNew, List.append_assoc]
      cases (r.container.pendingOverride q.typeId).isNone
      · rfl
      · simp only [if_true, List.map_cons, List.map_nil, RootContainer.effective_typeId]
        rfl

theorem initializeProvider (h : Built c base done r) {graph : ModuleGraph W}
    {q : ProviderRegistration W} (hNew : q.typeId ∉ done.map ProviderRegistration.typeId) :
    Ends (initializeProvider graph q r) (Built c base (done ++ [q])) fun _ _ => True := by
  rcases initializeProvider_cases graph q r with ⟨hProvided, he⟩ | ⟨hNone, hApplied, x, hx, he⟩
  · rw [he]
    exact h.skip hNew hProvided
  · rw [he]
    exact ends_orRollback (h.construct hNone hApplied hx) fun _ _ _ => trivial

theorem registerHandler (h : Built c base done r) (graph : ModuleGraph W)
    (p : Nat × EventHandlerDef W) :
    Ends (registerHandler graph p r) (Built c base done) fun _ _ => True := by
  apply ends_orRollback (R := fun _ _ => True) _ fun _ _ _ => trivial
  have hx := register_registration p.2 r
  generalize p.2.register r = x at hx
  cases hx with
  | failed f w => trivial
  | done value bus w hValue hBus =>
    refine ⟨h.progress, h.provided, h.settled, h.origin, h.applied, ?_⟩
    dsimp only
    rw [initialized_append, initialized_singleton]
    simpa [Event.initialized] using h.inits

/-- The registration loop over registrations of distinct types. -/
theorem loop (h : Built c base [] r) (graph : ModuleGraph W) {order : List (ProviderRegistration W)}
    (hNodup : (order.map ProviderRegistration.typeId).Nodup) :
    Ends (runAll (Caelix.initializeProvider graph) order r) (Built c base order) fun _ _ => True := by
  apply ends_runAll (I := Built c base) order h
  intro done q later hOrder r' h'
  apply h'.initializeProvider
  rw [hOrder, List.map_append, List.map_cons] at hNodup
  exact fun hMem => (List.nodup_append.mp hNodup).2.2 _ hMem _ List.mem_cons_self rfl

end Built

/-- A successful registration has processed its whole schedule. -/
theorem registerModule_built (P : Program W) (root : ModuleDef) {r : Run W}
    (hSettled : r.container.Settled) (hOk : (registerModule P root r).1 = .ok ()) :
    ∃ graph order, discoverFrom P root = .ok graph ∧
      graph.preflight (some r.container) = .ok order ∧
      Built r.container (initialized r.trace) order (registerModule P root r).2 := by
  rcases registerModule_cases P root r with ⟨f, -, he⟩ |
    ⟨graph, hDiscover, ⟨f, -, he⟩ | ⟨order, hPreflight, he⟩⟩
  · rw [he] at hOk
    cases hOk
  · rw [he] at hOk
    cases hOk
  · refine ⟨graph, order, hDiscover, hPreflight, ?_⟩
    have hFirst := ModuleGraph.importsFirst_of_discovered (discovered_of_ok hDiscover)
    obtain ⟨-, hSchedule⟩ := (ModuleGraph.preflight_ok_iff hFirst).mp hPreflight
    have hNodup := (ModuleGraph.scheduleAll_scheduled hSchedule).nodup
    have hEnds : Ends (registerModule P root r) (Built r.container (initialized r.trace) order)
        fun _ _ => True := by
      rw [he]
      have hStart : Built r.container (initialized r.trace) [] r.opened :=
        Built.start hSettled rfl (initialized_opened r)
      apply Ends.andThen
      · exact hStart.loop graph hNodup
      · intro r' h
        exact ends_runAll_of_keeps _ h fun p _ r'' h' => h'.registerHandler graph p
    exact hEnds.ok hOk

end Caelix
