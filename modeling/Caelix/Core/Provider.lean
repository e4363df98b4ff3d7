import Caelix.Core.Container
import Mathlib.Data.List.Nodup
import Mathlib.Data.List.Sort

/-!
# Provider definitions and overrides

`ProviderDef` of `module.rs` with its factory and lifecycle callbacks, the overrides
given to a start-up, and the container with the overrides still pending.

User code is a function of a world `W`: the factory and every hook may read and change
it, so any pattern of outcomes over a run is one choice of `W` and of the functions.
`build_typed` records what the constructors of `ProviderDef` guarantee by type: a
definition for `T` builds a value of type `T`.
-/

namespace Caelix

/-- A lifecycle callback applied to the erased provider value. -/
abbrev LifecycleFn (W : Type) := ProviderValue → W → Except HttpException Unit × W

abbrev BuildProviderFn (W : Type) := Container → W → Except HttpException ProviderValue × W

structure ProviderDef (W : Type) where
  typeId : TypeId
  typeName : String
  dependencies : List ProviderDependency
  build : BuildProviderFn W
  initFn : LifecycleFn W
  bootstrapFn : LifecycleFn W
  shutdownFn : LifecycleFn W
  build_typed : ∀ c w v, (build c w).1 = .ok v → v.typeId = typeId

variable {W : Type}

def noopLifecycle : LifecycleFn W := fun _ w => (.ok (), w)

/-- The hook of `T` behind `downcast_provider::<T>`. -/
def downcastProvider (typeId : TypeId) (typeName : String) (hook : LifecycleFn W) : LifecycleFn W :=
  fun value w =>
    if value.typeId = typeId then hook value w
    else (.error (startupError ("type mismatch running lifecycle hook for " ++ typeName)), w)

/-- Erase the instance that a factory of `T` returns, keeping its errors. -/
def eraseBuild {E : Type} (typeId : TypeId) (onError : E → HttpException)
    (create : Container → W → Except E Nat × W) : BuildProviderFn W := fun c w =>
  match create c w with
  | (.ok inst, w) => (.ok ⟨typeId, inst⟩, w)
  | (.error e, w) => (.error (onError e), w)

theorem eraseBuild_typed {E : Type} (typeId : TypeId) (onError : E → HttpException)
    (create : Container → W → Except E Nat × W) (c : Container) (w : W) (v : ProviderValue)
    (h : (eraseBuild typeId onError create c w).1 = .ok v) : v.typeId = typeId := by
  unfold eraseBuild at h
  split at h
  · cases h
    rfl
  · cases h

namespace ProviderDef

/-- `ProviderDef::of::<T>` for an `Injectable` type. -/
def of (typeId : TypeId) (typeName : String) (dependencies : List ProviderDependency)
    (create : Container → W → Except HttpException Nat × W)
    (onModuleInit onBootstrap onShutdown : LifecycleFn W) : ProviderDef W where
  typeId := typeId
  typeName := typeName
  dependencies := dependencies
  build := eraseBuild typeId id create
  initFn := downcastProvider typeId typeName onModuleInit
  bootstrapFn := downcastProvider typeId typeName onBootstrap
  shutdownFn := downcastProvider typeId typeName onShutdown
  build_typed := eraseBuild_typed typeId id create

/-- `ProviderDef::instance`: a pre-built value with no-op lifecycle hooks. -/
def ofInstance (value : ProviderValue) (typeName : String) : ProviderDef W where
  typeId := value.typeId
  typeName := typeName
  dependencies := []
  build := fun _ w => (.ok value, w)
  initFn := noopLifecycle
  bootstrapFn := noopLifecycle
  shutdownFn := noopLifecycle
  build_typed := by
    intro c w v h
    cases h
    rfl

/-- `ProviderDef::async_factory::<T>`; the factory's error enters the message as its `Debug` text. -/
def asyncFactory (typeId : TypeId) (typeName : String) (dependencies : List ProviderDependency)
    (factory : Container → W → Except String Nat × W) : ProviderDef W where
  typeId := typeId
  typeName := typeName
  dependencies := dependencies
  build := eraseBuild typeId
    (fun e => startupError ("async factory failed for " ++ typeName ++ ": " ++ e)) factory
  initFn := noopLifecycle
  bootstrapFn := noopLifecycle
  shutdownFn := noopLifecycle
  build_typed := eraseBuild_typed typeId _ factory

end ProviderDef

/-- `ProviderOverrides`: the map from a type to its override, one definition a type. -/
structure ProviderOverrides (W : Type) where
  defs : List (ProviderDef W)
  nodup : (defs.map ProviderDef.typeId).Nodup

namespace ProviderOverrides

def new : ProviderOverrides W := ⟨[], by simp⟩

def insert (overrides : ProviderOverrides W) (d : ProviderDef W) : ProviderOverrides W where
  defs := d :: overrides.defs.filter (fun e => e.typeId ≠ d.typeId)
  nodup := by
    rw [List.map_cons, List.nodup_cons]
    constructor
    · intro h
      obtain ⟨e, he, hEq⟩ := List.mem_map.mp h
      simp [hEq] at he
    · exact overrides.nodup.sublist (List.filter_sublist.map _)

def insertInstance (overrides : ProviderOverrides W) (value : ProviderValue) (typeName : String) :
    ProviderOverrides W :=
  overrides.insert (ProviderDef.ofInstance value typeName)

def insertFactory (overrides : ProviderOverrides W) (typeId : TypeId) (typeName : String)
    (dependencies : List ProviderDependency) (factory : Container → W → Except String Nat × W) :
    ProviderOverrides W :=
  overrides.insert (ProviderDef.asyncFactory typeId typeName dependencies factory)

end ProviderOverrides

/-- The container that drives a start-up: what a clone keeps, and the provider
overrides consumed while registering the module tree. -/
structure RootContainer (W : Type) extends Container where
  pendingOverrides : List (ProviderDef W)

namespace RootContainer

def new : RootContainer W := { Container.new with pendingOverrides := [] }

def seedOverrides (c : RootContainer W) (overrides : ProviderOverrides W) : RootContainer W :=
  { c with pendingOverrides := overrides.defs }

def pendingOverride (c : RootContainer W) (typeId : TypeId) : Option (ProviderDef W) :=
  c.pendingOverrides.find? (fun d => d.typeId = typeId)

def hasPendingOverride (c : RootContainer W) (typeId : TypeId) : Bool :=
  (c.pendingOverride typeId).isSome

/-- `take_pending_override`, the container without the entry. -/
def dropPendingOverride (c : RootContainer W) (typeId : TypeId) : RootContainer W :=
  { c with pendingOverrides := c.pendingOverrides.filter (fun d => d.typeId ≠ typeId) }

def takePendingOverride (c : RootContainer W) (typeId : TypeId) :
    Option (ProviderDef W) × RootContainer W :=
  (c.pendingOverride typeId, c.dropPendingOverride typeId)

/-- A method of `Container` that changes it, called on the root container. -/
def update (c : RootContainer W) (f : Container → Container) : RootContainer W :=
  { c with toContainer := f c.toContainer }

/-- Take the pending override of a type; when there is one, mark the type as overridden. -/
def claim (c : RootContainer W) (typeId : TypeId) : Option (ProviderDef W) × RootContainer W :=
  let (overrideDef, taken) := c.takePendingOverride typeId
  (overrideDef,
    if overrideDef.isSome then taken.update fun c => c.markOverrideApplied typeId else taken)

/-- The definition that provides a type now: its pending override, else the declared one. -/
def effective (c : RootContainer W) (declared : ProviderDef W) : ProviderDef W :=
  (c.pendingOverride declared.typeId).getD declared

def assertNoUnusedOverrides (c : RootContainer W) : Except HttpException Unit :=
  if c.pendingOverrides.isEmpty then .ok ()
  else
    let names := (c.pendingOverrides.map ProviderDef.typeName).mergeSort (fun a b => decide (a ≤ b))
    .error (startupError ("provider override was never applied: " ++ ", ".intercalate names ++
      "; is it registered in the module tree?"))

theorem pendingOverride_typeId {c : RootContainer W} {t : TypeId} {d : ProviderDef W}
    (h : c.pendingOverride t = some d) : d.typeId = t := by
  simpa using List.find?_some h

theorem pendingOverride_isSome {c : RootContainer W} {t : TypeId} :
    (c.pendingOverride t).isSome ↔ t ∈ c.pendingOverrides.map ProviderDef.typeId := by
  simp [pendingOverride, List.mem_map]

@[simp] theorem effective_typeId (c : RootContainer W) (declared : ProviderDef W) :
    (c.effective declared).typeId = declared.typeId := by
  unfold effective
  cases h : c.pendingOverride declared.typeId with
  | none => rfl
  | some d => exact pendingOverride_typeId h

theorem pendingOverride_drop_self (c : RootContainer W) (t : TypeId) :
    (c.dropPendingOverride t).pendingOverride t = none := by
  simp [pendingOverride, dropPendingOverride, List.find?_filter]

theorem pendingOverride_drop_of_ne (c : RootContainer W) {t u : TypeId} (h : u ≠ t) :
    (c.dropPendingOverride t).pendingOverride u = c.pendingOverride u := by
  simp only [pendingOverride, dropPendingOverride, List.find?_filter]
  congr 1
  funext d
  by_cases hd : d.typeId = u
  · simp [hd, h]
  · simp [hd]

theorem assertNoUnusedOverrides_ok_iff (c : RootContainer W) :
    c.assertNoUnusedOverrides = .ok () ↔ c.pendingOverrides = [] := by
  unfold assertNoUnusedOverrides
  cases h : c.pendingOverrides with
  | nil => simp
  | cons d ds => simp

end RootContainer

end Caelix
