import Caelix.Core.Exception
import Mathlib.Data.Finset.Insert
import Mathlib.Logic.Function.Basic

/-!
# The service container

`container.rs`: the map of registered services, the types satisfied by an override,
and the scope that limits what a provider may resolve while it is constructed.

A Rust type is its `TypeId`, and a registered value is the type behind the
`Arc<dyn Any>` with the identity of the instance. The maps the code only reads and
extends by key are functions. The pending overrides are kept apart, in
`RootContainer` (`Provider.lean`): `Clone` drops them, so the container a factory
sees never has any.
-/

namespace Caelix

abbrev TypeId := Nat

/-- `TypeId::of::<Logger>()`, registered by `Container::new`. -/
def TypeId.logger : TypeId := 0

/-- `TypeId::of::<EventBus>()`. -/
def TypeId.eventBus : TypeId := 1

/-- A value behind `Arc<dyn Any + Send + Sync>`: its concrete type and which instance it is. -/
structure ProviderValue where
  typeId : TypeId
  inst : Nat
  deriving DecidableEq, Repr

/-- Metadata for one resolved provider dependency. -/
structure ProviderDependency where
  typeId : TypeId
  typeName : String
  deriving DecidableEq, Repr

structure DependencyScope where
  providerTypeName : String
  allowedTypeIds : List TypeId

structure Container where
  services : TypeId → Option ProviderValue
  /-- TypeIds that were satisfied by an override (skip declared lifecycle hooks). -/
  appliedOverrides : Finset TypeId
  declaredProviderTypes : Finset TypeId
  dependencyScope : Option DependencyScope

namespace Container

def new : Container where
  services := Function.update (fun _ => none) TypeId.logger (some ⟨TypeId.logger, 0⟩)
  appliedOverrides := ∅
  declaredProviderTypes := ∅
  dependencyScope := none

def registerErased (c : Container) (typeId : TypeId) (value : ProviderValue) : Container :=
  { c with services := Function.update c.services typeId (some value) }

/-- `register_instance::<T>`: the value is of the type it is registered under. -/
def registerInstance (c : Container) (value : ProviderValue) : Container :=
  c.registerErased value.typeId value

def resolveErased (c : Container) (typeId : TypeId) : Option ProviderValue := c.services typeId

def containsTypeId (c : Container) (typeId : TypeId) : Bool := (c.services typeId).isSome

def markOverrideApplied (c : Container) (typeId : TypeId) : Container :=
  { c with appliedOverrides := insert typeId c.appliedOverrides }

def wasOverridden (c : Container) (typeId : TypeId) : Bool := typeId ∈ c.appliedOverrides

def markProviderDeclared (c : Container) (typeId : TypeId) : Container :=
  { c with declaredProviderTypes := insert typeId c.declaredProviderTypes }

def scopedForProvider (c : Container) (providerTypeName : String)
    (dependencies : List ProviderDependency) : Container :=
  { c with
    dependencyScope := some ⟨providerTypeName, dependencies.map ProviderDependency.typeId⟩ }

/-- The lookup and the downcast at the end of `resolve`. -/
def resolveRegistered (c : Container) (target : ProviderDependency) :
    Except HttpException ProviderValue :=
  match c.services target.typeId with
  | none => .error (startupError ("no provider registered for " ++ target.typeName))
  | some value =>
    if value.typeId = target.typeId then .ok value
    else .error (startupError ("type mismatch resolving " ++ target.typeName))

/-- `resolve::<T>` for the type described by `target`. -/
def resolve (c : Container) (target : ProviderDependency) : Except HttpException ProviderValue :=
  match c.dependencyScope with
  | some scope =>
    if target.typeId ≠ TypeId.logger ∧ target.typeId ∉ scope.allowedTypeIds then
      .error (startupError (scope.providerTypeName ++ " resolved " ++ target.typeName ++
        " without declaring it in dependencies()"))
    else c.resolveRegistered target
  | none => c.resolveRegistered target

/-- Every service is stored under its own type, so no downcast can fail. -/
def Typed (c : Container) : Prop := ∀ t v, c.services t = some v → v.typeId = t

section Fields

variable (c : Container) (t u : TypeId) (v : ProviderValue)

@[simp] theorem registerErased_services :
    (c.registerErased t v).services = Function.update c.services t (some v) := rfl

@[simp] theorem registerErased_appliedOverrides :
    (c.registerErased t v).appliedOverrides = c.appliedOverrides := rfl

@[simp] theorem markOverrideApplied_services : (c.markOverrideApplied t).services = c.services := rfl

@[simp] theorem markOverrideApplied_appliedOverrides :
    (c.markOverrideApplied t).appliedOverrides = insert t c.appliedOverrides := rfl

@[simp] theorem markProviderDeclared_services :
    (c.markProviderDeclared t).services = c.services := rfl

@[simp] theorem markProviderDeclared_appliedOverrides :
    (c.markProviderDeclared t).appliedOverrides = c.appliedOverrides := rfl

@[simp] theorem scopedForProvider_services (name : String) (ds : List ProviderDependency) :
    (c.scopedForProvider name ds).services = c.services := rfl

@[simp] theorem containsTypeId_iff : c.containsTypeId t = true ↔ ∃ v, c.services t = some v :=
  Option.isSome_iff_exists

@[simp] theorem wasOverridden_iff : c.wasOverridden t = true ↔ t ∈ c.appliedOverrides := by
  simp [wasOverridden]

end Fields

theorem Typed.registerErased {c : Container} (h : c.Typed) {t : TypeId} {v : ProviderValue}
    (hv : v.typeId = t) : (c.registerErased t v).Typed := by
  intro u w hw
  by_cases hu : u = t
  · subst hu
    simp only [registerErased_services, Function.update_self, Option.some.injEq] at hw
    rw [← hw, hv]
  · simp only [registerErased_services, Function.update_of_ne hu] at hw
    exact h u w hw

theorem typed_new : new.Typed := by
  intro t v h
  by_cases ht : t = TypeId.logger
  · subst ht
    simp only [new, Function.update_self, Option.some.injEq] at h
    rw [← h]
  · simp [new, Function.update_of_ne ht] at h

theorem Typed.resolveRegistered_ok_iff {c : Container} (h : c.Typed) (target : ProviderDependency) :
    (∃ v, c.resolveRegistered target = .ok v) ↔ ∃ v, c.services target.typeId = some v := by
  unfold resolveRegistered
  cases hv : c.services target.typeId with
  | none => simp
  | some v => simp [h _ _ hv]

/-- What a scoped container lets its provider resolve: registered types among the
declared dependencies, and the logger. -/
theorem Typed.resolve_scoped_ok_iff {c : Container} (h : c.Typed) (name : String)
    (ds : List ProviderDependency) (target : ProviderDependency) :
    (∃ v, (c.scopedForProvider name ds).resolve target = .ok v) ↔
      (target.typeId = TypeId.logger ∨ target.typeId ∈ ds.map ProviderDependency.typeId) ∧
        ∃ v, c.services target.typeId = some v := by
  unfold resolve scopedForProvider
  dsimp only
  split
  · rename_i hScope
    constructor
    · rintro ⟨v, hv⟩
      cases hv
    · rintro ⟨hl | hm, -⟩
      · exact absurd hl hScope.1
      · exact absurd hm hScope.2
  · rename_i hScope
    rw [not_and_or, not_not, not_not] at hScope
    refine Iff.trans ?_ (and_iff_right hScope).symm
    exact Typed.resolveRegistered_ok_iff (by exact h) target

end Container

end Caelix
