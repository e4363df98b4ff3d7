import Caelix.Core.Container

/-!
# The event bus

`EventBus` of `events.rs` as far as registration reaches: the handlers of each event
type in registration order, and the handler loop of `emit`. Subscribers are left out.
-/

namespace Caelix

variable {W : Type}

/-- `TypedHandler<E, H>`: the handler instance behind the erased entry. -/
structure TypedHandler where
  handler : ProviderValue
  deriving DecidableEq, Repr

/-- The handlers of each event type, in registration order. -/
structure EventBus where
  handlers : TypeId → List TypedHandler

namespace EventBus

def new : EventBus := ⟨fun _ => []⟩

/-- `register::<E, H>`: append to the entry of the event type. -/
def register (bus : EventBus) (eventType : TypeId) (handler : ProviderValue) : EventBus where
  handlers := Function.update bus.handlers eventType (bus.handlers eventType ++ [⟨handler⟩])

/-- The handler loop of `emit`: the handlers invoked, in order, up to and including the
first that fails, and its outcome. -/
def runHandlers (handle : TypedHandler → W → Except HttpException Unit × W) :
    List TypedHandler → W → List TypedHandler × Except HttpException Unit × W
  | [], w => ([], .ok (), w)
  | handler :: later, w =>
    match handle handler w with
    | (.ok (), w) =>
      let (invoked, result) := runHandlers handle later w
      (handler :: invoked, result)
    | (.error e, w) => ([handler], .error e, w)

def emit (bus : EventBus) (handle : TypedHandler → W → Except HttpException Unit × W)
    (eventType : TypeId) (w : W) : List TypedHandler × Except HttpException Unit × W :=
  runHandlers handle (bus.handlers eventType) w

/-- An emit whose handlers all succeed invokes exactly the registered handlers, in order. -/
theorem emit_invoked {bus : EventBus} {handle : TypedHandler → W → Except HttpException Unit × W}
    {eventType : TypeId} (hOk : ∀ handler w, (handle handler w).1 = .ok ()) (w : W) :
    (bus.emit handle eventType w).1 = bus.handlers eventType := by
  unfold emit
  induction bus.handlers eventType generalizing w with
  | nil => rfl
  | cons handler later ih =>
    have h := hOk handler w
    rw [runHandlers]
    cases hRun : handle handler w with
    | mk result w' =>
      rw [hRun] at h
      cases h
      simp [ih w']

@[simp] theorem register_handlers_self (bus : EventBus) (eventType : TypeId) (h : ProviderValue) :
    (bus.register eventType h).handlers eventType = bus.handlers eventType ++ [⟨h⟩] := by
  simp [register]

theorem register_handlers_of_ne (bus : EventBus) {eventType e : TypeId} (h : ProviderValue)
    (he : e ≠ eventType) : (bus.register eventType h).handlers e = bus.handlers e := by
  simp [register, he]

end EventBus

end Caelix
