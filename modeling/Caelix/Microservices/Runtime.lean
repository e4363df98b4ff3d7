import Mathlib.Algebra.GroupWithZero.Nat
import Mathlib.Logic.Function.Basic
import Caelix.Lib.Environment
import Caelix.Microservices.ConsumerLoop
import Caelix.Microservices.Nats

/-!
# Runs of a service

`start`, `run` and `shutdown` of the NATS runtime and `run` of the Redis runtime, as
processes that use the flags and task sets of the runtime. Consumer tasks complete, and the
runtime may be cancelled, at any time between two calls. A set that goes out of scope aborts
its tasks. `start` and `shutdown` hold the start lock, and nothing else uses the flags.
-/

namespace Caelix

open Interaction

/-- The variables that hold a set of consumer tasks: the field of the runtime, and a local
variable of `start`, `run` and `shutdown`. -/
inductive TaskSet where
  | shared
  | starting
  | running
  | stopping
  deriving DecidableEq, Repr

/-- The steps of the start-up that may fail. -/
inductive SetupStep where
  | queueGroup
  | deadLetterSubject
  | jetstreamStream
  | createStream
  | streamCovers
  | createConsumer (pattern : String)
  | consumerConfig (pattern : String)
  | messages (pattern : String)
  | subscribe (pattern : String)
  | flush
  | validate
  | commandGroup (pattern : String)
  | eventGroup

/-- What ends the wait of `run`: the ctrl-c listener, or a consumer task that is joined. -/
inductive RuntimeEvent where
  | signal (result : Except String Unit)
  | joined (task : Option TaskEnd)

/-- The tasks that have been joined, and whether the timeout has elapsed before all were. -/
structure Drain where
  ends : List TaskEnd
  elapsed : Bool

inductive RuntimeCall where
  | isCancelled
  | cancel
  | isStarted
  | setStarted
  /-- The flag of `shutdown` is set; the reply is its old value. -/
  | swapShutdown
  | setup (step : SetupStep)
  | spawn (set : TaskSet)
  /-- The new tasks of `start` become those of the runtime. -/
  | store
  /-- The tasks of the runtime are taken into a local variable. -/
  | take (set : TaskSet)
  /-- A local variable goes out of scope. -/
  | drop (set : TaskSet)
  /-- The `select!` of NATS; there is no reply in the branch of the cancellation. -/
  | select (set : TaskSet)
  /-- The `select!` of Redis, which joins a task only if there is one. -/
  | selectTask (set : TaskSet)
  /-- All tasks are joined, or the timeout elapses. -/
  | drain (set : TaskSet)
  | abortAll (set : TaskSet)
  | joinAll (set : TaskSet)
  | shutdownModule
  /-- The drain of the NATS client. -/
  | drainClient

abbrev RuntimeReply : RuntimeCall → Type
  | .isCancelled | .isStarted | .swapShutdown => Bool
  | .setup _ => Except MicroserviceError Unit
  | .select _ => Option RuntimeEvent
  | .selectTask _ => RuntimeEvent
  | .drain _ => Drain
  | .shutdownModule => Except HttpException Unit
  | .drainClient => Except String Unit
  | .cancel | .setStarted | .spawn _ | .store | .take _ | .drop _ | .abortAll _ | .joinAll _ => Unit

abbrev RuntimeTask := Routine RuntimeCall RuntimeReply MicroserviceError

namespace RuntimeTask

def setup (step : SetupStep) : RuntimeTask Unit :=
  ExceptT.mk (Proc.perform (RuntimeCall.setup step))

def setupWhen (needed : Bool) (step : SetupStep) : RuntimeTask Unit :=
  if needed then setup step else return ()

def cancelWhen (needed : Bool) : RuntimeTask Unit :=
  if needed then Proc.ask RuntimeCall.cancel else return ()

/-- A routine whose error does not end the one that calls it. -/
def resultOf {α : Type} (task : RuntimeTask α) : RuntimeTask (Except MicroserviceError α) :=
  ExceptT.lift task.run

/-- `timeout(.., join_next ..)` with the abort of the tasks that are left. -/
def drainTasks (set : TaskSet) : Proc RuntimeCall RuntimeReply Drain := do
  let drain ← Proc.perform (RuntimeCall.drain set)
  if drain.elapsed then do
    Proc.perform (RuntimeCall.abortAll set)
    Proc.perform (RuntimeCall.joinAll set)
    return drain
  else return drain

end RuntimeTask

/-! ## NATS -/

namespace NatsRuntime

open RuntimeTask

def deadlineElapsed : MicroserviceError :=
  .transport "transport shutdown deadline elapsed; unfinished handlers were aborted"

section

variable (options : NatsTransportOptions) (handlers : List MessageHandlerDef)

def handlersOf (kind : MessageHandlerKind) : List MessageHandlerDef :=
  handlers.filter fun handler => handler.kind == kind

def startEvent (handler : MessageHandlerDef) : RuntimeTask Unit := do
  setup (.createConsumer handler.pattern)
  setup (.consumerConfig handler.pattern)
  setup (.messages handler.pattern)
  Proc.ask (RuntimeCall.spawn .starting)

def startCommand (handler : MessageHandlerDef) : RuntimeTask Unit := do
  setup (.subscribe handler.pattern)
  Proc.ask (RuntimeCall.spawn .starting)

def startEvents : RuntimeTask Unit :=
  if (handlersOf handlers .event).isEmpty && options.deadLetterSubject.isNone then return ()
  else do
    setupWhen options.deadLetterSubject.isSome .deadLetterSubject
    setup .jetstreamStream
    setup .createStream
    setup .streamCovers
    (handlersOf handlers .event).forM startEvent

/-- The part of `start` that spawns the consumers. -/
def startConsumers : RuntimeTask Unit := do
  setupWhen (!handlers.isEmpty) .queueGroup
  startEvents options handlers
  (handlersOf handlers .command).forM startCommand
  setup .flush

/-- `start`. -/
def start : RuntimeTask Unit := do
  if ← Proc.ask RuntimeCall.isCancelled then
    throw (.transport "microservice runtime is shutting down")
  else if ← Proc.ask RuntimeCall.isStarted then return ()
  else do
    match ← resultOf (startConsumers options handlers) with
    | .error error => do
      Proc.ask (RuntimeCall.drop .starting)
      throw error
    | .ok () => do
      Proc.ask RuntimeCall.store
      Proc.ask RuntimeCall.setStarted

/-- `runtime_error`, with the error of a deadline that has elapsed. -/
def drainError (runtimeError : Option MicroserviceError) (drain : Drain) : Option MicroserviceError :=
  if drain.elapsed then some (runtimeError.getD deadlineElapsed) else runtimeError

/-- The first error of the joined tasks. -/
def firstError (ends : List TaskEnd) : Option MicroserviceError :=
  ends.findSome? fun task =>
    match taskResult task with
    | .ok () => none
    | .error error => some error

/-- The error of a result, as another error. -/
def errorOf {ε : Type} (display : ε → MicroserviceError) : Except ε Unit → Option MicroserviceError
  | .ok () => none
  | .error error => some (display error)

def orElse (error : Option MicroserviceError) : RuntimeTask Unit :=
  match error with
  | some error => throw error
  | none => return ()

/-- `shutdown`. -/
def shutdown : RuntimeTask Unit := do
  if ← Proc.ask RuntimeCall.swapShutdown then return ()
  else do
    Proc.ask RuntimeCall.cancel
    Proc.ask (RuntimeCall.take .stopping)
    let drain ← ExceptT.lift (drainTasks .stopping)
    let module ← Proc.ask RuntimeCall.shutdownModule
    let client ← Proc.ask RuntimeCall.drainClient
    orElse (((drainError (firstError drain.ends) drain).or
      (errorOf (fun error => .framework error.message) module)).or (errorOf .transport client))

/-- The error with which the wait of `run` ends. -/
def eventError : Option RuntimeEvent → Option MicroserviceError
  | none | some (.signal _) | some (.joined none) => none
  | some (.joined (some (.ok (.ok ())))) => some (.transport "transport task ended unexpectedly")
  | some (.joined (some (.ok (.error error)))) => some error
  | some (.joined (some (.error error))) =>
    some (.transport ("transport task panicked: " ++ error.message))

/-- A branch of the wait that cancels the runtime. -/
def cancels : Option RuntimeEvent → Bool
  | none | some (.joined none) => false
  | _ => true

/-- The part of `run` after its wait. -/
def finish (event : Option RuntimeEvent) : RuntimeTask Unit := do
  cancelWhen (cancels event)
  let drain ← ExceptT.lift (drainTasks .running)
  match drainError (eventError event) drain with
  | some error => do
    let _ ← resultOf shutdown
    throw error
  | none => shutdown

/-- `run`. -/
def run : RuntimeTask Unit := do
  match ← resultOf (start options handlers) with
  | .error error => do
    let _ ← resultOf shutdown
    throw error
  | .ok () => do
    Proc.ask (RuntimeCall.take .running)
    match ← Proc.ask (RuntimeCall.select .running) with
    | some (.signal (.error error)) => do
      -- `?` leaves `run` here
      Proc.ask (RuntimeCall.drop .running)
      throw (.transport error)
    | event => finish event

end

/-- The methods that may be called before `run`, which consumes the runtime. -/
inductive Method where
  | start
  | cancel
  | shutdown
  deriving DecidableEq, Repr

def Method.call (options : NatsTransportOptions) (handlers : List MessageHandlerDef) :
    Method → Proc RuntimeCall RuntimeReply Unit
  | .start => do
    let _ ← (NatsRuntime.start options handlers).run
    return ()
  | .cancel => Proc.perform RuntimeCall.cancel
  | .shutdown => do
    let _ ← NatsRuntime.shutdown.run
    return ()

/-- A runtime from its construction to the return of `run`. -/
def lifetime (options : NatsTransportOptions) (handlers : List MessageHandlerDef)
    (earlier : List Method) : RuntimeTask Unit := do
  ExceptT.lift (earlier.forM (Method.call options handlers))
  run options handlers

end NatsRuntime

/-! ## Redis -/

namespace RedisRuntime

open RuntimeTask

def deadlineElapsed : MicroserviceError :=
  .transport "Redis transport shutdown deadline elapsed; unfinished handlers were aborted"

def startCommand (handler : MessageHandlerDef) : RuntimeTask Unit := do
  setup (.commandGroup handler.pattern)
  Proc.ask (RuntimeCall.spawn .running)

def startEvents (handlers : List MessageHandlerDef) : RuntimeTask Unit :=
  if handlers.any fun handler => handler.kind == .event then do
    setup .eventGroup
    Proc.ask (RuntimeCall.spawn .running)
  else return ()

/-- The result of the wait of `run`. -/
def eventResult : RuntimeEvent → Except MicroserviceError Unit
  | .signal result => orTransport result
  | .joined none => .ok ()
  | .joined (some (.ok (.ok ()))) => .error (.transport "Redis transport task ended unexpectedly")
  | .joined (some (.ok (.error error))) => .error error
  | .joined (some (.error error)) =>
    .error (.transport ("Redis transport task panicked: " ++ error.message))

/-- The block of `run` that spawns the consumers and waits. -/
def consume (handlers : List MessageHandlerDef) : RuntimeTask Unit := do
  setup .validate
  (handlers.filter fun handler => handler.kind == .command).forM startCommand
  startEvents handlers
  let event ← Proc.ask (RuntimeCall.selectTask .running)
  liftExcept (eventResult event)

/-- `shutdown_redis_tasks`. -/
def shutdownRedisTasks : Proc RuntimeCall RuntimeReply (Except MicroserviceError Unit) := do
  let drain ← drainTasks .running
  return if drain.elapsed then .error deadlineElapsed else .ok ()

/-- `run`. -/
def run (handlers : List MessageHandlerDef) : RuntimeTask Unit := do
  let runtimeResult ← resultOf (consume handlers)
  Proc.ask RuntimeCall.cancel
  let taskShutdown ← ExceptT.lift shutdownRedisTasks
  let moduleShutdown ← Proc.ask RuntimeCall.shutdownModule
  liftExcept (do
    runtimeResult
    taskShutdown
    moduleShutdown.mapError fun error => .framework error.message)

end RedisRuntime

/-! ## The environment -/

/-- The flags and task sets of a runtime. What the ctrl-c listener has returned and how many
consumer tasks were running at each execution of `shutdown_module` is recorded. -/
structure RuntimeState where
  cancelled : Bool
  started : Bool
  shutdown : Bool
  tasks : TaskSet → JoinSet TaskEnd
  signals : List (Except String Unit)
  shutdowns : List Nat

namespace RuntimeState

def initial : RuntimeState := ⟨false, false, false, fun _ => .empty, [], []⟩

def setTasks (s : RuntimeState) (set : TaskSet) (f : JoinSet TaskEnd) : RuntimeState :=
  { s with tasks := Function.update s.tasks set f }

def cancel (s : RuntimeState) : RuntimeState := { s with cancelled := true }

/-- The consumer tasks that have neither completed nor been aborted. -/
def runningTasks (s : RuntimeState) : Nat :=
  ([.shared, .starting, .running, .stopping].map fun set => (s.tasks set).running.length).sum

inductive Change (s : RuntimeState) : RuntimeState → Prop
  | complete {set : TaskSet} {id : Nat} {outcome : TaskEnd} {f : JoinSet TaskEnd}
      (h : (s.tasks set).complete id outcome = some f) : Change s (s.setTasks set f)
  | cancel : Change s s.cancel

/-- What the wait of `run` may return. -/
inductive Event (s : RuntimeState) (set : TaskSet) : RuntimeEvent → RuntimeState → Prop
  | signal (result : Except String Unit) :
      Event s set (.signal result) { s with signals := s.signals ++ [result] }
  | joined {id : Nat} {task : TaskEnd} {f : JoinSet TaskEnd}
      (h : (s.tasks set).join id = some (task, f)) : Event s set (.joined (some task)) (s.setTasks set f)

def Execute (s : RuntimeState) : (c : RuntimeCall) → RuntimeState → RuntimeReply c → Prop
  | .isCancelled, t, r => t = s ∧ r = s.cancelled
  | .cancel, t, _ => t = s.cancel
  | .isStarted, t, r => t = s ∧ r = s.started
  | .setStarted, t, _ => t = { s with started := true }
  | .swapShutdown, t, r => t = { s with shutdown := true } ∧ r = s.shutdown
  | .setup _, t, _ => t = s
  | .spawn set, t, _ => t = s.setTasks set (s.tasks set).spawn
  | .store, t, _ => t = (s.setTasks .shared (s.tasks .starting)).setTasks .starting .empty
  | .take set, t, _ => t = (s.setTasks set (s.tasks .shared)).setTasks .shared .empty
  | .drop set, t, _ => t = s.setTasks set .empty
  | .select set, t, r =>
    (r = none ∧ s.cancelled = true ∧ t = s) ∨
    (r = some (.joined none) ∧ (s.tasks set).isEmpty = true ∧ t = s) ∨
    ∃ event, r = some event ∧ Event s set event t
  | .selectTask set, t, r => Event s set r t
  | .drain set, t, r =>
    -- the timeout may elapse at any time
    (r.elapsed = false → (s.tasks set).running = []) ∧
      r.ends = (s.tasks set).finished.map Prod.snd ∧ t = s.setTasks set (s.tasks set).joinAll
  | .abortAll _, t, _ => t = s
  | .joinAll set, t, _ => (s.tasks set).running = [] ∧ t = s.setTasks set (s.tasks set).joinAll
  | .shutdownModule, t, _ => t = { s with shutdowns := s.shutdowns ++ [s.runningTasks] }
  | .drainClient, t, _ => t = s

end RuntimeState

/-- What a runtime runs in. -/
def runtimeEnvironment : Environment RuntimeState RuntimeCall RuntimeReply where
  change := RuntimeState.Change
  execute := RuntimeState.Execute

end Caelix
