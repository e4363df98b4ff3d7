import Caelix.Lib.JoinSet
import Caelix.Microservices.Envelope

/-!
# Consumer loops

The loops that spawn a task for each message: `command_loop` and `event_loop` on Redis,
`consume_command` and `consume_event` on NATS. Tasks complete and the loop is cancelled at
any time between its steps. When a loop returns, its set is dropped and the tasks that are
still running are aborted.

* `loops_drain_iff`: the tasks in flight in some state all complete before the loop returns
  exactly when no failure ends it while one of them is running.
-/

namespace Caelix

/-- An error of a joined task that has panicked or was aborted. -/
structure JoinError where
  message : String
  deriving DecidableEq, Repr

abbrev TaskEnd := Except JoinError (Except MicroserviceError Unit)

/-- `task_result`. -/
def taskResult : TaskEnd → Except MicroserviceError Unit
  | .ok result => result
  | .error error => .error (.transport ("transport task panicked: " ++ error.message))

/-- A loop that stands at some point of its code, with its result when it has returned. -/
structure ConsumerLoop (Point : Type) where
  point : Point
  result : Option (Except MicroserviceError Unit)
  cancelled : Bool
  inFlight : JoinSet TaskEnd

inductive LoopAction (Own : Type) where
  | cancel
  | complete (id : Nat) (outcome : TaskEnd)
  | own (step : Own)

namespace ConsumerLoop

variable {Point Own : Type}

def goto (s : ConsumerLoop Point) (point : Point) : ConsumerLoop Point := { s with point }

def fail (s : ConsumerLoop Point) (error : MicroserviceError) : ConsumerLoop Point :=
  { s with result := some (.error error) }

/-- `task_result(result)?` on a joined task. -/
def joinTask (s : ConsumerLoop Point) (id : Nat) (next : Point) : Option (ConsumerLoop Point) :=
  (s.inFlight.join id).map fun joined =>
    match taskResult joined.1 with
    | .ok () => { s with point := next, inFlight := joined.2 }
    | .error error => { s with inFlight := joined.2, result := some (.error error) }

def spawnMany (s : ConsumerLoop Point) (n : Nat) (next : Point) : ConsumerLoop Point :=
  { s with point := next, inFlight := s.inFlight.spawnMany n }

/-- `wait_for_handler_tasks` when no task is left. -/
def finish (s : ConsumerLoop Point) : Option (ConsumerLoop Point) :=
  if s.inFlight.isEmpty then some { s with result := some (.ok ()) } else none

/-- A step of the loop, or of what runs beside it. -/
def step (own : ConsumerLoop Point → Own → Option (ConsumerLoop Point)) (s : ConsumerLoop Point)
    (a : LoopAction Own) : Option (ConsumerLoop Point) :=
  if s.result.isSome then none
  else
    match a with
    | .cancel => some { s with cancelled := true }
    | .complete id outcome =>
      (s.inFlight.complete id outcome).map fun inFlight => { s with inFlight }
    | .own a => own s a

end ConsumerLoop

/-! ## Redis -/

/-- Where a Redis loop stands: before its connection, at the head of the loop, at
`try_join_next`, at the `select!` of a full set, before its two reads, and in
`wait_for_handler_tasks`. -/
inductive RedisPoint where
  | connect
  | head
  | tryJoin
  | full
  | reclaim
  | read
  | wait
  deriving DecidableEq, Repr

inductive RedisStep where
  | connected (reply : Except String Unit)
  | head
  | join (id : Nat)
  /-- `try_join_next` finds no completed task. -/
  | noneFinished
  /-- The `select!` of a full set takes the branch of the cancellation. -/
  | cancelled
  /-- The number of entries that `reclaim` returns. -/
  | reclaimed (reply : Except String Nat)
  /-- The number of entries that `read_group` returns. -/
  | entries (reply : Except String Nat)
  /-- `join_next` finds no task. -/
  | noneLeft

/-- The loop of `redis_transport.rs`. -/
def redisLoop (concurrency : Nat) (s : ConsumerLoop RedisPoint) (a : RedisStep) :
    Option (ConsumerLoop RedisPoint) :=
  match s.point, a with
  | .connect, .connected (.ok ()) => some (s.goto .head)
  | .connect, .connected (.error error) => some (s.fail (.transport error))
  | .head, .head => some (s.goto (if s.cancelled then .wait else .tryJoin))
  | .tryJoin, .join id => s.joinTask id .tryJoin
  | .tryJoin, .noneFinished =>
    if s.inFlight.finished.isEmpty then
      some (s.goto (if concurrency ≤ s.inFlight.len then .full else .reclaim))
    else none
  | .full, .cancelled => if s.cancelled then some (s.goto .wait) else none
  | .full, .join id => s.joinTask id .head
  | .reclaim, .reclaimed (.error error) => some (s.fail (.transport error))
  | .reclaim, .reclaimed (.ok n) =>
    -- both reads ask for as many entries as there is room for
    if s.inFlight.len + n ≤ concurrency then some (s.spawnMany n (if n = 0 then .read else .head))
    else none
  | .read, .entries (.error error) => some (s.fail (.transport error))
  | .read, .entries (.ok n) =>
    if s.inFlight.len + n ≤ concurrency then some (s.spawnMany n .head) else none
  | .wait, .join id => s.joinTask id .wait
  | .wait, .noneLeft => s.finish
  | _, _ => none

def commandLoop (maxHandlerConcurrency : Nat) := redisLoop maxHandlerConcurrency

def eventLoop (maxHandlerConcurrency : Nat) := redisLoop maxHandlerConcurrency

/-! ## NATS -/

/-- Where a NATS loop stands: at its `select!` or in `wait_for_handler_tasks`. -/
inductive NatsPoint where
  | select
  | wait
  deriving DecidableEq, Repr

inductive NatsStep (Error : Type) where
  | cancelled
  | join (id : Nat)
  /-- The subscription returns a message, an error or its end. -/
  | next (message : Option (Except Error Unit))
  | noneLeft

/-- The loop of `lib.rs`, with the error for the end of its subscription. -/
def natsLoop {Error : Type} (ended : String) (display : Error → String) (concurrency : Nat)
    (s : ConsumerLoop NatsPoint) (a : NatsStep Error) : Option (ConsumerLoop NatsPoint) :=
  match s.point, a with
  | .select, .cancelled => if s.cancelled then some (s.goto .wait) else none
  | .select, .join id => s.joinTask id .select
  | .select, .next none =>
    if s.inFlight.len < concurrency then some (s.fail (.transport ended)) else none
  | .select, .next (some (.error error)) =>
    if s.inFlight.len < concurrency then some (s.fail (.transport (display error))) else none
  | .select, .next (some (.ok ())) =>
    if s.inFlight.len < concurrency then some (s.spawnMany 1 .select) else none
  | .wait, .join id => s.joinTask id .wait
  | .wait, .noneLeft => s.finish
  | _, _ => none

/-- The messages of a core subscription are not errors. -/
def consumeCommand (maxHandlerConcurrency : Nat) :=
  natsLoop "NATS command subscription ended unexpectedly" Empty.elim maxHandlerConcurrency

def consumeEvent (maxHandlerConcurrency : Nat) :=
  natsLoop "JetStream event consumer ended unexpectedly" (fun error : String => error)
    maxHandlerConcurrency

/-! ## The tasks of a loop -/

open JoinSet (Label Moves)

def LoopAction.label {Own : Type} (own : Own → Label TaskEnd) : LoopAction Own → Label TaskEnd
  | .cancel => .internal
  | .complete id outcome => .complete id outcome
  | .own a => own a

def RedisStep.label : RedisStep → Label TaskEnd
  | .connected (.error _) | .reclaimed (.error _) | .entries (.error _) => .broken
  | .connected (.ok _) | .head | .noneFinished | .cancelled => .internal
  | .reclaimed (.ok n) | .entries (.ok n) => .spawn n
  | .join id => .join id
  | .noneLeft => .drained

def NatsStep.label {Error : Type} : NatsStep Error → Label TaskEnd
  | .cancelled => .internal
  | .join id => .join id
  | .next (some (.ok _)) => .spawn 1
  | .next _ => .broken
  | .noneLeft => .drained

section

variable {Point Own : Type} {s t : ConsumerLoop Point}

theorem goto_moves (hResult : s.result = none) (point : Point) :
    Moves taskResult s.inFlight .internal (s.goto point).inFlight (s.goto point).result := by
  rw [show (s.goto point).result = none from hResult]
  exact .internal _

theorem fail_moves (s : ConsumerLoop Point) (error : MicroserviceError) :
    Moves taskResult s.inFlight .broken (s.fail error).inFlight (s.fail error).result :=
  .broken _ error

theorem spawnMany_moves (hResult : s.result = none) (n : Nat) (next : Point) :
    Moves taskResult s.inFlight (.spawn n) (s.spawnMany n next).inFlight
      (s.spawnMany n next).result := by
  rw [show (s.spawnMany n next).result = none from hResult]
  exact .spawn _ n

theorem joinTask_moves (hResult : s.result = none) {id : Nat} {next : Point}
    (h : s.joinTask id next = some t) :
    Moves taskResult s.inFlight (.join id) t.inFlight t.result := by
  obtain ⟨⟨outcome, rest⟩, hJoin, hNext⟩ := Option.map_eq_some_iff.mp h
  dsimp only at hNext
  cases hTask : taskResult outcome with
  | ok u =>
    rw [hTask] at hNext
    subst hNext
    dsimp only
    rw [hResult]
    exact .joined hJoin hTask
  | error e =>
    rw [hTask] at hNext
    subst hNext
    exact .failed hJoin hTask

theorem finish_moves (h : s.finish = some t) :
    Moves taskResult s.inFlight .drained t.inFlight t.result := by
  unfold ConsumerLoop.finish at h
  split_ifs at h with hEmpty
  obtain rfl := Option.some.inj h
  exact .drained hEmpty

/-- A loop owns its tasks when its own steps do. -/
theorem step_owns {own : ConsumerLoop Point → Own → Option (ConsumerLoop Point)}
    {label : Own → Label TaskEnd}
    (hOwn : ∀ s a t, s.result = none → own s a = some t →
      Moves taskResult s.inFlight (label a) t.inFlight t.result) :
    JoinSet.Owns taskResult (ConsumerLoop.step own) (·.inFlight) (·.result) (LoopAction.label label) := by
  intro s a t h
  unfold ConsumerLoop.step at h
  split_ifs at h with hSome
  have hResult := Option.not_isSome_iff_eq_none.mp hSome
  refine ⟨hResult, ?_⟩
  cases a with
  | cancel =>
    obtain rfl := Option.some.inj h
    exact goto_moves hResult s.point
  | complete id outcome =>
    obtain ⟨inFlight, hComplete, rfl⟩ := Option.map_eq_some_iff.mp h
    dsimp only
    rw [hResult]
    exact .complete hComplete
  | own a => exact hOwn s a t hResult h

end

theorem redisLoop_moves {concurrency : Nat} {s t : ConsumerLoop RedisPoint} {a : RedisStep}
    (hResult : s.result = none) (h : redisLoop concurrency s a = some t) :
    Moves taskResult s.inFlight a.label t.inFlight t.result := by
  unfold redisLoop at h
  split at h
  · obtain rfl := Option.some.inj h
    exact goto_moves hResult _
  · obtain rfl := Option.some.inj h
    exact fail_moves s _
  · obtain rfl := Option.some.inj h
    exact goto_moves hResult _
  · exact joinTask_moves hResult h
  · split_ifs at h
    · obtain rfl := Option.some.inj h
      exact goto_moves hResult _
    · obtain rfl := Option.some.inj h
      exact goto_moves hResult _
  · split_ifs at h
    obtain rfl := Option.some.inj h
    exact goto_moves hResult _
  · exact joinTask_moves hResult h
  · obtain rfl := Option.some.inj h
    exact fail_moves s _
  · split_ifs at h
    · obtain rfl := Option.some.inj h
      exact spawnMany_moves hResult _ _
    · obtain rfl := Option.some.inj h
      exact spawnMany_moves hResult _ _
  · obtain rfl := Option.some.inj h
    exact fail_moves s _
  · split_ifs at h
    obtain rfl := Option.some.inj h
    exact spawnMany_moves hResult _ _
  · exact joinTask_moves hResult h
  · exact finish_moves h
  · cases h

theorem natsLoop_moves {Error : Type} {ended : String} {display : Error → String} {concurrency : Nat}
    {s t : ConsumerLoop NatsPoint} {a : NatsStep Error} (hResult : s.result = none)
    (h : natsLoop ended display concurrency s a = some t) :
    Moves taskResult s.inFlight a.label t.inFlight t.result := by
  unfold natsLoop at h
  split at h
  · split_ifs at h
    obtain rfl := Option.some.inj h
    exact goto_moves hResult _
  · exact joinTask_moves hResult h
  · split_ifs at h
    obtain rfl := Option.some.inj h
    exact fail_moves s _
  · split_ifs at h
    obtain rfl := Option.some.inj h
    exact fail_moves s _
  · split_ifs at h
    obtain rfl := Option.some.inj h
    exact spawnMany_moves hResult _ _
  · exact joinTask_moves hResult h
  · exact finish_moves h
  · cases h

/-! ## Draining -/

section

variable {Point Own : Type} {own : ConsumerLoop Point → Own → Option (ConsumerLoop Point)}
  {label : Own → Label TaskEnd} {s t : ConsumerLoop Point} {actions : List (LoopAction Own)}

/-- Every task that is running in `s` completes in the actions. -/
def Drained (s : ConsumerLoop Point) (actions : List (LoopAction Own)) : Prop :=
  ∀ id ∈ s.inFlight.running, ∃ outcome, .complete id outcome ∈ actions

/-- Where a task that has failed is joined, or another operation of the loop fails, no task
that is running in `s` is still running. -/
def FailsLate (own : ConsumerLoop Point → Own → Option (ConsumerLoop Point))
    (label : Own → Label TaskEnd) (s : ConsumerLoop Point) (actions : List (LoopAction Own)) : Prop :=
  ∀ before a after u, actions = before ++ a :: after →
    Machine.run (ConsumerLoop.step own) s before = some u →
    JoinSet.Fails taskResult u.inFlight (LoopAction.label label a) →
    ∀ id ∈ s.inFlight.running, id ∉ u.inFlight.running

theorem complete_mem_label (hLabel : ∀ a id outcome, label a ≠ .complete id outcome) {id : Nat}
    {outcome : TaskEnd} : .complete id outcome ∈ actions.map (LoopAction.label label) ↔
      .complete id outcome ∈ actions := by
  constructor
  · intro h
    obtain ⟨a, hMem, hEq⟩ := List.mem_map.mp h
    cases a with
    | cancel => cases hEq
    | complete other outcome' =>
      cases hEq
      exact hMem
    | own a => exact absurd hEq (hLabel a id outcome)
  · exact fun h => List.mem_map_of_mem (f := LoopAction.label label) h

theorem drained_iff_failsLate
    (hOwn : ∀ s a t, s.result = none → own s a = some t →
      Moves taskResult s.inFlight (label a) t.inFlight t.result)
    (hLabel : ∀ a id outcome, label a ≠ .complete id outcome) {r : Except MicroserviceError Unit}
    (hRun : Machine.run (ConsumerLoop.step own) s actions = some t) (hStart : s.result = none)
    (hResult : t.result = some r) : Drained s actions ↔ FailsLate own label s actions := by
  rw [FailsLate, ← JoinSet.drained_iff (step_owns hOwn) hRun hResult hStart]
  exact forall₂_congr fun id _ => exists_congr fun outcome => (complete_mem_label hLabel).symm

end

theorem RedisStep.label_ne (a : RedisStep) (id : Nat) (outcome : TaskEnd) :
    a.label ≠ .complete id outcome := by
  intro h
  unfold RedisStep.label at h
  split at h <;> cases h

theorem NatsStep.label_ne {Error : Type} (a : NatsStep Error) (id : Nat) (outcome : TaskEnd) :
    a.label ≠ .complete id outcome := by
  intro h
  unfold NatsStep.label at h
  split at h <;> cases h

/-- In any run of a loop to its return, from any state, the tasks that are running in that
state all complete exactly when no failure ends the loop while one of them is running. -/
theorem loops_drain_iff (maxHandlerConcurrency : Nat) :
    (∀ s actions t r, Machine.run (ConsumerLoop.step (commandLoop maxHandlerConcurrency)) s actions = some t →
      s.result = none → t.result = some r →
      (Drained s actions ↔ FailsLate (commandLoop maxHandlerConcurrency) RedisStep.label s actions)) ∧
    (∀ s actions t r, Machine.run (ConsumerLoop.step (eventLoop maxHandlerConcurrency)) s actions = some t →
      s.result = none → t.result = some r →
      (Drained s actions ↔ FailsLate (eventLoop maxHandlerConcurrency) RedisStep.label s actions)) ∧
    (∀ s actions t r, Machine.run (ConsumerLoop.step (consumeCommand maxHandlerConcurrency)) s actions = some t →
      s.result = none → t.result = some r →
      (Drained s actions ↔ FailsLate (consumeCommand maxHandlerConcurrency) NatsStep.label s actions)) ∧
    (∀ s actions t r, Machine.run (ConsumerLoop.step (consumeEvent maxHandlerConcurrency)) s actions = some t →
      s.result = none → t.result = some r →
      (Drained s actions ↔ FailsLate (consumeEvent maxHandlerConcurrency) NatsStep.label s actions)) := by
  refine ⟨?_, ?_, ?_, ?_⟩
  · intro s actions t r hRun hStart hResult
    exact drained_iff_failsLate (fun _ _ _ => redisLoop_moves) RedisStep.label_ne hRun hStart hResult
  · intro s actions t r hRun hStart hResult
    exact drained_iff_failsLate (fun _ _ _ => redisLoop_moves) RedisStep.label_ne hRun hStart hResult
  · intro s actions t r hRun hStart hResult
    exact drained_iff_failsLate (fun _ _ _ => natsLoop_moves) NatsStep.label_ne hRun hStart hResult
  · intro s actions t r hRun hStart hResult
    exact drained_iff_failsLate (fun _ _ _ => natsLoop_moves) NatsStep.label_ne hRun hStart hResult

/-! ## Two tasks -/

/-- A loop before its first step. -/
def ConsumerLoop.start {Point : Type} (point : Point) : ConsumerLoop Point :=
  ⟨point, none, false, .empty⟩

def redisTwoTasks : List (LoopAction RedisStep) :=
  [.own (.connected (.ok ())), .own .head, .own .noneFinished, .own (.reclaimed (.ok 2)), .cancel]

def natsTwoTasks {Error : Type} : List (LoopAction (NatsStep Error)) :=
  [.own (.next (some (.ok ()))), .own (.next (some (.ok ()))), .cancel]

/-- The loop leaves its head or its `select!`, and two tasks complete before they are joined;
the second one has panicked. -/
def bothComplete {Own : Type} (leave : Own) (join : Nat → Own) : List (LoopAction Own) :=
  [.own leave, .complete 0 (.ok (.ok ())), .own (join 0), .complete 1 (.error ⟨"panic"⟩), .own (join 1)]

/-- The first task fails and is joined before the second one completes. -/
def firstFails {Own : Type} (leave : Own) (join : Nat → Own) : List (LoopAction Own) :=
  [.own leave, .complete 0 (.ok (.error (.transport "connection lost"))), .own (join 0)]

theorem bothComplete_drained {Point Own : Type} {s : ConsumerLoop Point}
    (h : s.inFlight.running = [0, 1]) (leave : Own) (join : Nat → Own) :
    Drained s (bothComplete leave join) := by
  intro id hId
  rw [h] at hId
  rcases List.mem_cons.mp hId with rfl | hId
  · exact ⟨.ok (.ok ()), by simp [bothComplete]⟩
  · obtain rfl := List.mem_singleton.mp hId
    exact ⟨.error ⟨"panic"⟩, by simp [bothComplete]⟩

theorem firstFails_not_drained {Point Own : Type} {s : ConsumerLoop Point}
    (h : s.inFlight.running = [0, 1]) (leave : Own) (join : Nat → Own) :
    ¬ Drained s (firstFails leave join) := by
  intro hDrained
  obtain ⟨outcome, hMem⟩ := hDrained 1 (by simp [h])
  simp [firstFails] at hMem

/-- From its start a loop comes by the first actions to a state from which the last ones fail late,
and return. -/
def ReturnsLate {Point Own : Type} (own : ConsumerLoop Point → Own → Option (ConsumerLoop Point))
    (label : Own → Label TaskEnd) (start : Point) (first last : List (LoopAction Own)) : Prop :=
  ∃ s t, Machine.run (ConsumerLoop.step own) (.start start) first = some s ∧
    Machine.run (ConsumerLoop.step own) s last = some t ∧ t.result.isSome ∧
    FailsLate own label s last

/-- A failure after all tasks have completed. -/
theorem loops_drain_iff_both :
    ReturnsLate (commandLoop 2) RedisStep.label .connect redisTwoTasks (bothComplete .head .join) ∧
    ReturnsLate (eventLoop 2) RedisStep.label .connect redisTwoTasks (bothComplete .head .join) ∧
    ReturnsLate (consumeCommand 2) NatsStep.label .select natsTwoTasks
      (bothComplete .cancelled .join) ∧
    ReturnsLate (consumeEvent 2) NatsStep.label .select natsTwoTasks
      (bothComplete .cancelled .join) := by
  obtain ⟨hCommandLoop, hEventLoop, hConsumeCommand, hConsumeEvent⟩ := loops_drain_iff 2
  refine ⟨⟨_, _, rfl, rfl, rfl, ?_⟩, ⟨_, _, rfl, rfl, rfl, ?_⟩, ⟨_, _, rfl, rfl, rfl, ?_⟩,
    ⟨_, _, rfl, rfl, rfl, ?_⟩⟩
  · exact (hCommandLoop _ _ _ _ rfl rfl rfl).mp (bothComplete_drained rfl _ _)
  · exact (hEventLoop _ _ _ _ rfl rfl rfl).mp (bothComplete_drained rfl _ _)
  · exact (hConsumeCommand _ _ _ _ rfl rfl rfl).mp (bothComplete_drained rfl _ _)
  · exact (hConsumeEvent _ _ _ _ rfl rfl rfl).mp (bothComplete_drained rfl _ _)

/-- Both loops return the error of the first task while the second one is running. -/
theorem loops_drain_lost : ∃ s t s' t' e,
    Machine.run (ConsumerLoop.step (eventLoop 2)) (.start .connect) redisTwoTasks = some s ∧
    s.cancelled = true ∧
    Machine.run (ConsumerLoop.step (eventLoop 2)) s (firstFails .head .join) = some t ∧
    t.result = some (.error e) ∧ ¬ Drained s (firstFails RedisStep.head .join) ∧
    Machine.run (ConsumerLoop.step (consumeCommand 2)) (.start .select) natsTwoTasks = some s' ∧
    s'.cancelled = true ∧
    Machine.run (ConsumerLoop.step (consumeCommand 2)) s' (firstFails .cancelled .join) = some t' ∧
    t'.result = some (.error e) ∧ ¬ Drained s' (firstFails (NatsStep.cancelled : NatsStep Empty) .join) :=
  ⟨_, _, _, _, _, rfl, rfl, rfl, rfl, firstFails_not_drained rfl _ _, rfl, rfl, rfl, rfl,
    firstFails_not_drained rfl _ _⟩

end Caelix
