import Caelix.Microservices.Runtime

/-!
# Shutdown of a service

`shutdown_module` is executed once in the lifetime of a runtime, when no consumer task is
left, unless the ctrl-c listener of NATS fails.

* `RuntimeState.At`: what is known of a runtime at a point of its code.
* `NatsRuntime.start_spec`, `NatsRuntime.shutdown_spec`: one specification for each method.
* `shut_down_once_iff`: when the module of a service has been shut down.
-/

namespace Caelix

open Interaction RuntimeTask

namespace RuntimeState

/-- What is known of a runtime, whatever happens beside it: only the sets in `busy` may
have running tasks. -/
structure At (shutdown cancelled : Bool) (shutdowns : List Nat) (signals : List (Except String Unit))
    (busy : List TaskSet) (s : RuntimeState) : Prop where
  shutdown_eq : s.shutdown = shutdown
  cancelled_eq : cancelled = true → s.cancelled = true
  shutdowns_eq : s.shutdowns = shutdowns
  signals_eq : s.signals = signals
  idle : ∀ set ∉ busy, (s.tasks set).running = []

variable {shutdown cancelled : Bool} {shutdowns : List Nat} {signals : List (Except String Unit)}
  {busy : List TaskSet} {set : TaskSet} {s t : RuntimeState}

theorem setTasks_self (s : RuntimeState) (set : TaskSet) (f : JoinSet TaskEnd) :
    (s.setTasks set f).tasks set = f := Function.update_self ..

theorem setTasks_of_ne (s : RuntimeState) {set other : TaskSet} (f : JoinSet TaskEnd)
    (h : other ≠ set) : (s.setTasks set f).tasks other = s.tasks other := Function.update_of_ne h ..

theorem At.setTasks (h : At shutdown cancelled shutdowns signals busy s) {f : JoinSet TaskEnd}
    (after : List TaskSet) (hSet : set ∉ after → f.running = [])
    (hBusy : ∀ other ∈ busy, other ≠ set → other ∈ after) :
    At shutdown cancelled shutdowns signals after (s.setTasks set f) where
  shutdown_eq := h.shutdown_eq
  cancelled_eq := h.cancelled_eq
  shutdowns_eq := h.shutdowns_eq
  signals_eq := h.signals_eq
  idle := by
    intro other hOther
    by_cases hSame : other = set
    · rw [hSame, setTasks_self]
      exact hSet (hSame ▸ hOther)
    · rw [setTasks_of_ne s f hSame]
      exact h.idle other fun hMem => hOther (hBusy other hMem hSame)

theorem at_stable : runtimeEnvironment.Stable (At shutdown cancelled shutdowns signals busy) := by
  intro s t hChange h
  cases hChange with
  | @complete set id outcome f hComplete =>
    refine h.setTasks busy (fun hSet => ?_) fun other hMem _ => hMem
    obtain ⟨hId, -, -⟩ := JoinSet.complete_eq_some hComplete
    rw [h.idle set hSet] at hId
    cases hId
  | cancel => exact ⟨h.shutdown_eq, fun _ => rfl, h.shutdowns_eq, h.signals_eq, h.idle⟩

theorem At.cancel (h : At shutdown cancelled shutdowns signals busy s) :
    At shutdown true shutdowns signals busy s.cancel :=
  ⟨h.shutdown_eq, fun _ => rfl, h.shutdowns_eq, h.signals_eq, h.idle⟩

theorem At.weaken (h : At shutdown true shutdowns signals busy s) :
    At shutdown cancelled shutdowns signals busy s :=
  ⟨h.shutdown_eq, fun _ => h.cancelled_eq rfl, h.shutdowns_eq, h.signals_eq, h.idle⟩

theorem At.mono (h : At shutdown cancelled shutdowns signals busy s) {after : List TaskSet}
    (hBusy : busy ⊆ after) : At shutdown cancelled shutdowns signals after s :=
  ⟨h.shutdown_eq, h.cancelled_eq, h.shutdowns_eq, h.signals_eq,
    fun set hSet => h.idle set fun hMem => hSet (hBusy hMem)⟩

/-- The tasks of the runtime are moved to a local variable. -/
theorem At.take (h : At shutdown cancelled shutdowns signals [.shared] s) (hSet : set ≠ .shared) :
    At shutdown cancelled shutdowns signals [set]
      ((s.setTasks set (s.tasks .shared)).setTasks .shared .empty) := by
  refine (h.setTasks [set, .shared] ?_ ?_).setTasks [set] (fun _ => rfl) ?_
  · exact fun hNot => absurd List.mem_cons_self hNot
  · intro other hMem _
    exact List.mem_cons_of_mem _ hMem
  · intro other hMem hOther
    rcases List.mem_cons.mp hMem with rfl | hMem
    · exact List.mem_cons_self
    · exact absurd (List.mem_singleton.mp hMem) hOther

/-- The new tasks become those of the runtime. -/
theorem At.store (h : At shutdown cancelled shutdowns signals [.shared, .starting] s) :
    At shutdown cancelled shutdowns signals [.shared]
      ((s.setTasks .shared (s.tasks .starting)).setTasks .starting .empty) := by
  refine (h.setTasks [.shared, .starting] ?_ ?_).setTasks [.shared] (fun _ => rfl) (by decide)
  · exact fun hNot => absurd List.mem_cons_self hNot
  · exact fun other hMem _ => hMem

/-- All tasks of a set have been joined. -/
theorem At.joinAll (h : At shutdown cancelled shutdowns signals [set] s)
    (hSet : (s.tasks set).running = []) :
    At shutdown cancelled shutdowns signals [] (s.setTasks set (s.tasks set).joinAll) := by
  refine h.setTasks [] (fun _ => hSet) ?_
  intro other hMem hOther
  exact absurd (List.mem_singleton.mp hMem) hOther

theorem At.runningTasks (h : At shutdown cancelled shutdowns signals [] s) : s.runningTasks = 0 := by
  have hIdle : ∀ set, (s.tasks set).running = [] := fun set => h.idle set List.not_mem_nil
  simp [RuntimeState.runningTasks, hIdle]

theorem At.shutdownModule (h : At shutdown cancelled shutdowns signals [] s) :
    At shutdown cancelled (shutdowns ++ [0]) signals []
      { s with shutdowns := s.shutdowns ++ [s.runningTasks] } where
  shutdown_eq := h.shutdown_eq
  cancelled_eq := h.cancelled_eq
  shutdowns_eq := by rw [h.shutdowns_eq, h.runningTasks]
  signals_eq := h.signals_eq
  idle := h.idle

theorem At.signal (h : At shutdown cancelled shutdowns signals busy s) (result : Except String Unit) :
    At shutdown cancelled shutdowns (signals ++ [result]) busy
      { s with signals := s.signals ++ [result] } where
  shutdown_eq := h.shutdown_eq
  cancelled_eq := h.cancelled_eq
  shutdowns_eq := h.shutdowns_eq
  signals_eq := congrArg (· ++ [result]) h.signals_eq
  idle := h.idle

/-- A task of a set that may be busy is joined. -/
theorem At.joined (h : At shutdown cancelled shutdowns signals busy s) (hSet : set ∈ busy)
    (f : JoinSet TaskEnd) : At shutdown cancelled shutdowns signals busy (s.setTasks set f) :=
  h.setTasks busy (fun hNot => absurd hSet hNot) fun _ hMem _ => hMem

/-- `shutdown_module` has been executed once, when no consumer task was left. -/
def ShutDownOnce (t : RuntimeState) : Prop := t.shutdowns = [0] ∧ t.runningTasks = 0

end RuntimeState

open RuntimeState

/-! ## Draining -/

theorem drainTasks_spec {shutdown cancelled : Bool} {shutdowns : List Nat}
    {signals : List (Except String Unit)} {set : TaskSet} {s : RuntimeState}
    (h : At shutdown cancelled shutdowns signals [set] s) :
    (drainTasks set).Wp runtimeEnvironment (fun _ => At shutdown cancelled shutdowns signals []) s := by
  unfold drainTasks
  refine Proc.wp_perform_bind at_stable h ?_
  rintro t u drain hAt ⟨hDrained, -, rfl⟩
  cases hElapsed : drain.elapsed with
  | false => exact Proc.wp_pure at_stable (hAt.joinAll (hDrained hElapsed))
  | true =>
    have hRest : At shutdown cancelled shutdowns signals [set]
        (t.setTasks set (t.tasks set).joinAll) :=
      hAt.joined List.mem_cons_self _
    rw [if_pos rfl]
    refine Proc.wp_perform_bind at_stable hRest ?_
    rintro t _ _ hAt rfl
    refine Proc.wp_perform_bind at_stable hAt ?_
    rintro t _ _ hAt ⟨hRunning, rfl⟩
    exact Proc.wp_pure at_stable (hAt.joinAll hRunning)

/-! ## NATS -/

namespace NatsRuntime

variable {options : NatsTransportOptions} {handlers : List MessageHandlerDef}
  {signals : List (Except String Unit)} {s : RuntimeState}

/-- A runtime between two calls of its methods: it has not been shut down, and only its own
tasks may be running, or it has been shut down once and no task is left. -/
def Idle (signals : List (Except String Unit)) (s : RuntimeState) : Prop :=
  At false false [] signals [.shared] s ∨ At true true [0] signals [] s

theorem idle_stable : runtimeEnvironment.Stable (Idle signals) := fun s t hChange h =>
  h.imp (at_stable s t hChange) (at_stable s t hChange)

/-- A step of the start-up. -/
def Starts (c : RuntimeCall) : Prop := (∃ step, c = .setup step) ∨ c = .spawn .starting

theorem startConsumers_guards : (startConsumers options handlers).run.Guards fun _ => Starts := by
  have hSetup : ∀ step, (setup step).run.Guards fun _ => Starts := fun step =>
    ⟨.inl ⟨step, rfl⟩, fun _ => trivial⟩
  have hWhen : ∀ needed step, (setupWhen needed step).run.Guards fun _ => Starts := by
    intro needed step
    cases needed with
    | true => exact hSetup step
    | false => trivial
  have hSpawn : (Proc.ask (RuntimeCall.spawn .starting) : RuntimeTask Unit).run.Guards fun _ => Starts :=
    ⟨.inr rfl, fun _ => trivial⟩
  have hEvent : ∀ handler, (startEvent handler).run.Guards fun _ => Starts := fun handler =>
    Proc.guards_bind_calls (hSetup _) fun _ => Proc.guards_bind_calls (hSetup _) fun _ =>
      Proc.guards_bind_calls (hSetup _) fun _ => hSpawn
  have hCommand : ∀ handler, (startCommand handler).run.Guards fun _ => Starts := fun handler =>
    Proc.guards_bind_calls (hSetup _) fun _ => hSpawn
  have hEvents : (startEvents options handlers).run.Guards fun _ => Starts := by
    unfold startEvents
    split
    · trivial
    · exact Proc.guards_bind_calls (hWhen _ _) fun _ => Proc.guards_bind_calls (hSetup _) fun _ =>
        Proc.guards_bind_calls (hSetup _) fun _ => Proc.guards_bind_calls (hSetup _) fun _ =>
          Proc.guards_forM hEvent _
  exact Proc.guards_bind_calls (hWhen _ _) fun _ => Proc.guards_bind_calls hEvents fun _ =>
    Proc.guards_bind_calls (Proc.guards_forM hCommand _) fun _ => hSetup _

theorem startConsumers_spec {busy : List TaskSet} (hBusy : .starting ∈ busy)
    (h : At false false [] signals busy s) :
    (startConsumers options handlers).run.Wp runtimeEnvironment
      (fun _ => At false false [] signals busy) s := by
  refine Proc.wp_keeps at_stable (Proc.guards_mono startConsumers_guards ?_) h
  intro _ c hStarts t u r hAt hExecute
  rcases hStarts with ⟨step, rfl⟩ | rfl
  · obtain rfl : u = t := hExecute
    exact hAt
  · obtain rfl : u = t.setTasks .starting (t.tasks .starting).spawn := hExecute
    exact hAt.joined hBusy _

/-- A runtime that has started has not been shut down. -/
def Started (signals : List (Except String Unit)) :
    Except MicroserviceError Unit → RuntimeState → Prop
  | .ok _ => At false false [] signals [.shared]
  | .error _ => Idle signals

theorem started_stable (r : Except MicroserviceError Unit) :
    runtimeEnvironment.Stable (Started signals r) := by
  cases r with
  | ok _ => exact at_stable
  | error _ => exact idle_stable

theorem start_spec (h : Idle signals s) :
    (start options handlers).run.Wp runtimeEnvironment (Started signals) s := by
  unfold start
  refine Proc.wp_ask_bind idle_stable h ?_
  rintro t u cancelled hIdle ⟨rfl, rfl⟩
  cases hCancelled : u.cancelled with
  | true => exact Proc.wp_pure (started_stable _) hIdle
  | false =>
    have hOpen : At false false [] signals [.shared] u := by
      refine hIdle.resolve_right fun hClosed => ?_
      cases hCancelled.symm.trans (hClosed.cancelled_eq rfl)
    rw [if_neg Bool.false_ne_true]
    refine Proc.wp_ask_bind at_stable hOpen ?_
    rintro t u started hOpen ⟨rfl, -⟩
    cases started with
    | true => exact Proc.wp_pure (started_stable _) hOpen
    | false =>
      rw [if_neg Bool.false_ne_true]
      have hStarting : At false false [] signals [.shared, .starting] u := hOpen.mono (by decide)
      refine Proc.wp_lift_bind (startConsumers_spec (by simp) hStarting) ?_
      intro consumers t hStarting
      cases consumers with
      | error e =>
        refine Proc.wp_ask_bind at_stable hStarting ?_
        rintro t _ _ hStarting rfl
        exact Proc.wp_pure (started_stable _)
          (.inl (hStarting.setTasks [.shared] (fun _ => rfl) (by decide)))
      | ok _ =>
        refine Proc.wp_ask_bind at_stable hStarting ?_
        rintro t _ _ hStarting rfl
        refine Proc.wp_ask at_stable started_stable ?_ hStarting.store
        rintro t _ _ hStored rfl
        exact ⟨hStored.shutdown_eq, hStored.cancelled_eq, hStored.shutdowns_eq, hStored.signals_eq,
          hStored.idle⟩

theorem shutdown_spec (h : Idle signals s) :
    shutdown.run.Wp runtimeEnvironment (fun _ => At true true [0] signals []) s := by
  unfold shutdown
  refine Proc.wp_ask_bind idle_stable h ?_
  rintro t _ _ hIdle ⟨rfl, rfl⟩
  rcases hIdle with hOpen | hClosed
  · rw [hOpen.shutdown_eq, if_neg Bool.false_ne_true]
    have hClosing : At true false [] signals [.shared] { t with shutdown := true } :=
      ⟨rfl, nofun, hOpen.shutdowns_eq, hOpen.signals_eq, hOpen.idle⟩
    refine Proc.wp_ask_bind at_stable hClosing ?_
    rintro t _ _ hClosing rfl
    refine Proc.wp_ask_bind at_stable hClosing.cancel ?_
    rintro t _ _ hClosing rfl
    refine Proc.wp_lift_bind (drainTasks_spec (hClosing.take nofun)) ?_
    intro drain t hDrained
    refine Proc.wp_ask_bind at_stable hDrained ?_
    rintro t _ module hDrained rfl
    refine Proc.wp_ask_bind at_stable hDrained.shutdownModule ?_
    rintro t _ client hClosed rfl
    unfold orElse
    split
    · exact Proc.wp_pure at_stable hClosed
    · exact Proc.wp_pure at_stable hClosed
  · rw [hClosed.shutdown_eq, if_pos rfl]
    exact Proc.wp_pure at_stable ⟨rfl, hClosed.cancelled_eq, hClosed.shutdowns_eq, hClosed.signals_eq,
      hClosed.idle⟩

/-- How a runtime ends: it has been shut down, or left at an error of the ctrl-c listener. -/
inductive Ended (t : RuntimeState) : Prop
  | shutDown {signals : List (Except String Unit)} (h : At true true [0] signals [] t)
      (hSignals : ∀ e, .error e ∉ signals)
  | left {signals : List (Except String Unit)} {e : String} (h : At false false [] signals [] t)
      (hSignal : .error e ∈ signals)

theorem ended_stable : runtimeEnvironment.Stable Ended := by
  intro s t hChange h
  cases h with
  | shutDown h hSignals => exact .shutDown (at_stable s t hChange h) hSignals
  | left h hSignal => exact .left (at_stable s t hChange h) hSignal

theorem Ended.shutDownOnce_iff {t : RuntimeState} (h : Ended t) :
    ShutDownOnce t ↔ ∀ e, .error e ∉ t.signals := by
  cases h with
  | shutDown h hSignals => exact iff_of_true ⟨h.shutdowns_eq, h.runningTasks⟩ (h.signals_eq ▸ hSignals)
  | left h hSignal =>
    refine iff_of_false (fun hOnce => ?_) fun hNone => hNone _ (h.signals_eq ▸ hSignal)
    cases h.shutdowns_eq.symm.trans hOnce.1

theorem shutdown_ended (hSignals : ∀ e, .error e ∉ signals) (h : Idle signals s) :
    shutdown.run.Wp runtimeEnvironment (fun _ => Ended) s :=
  Proc.wp_mono (shutdown_spec h) fun _ _ hClosed => .shutDown hClosed hSignals

theorem drain_spec (event : Option RuntimeEvent) (hSignals : ∀ e, .error e ∉ signals)
    (h : At false false [] signals [.running] s) :
    (do
      let drain ← ExceptT.lift (drainTasks .running)
      match drainError (eventError event) drain with
      | some error => do
        let _ ← resultOf shutdown
        throw error
      | none => shutdown : RuntimeTask Unit).run.Wp runtimeEnvironment (fun _ => Ended) s := by
  refine Proc.wp_lift_bind (drainTasks_spec h) ?_
  intro drain t hDrained
  have hIdle : Idle signals t := .inl (hDrained.mono (List.nil_subset _))
  split
  · refine Proc.wp_lift_bind (shutdown_ended hSignals hIdle) ?_
    intro _ t hEnded
    exact Proc.wp_pure ended_stable hEnded
  · exact shutdown_ended hSignals hIdle

theorem finish_spec (event : Option RuntimeEvent) (hSignals : ∀ e, .error e ∉ signals)
    (h : At false false [] signals [.running] s) :
    (finish event).run.Wp runtimeEnvironment (fun _ => Ended) s := by
  unfold finish cancelWhen
  cases cancels event with
  | false => exact drain_spec event hSignals h
  | true =>
    refine Proc.wp_ask_bind at_stable h ?_
    rintro t _ _ hOpen rfl
    exact drain_spec event hSignals hOpen.cancel.weaken

theorem run_spec (h : Idle [] s) :
    (run options handlers).run.Wp runtimeEnvironment (fun _ => Ended) s := by
  unfold run
  refine Proc.wp_lift_bind (start_spec h) ?_
  intro started t hStarted
  cases started with
  | error e =>
    refine Proc.wp_lift_bind (shutdown_ended (fun _ => List.not_mem_nil) hStarted) ?_
    intro _ t hEnded
    exact Proc.wp_pure ended_stable hEnded
  | ok _ =>
    refine Proc.wp_ask_bind at_stable hStarted ?_
    rintro t _ _ hOpen rfl
    refine Proc.wp_ask_bind at_stable (hOpen.take nofun) ?_
    rintro t u event hOpen (⟨rfl, -, rfl⟩ | ⟨rfl, -, rfl⟩ | ⟨event, rfl, hEvent⟩)
    · exact finish_spec none (fun _ => List.not_mem_nil) hOpen
    · exact finish_spec (some (.joined none)) (fun _ => List.not_mem_nil) hOpen
    · cases hEvent with
      | joined h =>
        exact finish_spec _ (fun _ => List.not_mem_nil) (hOpen.joined List.mem_cons_self _)
      | signal result =>
        cases result with
        | ok _ => exact finish_spec _ (fun e => by simp) (hOpen.signal _)
        | error e =>
          refine Proc.wp_ask_bind at_stable (hOpen.signal (.error e)) ?_
          rintro t _ _ hOpen rfl
          refine Proc.wp_pure ended_stable (.left (e := e) (hOpen.setTasks [] (fun _ => rfl) (by decide)) ?_)
          exact List.mem_cons_self

theorem method_spec (method : Method) (h : Idle signals s) :
    (method.call options handlers).Wp runtimeEnvironment (fun _ => Idle signals) s := by
  cases method with
  | start =>
    refine Proc.wp_bind (start_spec h) ?_
    intro r t hStarted
    refine Proc.wp_pure idle_stable ?_
    cases r with
    | ok _ => exact .inl hStarted
    | error _ => exact hStarted
  | cancel =>
    refine Proc.wp_perform_bind (f := pure) idle_stable h ?_
    rintro t _ _ hIdle rfl
    exact Proc.wp_pure idle_stable (hIdle.imp (fun h => h.cancel.weaken) fun h => h.cancel)
  | shutdown =>
    refine Proc.wp_bind (shutdown_spec h) ?_
    intro r t hClosed
    exact Proc.wp_pure idle_stable (.inr hClosed)

theorem lifetime_spec (earlier : List Method) (h : Idle [] s) :
    (lifetime options handlers earlier).run.Wp runtimeEnvironment (fun _ => Ended) s :=
  Proc.wp_lift_bind (Proc.wp_forM idle_stable (fun method _ => method_spec method) earlier h)
    fun _ _ hIdle => run_spec hIdle

end NatsRuntime

/-! ## Redis -/

namespace RedisRuntime

variable {handlers : List MessageHandlerDef} {s : RuntimeState}

/-- A runtime whose `run` has not shut down its module: only its consumers may be running. -/
def Consuming (s : RuntimeState) : Prop :=
  ∃ signals, At false false [] signals [.running] s

theorem consuming_stable : runtimeEnvironment.Stable Consuming := by
  rintro s t hChange ⟨signals, h⟩
  exact ⟨signals, at_stable s t hChange h⟩

/-- The calls of the block that spawns the consumers and waits. -/
def Consumes (c : RuntimeCall) : Prop :=
  (∃ step, c = .setup step) ∨ c = .spawn .running ∨ c = .selectTask .running

theorem consume_guards : (consume handlers).run.Guards fun _ => Consumes := by
  have hSetup : ∀ step, (setup step).run.Guards fun _ => Consumes := fun step =>
    ⟨.inl ⟨step, rfl⟩, fun _ => trivial⟩
  have hSpawn : (Proc.ask (RuntimeCall.spawn .running) : RuntimeTask Unit).run.Guards fun _ => Consumes :=
    ⟨.inr (.inl rfl), fun _ => trivial⟩
  have hCommand : ∀ handler, (startCommand handler).run.Guards fun _ => Consumes := fun handler =>
    Proc.guards_bind_calls (hSetup _) fun _ => hSpawn
  have hEvents : (startEvents handlers).run.Guards fun _ => Consumes := by
    unfold startEvents
    split
    · exact Proc.guards_bind_calls (hSetup _) fun _ => hSpawn
    · trivial
  have hWait : (Proc.ask (RuntimeCall.selectTask .running) : RuntimeTask RuntimeEvent).run.Guards
      fun _ => Consumes := ⟨.inr (.inr rfl), fun _ => trivial⟩
  refine Proc.guards_bind_calls (hSetup _) fun _ =>
    Proc.guards_bind_calls (Proc.guards_forM hCommand _) fun _ =>
      Proc.guards_bind_calls hEvents fun _ => Proc.guards_bind_calls hWait fun event => ?_
  cases eventResult event <;> trivial

theorem consume_spec (h : Consuming s) :
    (consume handlers).run.Wp runtimeEnvironment (fun _ => Consuming) s := by
  refine Proc.wp_keeps consuming_stable (Proc.guards_mono consume_guards ?_) h
  rintro _ c hConsumes t u r ⟨signals, hAt⟩ hExecute
  rcases hConsumes with ⟨step, rfl⟩ | rfl | rfl
  · obtain rfl : u = t := hExecute
    exact ⟨signals, hAt⟩
  · obtain rfl : u = t.setTasks .running (t.tasks .running).spawn := hExecute
    exact ⟨signals, hAt.joined List.mem_cons_self _⟩
  · cases hExecute with
    | signal result => exact ⟨_, hAt.signal result⟩
    | joined h => exact ⟨signals, hAt.joined List.mem_cons_self _⟩

/-- A runtime whose module has been shut down. -/
def Closed (s : RuntimeState) : Prop := ∃ signals, At false true [0] signals [] s

theorem closed_stable : runtimeEnvironment.Stable Closed := by
  rintro s t hChange ⟨signals, h⟩
  exact ⟨signals, at_stable s t hChange h⟩

theorem run_spec (h : Consuming s) :
    (run handlers).run.Wp runtimeEnvironment (fun _ => Closed) s := by
  unfold run
  refine Proc.wp_lift_bind (consume_spec h) ?_
  intro runtimeResult t hConsuming
  refine Proc.wp_ask_bind consuming_stable hConsuming ?_
  rintro t _ _ ⟨signals, hAt⟩ rfl
  have hDrained : shutdownRedisTasks.Wp runtimeEnvironment
      (fun _ => At false true [] signals []) t.cancel := by
    refine Proc.wp_bind (drainTasks_spec hAt.cancel) ?_
    intro drain t hDrained
    exact Proc.wp_pure at_stable hDrained
  refine Proc.wp_lift_bind hDrained ?_
  intro taskShutdown t hDrained
  refine Proc.wp_ask_bind at_stable hDrained ?_
  rintro t _ moduleShutdown hDrained rfl
  have hClosed : Closed { t with shutdowns := t.shutdowns ++ [t.runningTasks] } :=
    ⟨signals, hDrained.shutdownModule⟩
  generalize (do runtimeResult; taskShutdown; moduleShutdown.mapError _ : Except MicroserviceError Unit) = r
  cases r with
  | ok _ => exact Proc.wp_pure closed_stable hClosed
  | error _ => exact Proc.wp_pure closed_stable hClosed

end RedisRuntime

/-- In every execution of a service, whatever methods were called before `run`: on NATS its
module has been shut down once, with no consumer task left, exactly when the ctrl-c listener
has not returned an error; on Redis it always has. -/
theorem shut_down_once_iff (options : NatsTransportOptions) (handlers : List MessageHandlerDef)
    (earlier : List NatsRuntime.Method) :
    (∀ r t, (NatsRuntime.lifetime options handlers earlier).run.Exec runtimeEnvironment .initial r t →
      (ShutDownOnce t ↔ ∀ e, .error e ∉ t.signals)) ∧
    ∀ r t, (RedisRuntime.run handlers).run.Exec runtimeEnvironment .initial r t →
      ShutDownOnce t := by
  have hInitial : ∀ busy, At false false [] [] busy .initial := fun _ =>
    ⟨rfl, nofun, rfl, rfl, fun _ _ => rfl⟩
  constructor
  · intro r t h
    exact (h.wp (NatsRuntime.lifetime_spec earlier (.inl (hInitial _)))).shutDownOnce_iff
  · intro r t h
    obtain ⟨signals, hAt⟩ := h.wp (RedisRuntime.run_spec ⟨[], hInitial _⟩)
    exact ⟨hAt.shutdowns_eq, hAt.runningTasks⟩

/-! ## Ctrl-c -/

def serviceOptions : NatsTransportOptions where
  maxRequestBytes := 1024
  maxResponseBytes := 1024
  maxEventBytes := 1024
  maxEventDeliveries := 5
  deadLetterSubject := none
  eventRetryDelay := 0
  response_le := minimumResponseEnvelopeBytes_le
  deliveries_pos := natsDeliveries_pos

/-- A task of a set completes. -/
theorem completes {s : RuntimeState} (set : TaskSet) (id : Nat) (outcome : TaskEnd)
    {f : JoinSet TaskEnd} (h : (s.tasks set).complete id outcome = some f) :
    runtimeEnvironment.change s (s.setTasks set f) := RuntimeState.Change.complete h

/-- The ctrl-c listener returns. -/
theorem listens (s : RuntimeState) (set : TaskSet) (result : Except String Unit) :
    runtimeEnvironment.execute s (.selectTask set) { s with signals := s.signals ++ [result] }
      (RuntimeEvent.signal result) := RuntimeState.Event.signal result

/-- On NATS the listener returns the signal, and the runtime drains its consumer. -/
theorem exists_nats_signal : ∃ r t,
    (NatsRuntime.lifetime serviceOptions [⟨.command, "ping"⟩] []).run.Exec runtimeEnvironment .initial
      r t ∧ t.signals = [.ok ()] := by
  refine Proc.exists_call (r := false) ⟨rfl, rfl⟩ ?_
  refine Proc.exists_call (r := false) ⟨rfl, rfl⟩ ?_
  -- `queue_group`, the subscription with its consumer, and `flush`
  refine Proc.exists_call (r := (.ok () : Except MicroserviceError Unit)) rfl ?_
  refine Proc.exists_call (r := (.ok () : Except MicroserviceError Unit)) rfl ?_
  refine Proc.exists_call (r := ()) rfl ?_
  refine Proc.exists_call (r := (.ok () : Except MicroserviceError Unit)) rfl ?_
  refine Proc.exists_call (r := ()) rfl ?_
  refine Proc.exists_call (r := ()) rfl ?_
  refine Proc.exists_call (r := ()) rfl ?_
  refine Proc.exists_call (r := some (.signal (.ok ()))) (.inr (.inr ⟨_, rfl, .signal _⟩)) ?_
  refine Proc.exists_call (r := ()) rfl ?_
  refine Proc.exists_change (completes .running 0 (.ok (.ok ())) rfl) ?_
  refine Proc.exists_call (r := (⟨[.ok (.ok ())], false⟩ : Drain)) ⟨fun _ => rfl, rfl, rfl⟩ ?_
  -- `shutdown`
  refine Proc.exists_call (r := false) ⟨rfl, rfl⟩ ?_
  refine Proc.exists_call (r := ()) rfl ?_
  refine Proc.exists_call (r := ()) rfl ?_
  refine Proc.exists_call (r := (⟨[], false⟩ : Drain)) ⟨fun _ => rfl, rfl, rfl⟩ ?_
  refine Proc.exists_call (r := (.ok () : Except HttpException Unit)) rfl ?_
  refine Proc.exists_call (r := (.ok () : Except String Unit)) rfl ?_
  exact Proc.exists_done rfl

theorem exists_redis_signal : ∃ r t,
    (RedisRuntime.run [⟨.command, "ping"⟩]).run.Exec runtimeEnvironment .initial r t ∧
      t.signals = [.ok ()] := by
  -- the options, and the group of the command with its consumer
  refine Proc.exists_call (r := (.ok () : Except MicroserviceError Unit)) rfl ?_
  refine Proc.exists_call (r := (.ok () : Except MicroserviceError Unit)) rfl ?_
  refine Proc.exists_call (r := ()) rfl ?_
  refine Proc.exists_call (listens _ .running (.ok ())) ?_
  refine Proc.exists_call (r := ()) rfl ?_
  refine Proc.exists_change (completes .running 0 (.ok (.ok ())) rfl) ?_
  refine Proc.exists_call (r := (⟨[.ok (.ok ())], false⟩ : Drain)) ⟨fun _ => rfl, rfl, rfl⟩ ?_
  refine Proc.exists_call (r := (.ok () : Except HttpException Unit)) rfl ?_
  exact Proc.exists_done rfl

/-- Both runtimes shut down after the signal, when their consumer has completed. -/
theorem shut_down_once_iff_signal :
    (∃ r t, (NatsRuntime.lifetime serviceOptions [⟨.command, "ping"⟩] []).run.Exec runtimeEnvironment
      .initial r t ∧ ShutDownOnce t) ∧
    ∃ r t, (RedisRuntime.run [⟨.command, "ping"⟩]).run.Exec runtimeEnvironment .initial r t ∧
      ShutDownOnce t := by
  obtain ⟨r, t, hNats, hSignals⟩ := exists_nats_signal
  obtain ⟨r', t', hRedis, -⟩ := exists_redis_signal
  obtain ⟨hOnNats, hOnRedis⟩ := shut_down_once_iff serviceOptions [⟨.command, "ping"⟩] []
  refine ⟨⟨r, t, hNats, ?_⟩, r', t', hRedis, hOnRedis r' t' hRedis⟩
  refine (hOnNats r t hNats).mpr fun e => ?_
  rw [hSignals]
  simp

/-- A service with one consumer whose ctrl-c listener fails: its module is not shut down. -/
theorem shut_down_never : ∃ r t,
    (NatsRuntime.lifetime serviceOptions [⟨.command, "ping"⟩] []).run.Exec runtimeEnvironment .initial
      r t ∧ ¬ ShutDownOnce t := by
  refine Proc.exists_call (r := false) ⟨rfl, rfl⟩ ?_
  refine Proc.exists_call (r := false) ⟨rfl, rfl⟩ ?_
  -- `queue_group`, the subscription with its consumer, and `flush`
  refine Proc.exists_call (r := (.ok () : Except MicroserviceError Unit)) rfl ?_
  refine Proc.exists_call (r := (.ok () : Except MicroserviceError Unit)) rfl ?_
  refine Proc.exists_call (r := ()) rfl ?_
  refine Proc.exists_call (r := (.ok () : Except MicroserviceError Unit)) rfl ?_
  refine Proc.exists_call (r := ()) rfl ?_
  refine Proc.exists_call (r := ()) rfl ?_
  refine Proc.exists_call (r := ()) rfl ?_
  refine Proc.exists_call (r := some (.signal (.error "no signal driver")))
    (.inr (.inr ⟨_, rfl, .signal _⟩)) ?_
  refine Proc.exists_call (r := ()) rfl ?_
  refine Proc.exists_done fun hOnce => ?_
  cases hOnce.1

end Caelix
