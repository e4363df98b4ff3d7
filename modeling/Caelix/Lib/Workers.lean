import Mathlib.Data.List.Infix
import Mathlib.Logic.Function.Basic
import Mathlib.Logic.Relation
import Caelix.Lib.Interaction

/-!
# Workers on a shared server

Any number of workers, each of which runs a process for its job, on a server that executes
their calls. A job that the server has assigned is on its way, for any time, before a worker
starts with it. A call may be executed with its reply lost, fail without being executed, or
be executed after it has failed; a worker may stop at any time, with its call on the wire.

* `reachable_guarded`: the guards of the processes hold of every executed call.
* `reachable_executed`: a reply that is not a failure comes from an executed call.
* `reachable_server`: invariants of the server, which may mention the executed calls.
* `reachable_jobs`: what holds of a job when it is assigned holds of it on its way, and of
  its worker.
* `exists_served`: a worker whose calls are executed one after another.
-/

namespace Workers

open Interaction

variable {σ Job Call : Type} {Reply : Call → Type} {α : Type}

/-- The server: its own changes, the assignment of a job, and the execution of a call. -/
structure Server (σ Job Call : Type) (Reply : Call → Type) where
  change : σ → σ → Prop
  assign : σ → Job → σ → Prop
  execute : σ → Job → (c : Call) → σ → Reply c → Prop
  /-- The reply to a call tells the worker that it failed. -/
  failure : (c : Call) → Reply c → Prop

/-- A worker, with the calls it has made and the process that is left. -/
structure Worker (program : Job → Proc Call Reply α) where
  job : Job
  history : History Reply
  rest : Proc Call Reply α
  running : Bool
  run : Proc.Run (program job) history rest

variable {program : Job → Proc Call Reply α}

def Worker.start (program : Job → Proc Call Reply α) (job : Job) : Worker program where
  job := job
  history := []
  rest := program job
  running := true
  run := .nil _

/-- The worker goes on with the reply to its call. -/
def Worker.resume (w : Worker program) {c : Call} {next : Reply c → Proc Call Reply α}
    (h : w.rest = .call c next) (r : Reply c) : Worker program where
  job := w.job
  history := w.history ++ [⟨c, r⟩]
  rest := next r
  running := w.running
  run := (h ▸ w.run).snoc r

def Worker.stop (w : Worker program) : Worker program := { w with running := false }

/-- All workers that ever started, the jobs that are on their way to one, the calls on the
wire and those executed so far. -/
structure State (σ : Type) (program : Job → Proc Call Reply α) where
  server : σ
  assigned : List Job
  worker : Nat → Option (Worker program)
  wire : List (Nat × Call)
  executed : List (Nat × Call)

def State.initial (program : Job → Proc Call Reply α) (server : σ) : State σ program :=
  ⟨server, [], fun _ => none, [], []⟩

def State.setWorker (s : State σ program) (n : Nat) (w : Worker program) : State σ program :=
  { s with worker := Function.update s.worker n (some w) }

inductive Step (server : Server σ Job Call Reply) : State σ program → State σ program → Prop
  | change {s : State σ program} {after : σ} (h : server.change s.server after) :
      Step server s { s with server := after }
  | assign {s : State σ program} {after : σ} {job : Job} (h : server.assign s.server job after) :
      Step server s { s with server := after, assigned := s.assigned ++ [job] }
  /-- A job arrives, which it need not. -/
  | start {s : State σ program} {job : Job} {n : Nat} {before later : List Job}
      (hAssigned : s.assigned = before ++ job :: later) (hFree : s.worker n = none) :
      Step server s { s.setWorker n (.start program job) with assigned := before ++ later }
  | call {s : State σ program} {after : σ} {n : Nat} {w : Worker program} {c : Call}
      {next : Reply c → Proc Call Reply α} {r : Reply c} (hWorker : s.worker n = some w)
      (hRunning : w.running = true) (hRest : w.rest = .call c next)
      (h : server.execute s.server w.job c after r) :
      Step server s { s.setWorker n (w.resume hRest r) with
        server := after, executed := s.executed ++ [(n, c)] }
  /-- The call is executed and its reply is lost. -/
  | replyLost {s : State σ program} {after : σ} {n : Nat} {w : Worker program} {c : Call}
      {next : Reply c → Proc Call Reply α} {r r' : Reply c} (hWorker : s.worker n = some w)
      (hRunning : w.running = true) (hRest : w.rest = .call c next)
      (h : server.execute s.server w.job c after r) (hFailure : server.failure c r') :
      Step server s { s.setWorker n (w.resume hRest r') with
        server := after, executed := s.executed ++ [(n, c)] }
  /-- The call fails; it stays on the wire. -/
  | fail {s : State σ program} {n : Nat} {w : Worker program} {c : Call}
      {next : Reply c → Proc Call Reply α} {r : Reply c} (hWorker : s.worker n = some w)
      (hRunning : w.running = true) (hRest : w.rest = .call c next)
      (hFailure : server.failure c r) :
      Step server s { s.setWorker n (w.resume hRest r) with wire := s.wire ++ [(n, c)] }
  /-- A call on the wire is executed. -/
  | late {s : State σ program} {after : σ} {n : Nat} {w : Worker program} {c : Call} {r : Reply c}
      {before later : List (Nat × Call)} (hWire : s.wire = before ++ (n, c) :: later)
      (hWorker : s.worker n = some w) (h : server.execute s.server w.job c after r) :
      Step server s { s with
        server := after, wire := before ++ later, executed := s.executed ++ [(n, c)] }
  | stop {s : State σ program} {n : Nat} {w : Worker program} {c : Call}
      {next : Reply c → Proc Call Reply α} (hWorker : s.worker n = some w)
      (hRunning : w.running = true) (hRest : w.rest = .call c next) :
      Step server s { s.setWorker n w.stop with wire := s.wire ++ [(n, c)] }

def Reachable (server : Server σ Job Call Reply) (program : Job → Proc Call Reply α) (start : σ) :
    State σ program → Prop :=
  Relation.ReflTransGen (Step server) (.initial program start)

variable {server : Server σ Job Call Reply} {start : σ} {s t : State σ program}

/-! ## Workers along a step -/

@[simp] theorem setWorker_self (s : State σ program) (n : Nat) (w : Worker program) :
    (s.setWorker n w).worker n = some w := Function.update_self ..

theorem setWorker_of_ne (s : State σ program) {n m : Nat} (w : Worker program) (h : m ≠ n) :
    (s.setWorker n w).worker m = s.worker m := Function.update_of_ne h ..

/-- A worker keeps its job and its history. -/
def Extends (w w' : Worker program) : Prop := w'.job = w.job ∧ w.history <+: w'.history

theorem Extends.refl (w : Worker program) : Extends w w := ⟨rfl, List.prefix_rfl⟩

theorem extends_resume (w : Worker program) {c : Call} {next : Reply c → Proc Call Reply α}
    (h : w.rest = .call c next) (r : Reply c) : Extends w (w.resume h r) :=
  ⟨rfl, List.prefix_append ..⟩

theorem extends_stop (w : Worker program) : Extends w w.stop := ⟨rfl, List.prefix_rfl⟩

theorem extends_setWorker {n : Nat} {w w' : Worker program} (hWorker : s.worker n = some w)
    (h : Extends w w') {m : Nat} {v : Worker program} (hm : s.worker m = some v) :
    ∃ v', (s.setWorker n w').worker m = some v' ∧ Extends v v' := by
  by_cases hmn : m = n
  · subst hmn
    obtain rfl := Option.some.inj (hWorker.symm.trans hm)
    exact ⟨w', setWorker_self .., h⟩
  · exact ⟨v, (setWorker_of_ne s w' hmn).trans hm, .refl v⟩

theorem step_extends (h : Step server s t) {m : Nat} {v : Worker program}
    (hm : s.worker m = some v) : ∃ v', t.worker m = some v' ∧ Extends v v' := by
  cases h with
  | change _ | assign _ => exact ⟨v, hm, .refl v⟩
  | start _ hFree =>
    refine ⟨v, (setWorker_of_ne s _ ?_).trans hm, .refl v⟩
    rintro rfl
    cases hFree.symm.trans hm
  | call hWorker _ hRest _ => exact extends_setWorker hWorker (extends_resume _ hRest _) hm
  | replyLost hWorker _ hRest _ _ => exact extends_setWorker hWorker (extends_resume _ hRest _) hm
  | fail hWorker _ hRest _ => exact extends_setWorker hWorker (extends_resume _ hRest _) hm
  | late _ _ _ => exact ⟨v, hm, .refl v⟩
  | stop hWorker _ _ => exact extends_setWorker hWorker (extends_stop _) hm

/-- A worker whose call is executed goes on. -/
theorem exists_call (h : Reachable server program start s) {n : Nat} {w : Worker program} {c : Call}
    {next : Reply c → Proc Call Reply α} {after : σ} {r : Reply c} (hWorker : s.worker n = some w)
    (hRunning : w.running = true) (hRest : w.rest = .call c next)
    (hExecute : server.execute s.server w.job c after r) :
    ∃ t w', Reachable server program start t ∧ t.server = after ∧ t.worker n = some w' ∧
      w'.job = w.job ∧ w'.running = true ∧ w'.rest = next r :=
  ⟨_, w.resume hRest r, h.tail (.call hWorker hRunning hRest hExecute), rfl, setWorker_self .., rfl,
    hRunning, rfl⟩

/-! ## Guards -/

theorem step_calls (h : Step server s t) {m : Nat} {d : Call}
    (hm : (m, d) ∈ t.wire ∨ (m, d) ∈ t.executed) :
    ((m, d) ∈ s.wire ∨ (m, d) ∈ s.executed) ∨
      ∃ w next, s.worker m = some w ∧ w.rest = .call d next := by
  cases h with
  | change _ | assign _ => exact .inl hm
  | start _ _ => exact .inl hm
  | call hWorker _ hRest _ | replyLost hWorker _ hRest _ _ =>
    rcases hm with hm | hm
    · exact .inl (.inl hm)
    · rcases List.mem_append.mp hm with hm | hm
      · exact .inl (.inr hm)
      · cases List.mem_singleton.mp hm
        exact .inr ⟨_, _, hWorker, hRest⟩
  | fail hWorker _ hRest _ | stop hWorker _ hRest =>
    rcases hm with hm | hm
    · rcases List.mem_append.mp hm with hm | hm
      · exact .inl (.inl hm)
      · cases List.mem_singleton.mp hm
        exact .inr ⟨_, _, hWorker, hRest⟩
    · exact .inl (.inr hm)
  | late hWire _ _ =>
    left
    rcases hm with hm | hm
    · refine .inl ?_
      rw [hWire]
      rcases List.mem_append.mp hm with hm | hm
      · exact List.mem_append_left _ hm
      · exact List.mem_append_right _ (List.mem_cons_of_mem _ hm)
    · rcases List.mem_append.mp hm with hm | hm
      · exact .inr hm
      · rw [List.mem_singleton.mp hm, hWire]
        exact .inl (by simp)

/-- Every call on the wire or executed was made where the guard of its process held. -/
def Guarded (P : Job → History Reply → Call → Prop) (s : State σ program) : Prop :=
  ∀ n c, (n, c) ∈ s.wire ∨ (n, c) ∈ s.executed →
    ∃ w before, s.worker n = some w ∧ before <+: w.history ∧ P w.job before c

theorem step_guarded {P : Job → History Reply → Call → Prop}
    (hGuards : ∀ job, (program job).Guards (P job)) (h : Step server s t) (hs : Guarded P s) :
    Guarded P t := by
  intro n c hc
  rcases step_calls h hc with hOld | ⟨w, next, hWorker, hRest⟩
  · obtain ⟨w, before, hWorker, hBefore, hP⟩ := hs n c hOld
    obtain ⟨w', hWorker', hJob, hHistory⟩ := step_extends h hWorker
    exact ⟨w', before, hWorker', hBefore.trans hHistory, hJob ▸ hP⟩
  · obtain ⟨w', hWorker', hJob, hHistory⟩ := step_extends h hWorker
    have hRun := w.run
    rw [hRest] at hRun
    exact ⟨w', w.history, hWorker', hHistory, hJob ▸ hRun.guards (hGuards w.job)⟩

theorem reachable_guarded {P : Job → History Reply → Call → Prop}
    (hGuards : ∀ job, (program job).Guards (P job)) (h : Reachable server program start s) :
    Guarded P s := by
  induction h with
  | refl =>
    rintro n c (hc | hc)
    · cases hc
    · cases hc
  | tail _ hStep ih => exact step_guarded hGuards hStep ih

/-! ## The server -/

/-- A reply that is not a failure comes from an executed call. -/
def Answered (server : Server σ Job Call Reply) (s : State σ program) : Prop :=
  ∀ n w, s.worker n = some w → ∀ e ∈ w.history, server.failure e.1 e.2 ∨ (n, e.1) ∈ s.executed

theorem answered_resume (hs : Answered server s) {n : Nat} {w : Worker program}
    (hWorker : s.worker n = some w) {c : Call} {next : Reply c → Proc Call Reply α}
    (hRest : w.rest = .call c next) {r : Reply c} (later : List (Nat × Call))
    (h : server.failure c r ∨ (n, c) ∈ s.executed ++ later) {m : Nat} {v : Worker program}
    (hm : (s.setWorker n (w.resume hRest r)).worker m = some v) :
    ∀ e ∈ v.history, server.failure e.1 e.2 ∨ (m, e.1) ∈ s.executed ++ later := by
  intro e he
  by_cases hmn : m = n
  · subst hmn
    rw [setWorker_self] at hm
    obtain rfl := Option.some.inj hm
    rcases List.mem_append.mp he with he | he
    · exact (hs m w hWorker e he).imp id (List.mem_append_left _)
    · rw [List.mem_singleton.mp he]
      exact h
  · rw [setWorker_of_ne s _ hmn] at hm
    exact (hs m v hm e he).imp id (List.mem_append_left _)

theorem step_answered (h : Step server s t) (hs : Answered server s) : Answered server t := by
  intro m v hm e he
  cases h with
  | change _ | assign _ => exact hs m v hm e he
  | @start job n _ _ _ hFree =>
    by_cases hmn : m = n
    · subst hmn
      rw [show _ = some (Worker.start program job) from setWorker_self ..] at hm
      obtain rfl := Option.some.inj hm
      cases he
    · exact hs m v ((setWorker_of_ne s _ hmn).symm.trans hm) e he
  | call hWorker _ hRest _ => exact answered_resume hs hWorker hRest _ (.inr (by simp)) hm e he
  | replyLost hWorker _ hRest _ _ => exact answered_resume hs hWorker hRest _ (.inr (by simp)) hm e he
  | fail hWorker _ hRest hFailure =>
    have hNew := answered_resume hs hWorker hRest [] (.inl hFailure) hm e he
    rwa [List.append_nil] at hNew
  | late _ _ _ => exact (hs m v hm e he).imp id (List.mem_append_left _)
  | @stop n w _ _ hWorker _ _ =>
    by_cases hmn : m = n
    · subst hmn
      rw [show _ = some w.stop from setWorker_self ..] at hm
      obtain rfl := Option.some.inj hm
      exact hs m w hWorker e he
    · exact hs m v ((setWorker_of_ne s _ hmn).symm.trans hm) e he

theorem reachable_answered (h : Reachable server program start s) : Answered server s := by
  induction h with
  | refl => exact fun _ _ h => nomatch h
  | tail _ hStep ih => exact step_answered hStep ih

/-- An invariant of the server, which may mention the calls executed so far. -/
structure Invariant (server : Server σ Job Call Reply) (I : σ → List Call → Prop) : Prop where
  change : ∀ {x x' calls}, server.change x x' → I x calls → I x' calls
  assign : ∀ {x x' job calls}, server.assign x job x' → I x calls → I x' calls
  execute : ∀ {x x' job c r calls}, server.execute x job c x' r → I x calls → I x' (calls ++ [c])

theorem step_server {I : σ → List Call → Prop} (hI : Invariant server I) (h : Step server s t)
    (hs : I s.server (s.executed.map Prod.snd)) : I t.server (t.executed.map Prod.snd) := by
  cases h with
  | change h => exact hI.change h hs
  | assign h => exact hI.assign h hs
  | call _ _ _ h | replyLost _ _ _ h _ | late _ _ h =>
    rw [List.map_append]
    exact hI.execute h hs
  | start _ _ => exact hs
  | fail _ _ _ _ | stop _ _ _ => exact hs

theorem reachable_server {I : σ → List Call → Prop} (hI : Invariant server I) (hStart : I start [])
    (h : Reachable server program start s) : I s.server (s.executed.map Prod.snd) := by
  induction h with
  | refl => exact hStart
  | tail _ hStep ih => exact step_server hI hStep ih

/-- A fact about the server that stays true. -/
structure Stable (server : Server σ Job Call Reply) (D : σ → Prop) : Prop where
  change : ∀ {x x'}, server.change x x' → D x → D x'
  assign : ∀ {x x' job}, server.assign x job x' → D x → D x'
  execute : ∀ {x x' job c r}, server.execute x job c x' r → D x → D x'

theorem step_stable {D : σ → Prop} (hD : Stable server D) (h : Step server s t) (hs : D s.server) :
    D t.server := by
  cases h with
  | change h => exact hD.change h hs
  | assign h => exact hD.assign h hs
  | call _ _ _ h | replyLost _ _ _ h _ | late _ _ h => exact hD.execute h hs
  | start _ _ => exact hs
  | fail _ _ _ _ | stop _ _ _ => exact hs

/-! ## Jobs -/

/-- The workers are the old ones, each with its job. -/
def Kept (s t : State σ program) : Prop :=
  ∀ m v, t.worker m = some v → ∃ w, s.worker m = some w ∧ w.job = v.job

theorem kept_setWorker {n : Nat} {w w' : Worker program} (hWorker : s.worker n = some w)
    (hJob : w'.job = w.job) {m : Nat} {v : Worker program} (hm : (s.setWorker n w').worker m = some v) :
    ∃ w, s.worker m = some w ∧ w.job = v.job := by
  by_cases hmn : m = n
  · subst hmn
    rw [setWorker_self] at hm
    obtain rfl := Option.some.inj hm
    exact ⟨w, hWorker, hJob.symm⟩
  · rw [setWorker_of_ne s _ hmn] at hm
    exact ⟨v, hm, rfl⟩

/-- What a step does to the jobs: one is assigned, or starts, or nothing happens. -/
inductive JobStep (server : Server σ Job Call Reply) (s t : State σ program) : Prop
  | kept (hWorkers : Kept s t) (hAssigned : t.assigned = s.assigned)
  | assigned {job : Job} (hWorkers : Kept s t) (hAssigned : t.assigned = s.assigned ++ [job])
      (h : server.assign s.server job t.server)
  | started {job : Job} {n : Nat} {before later : List Job} (hFree : s.worker n = none)
      (hWorker : t.worker n = some (.start program job)) (hOthers : ∀ m, m ≠ n → t.worker m = s.worker m)
      (hBefore : s.assigned = before ++ job :: later) (hAssigned : t.assigned = before ++ later)

theorem step_job (h : Step server s t) : JobStep server s t := by
  cases h with
  | change _ => exact .kept (fun m v hm => ⟨v, hm, rfl⟩) rfl
  | late _ _ _ => exact .kept (fun m v hm => ⟨v, hm, rfl⟩) rfl
  | assign h => exact .assigned (fun m v hm => ⟨v, hm, rfl⟩) rfl h
  | start hAssigned hFree =>
    exact .started hFree (setWorker_self ..) (fun m hm => setWorker_of_ne s _ hm) hAssigned rfl
  | call hWorker _ hRest _ | replyLost hWorker _ hRest _ _ | fail hWorker _ hRest _ =>
    refine .kept (fun m v hm => kept_setWorker hWorker ?_ hm) rfl
    rfl
  | stop hWorker _ _ =>
    refine .kept (fun m v hm => kept_setWorker hWorker ?_ hm) rfl
    rfl

/-- A job on its way was so before the step, or has just been assigned. -/
theorem step_assigned (h : Step server s t) {job : Job} (hJob : job ∈ t.assigned) :
    job ∈ s.assigned ∨ server.assign s.server job t.server := by
  cases step_job h with
  | kept _ hAssigned => exact .inl (hAssigned ▸ hJob)
  | assigned _ hAssigned h =>
    rw [hAssigned] at hJob
    rcases List.mem_append.mp hJob with hOld | hNew
    · exact .inl hOld
    · rw [List.mem_singleton.mp hNew]
      exact .inr h
  | started _ _ _ hBefore hAssigned =>
    left
    rw [hAssigned] at hJob
    rw [hBefore]
    rcases List.mem_append.mp hJob with hBefore | hLater
    · exact List.mem_append_left _ hBefore
    · exact List.mem_append_right _ (List.mem_cons_of_mem _ hLater)

/-- A worker after a step was there before with its job, or the job was on its way. -/
theorem step_worker (h : Step server s t) {m : Nat} {v : Worker program}
    (hm : t.worker m = some v) :
    (∃ w, s.worker m = some w ∧ w.job = v.job) ∨ v.job ∈ s.assigned := by
  cases step_job h with
  | kept hWorkers _ | assigned hWorkers _ _ => exact .inl (hWorkers m v hm)
  | @started job n before later _ hWorker hOthers hBefore _ =>
    by_cases hmn : m = n
    · subst hmn
      obtain rfl := Option.some.inj (hWorker.symm.trans hm)
      right
      rw [hBefore]
      exact List.mem_append_right _ List.mem_cons_self
    · exact .inl ⟨v, (hOthers m hmn).symm.trans hm, rfl⟩

/-- What holds of a job when it is assigned, and from then on. -/
structure JobInvariant (server : Server σ Job Call Reply) (J : σ → Job → Prop) : Prop where
  assigned : ∀ {x x' job}, server.assign x job x' → J x' job
  stable : ∀ job, Stable server fun x => J x job

/-- It holds of the jobs on their way and of those of the workers. -/
structure OfJobs (J : σ → Job → Prop) (s : State σ program) : Prop where
  assigned : ∀ job ∈ s.assigned, J s.server job
  worker : ∀ n w, s.worker n = some w → J s.server w.job

theorem step_jobs {J : σ → Job → Prop} (hJ : JobInvariant server J) (h : Step server s t)
    (hs : OfJobs J s) : OfJobs J t where
  assigned := by
    intro job hJob
    rcases step_assigned h hJob with hOld | hNew
    · exact step_stable (hJ.stable job) h (hs.assigned job hOld)
    · exact hJ.assigned hNew
  worker := by
    intro n w hWorker
    refine step_stable (hJ.stable w.job) h ?_
    rcases step_worker h hWorker with ⟨v, hv, hJob⟩ | hAssigned
    · exact hJob ▸ hs.worker n v hv
    · exact hs.assigned w.job hAssigned

theorem reachable_jobs {J : σ → Job → Prop} (hJ : JobInvariant server J)
    (h : Reachable server program start s) : OfJobs J s := by
  induction h with
  | refl => exact ⟨nofun, nofun⟩
  | tail _ hStep ih => exact step_jobs hJ hStep ih

/-! ## Uninterrupted runs -/

/-- The calls of a process are executed one after another. -/
inductive Served (server : Server σ Job Call Reply) (job : Job) :
    σ → Proc Call Reply α → σ → Proc Call Reply α → Prop
  | nil (x : σ) (p : Proc Call Reply α) : Served server job x p x p
  | cons {x y z : σ} {c : Call} {next : Reply c → Proc Call Reply α} {r : Reply c}
      {p : Proc Call Reply α} (hExecute : server.execute x job c y r)
      (h : Served server job y (next r) z p) : Served server job x (.call c next) z p

theorem Served.trans {job : Job} {x y z : σ} {p q q' : Proc Call Reply α}
    (h : Served server job x p y q) (h' : Served server job y q z q') : Served server job x p z q' := by
  induction h with
  | nil _ _ => exact h'
  | cons hExecute _ ih => exact .cons hExecute (ih h')

/-- A worker in the middle of its job, beside others. -/
structure At (s : State σ program) (n : Nat) (job : Job) (p : Proc Call Reply α)
    (w : Worker program) : Prop where
  worker : s.worker n = some w
  job_eq : w.job = job
  running : w.running = true
  rest : w.rest = p

theorem At.of_eq {job : Job} {n : Nat} {w : Worker program} {p : Proc Call Reply α}
    (h : At s n job p w) (hSame : t.worker n = s.worker n) : At t n job p w :=
  ⟨hSame.trans h.worker, h.job_eq, h.running, h.rest⟩

/-- Nothing has happened beside a worker. -/
structure Beside (s t : State σ program) (n : Nat) : Prop where
  worker : ∀ m, m ≠ n → t.worker m = s.worker m
  assigned : t.assigned = s.assigned

/-- The others do not notice. -/
theorem exists_served (h : Reachable server program start s) {n : Nat} {job : Job} {w : Worker program}
    {p q : Proc Call Reply α} {after : σ} (hAt : At s n job p w)
    (hServed : Served server job s.server p after q) :
    ∃ t w', Reachable server program start t ∧ t.server = after ∧ At t n job q w' ∧ Beside s t n := by
  generalize hx : s.server = x at hServed
  induction hServed generalizing s w with
  | nil x p => exact ⟨s, w, h, hx, hAt, fun _ _ => rfl, rfl⟩
  | cons hExecute _ ih =>
    subst hx
    obtain ⟨hWorker, rfl, hRunning, hRest⟩ := hAt
    obtain ⟨t, w', hReach, hServer, hAt', hBeside⟩ := ih (h.tail (.call hWorker hRunning hRest hExecute))
      ⟨setWorker_self .., rfl, hRunning, rfl⟩ rfl
    refine ⟨t, w', hReach, hServer, hAt', fun m hm => (hBeside.worker m hm).trans ?_, hBeside.assigned⟩
    exact setWorker_of_ne s _ hm

/-- A job is assigned, and nothing more. -/
theorem exists_assigned (h : Reachable server program start s) {after : σ} {job : Job}
    (hAssign : server.assign s.server job after) :
    ∃ t, Reachable server program start t ∧ t.server = after ∧ t.assigned = s.assigned ++ [job] ∧
      t.worker = s.worker :=
  ⟨_, h.tail (.assign hAssign), rfl, rfl, rfl⟩

/-- A job on its way arrives at a new worker. -/
theorem exists_arrived {job : Job} {n : Nat} {before later : List Job}
    (hAssigned : s.assigned = before ++ job :: later) (hFree : s.worker n = none) :
    ∃ t, Step server s t ∧ t.worker n = some (.start program job) ∧ t.assigned = before ++ later :=
  ⟨_, .start hAssigned hFree, setWorker_self .., rfl⟩

/-- A job is given to a new worker at once. -/
theorem exists_started (h : Reachable server program start s) {after : σ} {job : Job}
    (hAssign : server.assign s.server job after) {n : Nat} (hFree : s.worker n = none) :
    ∃ t w, Reachable server program start t ∧ t.server = after ∧ At t n job (program job) w ∧
      Beside s t n :=
  ⟨_, .start program job, (h.tail (.assign hAssign)).tail (.start rfl hFree), rfl,
    ⟨setWorker_self .., rfl, rfl, rfl⟩, fun _ hm => setWorker_of_ne s _ hm, List.append_nil _⟩

end Workers
