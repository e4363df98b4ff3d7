import Mathlib.Data.List.Basic
import Mathlib.Tactic.Ring
import Caelix.Core.Clock
import Caelix.Core.LogLevels
import Caelix.Lib.BoundedChannel
import Caelix.Lib.Machine

/-!
# The access log

`AccessLogWriter` of `logging.rs`: any number of threads offer their entries to a bounded channel,
from which one worker thread writes them. An entry that finds the channel full is dropped and
counted. A stream may refuse what the worker writes, which the worker ignores: the line is lost.
Threads and worker take their steps in any order.

* `Accounted`: what holds of all entries, dropped, written and lost ones, and of the counters.
* `access_log_accounted`: it holds after every run; once all calls have returned, each entry was
  accepted or counted.
* `access_log_drains`: from every state the worker, on its own and with streams that work, writes
  and flushes all that was accepted and not lost before, and reports the drops.
-/

namespace Caelix

/-! ## Entries -/

structure HttpAccessLogInfo where
  clientAddress : String
  method : String
  pathAndQuery : String
  protocol : String
  status : Nat
  responseSize : Option Nat
  referrer : String
  userAgent : String
  elapsed : Duration
  deriving DecidableEq, Repr

inductive AccessLogEvent where
  | compact (request : String) (status : Nat) (elapsed : Duration)
  | info (details : HttpAccessLogInfo)
  deriving DecidableEq, Repr

def AccessLogEvent.status : AccessLogEvent → Nat
  | compact _ status _ => status
  | info details => details.status

def logLevelForStatus (status : Nat) : LogLevel :=
  if 500 ≤ status ∧ status ≤ 599 then .error else .info

/-- An event in the channel, with the number of the call that sent it. -/
structure AccessLogEntry where
  call : Nat
  event : AccessLogEvent
  deriving DecidableEq, Repr

/-- The line of the entry goes to the standard error. -/
def AccessLogEntry.isError (entry : AccessLogEntry) : Bool :=
  logLevelForStatus entry.event.status = .error

/-! ## The threads -/

/-- What a call of `write` or `write_info` does next. -/
inductive CallPoint where
  /-- `is_full`. -/
  | checking
  /-- `try_send`. -/
  | sending
  /-- The first `fetch_add` of `record_drop`. -/
  | dropping
  /-- The second one. -/
  | reporting
  | returned (accepted : Bool)
  deriving DecidableEq, Repr

structure LogCall where
  event : AccessLogEvent
  point : CallPoint
  deriving DecidableEq, Repr

/-- What `write_access_logs` does next. -/
inductive LogWorker where
  /-- `recv_timeout`. -/
  | receiving
  /-- `write_access_log`, with so many turns of the batch left. -/
  | writing (entry : AccessLogEntry) (budget : Nat)
  /-- The next turn of the batch. -/
  | draining (budget : Nat)
  /-- The test of `last_drop_report`. -/
  | timing
  /-- `report_dropped_access_logs` after its `swap`. -/
  | reporting (dropped : UInt64)
  | flushing
  deriving DecidableEq, Repr

inductive StderrLine where
  | entry (written : AccessLogEntry)
  | dropped (count : UInt64)
  deriving DecidableEq, Repr

/-- Which streams take what the worker writes or flushes in a step. -/
structure Streams where
  stdout : Bool
  stderr : Bool
  deriving DecidableEq, Repr

def Streams.working : Streams := ⟨true, true⟩

def accessLogQueueCapacity : Nat := 65536

def accessLogBatchSize : Nat := 1024

structure AccessLog where
  channel : Channel AccessLogEntry accessLogQueueCapacity
  dropped : UInt64
  pendingDropReport : UInt64
  calls : List LogCall
  worker : LogWorker
  stdout : List AccessLogEntry
  stderr : List StderrLine
  /-- The entries and the drops in the lines that a stream has refused. -/
  lost : List AccessLogEntry
  unreported : UInt64
  /-- How many lines of each stream have been flushed. -/
  flushed : Nat × Nat

namespace AccessLog

def new : AccessLog := ⟨Channel.empty, 0, 0, [], .receiving, [], [], [], 0, (0, 0)⟩

def setPoint (s : AccessLog) (i : Nat) (event : AccessLogEvent) (point : CallPoint) : AccessLog :=
  { s with calls := s.calls.set i ⟨event, point⟩ }

/-- The next step of a call. -/
def callStep (s : AccessLog) (i : Nat) (call : LogCall) : Option AccessLog :=
  match call.point with
  | .checking =>
    some (s.setPoint i call.event (if s.channel.isFull then .dropping else .sending))
  | .sending =>
    match s.channel.trySend ⟨i, call.event⟩ with
    | some channel => some ({ s with channel }.setPoint i call.event (.returned true))
    | none => some (s.setPoint i call.event .dropping)
  | .dropping => some ({ s with dropped := s.dropped + 1 }.setPoint i call.event .reporting)
  | .reporting =>
    some ({ s with pendingDropReport := s.pendingDropReport + 1 }.setPoint i call.event
      (.returned false))
  | .returned _ => none

/-- The error of `writeln!` is ignored. -/
def writeAccessLog (s : AccessLog) (streams : Streams) (entry : AccessLogEntry) : AccessLog :=
  if entry.isError then
    if streams.stderr then { s with stderr := s.stderr ++ [.entry entry] }
    else { s with lost := s.lost ++ [entry] }
  else if streams.stdout then { s with stdout := s.stdout ++ [entry] }
  else { s with lost := s.lost ++ [entry] }

/-- `report_dropped_access_logs` with the drops that it has taken from the counter. -/
def reportDropped (s : AccessLog) (streams : Streams) (count : UInt64) : AccessLog :=
  if 0 < count then
    if streams.stderr then { s with stderr := s.stderr ++ [.dropped count] }
    else { s with unreported := s.unreported + count }
  else s

/-- Take an entry from the channel and write it next; without one the batch is over. -/
def receive (s : AccessLog) (budget : Nat) : AccessLog :=
  match s.channel.tryRecv with
  | some (entry, channel) => { s with channel, worker := .writing entry budget }
  | none => { s with worker := .timing }

/-- The next step of the worker; `due` tells whether the interval of drop reports is over. -/
def workerStep (s : AccessLog) (due : Bool) (streams : Streams) : AccessLog :=
  match s.worker with
  | .receiving => s.receive (accessLogBatchSize - 1)
  | .writing entry budget => { s.writeAccessLog streams entry with worker := .draining budget }
  | .draining 0 => { s with worker := .timing }
  | .draining (budget + 1) => s.receive budget
  | .timing =>
    if due then { s with pendingDropReport := 0, worker := .reporting s.pendingDropReport }
    else { s with worker := .flushing }
  | .reporting count => { s.reportDropped streams count with worker := .flushing }
  | .flushing =>
    { s with
      flushed := (if streams.stdout then s.stdout.length else s.flushed.1,
        if streams.stderr then s.stderr.length else s.flushed.2)
      worker := .receiving }

inductive Action where
  | begin (event : AccessLogEvent)
  | call (i : Nat)
  | work (due : Bool) (streams : Streams)

def step (s : AccessLog) : Action → Option AccessLog
  | .begin event => some { s with calls := s.calls ++ [⟨event, .checking⟩] }
  | .call i => s.calls[i]?.bind (s.callStep i)
  | .work due streams => some (s.workerStep due streams)

end AccessLog

/-! ## What holds in every state -/

namespace LogWorker

/-- The entry that the worker has taken and not written. -/
def held : LogWorker → List AccessLogEntry
  | writing entry _ => [entry]
  | _ => []

/-- The drops that the worker has taken from the counter and not reported. -/
def taken : LogWorker → UInt64
  | reporting count => count
  | _ => 0

end LogWorker

namespace CallPoint

/-- The drop is counted in `dropped`. -/
def counted : CallPoint → Bool
  | reporting => true
  | returned false => true
  | _ => false

@[simp] theorem counted_returned (accepted : Bool) : (returned accepted).counted = !accepted := by
  cases accepted <;> rfl

end CallPoint

namespace StderrLine

def entry? : StderrLine → Option AccessLogEntry
  | entry written => some written
  | dropped _ => none

def count : StderrLine → UInt64
  | entry _ => 0
  | dropped count => count

end StderrLine

namespace AccessLog

def accepted (s : AccessLog) : Nat := s.calls.countP fun call => call.point = .returned true

/-- The calls that have dropped their entry. -/
def refused (s : AccessLog) : Nat := s.calls.countP fun call => call.point = .returned false

/-- The sum of the reports. -/
def reported (s : AccessLog) : UInt64 := (s.stderr.map StderrLine.count).foldr (· + ·) 0

structure Accounted (s : AccessLog) : Prop where
  /-- The entries of the calls that were accepted, each sent once. -/
  sent : ∀ entry,
    entry ∈ s.channel.sent ↔ s.calls[entry.call]? = some ⟨entry.event, .returned true⟩
  nodup : (s.channel.sent.map AccessLogEntry.call).Nodup
  accepted : s.channel.sent.length = s.accepted
  /-- What was received is written in this order, each line to its stream unless it was lost. -/
  written : ∃ written, s.channel.received = written ++ s.worker.held ∧ s.lost.Sublist written ∧
    s.stdout = written.filter (fun entry => !entry.isError && entry ∉ s.lost) ∧
    s.stderr.filterMap StderrLine.entry? =
      written.filter (fun entry => entry.isError && entry ∉ s.lost)
  dropped : s.dropped = UInt64.ofNat (s.calls.countP fun call => call.point.counted)
  reported : s.reported + s.unreported + s.worker.taken + s.pendingDropReport =
    UInt64.ofNat s.refused

theorem accounted_new : new.Accounted where
  sent _ := iff_of_false List.not_mem_nil (fun h => nomatch h)
  nodup := List.nodup_nil
  accepted := rfl
  written := ⟨[], rfl, List.Sublist.refl _, rfl, rfl⟩
  dropped := rfl
  reported := rfl

/-! ## Steps of the threads -/

/-- One call has moved on; all others are as they were. -/
theorem countP_set_add {l : List LogCall} {i : Nat} {a b : LogCall} (h : l[i]? = some a)
    (p : LogCall → Bool) :
    (l.set i b).countP p + (if p a then 1 else 0) = l.countP p + if p b then 1 else 0 := by
  obtain ⟨hLt, rfl⟩ := List.getElem?_eq_some_iff.mp h
  have hPos : p l[i] = true → 0 < l.countP p := fun hp =>
    List.countP_pos_iff.mpr ⟨_, List.getElem_mem hLt, hp⟩
  rw [List.countP_set hLt]
  split_ifs with hOld hNew hNew
  · have := hPos hOld
    omega
  · have := hPos hOld
    omega
  · omega
  · omega

variable {s : AccessLog} {i : Nat} {event : AccessLogEvent} {point : CallPoint}

/-- A call that has not returned goes on without returning, or to a drop. -/
theorem Accounted.setPoint (h : s.Accounted) (hCall : s.calls[i]? = some ⟨event, point⟩)
    (point' : CallPoint) (hOpen : ∀ b, point ≠ .returned b) (hNot : point' ≠ .returned true)
    {dropped pending : UInt64}
    (hDropped : dropped = s.dropped + UInt64.ofNat
      ((if point'.counted then 1 else 0) - if point.counted then 1 else 0))
    (hCounted : point.counted = true → point'.counted = true)
    (hPending : pending = s.pendingDropReport +
      UInt64.ofNat (if point' = .returned false then 1 else 0)) :
    ({ s with dropped, pendingDropReport := pending }.setPoint i event point').Accounted := by
  obtain ⟨hLt, -⟩ := List.getElem?_eq_some_iff.mp hCall
  have hTrue := countP_set_add (b := ⟨event, point'⟩) hCall fun call => call.point = .returned true
  have hFalse := countP_set_add (b := ⟨event, point'⟩) hCall
    fun call => call.point = .returned false
  have hCount := countP_set_add (b := ⟨event, point'⟩) hCall fun call => call.point.counted
  simp only [hOpen, hNot, decide_false, Bool.false_eq_true, if_false, Nat.add_zero] at hTrue hFalse
  refine ⟨fun entry => ?_, h.nodup, h.accepted.trans hTrue.symm, h.written, ?_, ?_⟩
  · show entry ∈ s.channel.sent ↔ (s.calls.set i ⟨event, point'⟩)[entry.call]? = _
    rw [h.sent]
    by_cases hi : entry.call = i
    · rw [hi, List.getElem?_set_self hLt, hCall]
      simp [hOpen, hNot]
    · rw [List.getElem?_set_ne (Ne.symm hi)]
  · show dropped = UInt64.ofNat ((s.calls.set i ⟨event, point'⟩).countP _)
    rw [hDropped, h.dropped, ← UInt64.ofNat_add]
    congr 1
    cases hOld : point.counted with
    | false => simp [hOld] at hCount ⊢; omega
    | true =>
      have hNew := hCounted hOld
      simp [hOld, hNew] at hCount ⊢
      omega
  · show s.reported + s.unreported + s.worker.taken + pending =
      UInt64.ofNat ((s.calls.set i ⟨event, point'⟩).countP _)
    rw [hPending, ← UInt64.add_assoc, h.reported, ← UInt64.ofNat_add]
    congr 1
    rw [hFalse, refused]
    simp

/-- The channel has taken the entry of a call. -/
theorem Accounted.accept (h : s.Accounted) (hCall : s.calls[i]? = some ⟨event, .sending⟩)
    {channel : Channel AccessLogEntry accessLogQueueCapacity}
    (hSend : s.channel.trySend ⟨i, event⟩ = some channel) :
    ({ s with channel }.setPoint i event (.returned true)).Accounted := by
  obtain ⟨hLt, -⟩ := List.getElem?_eq_some_iff.mp hCall
  obtain ⟨hSent, hReceived, -⟩ := Channel.trySend_some hSend
  have hTrue := countP_set_add (b := ⟨event, .returned true⟩) hCall
    fun call => call.point = .returned true
  have hFalse := countP_set_add (b := ⟨event, .returned true⟩) hCall
    fun call => call.point = .returned false
  have hCount := countP_set_add (b := ⟨event, .returned true⟩) hCall fun call => call.point.counted
  have hNew : ∀ entry ∈ s.channel.sent, entry.call ≠ i := by
    intro entry hMem hi
    rw [h.sent, hi, hCall] at hMem
    cases hMem
  refine ⟨fun entry => ?_, ?_, ?_, ?_, h.dropped.trans ?_, h.reported.trans ?_⟩
  · show entry ∈ channel.sent ↔ (s.calls.set i ⟨event, .returned true⟩)[entry.call]? = _
    rw [hSent, List.mem_append, List.mem_singleton]
    by_cases hi : entry.call = i
    · rw [hi, List.getElem?_set_self hLt]
      constructor
      · rintro (hMem | rfl)
        · exact absurd hi (hNew entry hMem)
        · rfl
      · intro hEvent
        have hSame : event = entry.event := by simpa using hEvent
        exact .inr (by rw [hSame, ← hi])
    · rw [List.getElem?_set_ne (Ne.symm hi), h.sent]
      refine or_iff_left ?_
      rintro rfl
      exact hi rfl
  · show (channel.sent.map AccessLogEntry.call).Nodup
    rw [hSent, List.map_append, List.map_singleton, List.nodup_append]
    refine ⟨h.nodup, List.nodup_singleton i, ?_⟩
    rintro _ hMem _ hOwn rfl
    obtain ⟨entry, hEntry, hi⟩ := List.mem_map.mp hMem
    exact hNew entry hEntry (hi.trans (List.mem_singleton.mp hOwn))
  · show channel.sent.length = (s.calls.set i ⟨event, .returned true⟩).countP _
    rw [hSent, List.length_append, List.length_singleton, h.accepted]
    simpa [AccessLog.accepted] using hTrue.symm
  · obtain ⟨written, hWritten, hStreams⟩ := h.written
    exact ⟨written, hReceived.trans hWritten, hStreams⟩
  · show _ = UInt64.ofNat ((s.calls.set i ⟨event, .returned true⟩).countP _)
    congr 1
    simpa [CallPoint.counted] using hCount.symm
  · show _ = UInt64.ofNat ((s.calls.set i ⟨event, .returned true⟩).countP _)
    rw [refused]
    congr 1
    simpa using hFalse.symm

theorem Accounted.callStep (h : s.Accounted) {call : LogCall} (hCall : s.calls[i]? = some call)
    {s' : AccessLog} (hStep : s.callStep i call = some s') : s'.Accounted := by
  obtain ⟨event, point⟩ := call
  cases point with
  | checking =>
    cases hStep
    cases hFull : s.channel.isFull with
    | true =>
      show (s.setPoint i event (if true then .dropping else .sending)).Accounted
      exact h.setPoint hCall .dropping (fun b hb => nomatch hb) (fun hPoint => nomatch hPoint)
        (UInt64.add_zero _).symm (fun hOld => nomatch hOld) (UInt64.add_zero _).symm
    | false =>
      show (s.setPoint i event (if false then .dropping else .sending)).Accounted
      exact h.setPoint hCall .sending (fun b hb => nomatch hb) (fun hPoint => nomatch hPoint)
        (UInt64.add_zero _).symm (fun hOld => nomatch hOld) (UInt64.add_zero _).symm
  | sending =>
    unfold AccessLog.callStep at hStep
    dsimp only at hStep
    cases hSend : s.channel.trySend ⟨i, event⟩ with
    | some channel =>
      rw [hSend] at hStep
      cases hStep
      exact h.accept hCall hSend
    | none =>
      rw [hSend] at hStep
      cases hStep
      show (s.setPoint i event .dropping).Accounted
      exact h.setPoint hCall .dropping (fun b hb => nomatch hb) (fun hPoint => nomatch hPoint)
        (UInt64.add_zero _).symm (fun hOld => nomatch hOld) (UInt64.add_zero _).symm
  | dropping =>
    cases hStep
    show ({ s with dropped := s.dropped + 1 }.setPoint i event .reporting).Accounted
    exact h.setPoint hCall .reporting (fun b hb => nomatch hb) (fun hPoint => nomatch hPoint) rfl
      (fun hOld => nomatch hOld) (UInt64.add_zero _).symm
  | reporting =>
    cases hStep
    show ({ s with pendingDropReport := s.pendingDropReport + 1 }.setPoint i event
      (.returned false)).Accounted
    exact h.setPoint hCall (.returned false) (fun b hb => nomatch hb) (fun hPoint => nomatch hPoint)
      (UInt64.add_zero _).symm (fun _ => rfl) rfl
  | returned accepted => cases hStep

/-! ## Steps of the worker -/

theorem reported_append (stderr : List StderrLine) (line : StderrLine) :
    ((stderr ++ [line]).map StderrLine.count).foldr (· + ·) 0 =
      (stderr.map StderrLine.count).foldr (· + ·) 0 + line.count := by
  induction stderr with
  | nil => exact UInt64.add_comm _ _
  | cons first stderr ih =>
    rw [List.cons_append, List.map_cons, List.foldr_cons, ih, List.map_cons, List.foldr_cons,
      UInt64.add_assoc]

/-- The worker goes on with what it has in its hands; drops may move between it and the counter. -/
theorem Accounted.goOn (h : s.Accounted) {worker : LogWorker} {pending : UInt64}
    {flushed : Nat × Nat} (hHeld : worker.held = s.worker.held)
    (hTaken : worker.taken + pending = s.worker.taken + s.pendingDropReport) :
    ({ s with worker, pendingDropReport := pending, flushed } : AccessLog).Accounted := by
  obtain ⟨written, hReceived, hStreams⟩ := h.written
  refine ⟨h.sent, h.nodup, h.accepted, ⟨written, ?_, hStreams⟩, h.dropped, ?_⟩
  · show s.channel.received = written ++ worker.held
    rw [hHeld]
    exact hReceived
  · show s.reported + s.unreported + worker.taken + pending = UInt64.ofNat s.refused
    rw [UInt64.add_assoc, hTaken, ← UInt64.add_assoc, h.reported]

theorem Accounted.receive (h : s.Accounted) (hHeld : s.worker.held = [])
    (hTaken : s.worker.taken = 0) (budget : Nat) : (s.receive budget).Accounted := by
  unfold AccessLog.receive
  cases hRecv : s.channel.tryRecv with
  | none => exact h.goOn hHeld.symm (by rw [hTaken]; rfl)
  | some taken =>
    obtain ⟨written, hReceived, hStreams⟩ := h.written
    have hReported := h.reported
    rw [hTaken] at hReported
    rw [hHeld] at hReceived
    obtain ⟨entry, channel⟩ := taken
    obtain ⟨hSent, hTook, -⟩ := Channel.tryRecv_some hRecv
    refine ⟨?_, ?_, ?_, ⟨written, ?_, hStreams⟩, h.dropped, hReported⟩
    · show ∀ entry, entry ∈ channel.sent ↔ _
      rw [hSent]
      exact h.sent
    · show (channel.sent.map AccessLogEntry.call).Nodup
      rw [hSent]
      exact h.nodup
    · show channel.sent.length = _
      rw [hSent]
      exact h.accepted
    · show channel.received = written ++ [entry]
      rw [hTook, hReceived, List.append_nil]

/-- The entry in the hands of the worker has not been written before. -/
theorem Accounted.fresh (h : s.Accounted) {written : List AccessLogEntry} {entry : AccessLogEntry}
    (hReceived : s.channel.received = written ++ [entry]) : entry ∉ written := by
  intro hMem
  have hNodup := h.nodup
  rw [s.channel.fifo, hReceived, List.append_assoc, List.map_append, List.nodup_append] at hNodup
  exact hNodup.2.2 entry.call (List.mem_map_of_mem hMem) entry.call (by simp) rfl

/-- The lines of a stream do not depend on an entry that is not among them. -/
theorem filter_lost {written lost : List AccessLogEntry} {entry : AccessLogEntry}
    (hFresh : entry ∉ written) (p : AccessLogEntry → Bool) :
    written.filter (fun e => p e && e ∉ lost ++ [entry]) =
      written.filter fun e => p e && e ∉ lost := by
  refine List.filter_congr fun e he => ?_
  have hNe : e ≠ entry := by
    rintro rfl
    exact hFresh he
  simp [hNe]

theorem Accounted.write (h : s.Accounted) {entry : AccessLogEntry} {budget : Nat}
    (hWorker : s.worker = .writing entry budget) {worker : LogWorker} (hHeld : worker.held = [])
    (hTaken : worker.taken = 0) (streams : Streams) :
    ({ s.writeAccessLog streams entry with worker } : AccessLog).Accounted := by
  obtain ⟨written, hReceived, hLost, hStdout, hStderr⟩ := h.written
  have hReported := h.reported
  rw [hWorker] at hReceived hReported
  have hFresh := h.fresh hReceived
  have hNotLost : entry ∉ s.lost := fun hMem => hFresh (hLost.subset hMem)
  have hTakes : s.channel.received = (written ++ [entry]) ++ worker.held := by
    rw [hHeld, List.append_nil]
    exact hReceived
  have hStays : s.reported + s.unreported + worker.taken + s.pendingDropReport =
      UInt64.ofNat s.refused := by
    rw [hTaken]
    exact hReported
  have hMore : s.lost.Sublist (written ++ [entry]) := hLost.trans (List.sublist_append_left ..)
  -- a stream that refuses the line
  have hLoses : ({ s with lost := s.lost ++ [entry], worker } : AccessLog).Accounted := by
    refine ⟨h.sent, h.nodup, h.accepted, ⟨written ++ [entry], hTakes, ?_, ?_, ?_⟩, h.dropped,
      hStays⟩
    · exact List.Sublist.append hLost (List.Sublist.refl _)
    · rw [List.filter_append, filter_lost hFresh]
      simpa using hStdout
    · rw [List.filter_append, filter_lost hFresh]
      simpa using hStderr
  unfold writeAccessLog
  cases hLevel : entry.isError with
  | true =>
    cases streams.stderr with
    | false => exact hLoses
    | true =>
      refine ⟨h.sent, h.nodup, h.accepted, ⟨written ++ [entry], hTakes, hMore, ?_, ?_⟩, h.dropped,
        ?_⟩
      · simpa [hLevel] using hStdout
      · show (s.stderr ++ [StderrLine.entry entry]).filterMap StderrLine.entry? = _
        simp [hLevel, hStderr, hNotLost, StderrLine.entry?]
      · show ((s.stderr ++ [StderrLine.entry entry]).map StderrLine.count).foldr (· + ·) 0 + _ + _ +
          _ = _
        rw [reported_append, show (StderrLine.entry entry).count = 0 from rfl, UInt64.add_zero]
        exact hStays
  | false =>
    cases streams.stdout with
    | false => exact hLoses
    | true =>
      refine ⟨h.sent, h.nodup, h.accepted, ⟨written ++ [entry], hTakes, hMore, ?_, ?_⟩, h.dropped,
        hStays⟩
      · simp [hLevel, hStdout, hNotLost]
      · simpa [hLevel] using hStderr

/-- A report is written or lost, unless there is nothing to report. -/
theorem Accounted.report (h : s.Accounted) {count : UInt64} (hWorker : s.worker = .reporting count)
    (streams : Streams) :
    ({ s.reportDropped streams count with worker := .flushing } : AccessLog).Accounted := by
  unfold reportDropped
  by_cases hSome : 0 < count
  · rw [if_pos hSome]
    obtain ⟨written, hReceived, hLost, hStdout, hStderr⟩ := h.written
    have hReported := h.reported
    rw [hWorker] at hReceived hReported
    have hSum : s.reported + count + s.unreported + 0 + s.pendingDropReport =
        s.reported + s.unreported + count + s.pendingDropReport := by
      rw [UInt64.add_zero, UInt64.add_assoc s.reported, UInt64.add_comm count, ← UInt64.add_assoc]
    cases streams.stderr with
    | true =>
      refine ⟨h.sent, h.nodup, h.accepted, ⟨written, hReceived, hLost, hStdout, ?_⟩, h.dropped, ?_⟩
      · show (s.stderr ++ [StderrLine.dropped count]).filterMap StderrLine.entry? = _
        simp [hStderr, StderrLine.entry?]
      · show ((s.stderr ++ [StderrLine.dropped count]).map StderrLine.count).foldr (· + ·) 0 + _ +
          0 + _ = _
        rw [reported_append]
        exact hSum.trans hReported
    | false =>
      refine ⟨h.sent, h.nodup, h.accepted, ⟨written, hReceived, hLost, hStdout, hStderr⟩, h.dropped,
        ?_⟩
      show s.reported + (s.unreported + count) + 0 + s.pendingDropReport = _
      rw [UInt64.add_zero, ← UInt64.add_assoc]
      exact hReported
  · rw [if_neg hSome]
    have hZero : count = 0 := by
      rw [UInt64.lt_iff_toNat_lt] at hSome
      exact UInt64.toNat_inj.mp (by simpa using hSome)
    exact h.goOn (by rw [hWorker]; rfl) (by rw [hWorker, hZero]; rfl)

theorem Accounted.workerStep (h : s.Accounted) (due : Bool) (streams : Streams) :
    (s.workerStep due streams).Accounted := by
  unfold AccessLog.workerStep
  cases hWorker : s.worker with
  | receiving => exact h.receive (by rw [hWorker]; rfl) (by rw [hWorker]; rfl) _
  | writing entry budget => exact h.write hWorker rfl rfl streams
  | draining budget =>
    cases budget with
    | zero => exact h.goOn (by rw [hWorker]; rfl) (by rw [hWorker]; rfl)
    | succ budget => exact h.receive (by rw [hWorker]; rfl) (by rw [hWorker]; rfl) budget
  | timing =>
    cases due with
    | true =>
      refine h.goOn (by rw [hWorker]; rfl) ?_
      rw [hWorker]
      exact UInt64.add_comm _ _
    | false => exact h.goOn (by rw [hWorker]; rfl) (by rw [hWorker]; rfl)
  | reporting count => exact h.report hWorker streams
  | flushing => exact h.goOn (by rw [hWorker]; rfl) (by rw [hWorker]; rfl)

/-! ## Runs -/

theorem Accounted.step (h : s.Accounted) {action : Action} {s' : AccessLog}
    (hStep : s.step action = some s') : s'.Accounted := by
  cases action with
  | «begin» event =>
    cases hStep
    refine ⟨fun entry => ?_, h.nodup, h.accepted.trans ?_, h.written, h.dropped.trans ?_,
      h.reported.trans ?_⟩
    · show entry ∈ s.channel.sent ↔ (s.calls ++ [⟨event, .checking⟩])[entry.call]? = _
      rw [h.sent, List.getElem?_append]
      split_ifs with hLt
      · exact Iff.rfl
      · rw [List.getElem?_eq_none (Nat.le_of_not_lt hLt)]
        refine iff_of_false (fun hNone => nomatch hNone) fun hNew => ?_
        have hMem := List.mem_of_getElem? hNew
        rw [List.mem_singleton] at hMem
        cases hMem
    · simp [AccessLog.accepted]
    · rw [List.countP_append]
      rfl
    · show UInt64.ofNat s.refused =
        UInt64.ofNat ((s.calls ++ [LogCall.mk event .checking]).countP _)
      rw [List.countP_append]
      rfl
  | call i =>
    obtain ⟨call, hCall, hCallStep⟩ := Option.bind_eq_some_iff.mp hStep
    exact h.callStep hCall hCallStep
  | work due streams =>
    cases hStep
    exact h.workerStep due streams

theorem accounted_of_run {actions : List Action}
    (hRun : Machine.run AccessLog.step new actions = some s) : s.Accounted :=
  Machine.run_keeps (I := fun _ s => s.Accounted) accounted_new
    (fun _ _ _ _ hStep h => h.step hStep) hRun

/-- Once all calls have returned, each entry is in the channel's history or counted as dropped. -/
theorem countP_returned {calls : List LogCall}
    (h : ∀ call ∈ calls, ∃ accepted, call.point = .returned accepted) :
    calls.length = calls.countP (fun call => call.point = .returned true) +
        calls.countP (fun call => call.point = .returned false) ∧
      calls.countP (fun call => call.point.counted) =
        calls.countP fun call => call.point = .returned false := by
  induction calls with
  | nil => exact ⟨rfl, rfl⟩
  | cons call calls ih =>
    obtain ⟨hLength, hCounted⟩ := ih fun call hMem => h call (List.mem_cons_of_mem _ hMem)
    obtain ⟨accepted, hPoint⟩ := h call List.mem_cons_self
    cases accepted <;> simp [hPoint, hLength, hCounted] <;> omega

/-- Every run keeps the account of entries and drops. -/
theorem access_log_accounted {actions : List Action}
    (hRun : Machine.run AccessLog.step new actions = some s) :
    s.Accounted ∧
      ((∀ call ∈ s.calls, ∃ accepted, call.point = .returned accepted) →
        s.calls.length = s.channel.sent.length + s.refused ∧
          s.reported + s.unreported + s.worker.taken + s.pendingDropReport = s.dropped) := by
  have h := accounted_of_run hRun
  refine ⟨h, fun hReturned => ?_⟩
  obtain ⟨hLength, hCounted⟩ := countP_returned hReturned
  refine ⟨?_, ?_⟩
  · rw [h.accepted]
    exact hLength
  · rw [h.reported, h.dropped, hCounted]
    rfl

/-! ## A full channel -/

def request : AccessLogEvent := .compact "GET /" 200 0

/-- So many requests have been sent and none received; the rest of the calls follow them. -/
def filled (n : Nat) (hn : n ≤ accessLogQueueCapacity) (rest : List LogCall) : AccessLog :=
  let entries := (List.range n).map fun i => AccessLogEntry.mk i request
  { new with
    channel := ⟨entries, [], entries, by rwa [List.length_map, List.length_range], rfl⟩
    calls := List.replicate n ⟨request, .returned true⟩ ++ rest }

def fill : Nat → List Action
  | 0 => []
  | n + 1 => fill n ++ [.begin request, .call n, .call n]

variable {n : Nat}

theorem filled_queue (hn : n ≤ accessLogQueueCapacity) (rest : List LogCall) :
    (filled n hn rest).channel.queue.length = n := by
  show ((List.range n).map _).length = n
  rw [List.length_map, List.length_range]

theorem filled_step (hn : n ≤ accessLogQueueCapacity) (event : AccessLogEvent) (point : CallPoint) :
    (filled n hn [⟨event, point⟩]).step (.call n) =
      (filled n hn [⟨event, point⟩]).callStep n ⟨event, point⟩ := by
  have hLast : (filled n hn [⟨event, point⟩]).calls[n]? = some ⟨event, point⟩ := by
    simp [filled]
  show (filled n hn [⟨event, point⟩]).calls[n]?.bind _ = _
  rw [hLast, Option.bind_some]

theorem filled_setPoint (hn : n ≤ accessLogQueueCapacity) (call : LogCall) (event : AccessLogEvent)
    (point : CallPoint) :
    (filled n hn [call]).setPoint n event point = filled n hn [⟨event, point⟩] := by
  simp [setPoint, filled]

theorem filled_trySend (hn : n + 1 ≤ accessLogQueueCapacity) (rest : List LogCall) :
    (filled n (Nat.le_of_succ_le hn) rest).channel.trySend ⟨n, request⟩ =
      some (filled (n + 1) hn []).channel := by
  rw [Channel.trySend, dif_pos (by rwa [filled_queue])]
  simp [filled, List.range_succ]

theorem run_fill (n : Nat) (hn : n ≤ accessLogQueueCapacity) :
    Machine.run AccessLog.step new (fill n) = some (filled n hn []) := by
  induction n with
  | zero => rfl
  | succ n ih =>
    have hBefore := Nat.le_of_succ_le hn
    have hOpen : (filled n hBefore [⟨request, .checking⟩]).channel.isFull = false := by
      refine decide_eq_false ?_
      rw [filled_queue]
      exact Nat.ne_of_lt hn
    have hCheck : (filled n hBefore [⟨request, .checking⟩]).step (.call n) =
        some (filled n hBefore [⟨request, .sending⟩]) := by
      rw [filled_step, callStep, hOpen]
      exact congrArg some (filled_setPoint hBefore _ _ _)
    have hSend : (filled n hBefore [⟨request, .sending⟩]).step (.call n) =
        some (filled (n + 1) hn []) := by
      rw [filled_step, callStep, filled_trySend hn]
      simp [setPoint, filled, List.replicate_succ']
    have hBegin : (filled n hBefore []).step (.begin request) =
        some (filled n hBefore [⟨request, .checking⟩]) := by
      simp [AccessLog.step, filled]
    exact Machine.run_append.mpr ⟨_, ih hBefore, Machine.run_cons.mpr ⟨_, hBegin,
      Machine.run_cons.mpr ⟨_, hCheck, Machine.run_cons.mpr ⟨_, hSend, rfl⟩⟩⟩⟩

/-- One request more, and a standard output that refuses the first line. -/
def overflow (n : Nat) : List Action :=
  fill n ++ [.begin request, .call n, .call n, .call n, .work false .working,
    .work false ⟨false, true⟩]

/-- Over a full channel the last request is dropped; the first line is lost. -/
theorem exists_overflow (hn : n = accessLogQueueCapacity) :
    ∃ s, Machine.run AccessLog.step new (overflow n) = some s ∧
      (∀ call ∈ s.calls, ∃ accepted, call.point = .returned accepted) ∧ s.refused = 1 ∧
      s.lost = [⟨0, request⟩] ∧ s.unreported = 0 := by
  let full := filled n hn.le
  have hFull : ∀ rest, (full rest).channel.isFull = true := fun rest =>
    decide_eq_true ((filled_queue hn.le rest).trans hn)
  have hBegin : (full []).step (.begin request) = some (full [⟨request, .checking⟩]) := by
    simp [AccessLog.step, full, filled]
  have hCheck : (full [⟨request, .checking⟩]).step (.call n) =
      some (full [⟨request, .dropping⟩]) := by
    rw [filled_step, callStep, hFull]
    exact congrArg some (filled_setPoint hn.le _ _ _)
  have hDrop : (full [⟨request, .dropping⟩]).step (.call n) =
      some { full [⟨request, .reporting⟩] with dropped := 1 } := by
    rw [filled_step]
    simp [callStep, setPoint, full, filled, new]
  have hReport : AccessLog.step { full [⟨request, .reporting⟩] with dropped := 1 } (.call n) =
      some { full [⟨request, .returned false⟩] with dropped := 1, pendingDropReport := 1 } := by
    simp [AccessLog.step, callStep, setPoint, full, filled, new]
  have hHead : (full []).channel.queue[0]? = some ⟨0, request⟩ := by
    have hSome : 0 < n := hn ▸ Nat.succ_pos _
    simp [full, filled, hSome]
  obtain ⟨⟨entry, channel⟩, hRecv⟩ : ∃ taken, (full []).channel.tryRecv = some taken := by
    refine Option.ne_none_iff_exists'.mp fun hNone => ?_
    rw [Channel.tryRecv_none.mp hNone] at hHead
    cases hHead
  obtain ⟨-, -, hQueue⟩ := Channel.tryRecv_some hRecv
  obtain rfl : entry = ⟨0, request⟩ := by
    rw [hQueue] at hHead
    exact Option.some.inj hHead
  have hTake : AccessLog.step { full [⟨request, .returned false⟩] with
        dropped := 1, pendingDropReport := 1 } (.work false .working) =
      some { full [⟨request, .returned false⟩] with
        channel, dropped := 1, pendingDropReport := 1
        worker := .writing ⟨0, request⟩ (accessLogBatchSize - 1) } := by
    have hSame : (full [⟨request, .returned false⟩]).channel.tryRecv =
        some (⟨0, request⟩, channel) := hRecv
    show some (AccessLog.receive _ _) = _
    rw [AccessLog.receive, hSame]
  refine ⟨_, Machine.run_append.mpr ⟨_, run_fill n hn.le, Machine.run_cons.mpr ⟨_, hBegin,
    Machine.run_cons.mpr ⟨_, hCheck, Machine.run_cons.mpr ⟨_, hDrop, Machine.run_cons.mpr ⟨_,
    hReport, Machine.run_cons.mpr ⟨_, hTake, rfl⟩⟩⟩⟩⟩⟩, ?_, ?_, rfl, rfl⟩
  · intro call hMem
    rcases List.mem_append.mp hMem with hSent | hLast
    · exact ⟨true, congrArg LogCall.point (List.eq_of_mem_replicate hSent)⟩
    · exact ⟨false, congrArg LogCall.point (List.mem_singleton.mp hLast)⟩
  · show (List.replicate n (LogCall.mk request (.returned true)) ++
      [LogCall.mk request (.returned false)]).countP _ = 1
    rw [List.countP_append, List.countP_replicate]
    rfl

theorem access_log_accounted_overflow :
    ∃ s, Machine.run AccessLog.step new (overflow accessLogQueueCapacity) = some s ∧ s.Accounted ∧
      s.lost = [⟨0, request⟩] ∧ s.calls.length = s.channel.sent.length + 1 ∧
      s.reported + s.worker.taken + s.pendingDropReport = s.dropped := by
  obtain ⟨s, hRun, hReturned, hRefused, hLost, hUnreported⟩ := exists_overflow rfl
  obtain ⟨hAccounted, hSettled⟩ := access_log_accounted hRun
  obtain ⟨hLength, hDropped⟩ := hSettled hReturned
  rw [hUnreported, UInt64.add_zero] at hDropped
  exact ⟨s, hRun, hAccounted, hLost, hRefused ▸ hLength, hDropped⟩

/-! ## The worker alone -/

/-- What the worker leaves as it is while the streams work. -/
structure Frame (s s' : AccessLog) : Prop where
  calls : s'.calls = s.calls
  sent : s'.channel.sent = s.channel.sent
  queue : s'.channel.queue.length ≤ s.channel.queue.length
  lost : s'.lost = s.lost
  unreported : s'.unreported = s.unreported

theorem Frame.refl (s : AccessLog) : Frame s s := ⟨rfl, rfl, le_rfl, rfl, rfl⟩

theorem Frame.trans {t u : AccessLog} (h : Frame s t) (h' : Frame t u) : Frame s u :=
  ⟨h'.calls.trans h.calls, h'.sent.trans h.sent, h'.queue.trans h.queue, h'.lost.trans h.lost,
    h'.unreported.trans h.unreported⟩

theorem receive_frame (s : AccessLog) (budget : Nat) : Frame s (s.receive budget) := by
  unfold AccessLog.receive
  cases hRecv : s.channel.tryRecv with
  | none => exact ⟨rfl, rfl, le_rfl, rfl, rfl⟩
  | some taken =>
    obtain ⟨entry, channel⟩ := taken
    obtain ⟨hSent, -, hQueue⟩ := Channel.tryRecv_some hRecv
    refine ⟨rfl, hSent, ?_, rfl, rfl⟩
    rw [hQueue]
    exact Nat.le_succ _

theorem writeAccessLog_frame (s : AccessLog) (entry : AccessLogEntry) :
    Frame s (s.writeAccessLog .working entry) := by
  unfold writeAccessLog
  cases entry.isError <;> exact ⟨rfl, rfl, le_rfl, rfl, rfl⟩

theorem reportDropped_frame (s : AccessLog) (count : UInt64) :
    Frame s (s.reportDropped .working count) := by
  unfold reportDropped
  by_cases hSome : 0 < count
  · rw [if_pos hSome]
    exact ⟨rfl, rfl, le_rfl, rfl, rfl⟩
  · rw [if_neg hSome]
    exact .refl s

theorem workerStep_frame (s : AccessLog) (due : Bool) : Frame s (s.workerStep due .working) := by
  have hGoOn : ∀ t worker pending flushed, Frame s t →
      Frame s { t with worker, pendingDropReport := pending, flushed } :=
    fun _ _ _ _ h => ⟨h.calls, h.sent, h.queue, h.lost, h.unreported⟩
  unfold AccessLog.workerStep
  cases s.worker with
  | receiving => exact receive_frame s _
  | writing entry budget => exact hGoOn _ _ _ _ (writeAccessLog_frame s entry)
  | draining budget =>
    cases budget with
    | zero => exact hGoOn _ _ _ _ (.refl s)
    | succ budget => exact receive_frame s budget
  | timing => cases due <;> exact hGoOn _ _ _ _ (.refl s)
  | reporting count => exact hGoOn _ _ _ _ (reportDropped_frame s count)
  | flushing => exact hGoOn _ _ _ _ (.refl s)

/-- The worker goes from one state to the other while no call moves. -/
def Works (s s' : AccessLog) : Prop :=
  ∃ n, Machine.run AccessLog.step s (List.replicate n (.work true .working)) = some s'

theorem Works.refl (s : AccessLog) : Works s s := ⟨0, rfl⟩

theorem Works.head {s' : AccessLog} (h : Works (s.workerStep true .working) s') : Works s s' := by
  obtain ⟨n, hRun⟩ := h
  refine ⟨n + 1, ?_⟩
  rw [List.replicate_succ, Machine.run_cons]
  exact ⟨_, rfl, hRun⟩

theorem Works.trans {t u : AccessLog} (h : Works s t) (h' : Works t u) : Works s u := by
  obtain ⟨n, hRun⟩ := h
  obtain ⟨m, hRun'⟩ := h'
  refine ⟨n + m, ?_⟩
  rw [← List.replicate_append_replicate, Machine.run_append]
  exact ⟨t, hRun, hRun'⟩

theorem Works.frame {s' : AccessLog} (h : Works s s') : Frame s s' := by
  obtain ⟨n, hRun⟩ := h
  induction n generalizing s with
  | zero =>
    cases hRun
    exact .refl _
  | succ n ih =>
    rw [List.replicate_succ, Machine.run_cons] at hRun
    obtain ⟨t, hStep, hRest⟩ := hRun
    cases hStep
    exact (workerStep_frame _ true).trans (ih hRest)

@[simp] theorem reportDropped_channel (s : AccessLog) (streams : Streams) (count : UInt64) :
    (s.reportDropped streams count).channel = s.channel := by
  unfold reportDropped
  split_ifs <;> rfl

@[simp] theorem reportDropped_pending (s : AccessLog) (streams : Streams) (count : UInt64) :
    (s.reportDropped streams count).pendingDropReport = s.pendingDropReport := by
  unfold reportDropped
  split_ifs <;> rfl

/-- From the end of a batch the worker comes back to the channel, with all reported and flushed. -/
theorem works_of_timing (hWorker : s.worker = .timing) :
    ∃ s', Works s s' ∧ s'.worker = .receiving ∧ s'.channel = s.channel ∧
      s'.pendingDropReport = 0 ∧ s'.flushed = (s'.stdout.length, s'.stderr.length) := by
  refine ⟨_, .head (.head (.head (.refl _))), ?_⟩
  simp [AccessLog.workerStep, hWorker, Streams.working]

theorem works_of_draining (budget : Nat) (hWorker : s.worker = .draining budget) :
    ∃ s', Works s s' ∧ s'.worker = .timing := by
  induction budget generalizing s with
  | zero => exact ⟨_, .head (.refl _), by simp [AccessLog.workerStep, hWorker]⟩
  | succ budget ih =>
    have hStep : s.workerStep true .working = s.receive budget := by
      rw [AccessLog.workerStep, hWorker]
    cases hRecv : s.channel.tryRecv with
    | none => exact ⟨_, .head (.refl _), by simp [hStep, AccessLog.receive, hRecv]⟩
    | some taken =>
      obtain ⟨entry, channel⟩ := taken
      have hWriting : (s.workerStep true .working).worker = .writing entry budget := by
        simp [hStep, AccessLog.receive, hRecv]
      obtain ⟨s', hWorks, hTiming⟩ := ih
        (s := (s.workerStep true .working).workerStep true .working) (by
          rw [AccessLog.workerStep, hWriting])
      exact ⟨s', hWorks.head.head, hTiming⟩

/-- From the channel the worker comes to the end of a batch, with at least one entry less. -/
theorem works_of_receiving (hWorker : s.worker = .receiving) :
    ∃ s', Works s s' ∧ s'.worker = .timing ∧
      s'.channel.queue.length ≤ s.channel.queue.length - 1 := by
  have hStep : s.workerStep true .working = s.receive (accessLogBatchSize - 1) := by
    rw [AccessLog.workerStep, hWorker]
  cases hRecv : s.channel.tryRecv with
  | none =>
    have hTiming : s.workerStep true .working = { s with worker := .timing } := by
      rw [hStep, AccessLog.receive, hRecv]
    refine ⟨_, .head (.refl _), by rw [hTiming], ?_⟩
    rw [hTiming, Channel.tryRecv_none.mp hRecv]
    exact Nat.zero_le _
  | some taken =>
    obtain ⟨entry, channel⟩ := taken
    obtain ⟨-, -, hQueue⟩ := Channel.tryRecv_some hRecv
    have hWriting : s.workerStep true .working =
        { s with channel, worker := .writing entry (accessLogBatchSize - 1) } := by
      rw [hStep, AccessLog.receive, hRecv]
    obtain ⟨s', hWorks, hTiming⟩ := works_of_draining
      (s := (s.workerStep true .working).workerStep true .working) (accessLogBatchSize - 1) (by
        rw [hWriting]
        rfl)
    refine ⟨s', hWorks.head.head, hTiming, ?_⟩
    have hLess := hWorks.head.frame.queue
    rw [hWriting] at hLess
    rw [hQueue]
    exact hLess

theorem works_to_timing (s : AccessLog) : ∃ s', Works s s' ∧ s'.worker = .timing := by
  have hReceiving : ∀ t : AccessLog, t.worker = .receiving →
      ∃ s', Works t s' ∧ s'.worker = .timing := fun t hWorker =>
    (works_of_receiving hWorker).imp fun _ h => ⟨h.1, h.2.1⟩
  cases hWorker : s.worker with
  | receiving => exact hReceiving s hWorker
  | writing entry budget =>
    obtain ⟨s', hWorks, hTiming⟩ := works_of_draining (s := s.workerStep true .working) budget (by
      rw [AccessLog.workerStep, hWorker])
    exact ⟨s', hWorks.head, hTiming⟩
  | draining budget => exact works_of_draining budget hWorker
  | timing => exact ⟨s, .refl s, hWorker⟩
  | reporting count =>
    obtain ⟨s', hWorks, hTiming⟩ := hReceiving
      ((s.workerStep true .working).workerStep true .working) (by
        simp [AccessLog.workerStep, hWorker])
    exact ⟨s', hWorks.head.head, hTiming⟩
  | flushing =>
    obtain ⟨s', hWorks, hTiming⟩ := hReceiving (s.workerStep true .working) (by
      rw [AccessLog.workerStep, hWorker])
    exact ⟨s', hWorks.head, hTiming⟩

theorem works_to_empty (n : Nat) (hQueue : s.channel.queue.length ≤ n)
    (hWorker : s.worker = .timing) :
    ∃ s', Works s s' ∧ s'.worker = .receiving ∧ s'.channel.queue = [] ∧
      s'.pendingDropReport = 0 ∧ s'.flushed = (s'.stdout.length, s'.stderr.length) := by
  induction n generalizing s with
  | zero =>
    obtain ⟨s', hWorks, hReceiving, hChannel, hSettled⟩ := works_of_timing hWorker
    refine ⟨s', hWorks, hReceiving, ?_, hSettled⟩
    rw [hChannel]
    exact List.eq_nil_of_length_eq_zero (Nat.le_zero.mp hQueue)
  | succ n ih =>
    obtain ⟨t, hWorks, hReceiving, hChannel, -⟩ := works_of_timing hWorker
    obtain ⟨u, hBatch, hTiming, hLess⟩ := works_of_receiving hReceiving
    rw [hChannel] at hLess
    obtain ⟨s', hRest, hEnd⟩ := ih (by omega) hTiming
    exact ⟨s', (hWorks.trans hBatch).trans hRest, hEnd⟩

/-- From every state reached, so many steps of the worker alone, with streams that work, write all
that was accepted and not lost before, each line to its stream and in the order of the channel,
report all drops but those in lost reports, and flush. -/
theorem access_log_drains {actions : List Action}
    (hRun : Machine.run AccessLog.step new actions = some s) :
    ∃ n s', Machine.run AccessLog.step s (List.replicate n (.work true .working)) = some s' ∧
      s'.calls = s.calls ∧ s'.channel.sent = s.channel.sent ∧ s'.lost = s.lost ∧
      s'.stdout = s.channel.sent.filter (fun entry => !entry.isError && entry ∉ s.lost) ∧
      s'.stderr.filterMap StderrLine.entry? =
        s.channel.sent.filter (fun entry => entry.isError && entry ∉ s.lost) ∧
      s'.reported + s.unreported = UInt64.ofNat s.refused ∧ s'.pendingDropReport = 0 ∧
      s'.flushed = (s'.stdout.length, s'.stderr.length) := by
  obtain ⟨t, hBatch, hTiming⟩ := works_to_timing s
  obtain ⟨s', hRest, hReceiving, hQueue, hPending, hFlushed⟩ := works_to_empty _ le_rfl hTiming
  have hWorks := hBatch.trans hRest
  have hFrame := hWorks.frame
  obtain ⟨n, hMoves⟩ := hWorks
  have h : s'.Accounted := accounted_of_run (Machine.run_append.mpr ⟨s, hRun, hMoves⟩)
  obtain ⟨written, hReceived, -, hStdout, hStderr⟩ := h.written
  have hAll : s.channel.sent = written := by
    rw [← hFrame.sent, s'.channel.fifo, hQueue, hReceived, hReceiving]
    simp [LogWorker.held]
  rw [← hAll, hFrame.lost] at hStdout hStderr
  have hReported := h.reported
  rw [hReceiving, hPending, hFrame.unreported] at hReported
  refine ⟨n, s', hMoves, hFrame.calls, hFrame.sent, hFrame.lost, hStdout, hStderr, ?_, hPending,
    hFlushed⟩
  rw [refused, ← hFrame.calls]
  simpa [LogWorker.taken, refused] using hReported

theorem access_log_drains_overflow :
    ∃ s, Machine.run AccessLog.step new (overflow accessLogQueueCapacity) = some s ∧
      ∃ n s', Machine.run AccessLog.step s (List.replicate n (.work true .working)) = some s' ∧
        s'.lost = [⟨0, request⟩] ∧
        s'.stdout = s.channel.sent.filter (fun entry => !entry.isError && entry ≠ ⟨0, request⟩) ∧
        s'.reported = 1 := by
  obtain ⟨s, hRun, -, hRefused, hLost, hUnreported⟩ := exists_overflow rfl
  obtain ⟨n, s', hWorks, -, -, hLost', hStdout, -, hReported, -⟩ := access_log_drains hRun
  rw [hLost] at hLost'
  rw [hUnreported, hRefused, UInt64.add_zero] at hReported
  refine ⟨s, hRun, n, s', hWorks, hLost', hStdout.trans ?_, hReported⟩
  simp [hLost]

end AccessLog

end Caelix
