import Mathlib.Data.List.Nodup
import Caelix.Lib.Workers
import Caelix.Microservices.Redis

/-!
# The consumer group of the event stream

The state that the replicas of a service share on Redis, as its documentation describes
the commands: an entry stays pending until it is acknowledged, `XAUTOCLAIM` raises its
delivery count and `XCLAIM` with `JUSTID` does not. The stream is not trimmed. How long an
entry has been idle is left open, so a reclaim may come at any time.

* `EventGroup.server`: the server of the event tasks.
* `acknowledged_executed`: an entry that is no longer pending has been acknowledged.
* `deadLetter_executed`: a dead letter that has been added is stored.
-/

namespace Caelix

open Interaction

structure PendingEntry where
  consumer : String
  timesDelivered : Nat
  deriving DecidableEq, Repr

/-- The stream with the group that has read its first entries. -/
structure EventGroup where
  entries : List StreamEntry
  read : Nat
  pending : String → Option PendingEntry
  deadLetters : List (String × DeadLetterEnvelope)
  ids_nodup : (entries.map (·.id)).Nodup
  read_le : read ≤ entries.length

/-- An entry that a loop has read or claimed, on its way to a task of that consumer. -/
structure EventTask where
  consumer : String
  entry : StreamEntry

namespace EventGroup

def empty : EventGroup := ⟨[], 0, fun _ => none, [], List.nodup_nil, Nat.le_refl 0⟩

def setPending (g : EventGroup) (id : String) (p : Option PendingEntry) : EventGroup :=
  { g with pending := Function.update g.pending id p }

theorem nodup_snoc {entries : List StreamEntry} {entry : StreamEntry}
    (hNodup : (entries.map (·.id)).Nodup) (h : entry.id ∉ entries.map (·.id)) :
    ((entries ++ [entry]).map (·.id)).Nodup := by
  rw [List.map_append, List.nodup_append]
  refine ⟨hNodup, List.nodup_singleton _, ?_⟩
  intro id hId other hOther hSame
  rw [hSame, List.mem_singleton.mp hOther] at hId
  exact h hId

/-- `XADD` of an event, which gets an id of its own. -/
def append (g : EventGroup) (entry : StreamEntry) (h : entry.id ∉ g.entries.map (·.id)) :
    EventGroup where
  entries := g.entries ++ [entry]
  read := g.read
  pending := g.pending
  deadLetters := g.deadLetters
  ids_nodup := nodup_snoc g.ids_nodup h
  read_le := by
    rw [List.length_append]
    exact Nat.le_add_right_of_le g.read_le

/-- `XREADGROUP` delivers the next entry of the stream. -/
def readNext (g : EventGroup) (consumer id : String) (h : g.read < g.entries.length) : EventGroup :=
  { g.setPending id (some ⟨consumer, 1⟩) with read := g.read + 1, read_le := h }

/-- An entry that `read_group` or `reclaim` gives to a consumer. -/
inductive Assign (g : EventGroup) (task : EventTask) : EventGroup → Prop
  | read (h : g.read < g.entries.length) (hEntry : g.entries[g.read] = task.entry) :
      Assign g task (g.readNext task.consumer task.entry.id h)
  | reclaim {p : PendingEntry} (hEntry : task.entry ∈ g.entries)
      (h : g.pending task.entry.id = some p) :
      Assign g task (g.setPending task.entry.id (some ⟨task.consumer, p.timesDelivered + 1⟩))

/-- The effect of a call of an event task, and its reply. Calls that are not to Redis
change nothing here; the last two are made by command tasks. -/
def Execute (g : EventGroup) (task : EventTask) : (c : RedisCall) → EventGroup → RedisReply c → Prop
  | .ack id, after, r => after = g.setPending id none ∧ r = .ok ()
  | .touchPending id, after, r =>
    after = g.setPending id ((g.pending id).map fun p => { p with consumer := task.consumer }) ∧
      r = .ok ()
  | .pending id, after, r => after = g ∧ r = .ok ((g.pending id).map (·.timesDelivered))
  | .addDeadLetter stream failure, after, r =>
    after = { g with deadLetters := g.deadLetters ++ [(stream, failure)] } ∧ ∃ id, r = .ok id
  | .invoke .., after, _ => after = g
  | .returned, after, _ => after = g
  | .nowMillis, after, _ => after = g
  | .ackDelete _, after, r => after = g ∧ r = .ok ()
  | .publish .., after, r => after = g ∧ r = .ok ()

/-- A call to Redis may fail with any error. -/
def Failure : (c : RedisCall) → RedisReply c → Prop
  | .ack _, r | .ackDelete _, r | .touchPending _, r | .publish .., r => ∃ e, r = .error e
  | .pending _, r => ∃ e, r = .error e
  | .addDeadLetter .., r => ∃ e, r = .error e
  | .invoke .., _ | .returned, _ | .nowMillis, _ => False

def server : Workers.Server EventGroup EventTask RedisCall RedisReply where
  change g after := ∃ entry h, after = g.append entry h
  assign := Assign
  execute := Execute
  failure := Failure

/-- An entry that the group has delivered and that is no longer pending. -/
def Acknowledged (g : EventGroup) (entry : StreamEntry) : Prop :=
  entry ∈ g.entries.take g.read ∧ g.pending entry.id = none

@[simp] theorem setPending_entries (g : EventGroup) (id : String) (p : Option PendingEntry) :
    (g.setPending id p).entries = g.entries := rfl

@[simp] theorem setPending_read (g : EventGroup) (id : String) (p : Option PendingEntry) :
    (g.setPending id p).read = g.read := rfl

theorem setPending_pending (g : EventGroup) (id : String) (p : Option PendingEntry) (other : String) :
    (g.setPending id p).pending other = if other = id then p else g.pending other :=
  Function.update_apply ..

/-! ## Entries -/

theorem execute_entries {g after : EventGroup} {task : EventTask} {c : RedisCall} {r : RedisReply c}
    (h : Execute g task c after r) : after.entries = g.entries ∧ after.read = g.read := by
  cases c with
  | ack id | touchPending id | pending id | addDeadLetter stream failure | ackDelete id =>
    obtain ⟨rfl, -⟩ := h
    exact ⟨rfl, rfl⟩
  | publish channel bytes =>
    obtain ⟨rfl, -⟩ := h
    exact ⟨rfl, rfl⟩
  | invoke handler context payload | returned | nowMillis =>
    obtain rfl : after = g := h
    exact ⟨rfl, rfl⟩

theorem assign_entries {g after : EventGroup} {task : EventTask} (h : Assign g task after) :
    after.entries = g.entries ∧ task.entry ∈ g.entries := by
  cases h with
  | read h hEntry => exact ⟨rfl, hEntry ▸ List.getElem_mem h⟩
  | reclaim hEntry _ => exact ⟨rfl, hEntry⟩

/-- Tasks work on entries of the stream. -/
theorem jobInvariant : Workers.JobInvariant server fun g task => task.entry ∈ g.entries where
  assigned := fun h => (assign_entries h).1 ▸ (assign_entries h).2
  stable := fun _ =>
    { change := by
        rintro g _ ⟨entry, h, rfl⟩ hTask
        exact List.mem_append_left _ hTask
      assign := fun h hTask => (assign_entries h).1 ▸ hTask
      execute := fun h hTask => (execute_entries h).1 ▸ hTask }

theorem mem_entries {g : EventGroup} {entry : StreamEntry} (h : g.Acknowledged entry) :
    entry ∈ g.entries :=
  List.mem_of_mem_take h.1

theorem eq_of_id {g : EventGroup} {entry other : StreamEntry} (h : entry ∈ g.entries)
    (hOther : other ∈ g.entries) (hId : entry.id = other.id) : entry = other :=
  List.inj_on_of_nodup_map g.ids_nodup h hOther hId

/-! ## Acknowledgements -/

/-- Entries leave the pending list by an acknowledgement only. -/
theorem acknowledged_setPending {g : EventGroup} {id : String} {p : Option PendingEntry}
    (h : p = none → g.pending id = none) {entry : StreamEntry}
    (hAck : (g.setPending id p).Acknowledged entry) : g.Acknowledged entry := by
  refine ⟨hAck.1, ?_⟩
  have hNone := hAck.2
  rw [setPending_pending] at hNone
  split_ifs at hNone with hId
  · exact hId ▸ h hNone
  · exact hNone

theorem acknowledged_assign {g after : EventGroup} {task : EventTask} (h : Assign g task after)
    {entry : StreamEntry} (hAck : after.Acknowledged entry) : g.Acknowledged entry := by
  cases h with
  | read h hEntry =>
    have hNone : (if entry.id = task.entry.id then some ⟨task.consumer, 1⟩ else g.pending entry.id) =
        (none : Option PendingEntry) := by
      rw [← setPending_pending]
      exact hAck.2
    split_ifs at hNone with hId
    refine ⟨?_, hNone⟩
    have hTake : entry ∈ g.entries.take (g.read + 1) := hAck.1
    rw [List.take_succ_eq_append_getElem h] at hTake
    rcases List.mem_append.mp hTake with hOld | hNew
    · exact hOld
    · refine absurd ?_ hId
      rw [List.mem_singleton.mp hNew, hEntry]
  | reclaim _ _ =>
    refine acknowledged_setPending ?_ hAck
    exact nofun

theorem acknowledged_execute {g after : EventGroup} {task : EventTask} {c : RedisCall}
    {r : RedisReply c} (h : Execute g task c after r) {entry : StreamEntry}
    (hAck : after.Acknowledged entry) : g.Acknowledged entry ∨ c = .ack entry.id := by
  cases c with
  | ack id =>
    obtain ⟨rfl, -⟩ := h
    by_cases hId : entry.id = id
    · exact .inr (congrArg _ hId.symm)
    · have hNone := hAck.2
      rw [setPending_pending, if_neg hId] at hNone
      exact .inl ⟨hAck.1, hNone⟩
  | touchPending id =>
    obtain ⟨rfl, -⟩ := h
    exact .inl (acknowledged_setPending (fun h => Option.map_eq_none_iff.mp h) hAck)
  | pending id | addDeadLetter stream failure | ackDelete id =>
    obtain ⟨rfl, -⟩ := h
    exact .inl hAck
  | publish channel bytes =>
    obtain ⟨rfl, -⟩ := h
    exact .inl hAck
  | invoke handler context payload | returned | nowMillis =>
    obtain rfl : after = g := h
    exact .inl hAck

/-- An entry that is no longer pending has been acknowledged. -/
theorem acknowledged_executed : Workers.Invariant server fun g calls =>
    ∀ entry, g.Acknowledged entry → .ack entry.id ∈ calls where
  change := by
    rintro g _ calls ⟨new, h, rfl⟩ hCalls entry ⟨hTake, hPending⟩
    refine hCalls entry ⟨?_, hPending⟩
    rwa [append, List.take_append_of_le_length g.read_le] at hTake
  assign := fun h hCalls entry hAck => hCalls entry (acknowledged_assign h hAck)
  execute := by
    intro g after task c r calls h hCalls entry hAck
    rcases acknowledged_execute h hAck with hOld | rfl
    · exact List.mem_append_left _ (hCalls entry hOld)
    · exact List.mem_append_right _ List.mem_cons_self

/-! ## Dead letters -/

theorem assign_deadLetters {g after : EventGroup} {task : EventTask} (h : Assign g task after) :
    after.deadLetters = g.deadLetters := by
  cases h <;> rfl

theorem execute_deadLetters {g after : EventGroup} {task : EventTask} {c : RedisCall}
    {r : RedisReply c} (h : Execute g task c after r) : g.deadLetters ⊆ after.deadLetters := by
  cases c with
  | addDeadLetter stream failure =>
    obtain ⟨rfl, -⟩ := h
    exact List.subset_append_left ..
  | ack id | touchPending id | pending id | ackDelete id =>
    obtain ⟨rfl, -⟩ := h
    exact List.Subset.refl _
  | publish channel bytes =>
    obtain ⟨rfl, -⟩ := h
    exact List.Subset.refl _
  | invoke handler context payload | returned | nowMillis =>
    obtain rfl : after = g := h
    exact List.Subset.refl _

/-- A dead letter that has been added is stored. -/
theorem deadLetter_executed : Workers.Invariant server fun g calls =>
    ∀ stream failure, .addDeadLetter stream failure ∈ calls → (stream, failure) ∈ g.deadLetters where
  change := by
    rintro g _ calls ⟨new, h, rfl⟩ hCalls
    exact hCalls
  assign := fun h hCalls => (assign_deadLetters h).symm ▸ hCalls
  execute := by
    intro g after task c r calls h hCalls stream failure hMem
    rcases List.mem_append.mp hMem with hOld | hNew
    · exact execute_deadLetters h (hCalls stream failure hOld)
    · obtain rfl := List.mem_singleton.mp hNew
      obtain ⟨rfl, -⟩ := h
      exact List.mem_append_right _ List.mem_cons_self

end EventGroup

end Caelix
