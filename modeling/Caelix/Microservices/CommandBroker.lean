import Caelix.Lib.Embedding
import Caelix.Lib.WorkerReplies
import Caelix.Microservices.ConsumerGroup
import Caelix.Microservices.RedisClient

/-!
# Commands on one stream

The clients that send commands to one stream and the replicas that process them, with the
part of Redis that they share: the entries of the stream, what each consumer group has read
and not acknowledged, and the channels of the replies. Redis and the UUIDs are not part of
the repository; the definitions state what their documentation says of the commands used
here: a deleted entry is not delivered again, a published message is kept for the
subscription that the channel has and lost without one, every entry gets an id of its own,
and a UUID is drawn once. Redis does not answer a read or a reclaim and start its task at
once: what it has handed out is on its way to the replica (`Workers.State.assigned`).

* `entry_origin`: an entry comes from a client, or asks for no reply to one.
* `message_origin`: a message on a channel has been published there.
* `deleted_executed`, `executed_deleted`: what is deleted, and by which call.
-/

namespace Caelix

open Interaction

/-- How far a group has read, and what its consumers have not acknowledged. -/
structure GroupState where
  read : Nat
  pending : String → Option PendingEntry

structure CommandBroker where
  entries : List StreamEntry
  deleted : List String
  group : String → GroupState
  channel : String → Option (List ReplyMessage)
  drawn : List String
  ids_nodup : (entries.map (·.id)).Nodup

/-- A process of a service that runs a command loop. -/
structure CommandReplica where
  options : RedisTransportOptions
  handler : MessageHandlerDef
  group : String
  consumer : String

structure CommandTask where
  replica : CommandReplica
  entry : StreamEntry

/-- A call of `RedisClient::request`; the payload is what `serde_json::to_value` gives. -/
structure ClientRequest (R : Type) where
  options : RedisClientOptions
  subject : String
  payload : Except String Json
  fromValue : Json → Except String R

inductive RpcJob (R : Type) where
  | task (task : CommandTask)
  | request (request : ClientRequest R)

inductive RpcResult (R : Type) where
  | task (result : Except MicroserviceError Unit)
  | request (result : Except RequestError R)

abbrev RpcCall := RedisCall ⊕ ClientCall

abbrev RpcReply := Embedding.SumReply RedisReply ClientReply

namespace CommandBroker

/-- Groups are created to read from the start of the stream. -/
def empty : CommandBroker := ⟨[], [], fun _ => ⟨0, fun _ => none⟩, fun _ => none, [], List.nodup_nil⟩

def append (b : CommandBroker) (entry : StreamEntry) (h : entry.id ∉ b.entries.map (·.id)) :
    CommandBroker where
  entries := b.entries ++ [entry]
  deleted := b.deleted
  group := b.group
  channel := b.channel
  drawn := b.drawn
  ids_nodup := EventGroup.nodup_snoc b.ids_nodup h

def setGroup (b : CommandBroker) (name : String) (g : GroupState) : CommandBroker :=
  { b with group := Function.update b.group name g }

def setPending (b : CommandBroker) (name id : String) (p : Option PendingEntry) : CommandBroker :=
  b.setGroup name { b.group name with pending := Function.update (b.group name).pending id p }

def setChannel (b : CommandBroker) (channel : String) (messages : Option (List ReplyMessage)) :
    CommandBroker :=
  { b with channel := Function.update b.channel channel messages }

/-- `XACK` and `XDEL` in one transaction. -/
def complete (b : CommandBroker) (name id : String) : CommandBroker :=
  { b.setPending name id none with deleted := id :: b.deleted }

/-- `XCLAIM` with `JUSTID`, which removes a deleted entry from the pending ones. -/
def touch (b : CommandBroker) (replica : CommandReplica) (id : String) : CommandBroker :=
  b.setPending replica.group id
    (if id ∈ b.deleted then none
      else ((b.group replica.group).pending id).map fun p => { p with consumer := replica.consumer })

/-- `PUBLISH`. -/
def publish (b : CommandBroker) (channel : String) (message : ReplyMessage) : CommandBroker :=
  b.setChannel channel ((b.channel channel).map (· ++ [message]))

section

variable (codec : EnvelopeCodec) (stableName : String → String) (stream : String)

/-- An entry of another writer: it asks for no reply on the channel of a client. -/
def Foreign (entry : StreamEntry) : Prop :=
  ∀ bytes request id, entry.envelope = some bytes → codec.decodeRequest bytes = .ok request →
    request.replyChannel ≠ some (replyChannel id)

/-- What happens beside the calls of clients and tasks. -/
inductive Change (b : CommandBroker) : CommandBroker → Prop
  | foreign {entry : StreamEntry} (h : entry.id ∉ b.entries.map (·.id)) (hForeign : Foreign codec entry) :
      Change b (b.append entry h)
  /-- A subscription is lost with its messages. -/
  | disconnected (channel : String) : Change b (b.setChannel channel none)

/-- An entry that the reply to `XREADGROUP` or `XAUTOCLAIM` brings to a replica, whose loop
starts a task with it when the reply arrives. -/
inductive AssignTask (b : CommandBroker) (task : CommandTask) : CommandBroker → Prop
  | read {n : Nat} (hRead : (b.group task.replica.group).read ≤ n)
      (hEntry : b.entries[n]? = some task.entry)
      (hSkipped : ∀ k e, (b.group task.replica.group).read ≤ k → k < n → b.entries[k]? = some e →
        e.id ∈ b.deleted)
      (hLive : task.entry.id ∉ b.deleted) :
      AssignTask b task (b.setGroup task.replica.group
        ⟨n + 1, Function.update (b.group task.replica.group).pending task.entry.id
          (some ⟨task.replica.consumer, 1⟩)⟩)
  | reclaim {p : PendingEntry} (hEntry : task.entry ∈ b.entries) (hLive : task.entry.id ∉ b.deleted)
      (h : (b.group task.replica.group).pending task.entry.id = some p) :
      AssignTask b task (b.setPending task.replica.group task.entry.id
        (some ⟨task.replica.consumer, p.timesDelivered + 1⟩))

/-- A replica of a handler on this stream is given an entry, or a client a request to send. -/
inductive Assign {R : Type} (b : CommandBroker) : RpcJob R → CommandBroker → Prop
  | task {task : CommandTask} {after : CommandBroker}
      (hStream : commandStream stableName task.replica.handler.pattern = stream)
      (h : AssignTask b task after) : Assign b (.task task) after
  | request (request : ClientRequest R) : Assign b (.request request) b

/-- The effect of a call of a task. The last three are not made by command tasks. -/
def ExecuteTask (b : CommandBroker) (task : CommandTask) :
    (c : RedisCall) → CommandBroker → RedisReply c → Prop
  | .ackDelete id, after, r => after = b.complete task.replica.group id ∧ r = .ok ()
  | .touchPending id, after, r => after = b.touch task.replica id ∧ r = .ok ()
  | .publish channel bytes, after, r => after = b.publish channel (codec.message bytes) ∧ r = .ok ()
  | .invoke .., after, _ => after = b
  | .returned, after, _ => after = b
  | .nowMillis, after, _ => after = b
  | .ack id, after, r => after = b.setPending task.replica.group id none ∧ r = .ok ()
  | .pending id, after, r =>
    after = b ∧ r = .ok (((b.group task.replica.group).pending id).map (·.timesDelivered))
  | .addDeadLetter .., after, r => after = b ∧ ∃ id, r = .ok id

/-- The effect of a call of a client. -/
def ExecuteClient (b : CommandBroker) : (c : ClientCall) → CommandBroker → ClientReply c → Prop
  | .newUuid, after, r => r ∉ b.drawn ∧ after = { b with drawn := r :: b.drawn }
  | .connectPubsub, after, r => after = b ∧ r = .ok ()
  | .subscribe channel, after, r => after = b.setChannel channel (some []) ∧ r = .ok ()
  | .elapsed, after, _ => after = b
  | .nowMillis, after, _ => after = b
  | .add name _ subject bytes, after, r =>
    if name = stream then
      ∃ id, ∃ h : id ∉ b.entries.map (·.id), after = b.append ⟨id, subject, some bytes⟩ h ∧ r = .ok id
    else after = b ∧ ∃ id, r = .ok id
  | .nextMessage channel, after, r =>
    (b.channel channel = none ∧ after = b ∧ r = none) ∨
    ∃ message rest, b.channel channel = some (message :: rest) ∧
      after = b.setChannel channel (some rest) ∧ r = some (.ok message)

def Execute {R : Type} (b : CommandBroker) (job : RpcJob R) :
    (c : RpcCall) → CommandBroker → RpcReply c → Prop
  | .inl c, after, r => ∃ task, job = .task task ∧ ExecuteTask codec b task c after r
  | .inr c, after, r => ExecuteClient stream b c after r

/-- A call to Redis may fail with any error. -/
def Failure : (c : RpcCall) → RpcReply c → Prop
  | .inl c, r => EventGroup.Failure c r
  | .inr (.connectPubsub), r => ∃ e, r = .error e
  | .inr (.subscribe _), r => ∃ e, r = .error e
  | .inr (.add ..), r => ∃ e, r = .error e
  | .inr (.nextMessage _), r => r = none
  | .inr .newUuid, _ | .inr .elapsed, _ | .inr .nowMillis, _ => False

def server (R : Type) : Workers.Server CommandBroker (RpcJob R) RpcCall RpcReply where
  change := Change codec
  assign := Assign stableName stream
  execute := Execute codec stream
  failure := Failure

end

/-! ## The stream -/

section

variable {codec : EnvelopeCodec} {stableName : String → String} {stream : String} {R : Type}
  {b after : CommandBroker} {job : RpcJob R}

theorem assignTask_same {task : CommandTask} (h : AssignTask b task after) :
    after.entries = b.entries ∧ after.deleted = b.deleted ∧ after.channel = b.channel ∧
      after.drawn = b.drawn := by
  cases h <;> exact ⟨rfl, rfl, rfl, rfl⟩

theorem assignTask_entry {task : CommandTask} (h : AssignTask b task after) :
    task.entry ∈ b.entries ∧ task.entry.id ∉ b.deleted := by
  cases h with
  | read _ hEntry _ hLive => exact ⟨List.mem_of_getElem? hEntry, hLive⟩
  | reclaim hEntry hLive _ => exact ⟨hEntry, hLive⟩

theorem assign_same (h : Assign stableName stream b job after) :
    after.entries = b.entries ∧ after.deleted = b.deleted ∧ after.channel = b.channel ∧
      after.drawn = b.drawn := by
  cases h with
  | task _ h => exact assignTask_same h
  | request _ => exact ⟨rfl, rfl, rfl, rfl⟩

theorem executeTask_entries {task : CommandTask} {c : RedisCall} {r : RedisReply c}
    (h : ExecuteTask codec b task c after r) : after.entries = b.entries ∧ after.drawn = b.drawn := by
  cases c with
  | ackDelete id | touchPending id | ack id | pending id | addDeadLetter stream failure =>
    obtain ⟨rfl, -⟩ := h
    exact ⟨rfl, rfl⟩
  | publish channel bytes =>
    obtain ⟨rfl, -⟩ := h
    exact ⟨rfl, rfl⟩
  | invoke handler context payload | returned | nowMillis =>
    obtain rfl : after = b := h
    exact ⟨rfl, rfl⟩

theorem executeClient_add {name : String} {subject : Option String} {trim : Option Nat} {bytes : Bytes}
    {r : Except String String} (h : ExecuteClient stream b (.add name trim subject bytes) after r) :
    after = b ∨ name = stream ∧ ∃ id, ∃ hFresh : id ∉ b.entries.map (·.id),
      after = b.append ⟨id, subject, some bytes⟩ hFresh := by
  by_cases hName : name = stream
  · rw [ExecuteClient, if_pos hName] at h
    obtain ⟨id, hFresh, hAfter, -⟩ := h
    exact .inr ⟨hName, id, hFresh, hAfter⟩
  · rw [ExecuteClient, if_neg hName] at h
    exact .inl h.1

/-- Only an `XADD` on the stream adds an entry. -/
theorem execute_entries {c : RpcCall} {r : RpcReply c} (h : Execute codec stream b job c after r) :
    after.entries = b.entries ∨ ∃ id trim subject bytes, c = .inr (.add stream trim subject bytes) ∧
      after.entries = b.entries ++ [⟨id, subject, some bytes⟩] := by
  cases c with
  | inl c =>
    obtain ⟨task, -, h⟩ := h
    exact .inl (executeTask_entries h).1
  | inr c =>
    cases c with
    | newUuid =>
      obtain ⟨-, rfl⟩ := h
      exact .inl rfl
    | connectPubsub | subscribe channel =>
      obtain ⟨rfl, -⟩ := h
      exact .inl rfl
    | elapsed | nowMillis =>
      obtain rfl : after = b := h
      exact .inl rfl
    | nextMessage channel =>
      obtain ⟨-, rfl, -⟩ | ⟨message, rest, -, rfl, -⟩ := h <;> exact .inl rfl
    | add name trim subject bytes =>
      rcases executeClient_add h with rfl | ⟨rfl, id, hFresh, rfl⟩
      · exact .inl rfl
      · exact .inr ⟨id, trim, subject, bytes, rfl, rfl⟩

/-- An entry comes from a client, or asks for no reply on the channel of one. -/
theorem entry_origin : Workers.Invariant (server codec stableName stream R) fun b calls =>
    ∀ entry ∈ b.entries, Foreign codec entry ∨ ∃ trim bytes,
      entry.envelope = some bytes ∧ .inr (.add stream trim entry.subject bytes) ∈ calls where
  change := by
    intro b after calls h hCalls entry hEntry
    cases h with
    | foreign hFresh hForeign =>
      rcases List.mem_append.mp hEntry with hOld | hNew
      · exact hCalls entry hOld
      · rw [List.mem_singleton.mp hNew]
        exact .inl hForeign
    | disconnected channel => exact hCalls entry hEntry
  assign := fun h hCalls => (assign_same h).1 ▸ hCalls
  execute := by
    intro b after job c r calls h hCalls entry hEntry
    by_cases hOld : entry ∈ b.entries
    · refine (hCalls entry hOld).imp_right ?_
      rintro ⟨trim, bytes, hEnvelope, hMem⟩
      exact ⟨trim, bytes, hEnvelope, List.mem_append_left _ hMem⟩
    · rcases execute_entries h with hSame | ⟨id, trim, subject, bytes, rfl, hMore⟩
      · exact absurd (hSame ▸ hEntry) hOld
      · rw [hMore] at hEntry
        obtain rfl := List.mem_singleton.mp ((List.mem_append.mp hEntry).resolve_left hOld)
        exact .inr ⟨trim, bytes, rfl, List.mem_append_right _ List.mem_cons_self⟩

theorem change_entries (h : Change codec b after) : b.entries ⊆ after.entries ∧
    after.deleted = b.deleted ∧ after.drawn = b.drawn := by
  cases h with
  | foreign _ _ => exact ⟨List.subset_append_left .., rfl, rfl⟩
  | disconnected _ => exact ⟨List.Subset.refl _, rfl, rfl⟩

/-- Tasks work on entries of the stream, with a handler for it. -/
theorem jobInvariant : Workers.JobInvariant (server codec stableName stream R) fun b job =>
    ∀ task, job = .task task → task.entry ∈ b.entries ∧
      commandStream stableName task.replica.handler.pattern = stream where
  assigned := by
    rintro b after job h task rfl
    cases h with
    | task hStream h => exact ⟨(assignTask_same h).1 ▸ (assignTask_entry h).1, hStream⟩
  stable := fun _ =>
    { change := fun h hJob task hTask => (hJob task hTask).imp_left fun hOld => (change_entries h).1 hOld
      assign := fun h hJob => (assign_same h).1 ▸ hJob
      execute := by
        intro b after job c r h hJob task hTask
        refine (hJob task hTask).imp_left fun hOld => ?_
        rcases execute_entries h with hSame | ⟨id, trim, subject, bytes, -, hMore⟩
        · exact hSame ▸ hOld
        · exact hMore ▸ List.mem_append_left _ hOld }

theorem eq_of_id {entry other : StreamEntry} (h : entry ∈ b.entries) (hOther : other ∈ b.entries)
    (hId : entry.id = other.id) : entry = other :=
  List.inj_on_of_nodup_map b.ids_nodup h hOther hId

/-! ## Deleted entries -/

theorem executeTask_deleted {task : CommandTask} {c : RedisCall} {r : RedisReply c}
    (h : ExecuteTask codec b task c after r) :
    (after.deleted = b.deleted ∧ ∀ id, c ≠ .ackDelete id) ∨
      ∃ id, c = .ackDelete id ∧ after.deleted = id :: b.deleted := by
  cases c with
  | ackDelete id =>
    obtain ⟨rfl, -⟩ := h
    exact .inr ⟨id, rfl, rfl⟩
  | touchPending id | ack id | pending id | addDeadLetter stream failure =>
    obtain ⟨rfl, -⟩ := h
    exact .inl ⟨rfl, nofun⟩
  | publish channel bytes =>
    obtain ⟨rfl, -⟩ := h
    exact .inl ⟨rfl, nofun⟩
  | invoke handler context payload | returned | nowMillis =>
    obtain rfl : after = b := h
    exact .inl ⟨rfl, nofun⟩

theorem executeClient_deleted {c : ClientCall} {r : ClientReply c}
    (h : ExecuteClient stream b c after r) : after.deleted = b.deleted := by
  cases c with
  | newUuid =>
    obtain ⟨-, rfl⟩ := h
    rfl
  | connectPubsub | subscribe channel =>
    obtain ⟨rfl, -⟩ := h
    rfl
  | elapsed | nowMillis =>
    obtain rfl : after = b := h
    rfl
  | nextMessage channel => obtain ⟨-, rfl, -⟩ | ⟨message, rest, -, rfl, -⟩ := h <;> rfl
  | add name trim subject bytes =>
    rcases executeClient_add h with rfl | ⟨-, id, hFresh, rfl⟩ <;> rfl

theorem execute_deleted {c : RpcCall} {r : RpcReply c} (h : Execute codec stream b job c after r) :
    (after.deleted = b.deleted ∧ ∀ id, c ≠ .inl (.ackDelete id)) ∨
      ∃ id, c = .inl (.ackDelete id) ∧ after.deleted = id :: b.deleted := by
  cases c with
  | inl c =>
    obtain ⟨task, -, h⟩ := h
    rcases executeTask_deleted h with ⟨hSame, hOther⟩ | ⟨id, rfl, hMore⟩
    · exact .inl ⟨hSame, fun id hEq => hOther id (Sum.inl.inj hEq)⟩
    · exact .inr ⟨id, rfl, hMore⟩
  | inr c => exact .inl ⟨executeClient_deleted h, nofun⟩

/-- What is deleted is what `ack_delete` has been executed for. -/
theorem deleted_executed : Workers.Invariant (server codec stableName stream R) fun b calls =>
    ∀ id, id ∈ b.deleted ↔ .inl (.ackDelete id) ∈ calls where
  change := fun h hCalls => (change_entries h).2.1 ▸ hCalls
  assign := fun h hCalls => (assign_same h).2.1 ▸ hCalls
  execute := by
    intro b after job c r calls h hCalls id
    rw [List.mem_append, ← hCalls id, List.mem_singleton]
    rcases execute_deleted h with ⟨hSame, hOther⟩ | ⟨other, rfl, hMore⟩
    · rw [hSame, or_iff_left fun hEq => hOther id hEq.symm]
    · rw [hMore, List.mem_cons, or_comm]
      refine or_congr_right ⟨?_, ?_⟩
      · rintro rfl
        rfl
      · intro hEq
        exact RedisCall.ackDelete.inj (Sum.inl.inj hEq)

/-- An entry that is deleted stays so. -/
theorem stable_deleted (id : String) :
    Workers.Stable (server codec stableName stream R) fun b => id ∈ b.deleted where
  change := fun h hId => (change_entries h).2.1 ▸ hId
  assign := fun h hId => (assign_same h).2.1 ▸ hId
  execute := by
    intro b after job c r h hId
    rcases execute_deleted h with ⟨hSame, -⟩ | ⟨other, -, hMore⟩
    · exact hSame ▸ hId
    · exact hMore ▸ List.mem_cons_of_mem _ hId

/-! ## Channels -/

@[simp] theorem setChannel_self (b : CommandBroker) (channel : String)
    (messages : Option (List ReplyMessage)) :
    (b.setChannel channel messages).channel channel = messages :=
  Function.update_self ..

@[simp] theorem setGroup_channel (b : CommandBroker) (name : String) (g : GroupState) :
    (b.setGroup name g).channel = b.channel := rfl

@[simp] theorem complete_channel (b : CommandBroker) (name id : String) :
    (b.complete name id).channel = b.channel := rfl

@[simp] theorem append_channel (b : CommandBroker) (entry : StreamEntry)
    (h : entry.id ∉ b.entries.map (·.id)) : (b.append entry h).channel = b.channel := rfl

/-- A message that waits on a channel. -/
def Waits (b : CommandBroker) (channel : String) (message : ReplyMessage) : Prop :=
  ∃ messages, b.channel channel = some messages ∧ message ∈ messages

/-- A reply has been published on a channel. -/
def Published (codec : EnvelopeCodec) (channel : String) (message : ReplyMessage)
    (calls : List RpcCall) : Prop :=
  ∃ maximum, ∃ bytes : Encoded maximum, .inl (.publish channel bytes) ∈ calls ∧
    codec.message bytes = message

theorem Published.append {channel : String} {message : ReplyMessage} {calls : List RpcCall}
    {c : RpcCall} (h : Published codec channel message calls) :
    Published codec channel message (calls ++ [c]) := by
  obtain ⟨maximum, bytes, hMem, hBytes⟩ := h
  exact ⟨maximum, bytes, List.mem_append_left _ hMem, hBytes⟩

theorem waits_setChannel {channel other : String} {messages : Option (List ReplyMessage)}
    {message : ReplyMessage} (h : (b.setChannel channel messages).Waits other message) :
    b.Waits other message ∨ other = channel ∧ ∃ l, messages = some l ∧ message ∈ l := by
  obtain ⟨l, hChannel, hMem⟩ := h
  have hUpdate : (if other = channel then messages else b.channel other) = some l := by
    rw [← hChannel]
    exact (Function.update_apply ..).symm
  by_cases hSame : other = channel
  · rw [if_pos hSame] at hUpdate
    exact .inr ⟨hSame, l, hUpdate, hMem⟩
  · rw [if_neg hSame] at hUpdate
    exact .inl ⟨l, hUpdate, hMem⟩

theorem waits_publish {channel other : String} {new message : ReplyMessage}
    (h : (b.publish channel new).Waits other message) :
    b.Waits other message ∨ other = channel ∧ message = new := by
  rcases waits_setChannel h with hOld | ⟨rfl, l, hMessages, hMem⟩
  · exact .inl hOld
  · obtain ⟨old, hOld, rfl⟩ := Option.map_eq_some_iff.mp hMessages
    rcases List.mem_append.mp hMem with hMem | hNew
    · exact .inl ⟨old, hOld, hMem⟩
    · exact .inr ⟨rfl, List.mem_singleton.mp hNew⟩

theorem executeTask_waits {task : CommandTask} {c : RedisCall} {r : RedisReply c}
    (h : ExecuteTask codec b task c after r) {channel : String} {message : ReplyMessage}
    (hWaits : after.Waits channel message) :
    b.Waits channel message ∨ Published codec channel message [.inl c] := by
  cases c with
  | publish name bytes =>
    obtain ⟨rfl, -⟩ := h
    refine (waits_publish hWaits).imp_right ?_
    rintro ⟨rfl, rfl⟩
    exact ⟨_, bytes, List.mem_cons_self, rfl⟩
  | ackDelete id | touchPending id | ack id | pending id | addDeadLetter stream failure =>
    obtain ⟨rfl, -⟩ := h
    exact .inl hWaits
  | invoke handler context payload | returned | nowMillis =>
    obtain rfl : after = b := h
    exact .inl hWaits

theorem executeClient_waits {c : ClientCall} {r : ClientReply c}
    (h : ExecuteClient stream b c after r) {channel : String} {message : ReplyMessage}
    (hWaits : after.Waits channel message) : b.Waits channel message := by
  cases c with
  | newUuid =>
    obtain ⟨-, rfl⟩ := h
    exact hWaits
  | connectPubsub =>
    obtain ⟨rfl, -⟩ := h
    exact hWaits
  | elapsed | nowMillis =>
    obtain rfl : after = b := h
    exact hWaits
  | subscribe name =>
    obtain ⟨rfl, -⟩ := h
    refine (waits_setChannel hWaits).resolve_right ?_
    rintro ⟨-, l, hNil, hMem⟩
    obtain rfl := Option.some.inj hNil
    cases hMem
  | nextMessage name =>
    obtain ⟨-, rfl, -⟩ | ⟨first, rest, hChannel, rfl, -⟩ := h
    · exact hWaits
    · rcases waits_setChannel hWaits with hOld | ⟨rfl, l, hRest, hMem⟩
      · exact hOld
      · obtain rfl := Option.some.inj hRest
        exact ⟨_, hChannel, List.mem_cons_of_mem _ hMem⟩
  | add name trim subject bytes =>
    rcases executeClient_add h with rfl | ⟨-, id, hFresh, rfl⟩ <;> exact hWaits

/-- A message that waits on a channel has been published there. -/
theorem waits_published : Workers.Invariant (server codec stableName stream R) fun b calls =>
    ∀ channel message, b.Waits channel message → Published codec channel message calls where
  change := by
    intro b after calls h hCalls channel message hWaits
    cases h with
    | foreign _ _ => exact hCalls channel message hWaits
    | disconnected name =>
      refine hCalls channel message ((waits_setChannel hWaits).resolve_right ?_)
      rintro ⟨-, l, hNone, -⟩
      cases hNone
  assign := by
    rintro b after job calls h hCalls channel message ⟨messages, hChannel, hMem⟩
    rw [(assign_same h).2.2.1] at hChannel
    exact hCalls channel message ⟨messages, hChannel, hMem⟩
  execute := by
    intro b after job c r calls h hCalls channel message hWaits
    cases c with
    | inl c =>
      obtain ⟨task, -, h⟩ := h
      rcases executeTask_waits h hWaits with hOld | ⟨maximum, bytes, hNew, hBytes⟩
      · exact (hCalls channel message hOld).append
      · exact ⟨maximum, bytes, List.mem_append_right _ hNew, hBytes⟩
    | inr c => exact (hCalls channel message (executeClient_waits h hWaits)).append

/-- A message that a client receives has been published on its channel. -/
def Received (codec : EnvelopeCodec) (calls : List RpcCall) (e : Interaction.Event RpcReply) : Prop :=
  ∀ channel message, e = ⟨.inr (.nextMessage channel), some (.ok message)⟩ →
    Published codec channel message calls

theorem message_origin : Workers.ReplyInvariant (server codec stableName stream R)
    (fun b calls => ∀ channel message, b.Waits channel message → Published codec channel message calls)
    (Received codec) where
  executed := by
    rintro b after job c r calls h hCalls channel message hEq
    cases hEq
    obtain ⟨-, -, hNone⟩ | ⟨first, rest, hChannel, -, hReply⟩ := h
    · cases hNone
    · obtain rfl := Except.ok.inj (Option.some.inj hReply)
      exact (hCalls channel _ ⟨_, hChannel, List.mem_cons_self⟩).append
  append := fun h channel message hEq => (h channel message hEq).append

/-! ## Correlation ids -/

/-- The id that a reply brings. -/
def drawnId : Interaction.Event RpcReply → Option String
  | ⟨.inr .newUuid, id⟩ => some id
  | _ => none

theorem executeClient_drawn {c : ClientCall} {r : ClientReply c}
    (h : ExecuteClient stream b c after r) : b.drawn ⊆ after.drawn := by
  cases c with
  | newUuid =>
    obtain ⟨-, rfl⟩ := h
    exact List.subset_cons_self ..
  | connectPubsub | subscribe channel =>
    obtain ⟨rfl, -⟩ := h
    exact List.Subset.refl _
  | elapsed | nowMillis =>
    obtain rfl : after = b := h
    exact List.Subset.refl _
  | nextMessage channel =>
    obtain ⟨-, rfl, -⟩ | ⟨message, rest, -, rfl, -⟩ := h <;> exact List.Subset.refl _
  | add name trim subject bytes =>
    rcases executeClient_add h with rfl | ⟨-, id, hFresh, rfl⟩ <;> exact List.Subset.refl _

theorem stable_drawn (id : String) :
    Workers.Stable (server codec stableName stream R) fun b => id ∈ b.drawn where
  change := fun h hId => (change_entries h).2.2 ▸ hId
  assign := fun h hId => (assign_same h).2.2.2 ▸ hId
  execute := by
    intro b after job c r h hId
    cases c with
    | inl c =>
      obtain ⟨task, -, h⟩ := h
      exact (executeTask_entries h).2 ▸ hId
    | inr c => exact executeClient_drawn h hId

/-- Ids are drawn once. -/
theorem drawnId_tokens :
    Workers.Tokens (server codec stableName stream R) drawnId fun b id => id ∈ b.drawn where
  fresh := by
    intro b after job c r id h hToken
    cases c with
    | inl c => cases hToken
    | inr c =>
      cases c with
      | newUuid =>
        obtain rfl := Option.some.inj hToken
        obtain ⟨hFresh, rfl⟩ := h
        exact ⟨hFresh, List.mem_cons_self⟩
      | connectPubsub | subscribe channel | elapsed | nowMillis | add name trim subject bytes
      | nextMessage channel => cases hToken
  stable := stable_drawn
  failure := by
    intro c r h
    cases c with
    | inl c => rfl
    | inr c =>
      cases c with
      | newUuid => exact h.elim
      | connectPubsub | subscribe channel | elapsed | nowMillis | add name trim subject bytes
      | nextMessage channel => rfl

end

end CommandBroker

end Caelix
