import Whistleblower.Lib.Correlation
import Whistleblower.Lib.Transition
import Whistleblower.Mock.Registry

open whistleblower_core document_indexing

namespace whistleblower_mock_adapter

/-- The state behind a client's lock, which a panic poisons. Whoever waits for a request is
    given by its number. -/
structure MockStorageClient where
  state : correlation.Table Nat
  poisoned : Bool

/-- Senders are given by the numbers of their streams. -/
structure MockDeliveryClient where
  state : correlation.Table Nat
  subscribers : String → List Nat
  poisoned : Bool

def upload_id (id : Nat) : String := "upload-" ++ toString id

def publish_id (id : Nat) : String := "publish-" ++ toString id

/-- The requests that wait, if the lock can be taken. -/
def MockStorageClient.pending_request_ids (self : MockStorageClient) : Option (List String) :=
  if self.poisoned then none else some (self.state.pending.map fun entry => upload_id entry.1)

def MockDeliveryClient.pending_request_ids (self : MockDeliveryClient) : Option (List String) :=
  if self.poisoned then none else some (self.state.pending.map fun entry => publish_id entry.1)

/-- What a subscriber has received. -/
structure Stream where
  topic : String
  received : List ReceivedEnvelope
  dropped : Bool
  deriving DecidableEq, Repr

def Stream.push (self : Stream) (envelope : ReceivedEnvelope) : Stream :=
  { self with received := self.received ++ [envelope] }

/-- Send an envelope to each subscriber in turn, and keep those who can still receive. -/
def retain_sent (envelope : ReceivedEnvelope) : List Nat → List Stream → List Nat × List Stream
  | [], streams => ([], streams)
  | sender :: rest, streams =>
    match streams[sender]? with
    | none => retain_sent envelope rest streams
    | some stream =>
      if stream.dropped then retain_sent envelope rest streams
      else
        let (kept, after) := retain_sent envelope rest (streams.set sender (stream.push envelope))
        (sender :: kept, after)

/-- The envelope that is emitted for a payload. -/
def received_envelope (topic : String) (payload : List UInt8) : ReceivedEnvelope where
  message_hash := "rx-" ++ toString payload.length
  topic := topic
  payload := payload
  timestamp_ns := 1

/-- A program that runs on the clients, from its beginning on: what it has exchanged, the number
    under which it waits, and whether it was dropped or has panicked. -/
structure Task (A : Type) where
  first : Async Adapters A
  program : Async Adapters A
  calls : List (Exchange Adapters)
  waiting : Option Nat
  halted : Bool

namespace Task

variable {A : Type}

def begun (program : Async Adapters A) : Task A where
  first := program
  program := program
  calls := []
  waiting := none
  halted := false

/-- The program goes on with the answer to its request. -/
def resumed (self : Task A) {request : AdapterCall} (resume : request.Response → Async Adapters A)
    (response : request.Response) : Task A where
  first := self.first
  program := resume response
  calls := self.calls ++ [⟨request, response⟩]
  waiting := none
  halted := false

def halt (self : Task A) : Task A := { self with halted := true }

/-- The receipt of an upload arrives, if the task still waits for it. -/
def uploaded (self : Task A) (id : Nat) (result : Except AdapterError UploadReceipt) : Task A :=
  if self.halted = true ∨ self.waiting ≠ some id then self
  else
    match self.program with
    | .ret _ => self
    | .ask (.upload_file path) resume => @Task.resumed _ self (.upload_file path) resume result
    | .ask _ _ => self

/-- The same of a broadcast. -/
def published (self : Task A) (id : Nat) (result : Except AdapterError PublishReceipt) : Task A :=
  if self.halted = true ∨ self.waiting ≠ some id then self
  else
    match self.program with
    | .ret _ => self
    | .ask (.publish topic bytes) resume => @Task.resumed _ self (.publish topic bytes) resume result
    | .ask _ _ => self

end Task

/-- The three clients, with the programs that run on them and the streams of the subscribers.
    Besides, which program was given which number, and how each request was completed. -/
structure MockSession (A : Type) where
  storage : MockStorageClient
  delivery : MockDeliveryClient
  registry : MockRegistryClient
  tasks : List (Task A)
  streams : List Stream
  uploads : List (Nat × Nat)
  stored : List (Nat × String)
  publishes : List (Nat × Nat)
  sent : List (Nat × Except AdapterError String)

/-- What can happen next. A program begins, is polled, or is dropped; someone completes a
    request, subscribes, emits a payload, or drops a stream. -/
inductive MockEvent (A : Type) where
  | begin (program : Async Adapters A)
  | poll (i : Nat)
  | drop (i : Nat)
  | complete_upload (request_id cid : String)
  | message_sent (request_id message_hash : String)
  | message_error (request_id : String) (retryable : Bool) (message : String)
  | subscribe (topic : String)
  | emit_received (topic : String) (payload : List UInt8)
  | drop_stream (j : Nat)

/-- The program that begins. -/
def MockEvent.begun {A : Type} : MockEvent A → Option (Async Adapters A)
  | .begin program => some program
  | _ => none

namespace MockSession

variable {A : Type}

def default : MockSession A where
  storage := { state := .empty, poisoned := false }
  delivery := { state := .empty, subscribers := fun _ => [], poisoned := false }
  registry := .default
  tasks := []
  streams := []
  uploads := []
  stored := []
  publishes := []
  sent := []

/-- A program's request reaches its client. Uploads and broadcasts wait from then on. -/
def ask [Sha256] (self : MockSession A) (i : Nat) (task : Task A) :
    (request : AdapterCall) → (request.Response → Async Adapters A) → MockSession A
  | .upload_file _, _ =>
    if self.storage.poisoned then { self with tasks := self.tasks.set i task.halt }
    else { self with
      storage := { self.storage with state := self.storage.state.issue i }
      tasks := self.tasks.set i { task with waiting := some self.storage.state.fresh }
      uploads := self.uploads ++ [(self.storage.state.fresh, i)] }
  | .publish _ _, _ =>
    if self.delivery.poisoned then { self with tasks := self.tasks.set i task.halt }
    else { self with
      delivery := { self.delivery with state := self.delivery.state.issue i }
      tasks := self.tasks.set i { task with waiting := some self.delivery.state.fresh }
      publishes := self.publishes ++ [(self.delivery.state.fresh, i)] }
  | .anchor_one cid metadata_hash, resume =>
    let (result, after) := self.registry.anchor_one cid metadata_hash
    { self with
      registry := after
      tasks := self.tasks.set i (@Task.resumed _ task (.anchor_one cid metadata_hash) resume result) }
  | .anchor_batch entries, resume =>
    let (result, after) := self.registry.anchor_batch entries
    { self with
      registry := after
      tasks := self.tasks.set i (@Task.resumed _ task (.anchor_batch entries) resume result) }
  | .query_by_cid_hash hash, resume =>
    let result := self.registry.query_by_cid_hash hash
    { self with tasks := self.tasks.set i (@Task.resumed _ task (.query_by_cid_hash hash) resume result) }
  | .sink_send submission, resume =>
    { self with tasks := self.tasks.set i (@Task.resumed _ task (.sink_send submission) resume ()) }
  | .sleep duration, resume =>
    { self with tasks := self.tasks.set i (@Task.resumed _ task (.sleep duration) resume ()) }
  | .panic _, _ => { self with tasks := self.tasks.set i task.halt }

/-- The one who waits under a number is sent its receipt. -/
def send_receipt (self : MockSession A) (id i : Nat) (receipt : UploadReceipt) : MockSession A :=
  { self with
    storage := { self.storage with state := self.storage.state.remove id }
    tasks := self.tasks.modify i fun task => task.uploaded id (.ok receipt)
    stored := self.stored ++ [(id, receipt.cid)] }

def complete_upload (self : MockSession A) (request_id cid : String) : MockSession A :=
  if self.storage.poisoned then self
  else
    match self.storage.state.find? upload_id request_id with
    | none => { self with storage := { self.storage with poisoned := true } }
    | some (id, i) => self.send_receipt id i { request_id, cid }

/-- The receipt of a message, by its request and its hash. -/
def sent_receipt (request_id message_hash : String) : PublishReceipt :=
  { request_id, message_hash, timestamp := "2026-05-04T00:00:00Z" }

/-- The same of a message, which was sent or has failed. -/
def send_outcome (self : MockSession A) (id i : Nat) (request_id : String) (outcome : Except AdapterError String) :
    MockSession A :=
  { self with
    delivery := { self.delivery with state := self.delivery.state.remove id }
    tasks := self.tasks.modify i fun task => task.published id (outcome.map (sent_receipt request_id))
    sent := self.sent ++ [(id, outcome)] }

/-- `message_sent` and `message_error`. -/
def complete_publish (self : MockSession A) (request_id : String) (outcome : Except AdapterError String) :
    MockSession A :=
  if self.delivery.poisoned then self
  else
    match self.delivery.state.find? publish_id request_id with
    | none => { self with delivery := { self.delivery with poisoned := true } }
    | some (id, i) => self.send_outcome id i request_id outcome

def subscribe (self : MockSession A) (topic : String) : MockSession A :=
  if self.delivery.poisoned then self
  else { self with
    delivery := { self.delivery with
      subscribers := Function.update self.delivery.subscribers topic
        (self.delivery.subscribers topic ++ [self.streams.length]) }
    streams := self.streams ++ [{ topic, received := [], dropped := false }] }

def emit_received (self : MockSession A) (topic : String) (payload : List UInt8) : MockSession A :=
  if self.delivery.poisoned then self
  else
    let (kept, after) := retain_sent (received_envelope topic payload) (self.delivery.subscribers topic) self.streams
    { self with
      delivery := { self.delivery with subscribers := Function.update self.delivery.subscribers topic kept }
      streams := after }

def step [Sha256] (self : MockSession A) : MockEvent A → Option (MockSession A)
  | .begin program => some { self with tasks := self.tasks ++ [.begun program] }
  | .poll i => do
    let task ← self.tasks[i]?
    if task.halted ∨ task.waiting ≠ none then none
    else
      match task.program with
      | .ret _ => none
      | .ask request resume => some (self.ask i task request resume)
  | .drop i => some { self with tasks := self.tasks.modify i Task.halt }
  | .complete_upload request_id cid => some (self.complete_upload request_id cid)
  | .message_sent request_id message_hash => some (self.complete_publish request_id (.ok message_hash))
  | .message_error request_id retryable message =>
    some (self.complete_publish request_id
      (.error (if retryable then .retryable message else .non_retryable message)))
  | .subscribe topic => some (self.subscribe topic)
  | .emit_received topic payload => some (self.emit_received topic payload)
  | .drop_stream j =>
    some { self with streams := self.streams.modify j fun stream => { stream with dropped := true } }

end MockSession

end whistleblower_mock_adapter
