import Whistleblower.Lib.Transition
import Whistleblower.Indexing.Retry
import Whistleblower.Indexing.Orchestration

open whistleblower_core

namespace document_indexing.batch

structure BatchConfig where
  topic : String
  batch_size : Nat
  batch_interval : Duration
  retry_policy : RetryPolicy
  deriving DecidableEq, Repr

inductive BatchError where
  | Subscribe (error : AdapterError)
  | Anchor (error : AdapterError)
  | Io (error : IoFault)
  deriving DecidableEq, Repr

/-- How a run ends before its tasks start. -/
inductive StartFailure where
  | panicked (message : String)
  | failed (error : BatchError)
  deriving DecidableEq, Repr

inductive ParseError where
  | topic_mismatch (got expected : String)
  | decode (error : json.DecodeError)
  deriving DecidableEq, Repr

/-- The text each error starts with; the second goes on with the decoder's error. -/
def ParseError.message : ParseError → String
  | .topic_mismatch got expected => "topic mismatch: got " ++ got ++ " expected " ++ expected
  | .decode _ => "envelope JSON decode: "

def parse_envelope (received : ReceivedEnvelope) (expected_topic : String) :
    Except ParseError MetadataEnvelopeV1 :=
  if received.topic ≠ expected_topic then .error (.topic_mismatch received.topic expected_topic)
  else
    match MetadataEnvelopeV1.from_slice received.payload with
    | .ok envelope => .ok envelope
    | .error e => .error (.decode e)

/-- Submit a drained buffer, and report the submission. -/
def flush_batch (config : BatchConfig) (drained : List Pair) : Async Adapters (Except BatchError Unit) := do
  let count := drained.length
  match ← with_retry config.retry_policy (Async.call (I := Adapters) (.anchor_batch drained)) with
  | .error e => pure (.error (.Anchor e))
  | .ok result => do
    let _ ← Async.call (I := Adapters) (.sink_send { batch_size := count, anchored := result.length })
    pure (.ok ())

/-- The sending half of the shutdown signal, as its receivers see it. -/
structure Watch where
  value : Bool
  version : Nat
  closed : Bool
  deriving DecidableEq, Repr

/-- A receiver is woken by a value it has not seen, and by the sender's end. -/
def Watch.changed (self : Watch) (seen : Nat) : Bool := self.version != seen || self.closed

/-- Where the subscriber task stands: in its select, with an item to ingest, with
    a pair to send, or ended. A pair whose send failed ends with the task. -/
inductive Subscriber where
  | selecting
  | ingesting (envelope : ReceivedEnvelope)
  | sending (pair : Pair)
  | finished (unsent : Option Pair)

/-- What the anchorer does after a flush. -/
inductive After where
  | continue
  | leave
  deriving DecidableEq, Repr

/-- Where the anchorer stands: in its select, in a flush, waiting for the
    subscriber to end, or ended by a return or a panic. -/
inductive Anchorer where
  | selecting
  | flushing (pending : Async Adapters (Except BatchError Unit)) (after : After)
  | joining
  | returned (result : Except BatchError Unit)
  | panicked (message : String)

/-- The state of a run: the items not yet delivered, the signal, the two tasks,
    the ledger, the channel and the buffer. The last three fields only record. -/
structure Loop where
  config : BatchConfig
  stream : List (Except AdapterError ReceivedEnvelope)
  shutdown : Watch
  subscriber : Subscriber
  subscriber_seen : Nat
  dedupe : DurableDedupeStore
  ledger : File
  channel : List Pair
  anchorer : Anchorer
  anchorer_seen : Nat
  buffer : List Pair
  ingested : List (ReceivedEnvelope × Except IoFault IngestOutcome)
  batches : List (List Pair)
  calls : List (Exchange Adapters)

/-- One atomic part of the run, with what its surroundings decide: the values
    sent on the signal, the failures of the file system and the answers of the
    clients. -/
inductive Action where
  | shutdown_send (value : Bool)
  | shutdown_drop
  | subscriber_changed
  | subscriber_next
  | subscriber_ingest (fault : Option IoFault)
  | subscriber_send
  | anchorer_changed
  | anchorer_recv
  | anchorer_tick
  | anchorer_reply (exchange : Exchange Adapters)
  | anchorer_unwind
  | anchorer_join

section

variable [Sha256]

/-- The pair an ingested envelope is accepted as: it must be new, and parse. -/
def accept (topic : String) (envelope : ReceivedEnvelope) (outcome : Except IoFault IngestOutcome) :
    Option Pair :=
  match outcome with
  | .error _ => none
  | .ok (.Duplicate _) => none
  | .ok (.New _) =>
    match parse_envelope envelope topic with
    | .error _ => none
    | .ok parsed =>
      match parsed.metadata_hash with
      | .error _ => none
      | .ok mh => some (parsed.cid, mh)

namespace Loop

/-- The largest capacity of a vector of pairs, whose bytes an `isize` counts: a pair has 24 for
    the CID and 32 for the hash. -/
def max_capacity : Nat := (2 ^ 63 - 1) / (24 + 32)

/-- The anchorer once it has its buffer and its interval, either of which can panic. -/
def prepared (config : BatchConfig) : Anchorer :=
  if max_capacity < config.batch_size then .panicked "capacity overflow"
  else if config.batch_interval = 0 then .panicked "`period` must be non-zero."
  else .selecting

omit [Sha256] in
theorem prepared_eq (config : BatchConfig) :
    prepared config = .selecting ∨ ∃ message, prepared config = .panicked message := by
  rw [prepared]
  split
  · exact .inr ⟨_, rfl⟩
  · split
    · exact .inr ⟨_, rfl⟩
    · exact .inl rfl

omit [Sha256] in
theorem prepared_of_fits {config : BatchConfig} (hcapacity : config.batch_size ≤ max_capacity)
    (hinterval : config.batch_interval ≠ 0) : prepared config = .selecting := by
  rw [prepared, if_neg (Nat.not_lt.mpr hcapacity), if_neg hinterval]

/-- The state in which both tasks have started. The receivers of the signal have
    seen the version given. -/
def started (config : BatchConfig) (dedupe : DurableDedupeStore) (ledger : File)
    (stream : List (Except AdapterError ReceivedEnvelope)) (shutdown : Watch) (seen : Nat) : Loop where
  config := config
  stream := stream
  shutdown := shutdown
  subscriber := .selecting
  subscriber_seen := seen
  dedupe := dedupe
  ledger := ledger
  channel := []
  anchorer := prepared config
  anchorer_seen := seen
  buffer := []
  ingested := []
  batches := []
  calls := []

/-- Start a run: read the ledger, subscribe, and start the tasks. -/
def start (config : BatchConfig) (file : Except IoFault File)
    (subscription : Except AdapterError (List (Except AdapterError ReceivedEnvelope)))
    (shutdown : Watch) (seen : Nat) : Except StartFailure Loop :=
  if config.batch_size = 0 then .error (.panicked "batch_size must be >= 1")
  else
    match file, DurableDedupeStore.open file with
    | .ok ledger, .ok dedupe =>
      match subscription with
      | .ok stream => .ok (started config dedupe ledger stream shutdown seen)
      | .error e => .error (.failed (.Subscribe e))
    | _, .error e => .error (.failed (.Io e))
    | .error e, _ => .error (.failed (.Io e))

/-- The receiving half of the channel goes when the anchorer ends. -/
def receiver_dropped (self : Loop) : Bool :=
  match self.anchorer with
  | .returned _ => true
  | .panicked _ => true
  | _ => false

/-- What `run_batch_loop` has returned, once it has. -/
def returned (self : Loop) : Option (Except BatchError Unit) :=
  match self.anchorer with
  | .returned result => some result
  | _ => none

/-- Where a flush stands once its program has come this far. -/
def after_flush (pending : Async Adapters (Except BatchError Unit)) (after : After) : Anchorer :=
  match pending with
  | .ret (.error e) => .returned (.error e)
  | .ret (.ok ()) =>
    match after with
    | .continue => .selecting
    | .leave => .joining
  | .ask request resume => .flushing (.ask request resume) after

/-- Take the buffer and start submitting it. -/
def flush (self : Loop) (after : After) : Loop :=
  { self with
    buffer := []
    batches := self.batches ++ [self.buffer]
    anchorer := after_flush (flush_batch self.config self.buffer) after }

/-- Leave the loop, with a last flush if anything is buffered. -/
def leave (self : Loop) : Loop :=
  if self.buffer = [] then { self with anchorer := .joining } else self.flush .leave

def subscriber_changed (self : Loop) : Option Loop :=
  match self.subscriber with
  | .selecting =>
    if self.shutdown.changed self.subscriber_seen then
      some { self with
        subscriber_seen := self.shutdown.version
        subscriber := if self.shutdown.value then .finished none else .selecting }
    else none
  | _ => none

def subscriber_next (self : Loop) : Option Loop :=
  match self.subscriber with
  | .selecting =>
    match self.stream with
    | [] => some { self with subscriber := .finished none }
    | .error _ :: rest => some { self with stream := rest }
    | .ok envelope :: rest => some { self with stream := rest, subscriber := .ingesting envelope }
  | _ => none

def subscriber_ingest (self : Loop) (fault : Option IoFault) : Option Loop :=
  match self.subscriber with
  | .ingesting envelope =>
    let (outcome, dedupe, ledger) := self.dedupe.ingest self.ledger fault envelope
    some { self with
      dedupe, ledger
      ingested := self.ingested ++ [(envelope, outcome)]
      subscriber :=
        match accept self.config.topic envelope outcome with
        | some pair => .sending pair
        | none => .selecting }
  | _ => none

def subscriber_send (self : Loop) : Option Loop :=
  match self.subscriber with
  | .sending pair =>
    if self.receiver_dropped then some { self with subscriber := .finished (some pair) }
    else some { self with subscriber := .selecting, channel := self.channel ++ [pair] }
  | _ => none

def anchorer_changed (self : Loop) : Option Loop :=
  match self.anchorer with
  | .selecting =>
    if self.shutdown.changed self.anchorer_seen then
      let self := { self with anchorer_seen := self.shutdown.version }
      some (if self.shutdown.value then self.leave else self)
    else none
  | _ => none

def anchorer_recv (self : Loop) : Option Loop :=
  match self.anchorer with
  | .selecting =>
    match self.channel with
    | pair :: rest =>
      let self := { self with channel := rest, buffer := self.buffer ++ [pair] }
      some (if self.config.batch_size ≤ self.buffer.length then self.flush .continue else self)
    | [] =>
      match self.subscriber with
      | .finished _ => some self.leave
      | _ => none
  | _ => none

def anchorer_tick (self : Loop) : Option Loop :=
  match self.anchorer with
  | .selecting => some (if self.buffer = [] then self else self.flush .continue)
  | _ => none

def anchorer_reply (self : Loop) (exchange : Exchange Adapters) : Option Loop :=
  match self.anchorer with
  | .flushing pending after =>
    match pending.resume? exchange with
    | some next => some { self with
        calls := self.calls ++ [exchange]
        anchorer := after_flush next after }
    | none => none
  | _ => none

def anchorer_unwind (self : Loop) : Option Loop :=
  match self.anchorer with
  | .flushing (.ask (.panic message) _) _ => some { self with anchorer := .panicked message }
  | _ => none

def anchorer_join (self : Loop) : Option Loop :=
  match self.anchorer, self.subscriber with
  | .joining, .finished _ => some { self with anchorer := .returned (.ok ()) }
  | _, _ => none

/-- Take one action, if it is enabled. -/
def step (self : Loop) : Action → Option Loop
  | .shutdown_send value =>
    if self.shutdown.closed then none
    else some { self with shutdown := { self.shutdown with value, version := self.shutdown.version + 1 } }
  | .shutdown_drop => some { self with shutdown := { self.shutdown with closed := true } }
  | .subscriber_changed => self.subscriber_changed
  | .subscriber_next => self.subscriber_next
  | .subscriber_ingest fault => self.subscriber_ingest fault
  | .subscriber_send => self.subscriber_send
  | .anchorer_changed => self.anchorer_changed
  | .anchorer_recv => self.anchorer_recv
  | .anchorer_tick => self.anchorer_tick
  | .anchorer_reply exchange => self.anchorer_reply exchange
  | .anchorer_unwind => self.anchorer_unwind
  | .anchorer_join => self.anchorer_join

end Loop

end

end document_indexing.batch
