import Whistleblower.Lib.Async
import Whistleblower.Core.Registry

open whistleblower_core

namespace document_indexing

structure UploadReceipt where
  request_id : String
  cid : String
  deriving DecidableEq, Repr

structure PublishReceipt where
  request_id : String
  message_hash : String
  timestamp : String
  deriving DecidableEq, Repr

structure ReceivedEnvelope where
  message_hash : String
  topic : String
  payload : List UInt8
  timestamp_ns : UInt64
  deriving DecidableEq, Repr

inductive AdapterErrorKind where
  | Retryable
  | NonRetryable
  deriving DecidableEq, Repr

structure AdapterError where
  kind : AdapterErrorKind
  message : String
  deriving DecidableEq, Repr

namespace AdapterError

def retryable (message : String) : AdapterError := { kind := .Retryable, message }

def non_retryable (message : String) : AdapterError := { kind := .NonRetryable, message }

def to_string (self : AdapterError) : String :=
  (match self.kind with
    | .Retryable => "Retryable"
    | .NonRetryable => "NonRetryable") ++ " adapter error: " ++ self.message

end AdapterError

/-- A span of time in nanoseconds. -/
abbrev Duration := Nat

def Duration.MAX : Duration := (2 ^ 64 - 1) * 10 ^ 9 + 999999999

def Duration.from_millis (millis : Nat) : Duration := millis * 10 ^ 6

/-- A CID with the hash of its metadata, as it waits to be anchored. -/
abbrev Pair := CanonicalCid × MetadataHash

/-- Single submission result. -/
structure BatchSubmission where
  batch_size : Nat
  anchored : Nat
  deriving DecidableEq, Repr

/-- The calls of the three client traits, and the effects of the tasks that make
    them. -/
inductive AdapterCall where
  | upload_file (path : String)
  | publish (topic : String) (bytes : List UInt8)
  | anchor_one (cid : CanonicalCid) (metadata_hash : MetadataHash)
  | anchor_batch (entries : List Pair)
  | query_by_cid_hash (cid_hash : CidHash)
  | sink_send (submission : BatchSubmission)
  | sleep (duration : Duration)
  | panic (message : String)
  deriving DecidableEq

/-- What each call returns. Nothing comes back from a panic. -/
def AdapterCall.Response : AdapterCall → Type
  | .upload_file _ => Except AdapterError UploadReceipt
  | .publish _ _ => Except AdapterError PublishReceipt
  | .anchor_one _ _ => Except AdapterError AnchorEntry
  | .anchor_batch _ => Except AdapterError (List AnchorEntry)
  | .query_by_cid_hash _ => Except AdapterError (Option AnchorEntry)
  | .sink_send _ => Unit
  | .sleep _ => Unit
  | .panic _ => Empty

def Adapters : Interface where
  Request := AdapterCall
  Response := AdapterCall.Response

instance : DecidableEq Adapters.Request := inferInstanceAs (DecidableEq AdapterCall)

/-- An interface whose programs can sleep and panic. -/
class Runtime (I : Interface) where
  sleep : Duration → Async I Unit
  panic : {A : Type} → String → Async I A

instance : Runtime Adapters where
  sleep := fun duration => Async.call (I := Adapters) (.sleep duration)
  panic := fun message => .ask (I := Adapters) (.panic message) Empty.elim

end document_indexing
