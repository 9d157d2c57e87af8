import Mathlib.Data.Finset.Insert
import Whistleblower.Indexing.Traits

namespace document_indexing

inductive IngestOutcome where
  | New (envelope_hash : String)
  | Duplicate (envelope_hash : String)
  deriving DecidableEq, Repr

/-- Where the file system can fail a ledger write, and how many bytes of the line
    a failed write leaves in the file. -/
inductive IoFault where
  | create_dir
  | open_file
  | write (written : Nat)
  | sync
  deriving DecidableEq, Repr

/-- The bytes of a file, or none where there is no file. -/
abbrev File := Option (List UInt8)

/-- The hashes known to the run. The path of the ledger is the same throughout,
    and the file under it is passed along. -/
structure DurableDedupeStore where
  seen : Finset String
  deriving DecidableEq

/-- Topic and payload, told apart by a zero byte, under the hash. -/
def envelope_hash [Sha256] (envelope : ReceivedEnvelope) : String :=
  text.hex_encode (Sha256.digest (text.bytes envelope.topic ++ 0 :: envelope.payload)).toList

theorem envelope_hash_congr [Sha256] {first second : ReceivedEnvelope} (htopic : first.topic = second.topic)
    (hpayload : first.payload = second.payload) : envelope_hash first = envelope_hash second := by
  rw [envelope_hash, envelope_hash, htopic, hpayload]

namespace DurableDedupeStore

/-- The hashes that a ledger's text records. -/
def recorded (contents : String) : Finset String :=
  (((text.lines contents).map text.trim).filter (· ≠ "")).toFinset

/-- Read the ledger. A file that is not text cannot be read as one. -/
def «open» (file : Except IoFault File) : Except IoFault DurableDedupeStore :=
  match file with
  | .error e => .error e
  | .ok none => .ok { seen := ∅ }
  | .ok (some bytes) =>
    match text.from_utf8 bytes with
    | some contents => .ok { seen := recorded contents }
    | none => .error .open_file

variable [Sha256]

/-- The line that records an envelope. -/
def line (hash : String) : List UInt8 := text.bytes (hash ++ "\n")

def append (file : File) (bytes : List UInt8) : File := some (file.getD [] ++ bytes)

/-- Ingest one envelope, given how the file system fails if it does. The hash
    enters memory before anything is written. -/
def ingest (self : DurableDedupeStore) (file : File) (fault : Option IoFault) (envelope : ReceivedEnvelope) :
    Except IoFault IngestOutcome × DurableDedupeStore × File :=
  let hash := envelope_hash envelope
  if hash ∈ self.seen then (.ok (.Duplicate hash), self, file)
  else
    let after := { seen := insert hash self.seen }
    match fault with
    | some .create_dir => (.error .create_dir, after, file)
    | some .open_file => (.error .open_file, after, file)
    | some (.write written) => (.error (.write written), after, append file ((line hash).take written))
    | some .sync => (.error .sync, after, append file (line hash))
    | none => (.ok (.New hash), after, append file (line hash))

theorem ingest_of_mem {self : DurableDedupeStore} {envelope : ReceivedEnvelope}
    (hseen : envelope_hash envelope ∈ self.seen) (file : File) (fault : Option IoFault) :
    self.ingest file fault envelope = (.ok (.Duplicate (envelope_hash envelope)), self, file) := by
  rw [ingest, if_pos hseen]

theorem ingest_of_not_mem {self : DurableDedupeStore} {envelope : ReceivedEnvelope}
    (hunseen : envelope_hash envelope ∉ self.seen) (file : File) :
    self.ingest file none envelope = (.ok (.New (envelope_hash envelope)),
      { seen := insert (envelope_hash envelope) self.seen }, append file (line (envelope_hash envelope))) := by
  rw [ingest, if_neg hunseen]

/-- A hash is known from its first envelope on, whatever becomes of its line. -/
theorem ingest_seen (self : DurableDedupeStore) (file : File) (fault : Option IoFault)
    (envelope : ReceivedEnvelope) :
    (self.ingest file fault envelope).2.1.seen = insert (envelope_hash envelope) self.seen := by
  by_cases hseen : envelope_hash envelope ∈ self.seen
  · rw [ingest_of_mem hseen, Finset.insert_eq_of_mem hseen]
  · rw [ingest, if_neg hseen]
    rcases fault with _ | (_ | _ | _ | _) <;> rfl

end DurableDedupeStore

end document_indexing
