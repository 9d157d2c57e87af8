import Whistleblower.Guest.Chain
import Whistleblower.Indexing.Retry

open nssa_core whistleblower_core document_indexing whistleblower_registry

namespace whistleblower_lez_adapter

abbrev TxHash := Vector UInt8 32

/-- What a client asks of its clock, its wallet and the sequencer. Errors arrive as
    the text they are reported with. -/
inductive LezCall where
  | now
  | try_new_message (account_ids : List AccountId) (payload : List UInt8)
  | send_transaction (tx : Transaction)
  | get_transaction (hash : TxHash)
  | get_account_public (id : AccountId)
  | sleep (duration : Duration)
  | panic (message : String)
  deriving DecidableEq

/-- The clock gives milliseconds since the epoch, or nothing before it. -/
def LezCall.Response [Nssa] : LezCall → Type
  | .now => Option Nat
  | .try_new_message _ _ => Except String Unit
  | .send_transaction _ => Except String TxHash
  | .get_transaction _ => Except String (Option Transaction)
  | .get_account_public _ => Except String Account
  | .sleep _ => Unit
  | .panic _ => Empty

def LezIo [Nssa] : Interface where
  Request := LezCall
  Response := LezCall.Response

instance [Nssa] : DecidableEq LezIo.Request := inferInstanceAs (DecidableEq LezCall)

instance [Nssa] : Runtime LezIo where
  sleep := fun duration => Async.call (I := LezIo) (.sleep duration)
  panic := fun message => .ask (I := LezIo) (.panic message) Empty.elim

inductive TimestampSource where
  | SystemTimeMs
  | Fixed (ts : UInt64)
  deriving DecidableEq, Repr

/-- A client of the program, with the seconds it waits for a confirmation. -/
structure LezRegistryClient where
  program_id : ProgramId
  confirm_secs : UInt64
  timestamp_source : TimestampSource
  deriving DecidableEq, Repr

/-- The time between two polls. -/
def poll_interval : Duration := .from_millis 750

namespace LezRegistryClient

section

variable [Sha256] [Nssa]

def entry_pda_for_hash (self : LezRegistryClient) (cid_hash : CidHash) : AccountId :=
  Nssa.for_public_pda self.program_id ⟨cid_hash.digest⟩

def entry_pda_for (self : LezRegistryClient) (cid : CanonicalCid) : AccountId :=
  Nssa.for_public_pda self.program_id ⟨(cid_hash cid).digest⟩

def next_timestamp (self : LezRegistryClient) : Async LezIo UInt64 :=
  match self.timestamp_source with
  | .Fixed ts => pure ts
  | .SystemTimeMs => do
    let elapsed ← Async.call (I := LezIo) .now
    pure (UInt64.ofNat (Option.getD elapsed 0))

/-- The best-effort confirmation, whose outcome nobody looks at. -/
def await_transaction (hash : TxHash) : Nat → Async LezIo Unit
  | 0 => pure ()
  | left + 1 => do
    match ← Async.call (I := LezIo) (.get_transaction hash) with
    | .ok (some _) => pure ()
    | _ => do
      Runtime.sleep poll_interval
      await_transaction hash left

/-- The transaction a call submits: no account of it is authorised. -/
def transaction (account_ids : List AccountId) (payload : List UInt8) : Transaction where
  accounts := account_ids.map fun id => (id, false)
  instruction := payload

def submit_and_wait (account_ids : List AccountId) (instruction : RegistryInstruction) (label : String) :
    Async LezIo (Except AdapterError Unit) :=
  match instruction.to_vec with
  | none => pure (.error (.non_retryable "encode instruction: "))
  | some payload => do
    match ← Async.call (I := LezIo) (.try_new_message account_ids payload) with
    | .error e => pure (.error (.retryable ("build message: " ++ e)))
    | .ok _ => do
      match ← Async.call (I := LezIo) (.send_transaction (transaction account_ids payload)) with
      | .error e => pure (.error (.retryable ("submit " ++ label ++ ": " ++ e)))
      | .ok hash => do
        await_transaction hash 8
        pure (.ok ())

def read_entry (pda : AccountId) : Async LezIo (Except AdapterError (Option AnchorEntry)) := do
  match ← Async.call (I := LezIo) (.get_account_public pda) with
  | .error e => pure (.error (.retryable ("fetch entry account: " ++ e)))
  | .ok account =>
    let bytes := Data.bytes (Account.data account)
    if bytes = [] then pure (.ok none)
    else
      match AnchorEntry.try_from_slice bytes with
      | .ok entry => pure (.ok (some entry))
      | .error e => pure (.error (.non_retryable ("decode AnchorEntry: " ++ e.message)))

/-- The polls that are left. -/
def read_entry_loop (self : LezRegistryClient) (pda : AccountId) (label : String) :
    Nat → Async LezIo (Except AdapterError AnchorEntry)
  | 0 => pure (.error (.retryable (label ++ ": entry-PDA still empty after " ++ toString self.confirm_secs ++
      "s (tx submitted but not yet reflected on-chain)")))
  | left + 1 => do
    match ← read_entry pda with
    | .error e => pure (.error e)
    | .ok (some entry) => pure (.ok entry)
    | .ok none => do
      Runtime.sleep poll_interval
      self.read_entry_loop pda label left

/-- The polls of a read: one every 750 milliseconds, and at least one, counted by a `usize`. -/
def max_attempts (self : LezRegistryClient) : Nat := max (self.confirm_secs.toNat * 1000 / 750) 1 % 2 ^ 64

def read_entry_until (self : LezRegistryClient) (pda : AccountId) (label : String) :
    Async LezIo (Except AdapterError AnchorEntry) :=
  self.read_entry_loop pda label self.max_attempts

def anchor_one (self : LezRegistryClient) (cid : CanonicalCid) (metadata_hash : MetadataHash) :
    Async LezIo (Except AdapterError AnchorEntry) := do
  let pda := self.entry_pda_for cid
  let timestamp ← self.next_timestamp
  match ← submit_and_wait [pda] (.AnchorOne cid metadata_hash timestamp) "anchor_one" with
  | .error e => pure (.error e)
  | .ok () => self.read_entry_until pda "anchor_one"

/-- The entries of the accounts that are left, after those read already. -/
def read_entries (self : LezRegistryClient) : List AccountId → List AnchorEntry →
    Async LezIo (Except AdapterError (List AnchorEntry))
  | [], out => pure (.ok out)
  | pda :: rest, out => do
    match ← self.read_entry_until pda "anchor_batch" with
    | .error e => pure (.error e)
    | .ok entry => self.read_entries rest (out ++ [entry])

def anchor_batch (self : LezRegistryClient) (entries : List Pair) :
    Async LezIo (Except AdapterError (List AnchorEntry)) := do
  let pdas := entries.map fun entry => self.entry_pda_for entry.1
  let timestamp ← self.next_timestamp
  match ← submit_and_wait pdas (.AnchorBatch entries timestamp) "anchor_batch" with
  | .error e => pure (.error e)
  | .ok () => self.read_entries pdas []

def query_by_cid_hash (self : LezRegistryClient) (cid_hash : CidHash) :
    Async LezIo (Except AdapterError (Option AnchorEntry)) :=
  read_entry (self.entry_pda_for_hash cid_hash)

end

/-- One confirmation time is so long that its polls, which the cast makes none, are never made. -/
theorem max_attempts_eq_zero {self : LezRegistryClient} :
    self.max_attempts = 0 ↔ self.confirm_secs = 13835058055282163712 := by
  have hbound := self.confirm_secs.toNat_lt
  have hsecs : self.confirm_secs = 13835058055282163712 ↔ self.confirm_secs.toNat = 13835058055282163712 :=
    UInt64.toNat_inj.symm
  rw [hsecs, max_attempts]
  omega

end LezRegistryClient

end whistleblower_lez_adapter
