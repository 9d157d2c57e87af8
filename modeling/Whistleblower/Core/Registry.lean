import Whistleblower.Lib.FirstWriter
import Whistleblower.Core.Envelope

namespace whistleblower_core

structure AnchorEntry where
  cid : CanonicalCid
  cid_hash : CidHash
  metadata_hash : MetadataHash
  anchor_timestamp : UInt64
  deriving DecidableEq

structure AnchorOneOutcome where
  entry : AnchorEntry
  inserted : Bool
  deriving DecidableEq

structure AnchorBatchOutcome where
  entries : List AnchorEntry
  inserted : Nat
  skipped_existing : Nat
  deriving DecidableEq

inductive RegistryInstruction where
  | AnchorOne (cid : CanonicalCid) (metadata_hash : MetadataHash) (anchor_timestamp : UInt64)
  | AnchorBatch (entries : List (CanonicalCid × MetadataHash)) (anchor_timestamp : UInt64)
  deriving DecidableEq

inductive RegistryOutcome where
  | AnchorOne (outcome : AnchorOneOutcome)
  | AnchorBatch (outcome : AnchorBatchOutcome)
  deriving DecidableEq

/-- The map from hashes to entries, by its lookups: nothing else is asked of it. -/
@[ext] structure RegistryState where
  entries : CidHash → Option AnchorEntry

variable [Sha256]

namespace RegistryState

def default : RegistryState := ⟨fun _ => none⟩

def anchor_one (self : RegistryState) (cid : CanonicalCid) (metadata_hash : MetadataHash)
    (anchor_timestamp : UInt64) : Except CoreError AnchorOneOutcome × RegistryState :=
  let hash := whistleblower_core.cid_hash cid
  match self.entries hash with
  | some entry => (.ok { entry, inserted := false }, self)
  | none =>
    let entry := { cid, cid_hash := hash, metadata_hash, anchor_timestamp }
    (.ok { entry, inserted := true }, { entries := Function.update self.entries hash (some entry) })

/-- The loop of `anchor_batch`, with the outcome collected so far. -/
def anchor_batch_loop (anchor_timestamp : UInt64) : List (CanonicalCid × MetadataHash) →
    AnchorBatchOutcome → RegistryState → Except CoreError AnchorBatchOutcome × RegistryState
  | [], collected, self => (.ok collected, self)
  | (cid, metadata_hash) :: rest, collected, self =>
    match self.anchor_one cid metadata_hash anchor_timestamp with
    | (.error e, after) => (.error e, after)
    | (.ok outcome, after) =>
      anchor_batch_loop anchor_timestamp rest {
        entries := collected.entries ++ [outcome.entry]
        inserted := if outcome.inserted then collected.inserted + 1 else collected.inserted
        skipped_existing :=
          if outcome.inserted then collected.skipped_existing else collected.skipped_existing + 1
      } after

def anchor_batch (self : RegistryState) (entries : List (CanonicalCid × MetadataHash))
    (anchor_timestamp : UInt64) : Except CoreError AnchorBatchOutcome × RegistryState :=
  anchor_batch_loop anchor_timestamp entries { entries := [], inserted := 0, skipped_existing := 0 } self

def apply (self : RegistryState) : RegistryInstruction → Except CoreError RegistryOutcome × RegistryState
  | .AnchorOne cid metadata_hash anchor_timestamp =>
    let (result, after) := self.anchor_one cid metadata_hash anchor_timestamp
    (result.map .AnchorOne, after)
  | .AnchorBatch entries anchor_timestamp =>
    let (result, after) := self.anchor_batch entries anchor_timestamp
    (result.map .AnchorBatch, after)

def query_by_cid_hash (self : RegistryState) (cid_hash : CidHash) : Except CoreError (Option AnchorEntry) :=
  .ok (self.entries cid_hash)

end RegistryState

/-- The entry that anchoring this CID for the first time writes. -/
def new_entry (cid : CanonicalCid) (metadata_hash : MetadataHash) (anchor_timestamp : UInt64) :
    AnchorEntry :=
  { cid, cid_hash := cid_hash cid, metadata_hash, anchor_timestamp }

namespace RegistryInstruction

/-- The entries an instruction would write to an empty registry, in order. -/
def new_entries : RegistryInstruction → List AnchorEntry
  | .AnchorOne cid metadata_hash anchor_timestamp => [new_entry cid metadata_hash anchor_timestamp]
  | .AnchorBatch entries anchor_timestamp =>
    entries.map fun entry => new_entry entry.1 entry.2 anchor_timestamp

/-- Each of these entries under its hash. -/
def writes (instruction : RegistryInstruction) : List (CidHash × AnchorEntry) :=
  instruction.new_entries.map fun entry => (entry.cid_hash, entry)

/-- The CIDs an instruction names, in order. -/
def cids : RegistryInstruction → List CanonicalCid
  | .AnchorOne cid _ _ => [cid]
  | .AnchorBatch entries _ => entries.map Prod.fst

theorem cid_hash_of_mem_new_entries {instruction : RegistryInstruction} {entry : AnchorEntry}
    (hentry : entry ∈ instruction.new_entries) : cid_hash entry.cid = entry.cid_hash := by
  cases instruction with
  | AnchorOne cid metadata_hash anchor_timestamp =>
    rw [List.mem_singleton.mp hentry]
    rfl
  | AnchorBatch entries anchor_timestamp =>
    obtain ⟨pair, _, rfl⟩ := List.mem_map.mp hentry
    rfl

theorem map_cid_new_entries (instruction : RegistryInstruction) :
    instruction.new_entries.map AnchorEntry.cid = instruction.cids := by
  cases instruction with
  | AnchorOne => rfl
  | AnchorBatch => simp [new_entries, cids, new_entry, Function.comp_def]

end RegistryInstruction

namespace RegistryState

open first_writer

/-- Anchoring claims the hash, and returns the entry that then stands there. -/
theorem anchor_one_eq (self : RegistryState) (cid : CanonicalCid) (metadata_hash : MetadataHash)
    (anchor_timestamp : UInt64) :
    self.anchor_one cid metadata_hash anchor_timestamp =
      (.ok {
        entry := (self.entries (cid_hash cid)).getD (new_entry cid metadata_hash anchor_timestamp)
        inserted := (self.entries (cid_hash cid)).isNone },
      { entries := claim self.entries (cid_hash cid) (new_entry cid metadata_hash anchor_timestamp) }) := by
  unfold anchor_one claim
  cases hstored : self.entries (cid_hash cid) <;> simp [hstored, new_entry]

theorem anchor_batch_loop_eq (anchor_timestamp : UInt64) (entries : List (CanonicalCid × MetadataHash))
    (collected : AnchorBatchOutcome) (self : RegistryState) :
    ∃ outcome, anchor_batch_loop anchor_timestamp entries collected self =
      (.ok outcome,
        { entries := claim_all self.entries (RegistryInstruction.AnchorBatch entries anchor_timestamp).writes }) := by
  induction entries generalizing collected self with
  | nil => exact ⟨collected, rfl⟩
  | cons entry rest ih =>
    obtain ⟨cid, metadata_hash⟩ := entry
    rw [anchor_batch_loop, anchor_one_eq]
    exact ih _ _

/-- Applying an instruction succeeds, and writes each of its entries whose hash has
    none yet, the first of equal hashes winning. -/
theorem apply_eq (self : RegistryState) (instruction : RegistryInstruction) :
    ∃ outcome, self.apply instruction =
      (.ok outcome, { entries := claim_all self.entries instruction.writes }) := by
  cases instruction with
  | AnchorOne cid metadata_hash anchor_timestamp =>
    rw [apply, anchor_one_eq]
    exact ⟨_, rfl⟩
  | AnchorBatch entries anchor_timestamp =>
    obtain ⟨outcome, hbatch⟩ := anchor_batch_loop_eq anchor_timestamp entries
      { entries := [], inserted := 0, skipped_existing := 0 } self
    rw [apply, anchor_batch, hbatch]
    exact ⟨_, rfl⟩

end RegistryState

end whistleblower_core
