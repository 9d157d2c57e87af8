import Whistleblower.Indexing.Traits
import Whistleblower.Lib.FirstWriter

open whistleblower_core document_indexing first_writer

namespace whistleblower_mock_adapter

/-- The entries behind the client's lock. -/
structure MockRegistryClient where
  entries : CidHash → Option AnchorEntry

namespace MockRegistryClient

/-- A client without entries. -/
def default : MockRegistryClient := { entries := fun _ => none }

section

variable [Sha256]

def anchor_one (self : MockRegistryClient) (cid : CanonicalCid) (metadata_hash : MetadataHash) :
    Except AdapterError AnchorEntry × MockRegistryClient :=
  match self.entries (cid_hash cid) with
  | some existing => (.ok existing, self)
  | none =>
    let entry := { cid, cid_hash := cid_hash cid, metadata_hash, anchor_timestamp := 1 }
    (.ok entry, { entries := Function.update self.entries (cid_hash cid) (some entry) })

/-- The pairs that are left, after the entries returned so far. -/
def anchor_batch_loop : List Pair → List AnchorEntry → MockRegistryClient →
    Except AdapterError (List AnchorEntry) × MockRegistryClient
  | [], out, self => (.ok out, self)
  | (cid, metadata_hash) :: rest, out, self =>
    match self.anchor_one cid metadata_hash with
    | (.error e, after) => (.error e, after)
    | (.ok entry, after) => anchor_batch_loop rest (out ++ [entry]) after

def anchor_batch (self : MockRegistryClient) (entries_in : List Pair) :
    Except AdapterError (List AnchorEntry) × MockRegistryClient :=
  anchor_batch_loop entries_in [] self

omit [Sha256] in
def query_by_cid_hash (self : MockRegistryClient) (cid_hash : CidHash) : Except AdapterError (Option AnchorEntry) :=
  .ok (self.entries cid_hash)

/-- What the client writes for a pair, under its hash. -/
def write (pair : Pair) : CidHash × AnchorEntry := (cid_hash pair.1, new_entry pair.1 pair.2 1)

/-- Anchoring claims the hash, and returns what then stands there. -/
theorem anchor_one_eq (self : MockRegistryClient) (pair : Pair) :
    ∃ entry, self.anchor_one pair.1 pair.2 =
        (.ok entry, { entries := claim self.entries (write pair).1 (write pair).2 }) ∧
      claim self.entries (write pair).1 (write pair).2 (cid_hash pair.1) = some entry := by
  unfold anchor_one claim
  cases hstored : self.entries (cid_hash pair.1) with
  | some existing => exact ⟨existing, by simp [write, hstored], by simp [write, hstored]⟩
  | none => exact ⟨new_entry pair.1 pair.2 1, by simp [write, hstored, new_entry], by simp [write, hstored]⟩

theorem anchor_batch_loop_eq (entries_in : List Pair) (out : List AnchorEntry) (self : MockRegistryClient) :
    ∃ found, anchor_batch_loop entries_in out self =
        (.ok (out ++ found), { entries := claim_all self.entries (entries_in.map write) }) ∧
      found.map some =
        entries_in.map fun pair => claim_all self.entries (entries_in.map write) (cid_hash pair.1) := by
  induction entries_in generalizing out self with
  | nil => exact ⟨[], by simp [anchor_batch_loop], rfl⟩
  | cons pair rest ih =>
    obtain ⟨entry, hone, hentry⟩ := self.anchor_one_eq pair
    obtain ⟨found, hloop, hfound⟩ :=
      ih (out ++ [entry]) { entries := claim self.entries (write pair).1 (write pair).2 }
    refine ⟨entry :: found, ?_, ?_⟩
    · rw [anchor_batch_loop, hone]
      simpa using hloop
    · have hkept := extends_claim_all (claim self.entries (write pair).1 (write pair).2) (rest.map write) _ _ hentry
      simp only [List.map_cons, claim_all_cons, hkept, hfound]

end

end MockRegistryClient

end whistleblower_mock_adapter
