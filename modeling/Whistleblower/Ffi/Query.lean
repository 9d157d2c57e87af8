import Whistleblower.Ffi.Metadata
import Whistleblower.Lez.Client

open nssa_core whistleblower_core whistleblower_registry document_indexing whistleblower_lez_adapter

namespace whistleblower_ffi

/-- What a call finds around it: the numbers its JSON reader can hold, the wallet and
    the client that the arguments name, and whether a runtime can be started. Errors
    arrive as the text they are reported with. -/
structure Host where
  number_fits : List UInt8 → Bool
  init_wallet : json.Value → Except String Unit
  registry_client : json.Value → Except String LezRegistryClient
  runtime : Except String Unit

/-- Members stand in the order of their names. -/
def entry_to_json (entry : AnchorEntry) : json.Value :=
  json.record [
    ("anchor_timestamp", .of_nat entry.anchor_timestamp.toNat),
    ("cid", .of_string entry.cid.as_str),
    ("cid_hash", .of_string (text.hex_encode entry.cid_hash.digest.toList)),
    ("metadata_hash", .of_string (text.hex_encode entry.metadata_hash.digest.toList))]

/-- The answer of a query. -/
def query_json (result : Option AnchorEntry) : json.Value :=
  json.record [
    ("entry", (result.map entry_to_json).getD .null),
    ("found", .bool result.isSome),
    ("success", .bool true)]

section

variable [Sha256] [Nssa]

/-- Build the client, and ask it for the entry under a hash. -/
def query (host : Host) (v : json.Value) (cid_hash : CidHash) : Async LezIo (Except FfiError (List UInt8)) :=
  match host.registry_client v, host.runtime with
  | .error e, _ => pure (.error (.failed e))
  | .ok _, .error e => pure (.error (.failed ("tokio: " ++ e)))
  | .ok client, .ok () => do
    match ← client.query_by_cid_hash cid_hash with
    | .error e => pure (.error (.failed ("query: " ++ e.message)))
    | .ok result => pure (.ok (query_json result).render)

def query_by_cid_impl (host : Host) (args : List UInt8) : Async LezIo (Except FfiError (List UInt8)) :=
  match json.from_slice_any host.number_fits args with
  | .error e => pure (.error (.invalid_json e))
  | .ok v =>
    match host.init_wallet v with
    | .error e => pure (.error (.failed ("wallet init: " ++ e)))
    | .ok () =>
      match json.str_at v "cid" with
      | none => pure (.error (.missing "cid"))
      | some cid =>
        match CanonicalCid.new cid with
        | .error e => pure (.error (.invalid_cid e))
        | .ok cid => query host v (cid_hash cid)

def query_by_cid_hash_impl (host : Host) (args : List UInt8) : Async LezIo (Except FfiError (List UInt8)) :=
  match json.from_slice_any host.number_fits args with
  | .error e => pure (.error (.invalid_json e))
  | .ok v =>
    match host.init_wallet v with
    | .error e => pure (.error (.failed ("wallet init: " ++ e)))
    | .ok () =>
      match json.str_at v "cid_hash_hex" with
      | none => pure (.error (.missing "cid_hash_hex"))
      | some s =>
        match parse_cid_hash s with
        | .error e => pure (.error e)
        | .ok cid_hash => query host v cid_hash

/-- The answer to a fetch, with the account as it is on the chain. -/
def fetched (chain : Chain) (id : AccountId) : Exchange LezIo :=
  ⟨.get_account_public id, (Except.ok (chain id) : Except String Account)⟩

/-- The call gets through to the registry of this program. -/
structure Host.Serves (host : Host) (program_id : ProgramId) (v : json.Value) : Prop where
  wallet : host.init_wallet v = .ok ()
  client : ∃ client, host.registry_client v = .ok client ∧ client.program_id = program_id
  runtime : host.runtime = .ok ()

omit [Sha256] in
/-- Reading an account of the registry gives the entry that the registry has there. -/
theorem read_entry_returns {chain : Chain} {pda : AccountId}
    (hformed : (chain pda).data.bytes ≠ [] → ∃ entry, AnchorEntry.try_from_slice (chain pda).data.bytes = .ok entry) :
    (LezRegistryClient.read_entry pda).Returns [fetched chain pda] (.ok (decode_entry (chain pda).data.bytes)) := by
  refine (Async.call_returns (fetched chain pda)).bind ?_
  by_cases hdata : (chain pda).data.bytes = []
  · simp only [fetched, decode_entry, if_pos hdata]
    exact .refl _
  · obtain ⟨entry, hentry⟩ := hformed hdata
    simp only [fetched, decode_entry, if_neg hdata, hentry]
    exact .refl _

/-- A query reads one account, and answers with what the registry holds there. -/
theorem query_returns {program_id : ProgramId} {chain : Chain} (hformed : WellFormed program_id chain) {host : Host}
    {v : json.Value} (hserves : host.Serves program_id v) (hash : CidHash) :
    (query host v hash).Returns [fetched chain (entry_pda program_id hash)]
      (.ok (query_json ((registry program_id chain).entries hash)).render) := by
  obtain ⟨client, hclient, rfl⟩ := hserves.client
  have hstored : entry_data client.program_id chain hash ≠ [] →
      ∃ entry, AnchorEntry.try_from_slice (entry_data client.program_id chain hash) = .ok entry := by
    intro hdata
    obtain ⟨entry, hentry, _⟩ := hformed hash hdata
    exact ⟨entry, hentry⟩
  have hread := read_entry_returns hstored
  simp only [query, hclient, hserves.runtime]
  exact hread.bind (.refl _)

/-- Asking for a canonical CID asks for its hash. -/
theorem query_by_cid_returns {program_id : ProgramId} {chain : Chain} (hformed : WellFormed program_id chain)
    {host : Host} {args : List UInt8} {v : json.Value} (hargs : json.from_slice_any host.number_fits args = .ok v)
    (hserves : host.Serves program_id v) {s : String} (hcid : json.str_at v "cid" = some s) {cid : CanonicalCid}
    (hnew : CanonicalCid.new s = .ok cid) :
    (query_by_cid_impl host args).Returns [fetched chain (entry_pda program_id (cid_hash cid))]
      (.ok (query_json ((registry program_id chain).entries (cid_hash cid))).render) := by
  simp only [query_by_cid_impl, hargs, hserves.wallet, hcid, hnew]
  exact query_returns hformed hserves (cid_hash cid)

end

end whistleblower_ffi
