import Whistleblower.Guest.Chain
import Whistleblower.Indexing.Batch.Distinct

open nssa_core whistleblower_core whistleblower_registry whistleblower_lez_adapter first_writer

namespace document_indexing.batch

/-- What an entry anchors. -/
def pair_of (entry : AnchorEntry) : Pair := (entry.cid, entry.metadata_hash)

/-- The pair of a list that names a CID first. -/
def first_pair (pairs : List Pair) (cid : CanonicalCid) : Option Pair := pairs.find? fun pair => pair.1 = cid

theorem first_pair_append (first second : List Pair) (cid : CanonicalCid) :
    first_pair (first ++ second) cid = (first_pair first cid).or (first_pair second cid) :=
  List.find?_append

section

variable [Sha256] [Nssa]

def batch_accounts (program_id : ProgramId) (entries : List Pair) : List AccountId :=
  entries.map fun pair => entry_pda program_id (cid_hash pair.1)

/-- The chain after a batch has been executed, unless it is rejected as a whole. -/
def execute (program_id : ProgramId) (chain : Chain) (entries : List Pair) (anchor_timestamp : UInt64) :
    Option Chain := do
  let payload ← (RegistryInstruction.AnchorBatch entries anchor_timestamp).to_vec
  let tx := LezRegistryClient.transaction (batch_accounts program_id entries) payload
  if tx.account_ids.Nodup then
    match run_guest program_id chain tx with
    | .ok _ => some (submit program_id chain tx)
    | .error _ => none
  else none

/-- The chain after an answer, if it is what the registry answers at that time: the
    stored entries of an executed batch, or an error for a rejected one. -/
def answered (program_id : ProgramId) (chain : Chain) : Exchange Adapters × UInt64 → Option Chain
  | (⟨.anchor_batch entries, response⟩, anchor_timestamp) =>
    let executed := execute program_id chain entries anchor_timestamp
    match executed, (response : Except AdapterError (List AnchorEntry)) with
    | some after, .ok reply =>
      if reply.map some = entries.map fun pair => (registry program_id after).entries (cid_hash pair.1) then
        some after
      else none
    | none, .error _ => some chain
    | _, _ => none
  | _ => some chain

/-- All recorded answers are the registry's, each at some time. -/
def Executes (program_id : ProgramId) (chain : Chain) (calls : List (Exchange Adapters)) (final : Chain) : Prop :=
  ∃ stamped : List (Exchange Adapters × UInt64), stamped.map Prod.fst = calls ∧
    transition.run (answered program_id) chain stamped = some final

variable {program_id : ProgramId}

omit [Sha256] [Nssa] in
theorem account_ids_transaction (account_ids : List AccountId) (payload : List UInt8) :
    (LezRegistryClient.transaction account_ids payload).account_ids = account_ids := by
  simp [LezRegistryClient.transaction, Transaction.account_ids, Function.comp_def]

theorem execute_cases {chain after : Chain} {entries : List Pair} {anchor_timestamp : UInt64}
    (hexecute : execute program_id chain entries anchor_timestamp = some after) :
    ∃ payload output, (RegistryInstruction.AnchorBatch entries anchor_timestamp).to_vec = some payload ∧
      (batch_accounts program_id entries).Nodup ∧
      run_guest program_id chain (LezRegistryClient.transaction (batch_accounts program_id entries) payload) =
        .ok output ∧
      after = submit program_id chain
        (LezRegistryClient.transaction (batch_accounts program_id entries) payload) := by
  unfold execute at hexecute
  obtain ⟨payload, hpayload, hexecute⟩ := Option.bind_eq_some_iff.mp hexecute
  dsimp only at hexecute
  split at hexecute
  · rename_i hdistinct
    rw [account_ids_transaction] at hdistinct
    split at hexecute
    · rename_i output hrun
      cases hexecute
      exact ⟨payload, output, hpayload, hdistinct, hrun, rfl⟩
    · cases hexecute
  · cases hexecute

/-- An executed batch claims its entries. -/
theorem execute_registry (hinjective : PdaInjective program_id) {chain after : Chain}
    (hformed : WellFormed program_id chain) {entries : List Pair} {anchor_timestamp : UInt64}
    (hexecute : execute program_id chain entries anchor_timestamp = some after) :
    (registry program_id after).entries = claim_all (registry program_id chain).entries
        (RegistryInstruction.AnchorBatch entries anchor_timestamp).writes ∧
      WellFormed program_id after := by
  obtain ⟨payload, output, hpayload, hdistinct, hrun, rfl⟩ := execute_cases hexecute
  rw [← account_ids_transaction (batch_accounts program_id entries) payload] at hdistinct
  obtain ⟨instruction, hdecode, _, hafter⟩ := submit_registry hinjective hformed hdistinct hrun
  have hinstruction := RegistryInstruction.try_from_slice_eq_ok.mpr hpayload
  change RegistryInstruction.try_from_slice payload = .ok instruction at hdecode
  rw [hinstruction] at hdecode
  cases hdecode
  exact hafter

/-- A batch is executed if it names no CID twice, and all its entries fit their
    accounts. -/
theorem execute_isSome (hinjective : PdaInjective program_id) (chain : Chain) {entries : List Pair}
    (hdistinct : Loop.Distinct entries) (hcollision : Set.InjOn cid_hash {cid | cid ∈ entries.map Prod.fst})
    (hlength : entries.length < 256 ^ 4)
    (hfits : ∀ pair ∈ entries, (text.bytes pair.1.inner).length < 256 ^ 4 ∧
      76 + (text.bytes pair.1.inner).length ≤ Nssa.DATA_MAX_LENGTH) (anchor_timestamp : UInt64) :
    (execute program_id chain entries anchor_timestamp).isSome := by
  obtain ⟨payload, hpayload⟩ := RegistryInstruction.to_vec_batch hlength (fun pair hpair => (hfits pair hpair).1)
    anchor_timestamp
  have haccounts : (batch_accounts program_id entries).Nodup := hdistinct.accounts hinjective hcollision
  obtain ⟨output, hrun⟩ : ∃ output, run_guest program_id chain
      (LezRegistryClient.transaction (batch_accounts program_id entries) payload) = .ok output := by
    apply main_completes (RegistryInstruction.try_from_slice_eq_ok.mpr hpayload)
    · simp [LezRegistryClient.transaction, Transaction.pre_states, Chain.snapshot, batch_accounts, Function.comp_def]
    · intro pair hpair
      obtain ⟨hcid, hdata⟩ := hfits pair hpair
      have hentry : (text.bytes (new_entry pair.1 pair.2 anchor_timestamp).cid.inner).length < 256 ^ 4 := hcid
      obtain ⟨bytes, hbytes, hsize⟩ := AnchorEntry.to_vec_eq_some hentry
      exact ⟨bytes, hbytes, hsize ▸ hdata⟩
  simp [execute, hpayload, account_ids_transaction, haccounts, hrun]

theorem answered_cases {chain after : Chain} {exchange : Exchange Adapters} {anchor_timestamp : UInt64}
    (hanswered : answered program_id chain (exchange, anchor_timestamp) = some after) :
    (∃ entries, anchored_batch exchange = some entries ∧
        execute program_id chain entries anchor_timestamp = some after) ∨
      (anchored_batch exchange = none ∧ after = chain ∧ ∀ entries e, exchange = failed_call entries e →
        execute program_id chain entries anchor_timestamp = none) := by
  obtain ⟨request, response⟩ := exchange
  cases request with
  | anchor_batch entries =>
    change Except AdapterError (List AnchorEntry) at response
    cases hexecute : execute program_id chain entries anchor_timestamp with
    | none =>
      cases response with
      | ok reply => simp [answered, hexecute] at hanswered
      | error e =>
        simp only [answered, hexecute, Option.some.injEq] at hanswered
        refine .inr ⟨rfl, hanswered.symm, ?_⟩
        rintro _ _ ⟨⟩
        exact hexecute
    | some executed =>
      cases response with
      | error e => simp [answered, hexecute] at hanswered
      | ok reply =>
        simp only [answered, hexecute] at hanswered
        split at hanswered
        · cases hanswered
          exact .inl ⟨entries, rfl, hexecute⟩
        · cases hanswered
  | _ =>
    cases hanswered
    exact .inr ⟨rfl, rfl, fun _ _ h => nomatch h⟩

/-- A batch that was refused could not be executed. -/
theorem answered_failed {chain final : Chain} {stamped : List (Exchange Adapters × UInt64)}
    (hrun : transition.run (answered program_id) chain stamped = some final) {entries : List Pair}
    {e : AdapterError} (hfailed : failed_call entries e ∈ stamped.map Prod.fst) :
    ∃ current anchor_timestamp, execute program_id current entries anchor_timestamp = none := by
  induction stamped generalizing chain with
  | nil => cases hfailed
  | cons answer rest ih =>
    obtain ⟨exchange, anchor_timestamp⟩ := answer
    obtain ⟨next, hanswered, hrest⟩ := transition.run_cons_eq_some.mp hrun
    rcases List.mem_cons.mp hfailed with hfirst | hlater
    · rcases answered_cases hanswered with ⟨batch, hbatch, _⟩ | ⟨_, _, hrefused⟩
      · rw [← show failed_call entries e = exchange from hfirst] at hbatch
        cases hbatch
      · exact ⟨chain, anchor_timestamp, hrefused entries e hfirst.symm⟩
    · exact ih hrest hlater

omit [Nssa] in
/-- Under a CID's hash a batch writes the first of its pairs that names the CID. -/
theorem first_write_batch {entries : List Pair} {cid : CanonicalCid} (anchor_timestamp : UInt64)
    (hcollision : ∀ pair ∈ entries, cid_hash pair.1 = cid_hash cid → pair.1 = cid) :
    (first_write (RegistryInstruction.AnchorBatch entries anchor_timestamp).writes (cid_hash cid)).map pair_of =
      first_pair entries cid := by
  induction entries with
  | nil => rfl
  | cons pair rest ih =>
    have hrest := ih fun other hother => hcollision other (List.mem_cons_of_mem pair hother)
    have hwrites : (RegistryInstruction.AnchorBatch (pair :: rest) anchor_timestamp).writes =
        (cid_hash pair.1, new_entry pair.1 pair.2 anchor_timestamp) ::
          (RegistryInstruction.AnchorBatch rest anchor_timestamp).writes := rfl
    rw [hwrites, first_write_cons, first_pair, List.find?_cons]
    by_cases hcid : pair.1 = cid
    · subst hcid
      simp [pair_of, new_entry]
    · have hhash : cid_hash pair.1 ≠ cid_hash cid := fun h => hcid (hcollision pair List.mem_cons_self h)
      rw [if_neg hhash, hrest]
      simp [hcid, first_pair]

/-- After answers of the registry it holds under a CID's hash what it held before, or
    else the first accepted pair that names the CID. -/
theorem answered_registry (hinjective : PdaInjective program_id) {chain final : Chain}
    (hformed : WellFormed program_id chain) {stamped : List (Exchange Adapters × UInt64)}
    (hrun : transition.run (answered program_id) chain stamped = some final) {cid : CanonicalCid}
    (hcollision : ∀ batch ∈ anchored_batches (stamped.map Prod.fst), ∀ pair ∈ batch,
      cid_hash pair.1 = cid_hash cid → pair.1 = cid) :
    ((registry program_id final).entries (cid_hash cid)).map pair_of =
      (((registry program_id chain).entries (cid_hash cid)).map pair_of).or
        (first_pair (anchored_batches (stamped.map Prod.fst)).flatten cid) := by
  induction stamped generalizing chain with
  | nil =>
    cases hrun
    exact (Option.or_none).symm
  | cons answer rest ih =>
    obtain ⟨exchange, anchor_timestamp⟩ := answer
    obtain ⟨next, hanswered, hrest⟩ := transition.run_cons_eq_some.mp hrun
    rcases answered_cases hanswered with ⟨entries, hbatch, hexecute⟩ | ⟨hbatch, rfl, _⟩
    · have hbatches : anchored_batches (((exchange, anchor_timestamp) :: rest).map Prod.fst) =
          entries :: anchored_batches (rest.map Prod.fst) := by
        rw [List.map_cons, anchored_batches, List.filterMap_cons, hbatch]
        rfl
      rw [hbatches, List.forall_mem_cons] at hcollision
      obtain ⟨hclaimed, hnext⟩ := execute_registry hinjective hformed hexecute
      rw [ih hnext hrest hcollision.2, hclaimed, claim_all_apply, Option.map_or,
        first_write_batch anchor_timestamp hcollision.1, hbatches, List.flatten_cons, first_pair_append,
        Option.or_assoc]
    · have hbatches : anchored_batches (((exchange, anchor_timestamp) :: rest).map Prod.fst) =
          anchored_batches (rest.map Prod.fst) := by
        rw [List.map_cons, anchored_batches, List.filterMap_cons, hbatch]
        rfl
      rw [hbatches] at hcollision ⊢
      exact ih hformed hrest hcollision

end

end document_indexing.batch
