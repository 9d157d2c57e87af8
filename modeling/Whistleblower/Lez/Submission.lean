import Whistleblower.Guest.Repeated
import Whistleblower.Lez.Calls

open nssa_core whistleblower_core document_indexing whistleblower_registry

namespace whistleblower_lez_adapter

section

variable [Sha256] [Nssa] {client : LezRegistryClient} {call : Call}

/-- A request that, if it submits a transaction, submits one of the call's own. -/
def Submits (client : LezRegistryClient) (call : Call) (request : LezCall) : Prop :=
  ∀ tx, request = .send_transaction tx → call.Attempt client tx

theorem submits_of_ne {request : LezCall} (hrequest : ∀ tx, request ≠ .send_transaction tx) :
    Submits client call request := fun tx htx => absurd htx (hrequest tx)

theorem sleep_asks (duration : Duration) : Async.Asks (Submits client call) (Runtime.sleep (I := LezIo) duration) :=
  .call (submits_of_ne (by rintro _ ⟨⟩))

theorem next_timestamp_asks : Async.Asks (Submits client call) client.next_timestamp := by
  unfold LezRegistryClient.next_timestamp
  cases client.timestamp_source with
  | Fixed ts => trivial
  | SystemTimeMs => exact (Async.Asks.call (submits_of_ne (by rintro _ ⟨⟩))).bind fun _ => trivial

theorem await_transaction_asks (hash : TxHash) (left : Nat) :
    Async.Asks (Submits client call) (LezRegistryClient.await_transaction hash left) := by
  induction left with
  | zero => trivial
  | succ left ih =>
    refine (Async.Asks.call (submits_of_ne (by rintro _ ⟨⟩))).bind ?_
    intro found
    split
    · trivial
    · exact (sleep_asks poll_interval).bind fun _ => ih

theorem submit_and_wait_asks {anchor_timestamp : UInt64} {instruction : RegistryInstruction}
    (hinstruction : call.instruction anchor_timestamp = some instruction) (label : String) :
    Async.Asks (Submits client call)
      (LezRegistryClient.submit_and_wait (call.pairs.map fun pair => client.entry_pda_for pair.1)
        instruction label) := by
  unfold LezRegistryClient.submit_and_wait
  split
  · trivial
  · rename_i payload hpayload
    refine (Async.Asks.call (submits_of_ne (by rintro _ ⟨⟩))).bind ?_
    intro built
    split
    · trivial
    · have hsubmits : Submits client call (.send_transaction (LezRegistryClient.transaction
          (call.pairs.map fun pair => client.entry_pda_for pair.1) payload)) := by
        rintro _ ⟨⟩
        exact ⟨anchor_timestamp, instruction, payload, hinstruction, hpayload, rfl⟩
      refine (Async.Asks.call hsubmits).bind ?_
      intro sent
      split
      · trivial
      · exact (await_transaction_asks _ 8).bind fun _ => trivial

theorem read_entry_asks (pda : AccountId) :
    Async.Asks (Submits client call) (LezRegistryClient.read_entry pda) := by
  refine (Async.Asks.call (submits_of_ne (by rintro _ ⟨⟩))).bind ?_
  intro response
  split
  · trivial
  · dsimp only
    split
    · trivial
    · split <;> trivial

theorem read_entry_until_asks (pda : AccountId) (label : String) :
    Async.Asks (Submits client call) (client.read_entry_until pda label) := by
  unfold LezRegistryClient.read_entry_until
  generalize client.max_attempts = left
  induction left with
  | zero => trivial
  | succ left ih =>
    refine (read_entry_asks pda).bind ?_
    intro result
    split
    · trivial
    · trivial
    · exact (sleep_asks poll_interval).bind fun _ => ih

theorem read_entries_asks (pdas : List AccountId) (out : List AnchorEntry) :
    Async.Asks (Submits client call) (client.read_entries pdas out) := by
  induction pdas generalizing out with
  | nil => trivial
  | cons pda rest ih =>
    refine (read_entry_until_asks pda "anchor_batch").bind ?_
    intro result
    split
    · trivial
    · exact ih _

/-- Whatever is answered, a call submits no transaction but its own. -/
theorem program_asks (client : LezRegistryClient) (call : Call) :
    Async.Asks (Submits client call) (call.program client) := by
  cases call with
  | anchor_one cid metadata_hash =>
    refine Async.Asks.bind (next_timestamp_asks.bind ?_) fun _ => trivial
    intro anchor_timestamp
    have hinstruction : Call.instruction anchor_timestamp (.anchor_one cid metadata_hash) =
        some (.AnchorOne cid metadata_hash anchor_timestamp) := rfl
    refine (submit_and_wait_asks hinstruction "anchor_one").bind ?_
    intro submitted
    split
    · trivial
    · exact read_entry_until_asks _ "anchor_one"
  | anchor_batch entries =>
    refine next_timestamp_asks.bind ?_
    intro anchor_timestamp
    have hinstruction : Call.instruction anchor_timestamp (.anchor_batch entries) =
        some (.AnchorBatch entries anchor_timestamp) := rfl
    refine (submit_and_wait_asks hinstruction "anchor_batch").bind ?_
    intro submitted
    split
    · trivial
    · exact read_entries_asks _ []
  | query_by_cid_hash hash =>
    exact (read_entry_asks _).bind fun _ => trivial

omit [Sha256] [Nssa] in
theorem account_ids_transaction (account_ids : List AccountId) (payload : List UInt8) :
    (LezRegistryClient.transaction account_ids payload).account_ids = account_ids := by
  rw [LezRegistryClient.transaction, Transaction.account_ids, List.map_map]
  exact List.map_id' _

omit [Sha256] in
theorem account_id_pre_states (tx : Transaction) (chain : Chain) :
    (tx.pre_states chain).map AccountWithMetadata.account_id = tx.account_ids := by
  rw [Transaction.pre_states, List.map_map]
  rfl

/-- The entries of these pairs can be stored. -/
def Fits (pairs : List Pair) : Prop :=
  ∀ pair ∈ pairs, ∀ anchor_timestamp, ∃ bytes, (new_entry pair.1 pair.2 anchor_timestamp).to_vec = some bytes ∧
    bytes.length ≤ Nssa.DATA_MAX_LENGTH

omit [Nssa] in
theorem new_entries_instruction {anchor_timestamp : UInt64} {instruction : RegistryInstruction}
    (hinstruction : call.instruction anchor_timestamp = some instruction) :
    instruction.new_entries = call.pairs.map fun pair => new_entry pair.1 pair.2 anchor_timestamp := by
  cases call with
  | anchor_one cid metadata_hash =>
    cases hinstruction
    rfl
  | anchor_batch entries =>
    cases hinstruction
    rfl
  | query_by_cid_hash hash => cases hinstruction

/-- The program runs to its end on each transaction of a call, in any state of the chain. -/
theorem Call.Attempt.completes {tx : Transaction} (hattempt : call.Attempt client tx) (hfits : Fits call.pairs)
    (chain : Chain) :
    ∃ anchor_timestamp instruction output, call.instruction anchor_timestamp = some instruction ∧
      RegistryInstruction.try_from_slice tx.instruction = .ok instruction ∧
      run_guest client.program_id chain tx = .ok output := by
  obtain ⟨anchor_timestamp, instruction, payload, hinstruction, hpayload, rfl⟩ := hattempt
  have hdecode := RegistryInstruction.try_from_slice_eq_ok.mpr hpayload
  have haddresses := account_id_pre_states
    (LezRegistryClient.transaction (call.pairs.map fun pair => client.entry_pda_for pair.1) payload) chain
  rw [account_ids_transaction] at haddresses
  cases call with
  | anchor_one cid metadata_hash =>
    cases hinstruction
    obtain ⟨bytes, hbytes, hlength⟩ := hfits _ List.mem_cons_self anchor_timestamp
    have hcompletes : ∃ output, run_guest client.program_id chain
        (LezRegistryClient.transaction [client.entry_pda_for cid] payload) = .ok output :=
      main_completes_one hdecode haddresses hbytes hlength
    obtain ⟨output, hrun⟩ := hcompletes
    exact ⟨anchor_timestamp, _, output, rfl, hdecode, hrun⟩
  | anchor_batch entries =>
    cases hinstruction
    have hcompletes : ∃ output, run_guest client.program_id chain
        (LezRegistryClient.transaction (entries.map fun pair => client.entry_pda_for pair.1) payload) = .ok output :=
      main_completes hdecode haddresses fun pair hpair => hfits pair hpair anchor_timestamp
    obtain ⟨output, hrun⟩ := hcompletes
    exact ⟨anchor_timestamp, _, output, rfl, hdecode, hrun⟩
  | query_by_cid_hash hash => cases hinstruction

/-- The post-state of an entry's account holds an entry for its CID: the one that was
    there, or else the new one. It claims the account if that was unused and unowned. -/
theorem processed_entry {chain : Chain} (hformed : WellFormed client.program_id chain) {pair : Pair}
    {anchor_timestamp : UInt64} {post : AccountPostState}
    (hprocessed : Processed client.program_id (chain.snapshot (client.entry_pda_for pair.1, false))
      (new_entry pair.1 pair.2 anchor_timestamp) post) :
    (∃ entry, AnchorEntry.try_from_slice post.account.data.bytes = .ok entry ∧
      entry.cid_hash = cid_hash pair.1 ∧ cid_hash entry.cid = cid_hash pair.1 ∧
      ((chain (client.entry_pda_for pair.1)).data.bytes = [] → entry = new_entry pair.1 pair.2 anchor_timestamp)) ∧
    ((chain (client.entry_pda_for pair.1)).data.bytes ≠ [] → post.account = chain (client.entry_pda_for pair.1)) ∧
    post.claim =
      if (chain (client.entry_pda_for pair.1)).data.bytes = [] ∧
        (chain (client.entry_pda_for pair.1)).program_owner = Nssa.DEFAULT_PROGRAM_ID
      then some (.Pda ⟨(cid_hash pair.1).digest⟩) else none := by
  cases hprocessed with
  | present _ hdata =>
    have hstored : (chain (client.entry_pda_for pair.1)).data.bytes ≠ [] := hdata
    obtain ⟨entry, hread, hhash, hkey⟩ := hformed (cid_hash pair.1) hdata
    refine ⟨⟨entry, hread, hkey, hhash.trans hkey, fun hempty => absurd hempty hstored⟩, fun _ => rfl, ?_⟩
    rw [if_neg fun h => hstored h.1]
    rfl
  | fresh _ hdata data hbytes =>
    have hunused : (chain (client.entry_pda_for pair.1)).data.bytes = [] := hdata
    refine ⟨⟨_, AnchorEntry.try_from_slice_to_vec hbytes, rfl, rfl, fun _ => rfl⟩, fun h => absurd hunused h, ?_⟩
    simp only [hunused, true_and]
    rfl

/-- Whatever a call of the adapter submits, the program completes on it in every state
    it can be in: no assertion and no expectation fails, each account in its place ends
    with an entry for its CID, and exactly the unused and unowned ones are claimed. -/
theorem submission_never_panics (hinjective : PdaInjective client.program_id) {initial chain : Chain}
    (hunused : Unused client.program_id initial) (hreachable : ReachableAny client.program_id initial chain)
    (hfits : Fits call.pairs) {trace : List (Exchange LezIo)} {tx : Transaction}
    {resume : LezIo.Response (.send_transaction tx) → Async LezIo (Except AdapterError (List AnchorEntry))}
    (hsend : Async.Runs (call.program client) trace (.ask (.send_transaction tx) resume)) :
    ∃ anchor_timestamp instruction output,
      call.instruction anchor_timestamp = some instruction ∧
      RegistryInstruction.try_from_slice tx.instruction = .ok instruction ∧
      tx.account_ids = call.pairs.map (fun pair => client.entry_pda_for pair.1) ∧
      run_guest client.program_id chain tx = .ok output ∧
      output.pre_states = tx.pre_states chain ∧
      output.post_states.length = call.pairs.length ∧
      ∀ (i : Nat) (pair : Pair) (post : AccountPostState),
        call.pairs[i]? = some pair → output.post_states[i]? = some post →
        let pre := chain (client.entry_pda_for pair.1)
        (∃ entry, AnchorEntry.try_from_slice post.account.data.bytes = .ok entry ∧
          entry.cid_hash = cid_hash pair.1 ∧ cid_hash entry.cid = cid_hash pair.1 ∧
          (pre.data.bytes = [] → entry = new_entry pair.1 pair.2 anchor_timestamp)) ∧
        (pre.data.bytes ≠ [] → post.account = pre) ∧
        post.claim =
          if pre.data.bytes = [] ∧ pre.program_owner = Nssa.DEFAULT_PROGRAM_ID
          then some (.Pda ⟨(cid_hash pair.1).digest⟩) else none := by
  have hformed := WellFormed.of_reachable_any hinjective hunused hreachable
  have hattempt : call.Attempt client tx := ((program_asks client call).of_runs hsend).1 tx rfl
  obtain ⟨anchor_timestamp, instruction, output, hinstruction, hdecode, hrun⟩ := hattempt.completes hfits chain
  obtain ⟨_, _, payload, _, _, htx⟩ := hattempt
  obtain ⟨decoded, hread, hpre, hprocessed⟩ := main_cases hrun
  have haccounts : tx.accounts = call.pairs.map fun pair => (client.entry_pda_for pair.1, false) := by
    rw [htx, LezRegistryClient.transaction, List.map_map]
    rfl
  have hids : tx.account_ids = call.pairs.map fun pair => client.entry_pda_for pair.1 := by
    rw [Transaction.account_ids, haccounts, List.map_map]
    rfl
  have hsame : Except.ok decoded = Except.ok instruction := hread.symm.trans hdecode
  cases hsame
  have hentries := new_entries_instruction hinstruction
  refine ⟨anchor_timestamp, instruction, output, hinstruction, hdecode, hids, hrun, hpre, ?length, ?each⟩
  case length =>
    rw [hprocessed.length, Transaction.pre_states, List.length_map, haccounts, List.length_map]
  case each =>
    intro i pair post hpair hpost
    refine processed_entry hformed (hprocessed.processed ?_ ?_ hpost)
    · rw [Transaction.pre_states, haccounts, List.map_map, List.getElem?_map, hpair]
      rfl
    · rw [hentries, List.getElem?_map, hpair]
      rfl

/-- A client with a clock that stands still. -/
def stillClient : LezRegistryClient where
  program_id := Vector.replicate 8 1
  confirm_secs := 60
  timestamp_source := .Fixed 42

/-- Two documents in one batch. -/
def twoDocuments : List Pair :=
  [(⟨"bafy-first"⟩, ⟨Vector.replicate 32 7⟩), (⟨"bafy-second"⟩, ⟨Vector.replicate 32 8⟩)]

/-- A message that could be built. -/
def built (pdas : List AccountId) (payload : List UInt8) : Exchange LezIo where
  request := .try_new_message pdas payload
  response := (Except.ok () : Except String Unit)

omit [Sha256] in
/-- An instruction that can be encoded is sent once its message is built. -/
theorem submit_and_wait_sends {A : Type} {instruction : RegistryInstruction} {payload : List UInt8}
    (hpayload : instruction.to_vec = some payload) (pdas : List AccountId) (label : String)
    (next : Except AdapterError Unit → Async LezIo A) :
    ∃ resume, Async.Runs (LezRegistryClient.submit_and_wait pdas instruction label >>= next) [built pdas payload]
      (.ask (.send_transaction (LezRegistryClient.transaction pdas payload)) resume) := by
  rw [LezRegistryClient.submit_and_wait, hpayload]
  apply Exists.intro
  exact Async.Runs.step (I := LezIo) (built pdas payload).response (.refl _)

theorem twoDocuments_sent :
    ∃ trace tx resume, Async.Runs ((Call.anchor_batch twoDocuments).program stillClient) trace
      (.ask (.send_transaction tx) resume) := by
  have hencoded : ∃ payload, (RegistryInstruction.AnchorBatch twoDocuments 42).to_vec = some payload :=
    RegistryInstruction.to_vec_batch (by decide) (by decide) 42
  obtain ⟨payload, hpayload⟩ := hencoded
  have hprogram : ∃ next, (Call.anchor_batch twoDocuments).program stillClient =
      LezRegistryClient.submit_and_wait (twoDocuments.map fun pair => stillClient.entry_pda_for pair.1)
        (.AnchorBatch twoDocuments 42) "anchor_batch" >>= next := ⟨_, rfl⟩
  obtain ⟨next, hnext⟩ := hprogram
  rw [hnext]
  exact ⟨_, _, submit_and_wait_sends hpayload _ _ next⟩

end

theorem fits_of_short [Sha256] {pairs : List Pair} (hshort : ∀ pair ∈ pairs, (text.bytes pair.1.inner).length < 256) :
    Fits pairs := by
  intro pair hpair anchor_timestamp
  have hencoded : ∃ bytes, (new_entry pair.1 pair.2 anchor_timestamp).to_vec = some bytes ∧
      bytes.length = 76 + (text.bytes pair.1.inner).length :=
    AnchorEntry.to_vec_eq_some (Nat.lt_of_lt_of_le (hshort pair hpair) (by decide))
  obtain ⟨bytes, hbytes, hlength⟩ := hencoded
  have hlimit : Nssa.DATA_MAX_LENGTH = 102400 := rfl
  have hbound := hshort pair hpair
  exact ⟨bytes, hbytes, by omega⟩

theorem fits_twoDocuments [Sha256] : Fits twoDocuments := fits_of_short (by decide)

theorem submission_never_panics_two_documents :
    ∃ trace tx output, (∃ resume, Async.Runs ((Call.anchor_batch twoDocuments).program stillClient) trace
        (.ask (.send_transaction tx) resume)) ∧
      run_guest stillClient.program_id unusedChain tx = .ok output ∧
      output.post_states.length = 2 := by
  obtain ⟨trace, tx, resume, hsend⟩ := twoDocuments_sent
  obtain ⟨_, _, output, _, _, _, hrun, _, hlength, _⟩ := submission_never_panics
    (pdaInjective_seedAddressed stillClient.program_id) unused_unusedChain .refl
    (show Fits (Call.anchor_batch twoDocuments).pairs from fits_twoDocuments) hsend
  exact ⟨trace, tx, output, ⟨resume, hsend⟩, hrun, hlength⟩

end whistleblower_lez_adapter
