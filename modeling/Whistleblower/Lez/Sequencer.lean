import Whistleblower.Lez.Submission

open nssa_core whistleblower_core document_indexing whistleblower_registry

namespace whistleblower_lez_adapter

/-- What becomes of a transaction that names an account twice: it is refused, accepted
    but dropped, or executed like any other. -/
inductive RepeatPolicy where
  | refused
  | dropped
  | applied
  deriving DecidableEq, Repr

section

variable [Sha256] [Nssa]

/-- The chain after a transaction is submitted, if it is not refused. -/
def execute (policy : RepeatPolicy) (program_id : ProgramId) (chain : Chain) (tx : Transaction) : Option Chain :=
  if tx.account_ids.Nodup then some (submit program_id chain tx)
  else
    match policy with
    | .refused => none
    | .dropped => some chain
    | .applied => some (submit program_id chain tx)

/-- A sequencer that serves one client and executes what is submitted at once. -/
def sequencer (policy : RepeatPolicy) (program_id : ProgramId) : Async.Environment LezIo Chain where
  moves := Eq
  answers := fun chain request response after =>
    match request, response with
    | .try_new_message _ _, response => response = Except.ok () ∧ after = chain
    | .send_transaction tx, response =>
      (∃ hash, response = Except.ok hash ∧ execute policy program_id chain tx = some after) ∨
        ((∃ e, response = Except.error e) ∧ execute policy program_id chain tx = none ∧ after = chain)
    | .get_account_public id, response => response = Except.ok (chain id) ∧ after = chain
    | _, _ => after = chain
  moves_refl := fun _ => rfl
  moves_trans := fun _ _ _ => Eq.trans

/-- The sequencer has an answer to every request but a panic. -/
def Served (_ : Chain) (request : LezCall) : Prop := ∀ message, request ≠ .panic message

theorem sequencer_total (policy : RepeatPolicy) (program_id : ProgramId) (chain : Chain) (request : LezCall)
    (hserved : Served chain request) :
    ∃ response after, (sequencer policy program_id).answers chain request response after := by
  cases request with
  | now => exact ⟨(none : Option Nat), chain, rfl⟩
  | try_new_message _ _ => exact ⟨(Except.ok () : Except String Unit), chain, rfl, rfl⟩
  | send_transaction tx =>
    cases hexecute : execute policy program_id chain tx with
    | none =>
      exact ⟨(Except.error "" : Except String TxHash), chain, .inr ⟨⟨"", rfl⟩, hexecute, rfl⟩⟩
    | some after =>
      exact ⟨(Except.ok (Vector.replicate 32 0) : Except String TxHash), after, .inl ⟨_, rfl, hexecute⟩⟩
  | get_transaction _ => exact ⟨(Except.ok none : Except String (Option Transaction)), chain, rfl⟩
  | get_account_public id => exact ⟨(Except.ok (chain id) : Except String Account), chain, rfl, rfl⟩
  | sleep _ => exact ⟨(() : Unit), chain, rfl⟩
  | panic message => exact absurd rfl (hserved message)

variable {policy : RepeatPolicy} {client : LezRegistryClient}

theorem WellFormed.execute (hinjective : PdaInjective client.program_id) {chain after : Chain}
    (hformed : WellFormed client.program_id chain) {tx : Transaction}
    (hexecute : execute policy client.program_id chain tx = some after) : WellFormed client.program_id after := by
  unfold whistleblower_lez_adapter.execute at hexecute
  have hsubmit := hformed.submit hinjective tx
  split at hexecute
  · rwa [← Option.some.inj hexecute]
  · cases policy with
    | refused => cases hexecute
    | dropped => rwa [← Option.some.inj hexecute]
    | applied => rwa [← Option.some.inj hexecute]

/-- A request that changes nothing. -/
theorem unchanged_ensures (request : LezCall) (hserved : ∀ message, request ≠ .panic message)
    (hunchanged : ∀ chain response after,
      (sequencer policy client.program_id).answers chain request response after → after = chain) (chain : Chain) :
    Async.Ensures (sequencer policy client.program_id) Served (fun after _ => after = chain)
      (Async.call (I := LezIo) request) chain := by
  refine .call (fun _ _ => hserved) ?_
  rintro _ response after _ rfl hanswers rfl
  exact hunchanged chain response after hanswers

theorem sleep_sequenced (duration : Duration) (chain : Chain) :
    Async.Ensures (sequencer policy client.program_id) Served (fun after _ => after = chain)
      (Runtime.sleep (I := LezIo) duration) chain :=
  unchanged_ensures (.sleep duration) (by rintro _ ⟨⟩) (fun _ _ _ hanswers => hanswers) chain

theorem next_timestamp_sequenced (chain : Chain) :
    Async.Ensures (sequencer policy client.program_id) Served (fun after _ => after = chain)
      client.next_timestamp chain := by
  unfold LezRegistryClient.next_timestamp
  cases client.timestamp_source with
  | Fixed ts => exact .ret fun _ hmoves => hmoves.symm
  | SystemTimeMs =>
    refine (unchanged_ensures .now (by rintro _ ⟨⟩) (fun _ _ _ hanswers => hanswers) chain).bind ?_
    intro later _ hlater
    obtain rfl := hlater later rfl
    exact .ret fun _ hmoves => hmoves.symm

theorem await_transaction_sequenced (hash : TxHash) (left : Nat) (chain : Chain) :
    Async.Ensures (sequencer policy client.program_id) Served (fun after _ => after = chain)
      (LezRegistryClient.await_transaction hash left) chain := by
  induction left with
  | zero => exact .ret fun _ hmoves => hmoves.symm
  | succ left ih =>
    refine (unchanged_ensures (.get_transaction hash) (by rintro _ ⟨⟩) (fun _ _ _ hanswers => hanswers) chain).bind ?_
    intro later found hlater
    obtain rfl := hlater later rfl
    split
    · exact .ret fun _ hmoves => hmoves.symm
    · refine (sleep_sequenced poll_interval later).bind ?_
      intro last _ hlast
      obtain rfl := hlast last rfl
      exact ih

/-- The chain after a call's transaction, unless it cannot be encoded or is refused. -/
def submitted (policy : RepeatPolicy) (client : LezRegistryClient) (account_ids : List AccountId)
    (instruction : RegistryInstruction) (chain : Chain) : Option Chain :=
  instruction.to_vec.bind fun payload =>
    execute policy client.program_id chain (LezRegistryClient.transaction account_ids payload)

theorem submit_and_wait_sequenced (account_ids : List AccountId) (instruction : RegistryInstruction) (label : String)
    (chain : Chain) :
    Async.Ensures (sequencer policy client.program_id) Served
      (fun after result => (result = .ok () ∧ submitted policy client account_ids instruction chain = some after) ∨
        ((∃ e, result = .error e) ∧ submitted policy client account_ids instruction chain = none ∧ after = chain))
      (LezRegistryClient.submit_and_wait account_ids instruction label) chain := by
  unfold LezRegistryClient.submit_and_wait submitted
  cases hpayload : instruction.to_vec with
  | none => exact .ret fun _ hmoves => .inr ⟨⟨_, rfl⟩, rfl, hmoves.symm⟩
  | some payload =>
    have hbuild : Async.Ensures (sequencer policy client.program_id) Served
        (fun after (result : Except String Unit) => result = .ok () ∧ after = chain)
        (Async.call (I := LezIo) (.try_new_message account_ids payload)) chain := by
      refine .call (fun _ _ => by rintro _ ⟨⟩) ?_
      rintro _ response after _ rfl hanswers rfl
      exact hanswers
    refine hbuild.bind ?_
    intro later built hlater
    obtain ⟨rfl, rfl⟩ := hlater later rfl
    have hsend : Async.Ensures (sequencer policy client.program_id) Served
        (fun after (result : Except String TxHash) =>
          (∃ hash, result = .ok hash ∧ execute policy client.program_id later
            (LezRegistryClient.transaction account_ids payload) = some after) ∨
          ((∃ e, result = .error e) ∧ execute policy client.program_id later
            (LezRegistryClient.transaction account_ids payload) = none ∧ after = later))
        (Async.call (I := LezIo) (.send_transaction (LezRegistryClient.transaction account_ids payload))) later := by
      refine .call (fun _ _ => by rintro _ ⟨⟩) ?_
      rintro _ response after _ rfl hanswers rfl
      exact hanswers
    refine hsend.bind ?_
    intro last sent hlast
    obtain ⟨hash, rfl, hexecute⟩ | ⟨⟨e, rfl⟩, hrefused, rfl⟩ := hlast last rfl
    · refine (await_transaction_sequenced hash 8 last).bind ?_
      intro final _ hfinal
      obtain rfl := hfinal final rfl
      refine .ret ?_
      rintro _ rfl
      exact .inl ⟨rfl, hexecute⟩
    · refine .ret ?_
      rintro _ rfl
      exact .inr ⟨⟨_, rfl⟩, hrefused, rfl⟩

/-- An entry is read as the registry has it. -/
theorem read_entry_sequenced {chain : Chain} (hformed : WellFormed client.program_id chain) (hash : CidHash) :
    Async.Ensures (sequencer policy client.program_id) Served
      (fun after result => result = .ok ((registry client.program_id chain).entries hash) ∧ after = chain)
      (LezRegistryClient.read_entry (client.entry_pda_for_hash hash)) chain := by
  have hfetch : Async.Ensures (sequencer policy client.program_id) Served
      (fun after (result : Except String Account) => result = .ok (chain (client.entry_pda_for_hash hash)) ∧
        after = chain)
      (Async.call (I := LezIo) (.get_account_public (client.entry_pda_for_hash hash))) chain := by
    refine .call (fun _ _ => by rintro _ ⟨⟩) ?_
    rintro _ response after _ rfl hanswers rfl
    exact hanswers
  refine hfetch.bind ?_
  intro later result hlater
  obtain ⟨rfl, rfl⟩ := hlater later rfl
  have hstores := hformed.stores hash
  change Stores hash (later (client.entry_pda_for_hash hash)).data.bytes _ at hstores
  dsimp only
  by_cases hdata : (later (client.entry_pda_for_hash hash)).data.bytes = []
  · rw [if_pos hdata]
    refine .ret ?_
    rintro _ rfl
    rw [registry_eq_none hdata]
    exact ⟨rfl, rfl⟩
  · rw [if_neg hdata]
    obtain ⟨entry, hread, _, _, hentry⟩ := hstores.of_ne_nil hdata
    rw [hread]
    refine .ret ?_
    rintro _ rfl
    exact ⟨by rw [hentry], rfl⟩

/-- Polling finds the entry that is there, and gives up if there is none. -/
theorem read_entry_until_sequenced (hpolls : client.max_attempts ≠ 0) {chain : Chain}
    (hformed : WellFormed client.program_id chain) (hash : CidHash) (label : String) :
    Async.Ensures (sequencer policy client.program_id) Served
      (fun after result => result.toOption = (registry client.program_id chain).entries hash ∧ after = chain)
      (client.read_entry_until (client.entry_pda_for_hash hash) label) chain := by
  have hloop : ∀ left, (0 < left ∨ (registry client.program_id chain).entries hash = none) →
      Async.Ensures (sequencer policy client.program_id) Served
        (fun after result => result.toOption = (registry client.program_id chain).entries hash ∧ after = chain)
        (client.read_entry_loop (client.entry_pda_for_hash hash) label left) chain := by
    intro left hleft
    induction left with
    | zero =>
      obtain hpos | hnone := hleft
      · omega
      · refine .ret ?_
        rintro _ rfl
        exact ⟨hnone.symm, rfl⟩
    | succ left ih =>
      refine (read_entry_sequenced hformed hash).bind ?_
      intro later result hlater
      obtain ⟨rfl, rfl⟩ := hlater later rfl
      cases hentry : (registry client.program_id later).entries hash with
      | none =>
        refine (sleep_sequenced poll_interval later).bind ?_
        intro last _ hlast
        obtain rfl := hlast last rfl
        rw [hentry] at ih
        exact ih (.inr rfl)
      | some entry =>
        refine .ret ?_
        rintro _ rfl
        exact ⟨rfl, rfl⟩
  exact hloop _ (.inl (Nat.pos_of_ne_zero hpolls))

/-- All entries are read, unless one of them is missing. -/
theorem read_entries_sequenced (hpolls : client.max_attempts ≠ 0) {chain : Chain}
    (hformed : WellFormed client.program_id chain) (hashes : List CidHash) (out : List AnchorEntry) :
    Async.Ensures (sequencer policy client.program_id) Served
      (fun after result => result.toOption =
          (if ∀ hash ∈ hashes, ((registry client.program_id chain).entries hash).isSome then
            some (out ++ hashes.filterMap (registry client.program_id chain).entries) else none) ∧ after = chain)
      (client.read_entries (hashes.map client.entry_pda_for_hash) out) chain := by
  induction hashes generalizing out with
  | nil =>
    refine .ret ?_
    rintro _ rfl
    simp [Except.toOption]
  | cons hash rest ih =>
    refine (read_entry_until_sequenced hpolls hformed hash "anchor_batch").bind ?_
    intro later result hlater
    obtain ⟨hresult, rfl⟩ := hlater later rfl
    cases result with
    | error e =>
      refine .ret ?_
      rintro _ rfl
      have hnone : (registry client.program_id later).entries hash = none := hresult.symm
      simp [hnone, Except.toOption]
    | ok entry =>
      have hentry : (registry client.program_id later).entries hash = some entry := hresult.symm
      have hnext := ih (out ++ [entry])
      simp only [List.append_assoc, List.singleton_append] at hnext
      simpa [hentry] using hnext

/-- The chain a call leaves, unless it fails before it changes anything. -/
def Call.leaves (policy : RepeatPolicy) (client : LezRegistryClient) (anchor_timestamp : UInt64) (call : Call)
    (chain : Chain) : Option Chain :=
  match call.instruction anchor_timestamp with
  | some instruction =>
    submitted policy client (call.pairs.map fun pair => client.entry_pda_for pair.1) instruction chain
  | none => some chain

omit [Nssa] in
/-- The entries a call returns, unless one is missing of those it anchors. -/
def Call.read (entries : CidHash → Option AnchorEntry) (call : Call) : Option (List AnchorEntry) :=
  if ∀ pair ∈ call.pairs, (entries (cid_hash pair.1)).isSome then some (call.hashes.filterMap entries) else none

omit [Sha256] [Nssa] in
/-- What the call anchors, if anything, the client polls for. -/
def Call.Polled (client : LezRegistryClient) (call : Call) : Prop := call.pairs ≠ [] → client.max_attempts ≠ 0

/-- What a call does to the chain and returns. -/
def Call.Outcome (policy : RepeatPolicy) (client : LezRegistryClient) (call : Call) (chain after : Chain)
    (result : Except AdapterError (List AnchorEntry)) : Prop :=
  ∃ anchor_timestamp,
    (call.leaves policy client anchor_timestamp chain = some after ∧
      (call.Polled client → result.toOption = call.read (registry client.program_id after).entries) ∧
      (¬ call.Polled client → result.toOption = none)) ∨
    (call.leaves policy client anchor_timestamp chain = none ∧ result.toOption = none ∧ after = chain)

theorem submitted_wellFormed (hinjective : PdaInjective client.program_id) {chain after : Chain}
    (hformed : WellFormed client.program_id chain) {account_ids : List AccountId} {instruction : RegistryInstruction}
    (hsubmitted : submitted policy client account_ids instruction chain = some after) :
    WellFormed client.program_id after := by
  obtain ⟨payload, _, hexecute⟩ := Option.bind_eq_some_iff.mp hsubmitted
  exact WellFormed.execute hinjective hformed hexecute

omit [Nssa] in
/-- A call of one pair reads its entry, if it is there. -/
theorem Call.read_single (pair : Pair) {entries : CidHash → Option AnchorEntry} {call : Call}
    (hpairs : call.pairs = [pair]) (hhashes : call.hashes = [cid_hash pair.1])
    {result : Except AdapterError AnchorEntry} (hread : result.toOption = entries (cid_hash pair.1)) :
    (result.map fun entry => [entry]).toOption = call.read entries := by
  unfold Call.read
  rw [hpairs, hhashes]
  cases result with
  | error e =>
    have hmissing : entries (cid_hash pair.1) = none := hread.symm
    simp [hmissing, Except.map, Except.toOption]
  | ok entry =>
    have hentry : entries (cid_hash pair.1) = some entry := hread.symm
    simp [hentry, Except.map, Except.toOption]

theorem anchor_one_sequenced (hinjective : PdaInjective client.program_id) {chain : Chain}
    (hformed : WellFormed client.program_id chain) (cid : CanonicalCid) (metadata_hash : MetadataHash) :
    Async.Ensures (sequencer policy client.program_id) Served
      (fun after result => (Call.anchor_one cid metadata_hash).Outcome policy client chain after
        (result.map fun entry => [entry]))
      (client.anchor_one cid metadata_hash) chain := by
  refine (next_timestamp_sequenced chain).bind ?_
  intro later anchor_timestamp hlater
  obtain rfl := hlater later rfl
  refine (submit_and_wait_sequenced [client.entry_pda_for cid] (.AnchorOne cid metadata_hash anchor_timestamp)
    "anchor_one" later).bind ?_
  intro last result hlast
  obtain ⟨rfl, hsubmitted⟩ | ⟨⟨e, rfl⟩, hnone, rfl⟩ := hlast last rfl
  · have hformed_after := submitted_wellFormed hinjective hformed hsubmitted
    by_cases hpolls : client.max_attempts = 0
    · have hunpolled : ¬ (Call.anchor_one cid metadata_hash).Polled client :=
        fun hpolled => hpolled (List.cons_ne_nil _ _) hpolls
      dsimp only
      rw [LezRegistryClient.read_entry_until, hpolls]
      refine .ret ?_
      rintro _ rfl
      exact ⟨anchor_timestamp, .inl ⟨hsubmitted, fun hpolled => absurd hpolled hunpolled, fun _ => rfl⟩⟩
    · refine (read_entry_until_sequenced hpolls hformed_after (cid_hash cid) "anchor_one").mono ?_
      rintro after result ⟨hread, rfl⟩
      exact ⟨anchor_timestamp, .inl ⟨hsubmitted, fun _ => Call.read_single (cid, metadata_hash) rfl rfl hread,
        fun hunpolled => absurd (fun _ => hpolls) hunpolled⟩⟩
  · refine .ret ?_
    rintro _ rfl
    exact ⟨anchor_timestamp, .inr ⟨hnone, rfl, rfl⟩⟩

theorem Call.leaves_batch (policy : RepeatPolicy) (client : LezRegistryClient) (anchor_timestamp : UInt64)
    (entries : List Pair) (chain : Chain) :
    (Call.anchor_batch entries).leaves policy client anchor_timestamp chain =
      submitted policy client (entries.map fun pair => client.entry_pda_for pair.1)
        (.AnchorBatch entries anchor_timestamp) chain := rfl

omit [Nssa] in
theorem Call.read_batch (entries : List Pair) (stored : CidHash → Option AnchorEntry) :
    (Call.anchor_batch entries).read stored =
      if ∀ hash ∈ entries.map fun (pair : Pair) => cid_hash pair.1, (stored hash).isSome then
        some ((entries.map fun pair => cid_hash pair.1).filterMap stored) else none := by
  unfold Call.read
  simp only [Call.pairs, Call.hashes, List.forall_mem_map]
  rfl

theorem entry_pdas_eq (client : LezRegistryClient) (entries : List Pair) :
    (entries.map fun (pair : Pair) => client.entry_pda_for pair.1) =
      (entries.map fun (pair : Pair) => cid_hash pair.1).map client.entry_pda_for_hash := by
  rw [List.map_map]
  rfl

theorem anchor_batch_sequenced (hinjective : PdaInjective client.program_id) {chain : Chain}
    (hformed : WellFormed client.program_id chain) (entries : List Pair) :
    Async.Ensures (sequencer policy client.program_id) Served
      (fun after result => (Call.anchor_batch entries).Outcome policy client chain after result)
      (client.anchor_batch entries) chain := by
  unfold Call.Outcome
  simp only [Call.leaves_batch, Call.read_batch]
  refine (next_timestamp_sequenced chain).bind ?_
  intro later anchor_timestamp hlater
  obtain rfl := hlater later rfl
  refine (submit_and_wait_sequenced (entries.map fun (pair : Pair) => client.entry_pda_for pair.1)
    (.AnchorBatch entries anchor_timestamp) "anchor_batch" later).bind ?_
  intro last result hlast
  obtain ⟨rfl, hsubmitted⟩ | ⟨⟨e, rfl⟩, hnone, rfl⟩ := hlast last rfl
  · have hformed_after := submitted_wellFormed hinjective hformed hsubmitted
    by_cases hpolls : client.max_attempts = 0
    · cases entries with
      | nil =>
        refine .ret ?_
        rintro _ rfl
        exact ⟨anchor_timestamp, .inl ⟨hsubmitted, fun _ => rfl, fun hunpolled => absurd (absurd rfl) hunpolled⟩⟩
      | cons pair rest =>
        have hunpolled : ¬ (Call.anchor_batch (pair :: rest)).Polled client :=
          fun hpolled => hpolled (List.cons_ne_nil _ _) hpolls
        dsimp only
        rw [List.map_cons, LezRegistryClient.read_entries, LezRegistryClient.read_entry_until, hpolls]
        refine .ret ?_
        rintro _ rfl
        exact ⟨anchor_timestamp, .inl ⟨hsubmitted, fun hpolled => absurd hpolled hunpolled, fun _ => rfl⟩⟩
    · rw [entry_pdas_eq] at hsubmitted ⊢
      refine (read_entries_sequenced hpolls hformed_after
        (entries.map fun (pair : Pair) => cid_hash pair.1) []).mono ?_
      rintro after result ⟨hread, rfl⟩
      exact ⟨anchor_timestamp,
        .inl ⟨hsubmitted, fun _ => hread, fun hunpolled => absurd (fun _ => hpolls) hunpolled⟩⟩
  · refine .ret ?_
    rintro _ rfl
    exact ⟨anchor_timestamp, .inr ⟨hnone, rfl, rfl⟩⟩

theorem Call.leaves_query (policy : RepeatPolicy) (client : LezRegistryClient) (anchor_timestamp : UInt64)
    (hash : CidHash) (chain : Chain) :
    (Call.query_by_cid_hash hash).leaves policy client anchor_timestamp chain = some chain := rfl

omit [Nssa] in
theorem Call.read_query (entries : CidHash → Option AnchorEntry) (hash : CidHash) :
    (Call.query_by_cid_hash hash).read entries = some (entries hash).toList := by
  unfold Call.read
  rw [if_pos (by simp [Call.pairs])]
  cases hentry : entries hash with
  | none => simp [Call.hashes, hentry]
  | some entry => simp [Call.hashes, hentry]

/-- Every call returns with its outcome. -/
theorem program_sequenced (hinjective : PdaInjective client.program_id) {chain : Chain}
    (hformed : WellFormed client.program_id chain) (call : Call) :
    Async.Ensures (sequencer policy client.program_id) Served
      (fun after result => call.Outcome policy client chain after result) (call.program client) chain := by
  cases call with
  | anchor_one cid metadata_hash =>
    refine (anchor_one_sequenced hinjective hformed cid metadata_hash).bind ?_
    intro later result hlater
    refine .ret ?_
    rintro _ rfl
    exact hlater later rfl
  | anchor_batch entries => exact anchor_batch_sequenced hinjective hformed entries
  | query_by_cid_hash hash =>
    have hquery : Async.Ensures (sequencer policy client.program_id) Served
        (fun after result => result = .ok ((registry client.program_id chain).entries hash) ∧ after = chain)
        (client.query_by_cid_hash hash) chain := read_entry_sequenced hformed hash
    refine hquery.bind ?_
    intro later result hlater
    obtain ⟨rfl, rfl⟩ := hlater later rfl
    refine .ret ?_
    rintro _ rfl
    refine ⟨0, .inl ⟨Call.leaves_query policy client 0 hash later, fun _ => ?_,
      fun hunpolled => absurd (absurd rfl) hunpolled⟩⟩
    rw [Call.read_query]
    rfl

end

end whistleblower_lez_adapter
