import Whistleblower.Lez.Client

open nssa_core whistleblower_core document_indexing whistleblower_registry first_writer

namespace whistleblower_lez_adapter

/-- A call of one of the three operations. -/
inductive Call where
  | anchor_one (cid : CanonicalCid) (metadata_hash : MetadataHash)
  | anchor_batch (entries : List Pair)
  | query_by_cid_hash (cid_hash : CidHash)
  deriving DecidableEq

section

variable [Sha256] [Nssa]

/-- The call's program, with the entries it returns in a list. -/
def Call.program (client : LezRegistryClient) : Call → Async LezIo (Except AdapterError (List AnchorEntry))
  | .anchor_one cid metadata_hash => do
    let result ← client.anchor_one cid metadata_hash
    pure (result.map fun entry => [entry])
  | .anchor_batch entries => client.anchor_batch entries
  | .query_by_cid_hash cid_hash => do
    let result ← client.query_by_cid_hash cid_hash
    pure (result.map Option.toList)

/-- The pairs a call submits. -/
def Call.pairs : Call → List Pair
  | .anchor_one cid metadata_hash => [(cid, metadata_hash)]
  | .anchor_batch entries => entries
  | .query_by_cid_hash _ => []

def Call.instruction (anchor_timestamp : UInt64) : Call → Option RegistryInstruction
  | .anchor_one cid metadata_hash => some (.AnchorOne cid metadata_hash anchor_timestamp)
  | .anchor_batch entries => some (.AnchorBatch entries anchor_timestamp)
  | .query_by_cid_hash _ => none

/-- A transaction one attempt of the call can submit. -/
def Call.Attempt (client : LezRegistryClient) (call : Call) (tx : Transaction) : Prop :=
  ∃ anchor_timestamp instruction payload, call.instruction anchor_timestamp = some instruction ∧
    instruction.to_vec = some payload ∧
    tx = LezRegistryClient.transaction (call.pairs.map fun pair => client.entry_pda_for pair.1) payload

/-- The hashes a call asks for, in order. -/
def Call.hashes : Call → List CidHash
  | .anchor_one cid _ => [cid_hash cid]
  | .anchor_batch entries => entries.map fun pair => cid_hash pair.1
  | .query_by_cid_hash hash => [hash]

/-- The returned entries are those under the hashes asked for, in order. Only a
    query may find nothing. -/
def Call.Answered (entries : CidHash → Option AnchorEntry) (call : Call) (reply : List AnchorEntry) : Prop :=
  reply.map some = call.hashes.map entries ∨ (reply = [] ∧ ∃ hash, call = .query_by_cid_hash hash)

end

/-- The chain, the transactions that were submitted, and those that executed,
    oldest first. Each carries the number of the session it is from, if any. -/
structure World [Nssa] where
  chain : Chain
  pool : List (Option Nat × Transaction)
  executed : List (Option Nat × Transaction)

section

variable [Nssa]

def entries_of (program_id : ProgramId) (world : World) : CidHash → Option AnchorEntry :=
  (registry program_id world.chain).entries

/-- What a call relies on: entries stay, and an account is fetched as it is. -/
def rely (program_id : ProgramId) : Async.Environment LezIo World where
  moves := fun world later => Extends (entries_of program_id world) (entries_of program_id later)
  answers := fun world request response after =>
    Extends (entries_of program_id world) (entries_of program_id after) ∧
      match request, response with
      | .get_account_public id, response => ∀ account, response = Except.ok account → account = world.chain id
      | _, _ => True
  moves_refl := fun _ => .refl _
  moves_trans := fun _ _ _ => .trans

variable [Sha256]

/-- What a call guarantees: it submits its own transactions only. -/
def Guarantees (client : LezRegistryClient) (call : Call) (_ : World) (request : LezCall) : Prop :=
  ∀ tx, request = .send_transaction tx → call.Attempt client tx

variable {client : LezRegistryClient} {call : Call}

/-- A request that submits nothing and whose answer does not matter. -/
theorem ensures_call {request : LezCall} (hrequest : ∀ tx, request ≠ .send_transaction tx) (world : World) :
    Async.Ensures (rely client.program_id) (Guarantees client call) (fun _ _ => True)
      (Async.call (I := LezIo) request) world :=
  .call (fun _ _ tx htx => absurd htx (hrequest tx)) fun _ _ _ _ _ _ _ => trivial

theorem sleep_ensures (duration : Duration) (world : World) :
    Async.Ensures (rely client.program_id) (Guarantees client call) (fun _ _ => True)
      (Runtime.sleep duration) world :=
  ensures_call (by rintro _ ⟨⟩) world

theorem next_timestamp_ensures (world : World) :
    Async.Ensures (rely client.program_id) (Guarantees client call) (fun _ _ => True)
      client.next_timestamp world := by
  unfold LezRegistryClient.next_timestamp
  cases client.timestamp_source with
  | Fixed ts => exact .ret fun _ _ => trivial
  | SystemTimeMs =>
    refine (ensures_call (by rintro _ ⟨⟩) world).bind ?_
    exact fun _ _ _ => .ret fun _ _ => trivial

theorem await_transaction_ensures (hash : TxHash) (left : Nat) (world : World) :
    Async.Ensures (rely client.program_id) (Guarantees client call) (fun _ _ => True)
      (LezRegistryClient.await_transaction hash left) world := by
  induction left generalizing world with
  | zero => exact .ret fun _ _ => trivial
  | succ left ih =>
    refine (ensures_call (by rintro _ ⟨⟩) world).bind ?_
    intro later found _
    split
    · exact .ret fun _ _ => trivial
    · exact (sleep_ensures poll_interval later).bind fun last _ _ => ih last

theorem submit_and_wait_ensures {anchor_timestamp : UInt64} {instruction : RegistryInstruction}
    (hinstruction : call.instruction anchor_timestamp = some instruction) (label : String) (world : World) :
    Async.Ensures (rely client.program_id) (Guarantees client call) (fun _ _ => True)
      (LezRegistryClient.submit_and_wait (call.pairs.map fun pair => client.entry_pda_for pair.1)
        instruction label) world := by
  unfold LezRegistryClient.submit_and_wait
  split
  · exact .ret fun _ _ => trivial
  · rename_i payload hpayload
    refine (ensures_call (by rintro _ ⟨⟩) world).bind ?_
    intro later built _
    split
    · exact .ret fun _ _ => trivial
    · have hsend : Async.Ensures (rely client.program_id) (Guarantees client call) (fun _ _ => True)
          (Async.call (I := LezIo) (.send_transaction (LezRegistryClient.transaction
            (call.pairs.map fun pair => client.entry_pda_for pair.1) payload))) later := by
        refine .call ?_ fun _ _ _ _ _ _ _ => trivial
        intro _ _ tx htx
        cases htx
        exact ⟨anchor_timestamp, instruction, payload, hinstruction, hpayload, rfl⟩
      refine hsend.bind ?_
      intro last sent _
      split
      · exact .ret fun _ _ => trivial
      · exact (await_transaction_ensures _ 8 last).bind fun _ _ _ => .ret fun _ _ => trivial

/-- An entry that was read is the registry's, from then on. -/
theorem read_entry_ensures (hash : CidHash) (world : World) :
    Async.Ensures (rely client.program_id) (Guarantees client call)
      (fun w result => ∀ entry, result = .ok (some entry) → entries_of client.program_id w hash = some entry)
      (LezRegistryClient.read_entry (client.entry_pda_for_hash hash)) world := by
  have hfetch : Async.Ensures (rely client.program_id) (Guarantees client call)
      (fun w (result : Except String Account) => ∀ account entry, result = .ok account →
        decode_entry account.data.bytes = some entry → entries_of client.program_id w hash = some entry)
      (Async.call (I := LezIo) (.get_account_public (client.entry_pda_for_hash hash))) world := by
    refine .call ?_ ?_
    · rintro _ _ _ ⟨⟩
    · intro later response after last _ hanswer hlast account entry hresponse hdecode
      have haccount := hanswer.2 account hresponse
      refine hlast hash entry (hanswer.1 hash entry ?_)
      rw [← hdecode, haccount]
      rfl
  refine hfetch.bind ?_
  intro later response hresponse
  split
  · exact .ret (by rintro _ _ _ ⟨⟩)
  · rename_i account
    dsimp only
    split
    · exact .ret (by rintro _ _ _ ⟨⟩)
    · rename_i hdata
      split
      · rename_i entry hread
        refine .ret fun last hlast other hother => ?_
        cases hother
        refine hresponse last hlast account entry rfl ?_
        rw [decode_entry, if_neg hdata, hread]
        rfl
      · exact .ret (by rintro _ _ _ ⟨⟩)

theorem read_entry_until_ensures (hash : CidHash) (label : String) (world : World) :
    Async.Ensures (rely client.program_id) (Guarantees client call)
      (fun w result => ∀ entry, result = .ok entry → entries_of client.program_id w hash = some entry)
      (client.read_entry_until (client.entry_pda_for_hash hash) label) world := by
  unfold LezRegistryClient.read_entry_until
  generalize client.max_attempts = left
  induction left generalizing world with
  | zero => exact .ret fun _ _ entry h => nomatch h
  | succ left ih =>
    refine (read_entry_ensures hash world).bind ?_
    intro later result hresult
    split
    · exact .ret fun _ _ entry h => nomatch h
    · rename_i entry
      refine .ret fun last hlast other hother => ?_
      cases hother
      exact hresult last hlast entry rfl
    · exact (sleep_ensures poll_interval later).bind fun last _ _ => ih last

omit [Sha256] in
/-- Entries that were read stay what they are while the call goes on. -/
theorem rely_frame {A : Type} {asks : World → LezCall → Prop} {post : World → A → Prop} {program : Async LezIo A}
    {world : World} {keys : List CidHash} {values : List AnchorEntry}
    (hfound : values.map some = keys.map (entries_of client.program_id world))
    (hensures : Async.Ensures (rely client.program_id) asks post program world) :
    Async.Ensures (rely client.program_id) asks
      (fun w value => values.map some = keys.map (entries_of client.program_id w) ∧ post w value)
      program world := by
  refine Async.Ensures.frame ?_ ?_ hfound hensures
  · exact fun _ _ hbefore hmoves => Extends.map_some hmoves hbefore
  · exact fun _ _ _ _ hbefore hanswers => hanswers.1.map_some hbefore

theorem read_entries_ensures (hashes done : List CidHash) (out : List AnchorEntry) (world : World)
    (hdone : out.map some = done.map (entries_of client.program_id world)) :
    Async.Ensures (rely client.program_id) (Guarantees client call)
      (fun w result => ∀ reply, result = .ok reply →
        reply.map some = (done ++ hashes).map (entries_of client.program_id w))
      (client.read_entries (hashes.map client.entry_pda_for_hash) out) world := by
  induction hashes generalizing done out world with
  | nil =>
    refine .ret fun later hlater reply hreply => ?_
    cases hreply
    rw [List.append_nil]
    exact hlater.map_some hdone
  | cons hash rest ih =>
    refine (rely_frame hdone (read_entry_until_ensures hash "anchor_batch" world)).bind ?_
    intro later result hresult
    split
    · exact .ret fun _ _ reply h => nomatch h
    · rename_i entry
      obtain ⟨hkept, hentry⟩ := hresult later (.refl _)
      have hnext := ih (done ++ [hash]) (out ++ [entry]) later (by simp [hkept, hentry entry rfl])
      rwa [List.append_assoc] at hnext

theorem anchor_one_ensures (cid : CanonicalCid) (metadata_hash : MetadataHash) (world : World) :
    Async.Ensures (rely client.program_id) (Guarantees client (.anchor_one cid metadata_hash))
      (fun w result => ∀ entry, result = .ok entry → entries_of client.program_id w (cid_hash cid) = some entry)
      (client.anchor_one cid metadata_hash) world := by
  refine (next_timestamp_ensures world).bind ?_
  intro later anchor_timestamp _
  have hinstruction : Call.instruction anchor_timestamp (.anchor_one cid metadata_hash) =
      some (.AnchorOne cid metadata_hash anchor_timestamp) := rfl
  refine (submit_and_wait_ensures hinstruction "anchor_one" later).bind ?_
  intro last submitted _
  split
  · exact .ret fun _ _ entry h => nomatch h
  · exact read_entry_until_ensures (cid_hash cid) "anchor_one" last

theorem anchor_batch_ensures (entries : List Pair) (world : World) :
    Async.Ensures (rely client.program_id) (Guarantees client (.anchor_batch entries))
      (fun w result => ∀ reply, result = .ok reply →
        reply.map some = (entries.map fun pair => cid_hash pair.1).map (entries_of client.program_id w))
      (client.anchor_batch entries) world := by
  refine (next_timestamp_ensures world).bind ?_
  intro later anchor_timestamp _
  have hinstruction : Call.instruction anchor_timestamp (.anchor_batch entries) =
      some (.AnchorBatch entries anchor_timestamp) := rfl
  refine (submit_and_wait_ensures hinstruction "anchor_batch" later).bind ?_
  intro last submitted _
  split
  · exact .ret fun _ _ reply h => nomatch h
  · have hpdas : entries.map (fun pair => client.entry_pda_for pair.1) =
        (entries.map fun pair => cid_hash pair.1).map client.entry_pda_for_hash := by
      rw [List.map_map]
      rfl
    rw [hpdas]
    exact read_entries_ensures _ [] [] last rfl

/-- A call's successful return is an answer, and stays one. -/
theorem program_ensures (world : World) :
    Async.Ensures (rely client.program_id) (Guarantees client call)
      (OnResult (fun _ _ => True) fun w reply => call.Answered (entries_of client.program_id w) reply)
      (call.program client) world := by
  cases call with
  | anchor_one cid metadata_hash =>
    refine (anchor_one_ensures cid metadata_hash world).bind ?_
    intro later result hresult
    refine .ret fun last hlast => ?_
    cases result with
    | error e => trivial
    | ok entry =>
      refine .inl ?_
      rw [Call.hashes, List.map_singleton, List.map_singleton, hresult last hlast entry rfl]
  | anchor_batch entries =>
    refine (anchor_batch_ensures entries world).mono ?_
    intro last result hresult
    cases result with
    | error e => trivial
    | ok reply => exact .inl (hresult reply rfl)
  | query_by_cid_hash hash =>
    refine (read_entry_ensures hash world).bind ?_
    intro later result hresult
    refine .ret fun last hlast => ?_
    cases result with
    | error e => trivial
    | ok found =>
      cases found with
      | none => exact .inr ⟨rfl, hash, rfl⟩
      | some entry =>
        refine .inl ?_
        rw [Call.hashes, Option.toList_some, List.map_singleton, List.map_singleton, hresult last hlast entry rfl]

end

end whistleblower_lez_adapter
