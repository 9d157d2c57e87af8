import Whistleblower.Core.Wire
import Whistleblower.Guest.Nssa

open nssa_core whistleblower_core

namespace whistleblower_registry

/-- Why the program stops without an output. -/
inductive Panic where
  | malformed_instruction (error : borsh.DecodeError)
  | pre_state_count (got : Nat)
  | entry_count (entries pre_states : Nat)
  | pda_mismatch
  | entry_encoding
  | data_limit
  deriving DecidableEq, Repr

/-- The text each panic starts with; the first goes on with the decoder's error. -/
def Panic.message : Panic → String
  | .malformed_instruction _ => "WL-REG: malformed instruction: "
  | .pre_state_count got => "WL-REG: AnchorOne expects exactly 1 pre_state, got " ++ toString got
  | .entry_count entries pre_states =>
    "WL-REG: AnchorBatch entry count " ++ toString entries ++ " != pre_states count " ++ toString pre_states
  | .pda_mismatch => "WL-REG: pre_state account_id does not match expected PDA for cid"
  | .entry_encoding => "AnchorEntry encoding fits"
  | .data_limit => "AnchorEntry size within account-data limit"

variable [Sha256] [Nssa]

/-- The account that holds the entry under a hash. -/
def entry_pda (program_id : ProgramId) (hash : CidHash) : AccountId :=
  Nssa.for_public_pda program_id ⟨hash.digest⟩

def process_entry (self_program_id : ProgramId) (pre : AccountWithMetadata) (cid : CanonicalCid)
    (metadata_hash : MetadataHash) (anchor_timestamp : UInt64) : Except Panic AccountPostState :=
  let hash := cid_hash cid
  let expected_pda := Nssa.for_public_pda self_program_id ⟨hash.digest⟩
  if pre.account_id ≠ expected_pda then .error .pda_mismatch
  else if pre.account.data.bytes ≠ [] then .ok (.new pre.account)
  else
    let entry : AnchorEntry := { cid, cid_hash := hash, metadata_hash, anchor_timestamp }
    match entry.to_vec with
    | none => .error .entry_encoding
    | some bytes =>
      match Data.try_from bytes with
      | none => .error .data_limit
      | some data =>
        .ok (.new_claimed_if_default { pre.account with data } (.Pda ⟨hash.digest⟩))

/-- The entries of a batch with their pre-states, in step. -/
def process_batch (self_program_id : ProgramId) (anchor_timestamp : UInt64)
    (pairs : List ((CanonicalCid × MetadataHash) × AccountWithMetadata)) :
    Except Panic (List AccountPostState) :=
  pairs.mapM fun ((cid, metadata_hash), pre) =>
    process_entry self_program_id pre cid metadata_hash anchor_timestamp

def main (input : ProgramInput) (instruction_data : List UInt32) : Except Panic ProgramOutput := do
  let registry_instruction ← match RegistryInstruction.try_from_slice input.instruction with
    | .ok instruction => .ok instruction
    | .error e => .error (.malformed_instruction e)
  let post_states ← match registry_instruction with
    | .AnchorOne cid metadata_hash anchor_timestamp =>
      match input.pre_states with
      | [pre] => do
        let post ← process_entry input.self_program_id pre cid metadata_hash anchor_timestamp
        .ok [post]
      | pre_states => .error (.pre_state_count pre_states.length)
    | .AnchorBatch entries anchor_timestamp =>
      if entries.length = input.pre_states.length then
        process_batch input.self_program_id anchor_timestamp (entries.zip input.pre_states)
      else .error (.entry_count entries.length input.pre_states.length)
  .ok {
    self_program_id := input.self_program_id
    caller_program_id := input.caller_program_id
    instruction_data
    pre_states := input.pre_states
    post_states }

/-- What `process_entry` did to one account: nothing if there was data, and else
    the first entry's bytes. -/
inductive Processed (program_id : ProgramId) (pre : AccountWithMetadata) (entry : AnchorEntry) :
    AccountPostState → Prop where
  | present (haddress : pre.account_id = entry_pda program_id entry.cid_hash)
      (hdata : pre.account.data.bytes ≠ []) :
      Processed program_id pre entry (.new pre.account)
  | fresh (haddress : pre.account_id = entry_pda program_id entry.cid_hash)
      (hdata : pre.account.data.bytes = []) (data : Data) (hbytes : entry.to_vec = some data.bytes) :
      Processed program_id pre entry
        (.new_claimed_if_default { pre.account with data } (.Pda ⟨entry.cid_hash.digest⟩))

theorem process_entry_cases {program_id : ProgramId} {pre : AccountWithMetadata} {cid : CanonicalCid}
    {metadata_hash : MetadataHash} {anchor_timestamp : UInt64} {post : AccountPostState}
    (hprocess : process_entry program_id pre cid metadata_hash anchor_timestamp = .ok post) :
    Processed program_id pre (new_entry cid metadata_hash anchor_timestamp) post := by
  unfold process_entry at hprocess
  simp only [ne_eq, ite_not] at hprocess
  split at hprocess
  · rename_i haddress
    split at hprocess
    · rename_i hdata
      split at hprocess
      · cases hprocess
      · rename_i bytes hbytes
        split at hprocess
        · cases hprocess
        · rename_i data htry
          cases hprocess
          refine .fresh haddress hdata data ?_
          rw [Data.bytes_of_try_from htry]
          exact hbytes
    · rename_i hdata
      cases hprocess
      exact .present haddress hdata
  · cases hprocess

omit [Sha256] in
theorem Processed.address {program_id : ProgramId} {pre : AccountWithMetadata} {entry : AnchorEntry}
    {post : AccountPostState} (hprocessed : Processed program_id pre entry post) :
    pre.account_id = entry_pda program_id entry.cid_hash := by
  cases hprocessed with
  | present haddress => exact haddress
  | fresh haddress => exact haddress

omit [Sha256] in
/-- A post account differs from its pre account at most in the data, and only
    where that was empty. -/
theorem Processed.account {program_id : ProgramId} {pre : AccountWithMetadata} {entry : AnchorEntry}
    {post : AccountPostState} (hprocessed : Processed program_id pre entry post) :
    ∃ data, post.account = { pre.account with data } ∧
      (pre.account.data.bytes ≠ [] → data = pre.account.data) := by
  cases hprocessed with
  | present => exact ⟨pre.account.data, rfl, fun _ => rfl⟩
  | fresh _ hdata data => exact ⟨data, rfl, fun hnonempty => absurd hdata hnonempty⟩

/-- The post-states of a list of entries, each against its own pre-state. -/
inductive ProcessedAll (program_id : ProgramId) :
    List AccountWithMetadata → List AnchorEntry → List AccountPostState → Prop where
  | nil : ProcessedAll program_id [] [] []
  | cons {pre : AccountWithMetadata} {entry : AnchorEntry} {post : AccountPostState}
      {pres : List AccountWithMetadata} {entries : List AnchorEntry} {posts : List AccountPostState}
      (head : Processed program_id pre entry post) (tail : ProcessedAll program_id pres entries posts) :
      ProcessedAll program_id (pre :: pres) (entry :: entries) (post :: posts)

theorem process_batch_cases {program_id : ProgramId} {anchor_timestamp : UInt64}
    {entries : List (CanonicalCid × MetadataHash)} {pre_states : List AccountWithMetadata}
    {posts : List AccountPostState} (hlength : entries.length = pre_states.length)
    (hprocess : process_batch program_id anchor_timestamp (entries.zip pre_states) = .ok posts) :
    ProcessedAll program_id pre_states
      (entries.map fun entry => new_entry entry.1 entry.2 anchor_timestamp) posts := by
  induction entries generalizing pre_states posts with
  | nil =>
    rw [List.length_eq_zero_iff.mp hlength.symm]
    cases hprocess
    exact .nil
  | cons entry rest ih =>
    cases pre_states with
    | nil => cases hlength
    | cons pre pres =>
      obtain ⟨cid, metadata_hash⟩ := entry
      rw [process_batch, List.zip_cons_cons, List.mapM_cons] at hprocess
      cases hfirst : process_entry program_id pre cid metadata_hash anchor_timestamp with
      | error e => simp [hfirst, bind, Except.bind] at hprocess
      | ok post =>
        cases hothers : process_batch program_id anchor_timestamp (rest.zip pres) with
        | error e =>
          rw [process_batch] at hothers
          simp [hfirst, hothers, bind, Except.bind] at hprocess
        | ok others =>
          have htail := ih (Nat.succ.inj hlength) hothers
          rw [process_batch] at hothers
          simp only [hfirst, hothers, bind, Except.bind, pure, Except.pure] at hprocess
          cases hprocess
          exact .cons (process_entry_cases hfirst) htail

/-- A completed execution decoded an instruction and processed its entries, one
    to an account and in order. -/
theorem main_cases {input : ProgramInput} {instruction_data : List UInt32} {output : ProgramOutput}
    (hmain : main input instruction_data = .ok output) :
    ∃ instruction, RegistryInstruction.try_from_slice input.instruction = .ok instruction ∧
      output.pre_states = input.pre_states ∧
      ProcessedAll input.self_program_id input.pre_states instruction.new_entries output.post_states := by
  unfold main at hmain
  cases hdecode : RegistryInstruction.try_from_slice input.instruction with
  | error e => simp [hdecode, bind, Except.bind] at hmain
  | ok instruction =>
    refine ⟨instruction, rfl, ?_⟩
    rw [hdecode] at hmain
    cases instruction with
    | AnchorOne cid metadata_hash anchor_timestamp =>
      cases hpre : input.pre_states with
      | nil => simp [hpre, bind, Except.bind] at hmain
      | cons pre rest =>
        cases rest with
        | cons => simp [hpre, bind, Except.bind] at hmain
        | nil =>
          cases hfirst : process_entry input.self_program_id pre cid metadata_hash anchor_timestamp with
          | error e => simp [hpre, hfirst, bind, Except.bind] at hmain
          | ok post =>
            simp only [hpre, hfirst, bind, Except.bind] at hmain
            cases hmain
            exact ⟨rfl, .cons (process_entry_cases hfirst) .nil⟩
    | AnchorBatch entries anchor_timestamp =>
      by_cases hlength : entries.length = input.pre_states.length
      · cases hbatch : process_batch input.self_program_id anchor_timestamp
            (entries.zip input.pre_states) with
        | error e => simp [hlength, hbatch, bind, Except.bind] at hmain
        | ok posts =>
          simp only [hlength, ↓reduceIte, hbatch, bind, Except.bind] at hmain
          cases hmain
          exact ⟨rfl, process_batch_cases hlength hbatch⟩
      · simp [hlength, bind, Except.bind] at hmain

/-- The right account is processed if the entry's bytes fit it. -/
theorem process_entry_completes {program_id : ProgramId} {pre : AccountWithMetadata} {cid : CanonicalCid}
    {metadata_hash : MetadataHash} {anchor_timestamp : UInt64} {bytes : List UInt8}
    (haddress : pre.account_id = entry_pda program_id (cid_hash cid))
    (hbytes : (new_entry cid metadata_hash anchor_timestamp).to_vec = some bytes)
    (hfits : bytes.length ≤ Nssa.DATA_MAX_LENGTH) :
    ∃ post, process_entry program_id pre cid metadata_hash anchor_timestamp = .ok post := by
  unfold entry_pda at haddress
  simp only [process_entry, ne_eq, ite_not, haddress, ↓reduceIte]
  by_cases hdata : pre.account.data.bytes = []
  · rw [if_pos hdata]
    unfold new_entry at hbytes
    have htry : Data.try_from bytes = some ⟨bytes, hfits⟩ := dif_pos hfits
    simp only [hbytes, htry]
    exact ⟨_, rfl⟩
  · rw [if_neg hdata]
    exact ⟨_, rfl⟩

theorem process_batch_completes {program_id : ProgramId} {anchor_timestamp : UInt64}
    {entries : List (CanonicalCid × MetadataHash)} {pre_states : List AccountWithMetadata}
    (haddresses : pre_states.map AccountWithMetadata.account_id =
      entries.map fun entry => entry_pda program_id (cid_hash entry.1))
    (hfits : ∀ entry ∈ entries, ∃ bytes, (new_entry entry.1 entry.2 anchor_timestamp).to_vec = some bytes ∧
      bytes.length ≤ Nssa.DATA_MAX_LENGTH) :
    ∃ posts, process_batch program_id anchor_timestamp (entries.zip pre_states) = .ok posts := by
  induction entries generalizing pre_states with
  | nil => exact ⟨[], rfl⟩
  | cons entry rest ih =>
    cases pre_states with
    | nil => cases haddresses
    | cons pre pres =>
      obtain ⟨cid, metadata_hash⟩ := entry
      obtain ⟨haddress, hothers⟩ := List.cons.inj haddresses
      obtain ⟨bytes, hbytes, hlength⟩ := hfits _ List.mem_cons_self
      obtain ⟨post, hpost⟩ := process_entry_completes haddress hbytes hlength
      obtain ⟨posts, hposts⟩ := ih hothers fun other hother => hfits other (List.mem_cons_of_mem _ hother)
      rw [process_batch] at hposts
      refine ⟨post :: posts, ?_⟩
      rw [process_batch, List.zip_cons_cons, List.mapM_cons]
      simp only [hpost, hposts, bind, Except.bind, pure, Except.pure]

/-- A batch is executed if each entry comes with its account and fits it. -/
theorem main_completes {input : ProgramInput} {instruction_data : List UInt32}
    {entries : List (CanonicalCid × MetadataHash)} {anchor_timestamp : UInt64}
    (hdecode : RegistryInstruction.try_from_slice input.instruction = .ok (.AnchorBatch entries anchor_timestamp))
    (haddresses : input.pre_states.map AccountWithMetadata.account_id =
      entries.map fun entry => entry_pda input.self_program_id (cid_hash entry.1))
    (hfits : ∀ entry ∈ entries, ∃ bytes, (new_entry entry.1 entry.2 anchor_timestamp).to_vec = some bytes ∧
      bytes.length ≤ Nssa.DATA_MAX_LENGTH) :
    ∃ output, main input instruction_data = .ok output := by
  have hlength : entries.length = input.pre_states.length := by
    have h := congrArg List.length haddresses
    rwa [List.length_map, List.length_map, eq_comm] at h
  obtain ⟨posts, hposts⟩ := process_batch_completes haddresses hfits
  simp only [main, hdecode, hlength, ↓reduceIte, hposts, bind, Except.bind]
  exact ⟨_, rfl⟩

theorem main_completes_one {input : ProgramInput} {instruction_data : List UInt32} {cid : CanonicalCid}
    {metadata_hash : MetadataHash} {anchor_timestamp : UInt64} {bytes : List UInt8}
    (hdecode : RegistryInstruction.try_from_slice input.instruction =
      .ok (.AnchorOne cid metadata_hash anchor_timestamp))
    (haddresses : input.pre_states.map AccountWithMetadata.account_id =
      [entry_pda input.self_program_id (cid_hash cid)])
    (hbytes : (new_entry cid metadata_hash anchor_timestamp).to_vec = some bytes)
    (hfits : bytes.length ≤ Nssa.DATA_MAX_LENGTH) : ∃ output, main input instruction_data = .ok output := by
  obtain ⟨pre, rest, hpre, haddress, hrest⟩ := List.map_eq_cons_iff.mp haddresses
  obtain rfl := List.map_eq_nil_iff.mp hrest
  obtain ⟨post, hpost⟩ := process_entry_completes haddress hbytes hfits
  simp only [main, hdecode, hpre, hpost, bind, Except.bind]
  exact ⟨_, rfl⟩

end whistleblower_registry
