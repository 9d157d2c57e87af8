import Mathlib.Logic.Relation
import Whistleblower.Guest.Program

open nssa_core whistleblower_core first_writer

namespace whistleblower_registry

/-- A public transaction for the registry: the accounts it names, each with
    whether it is authorised, and the instruction. -/
structure Transaction where
  accounts : List (AccountId × Bool)
  instruction : List UInt8
  deriving DecidableEq

def Transaction.account_ids (self : Transaction) : List AccountId := self.accounts.map Prod.fst

section

variable [Sha256] [Nssa]

/-- The state of every account. -/
abbrev Chain := AccountId → Account

def Chain.snapshot (chain : Chain) (account : AccountId × Bool) : AccountWithMetadata :=
  { account := chain account.1, is_authorized := account.2, account_id := account.1 }

/-- Snapshots of the accounts a transaction names. -/
def Transaction.pre_states (self : Transaction) (chain : Chain) : List AccountWithMetadata :=
  self.accounts.map chain.snapshot

/-- The program run on a transaction in a state of the chain. -/
def run_guest (program_id : ProgramId) (chain : Chain) (tx : Transaction) : Except Panic ProgramOutput :=
  main {
    self_program_id := program_id
    caller_program_id := none
    pre_states := tx.pre_states chain
    instruction := tx.instruction } (Nssa.serialize_instruction tx.instruction)

/-- The account a post-state leaves: a claim makes the program its owner. -/
def settled (program_id : ProgramId) (post : AccountPostState) : Account :=
  match post.claim with
  | some _ => { post.account with program_owner := program_id }
  | none => post.account

def settle (program_id : ProgramId) (chain : Chain) (posts : List (AccountId × AccountPostState)) : Chain :=
  posts.foldl (fun current post => Function.update current post.1 (settled program_id post.2)) chain

/-- The chain after a transaction. A panic leaves no trace. -/
def submit (program_id : ProgramId) (chain : Chain) (tx : Transaction) : Chain :=
  match run_guest program_id chain tx with
  | .ok output => settle program_id chain (tx.account_ids.zip output.post_states)
  | .error _ => chain

/-- The entry in an account's data, if there is data and it is an entry. -/
def decode_entry (bytes : List UInt8) : Option AnchorEntry :=
  if bytes = [] then none else (AnchorEntry.try_from_slice bytes).toOption

def entry_data (program_id : ProgramId) (chain : Chain) (hash : CidHash) : List UInt8 :=
  (chain (entry_pda program_id hash)).data.bytes

/-- The registry a chain stands for: under each hash, the entry in its account. -/
def registry (program_id : ProgramId) (chain : Chain) : RegistryState :=
  ⟨fun hash => decode_entry (entry_data program_id chain hash)⟩

/-- No account of the registry has data yet. -/
def Unused (program_id : ProgramId) (chain : Chain) : Prop :=
  ∀ hash, entry_data program_id chain hash = []

/-- Data in an account of the registry is the entry under that account's hash. -/
def WellFormed (program_id : ProgramId) (chain : Chain) : Prop :=
  ∀ hash, entry_data program_id chain hash ≠ [] →
    ∃ entry, AnchorEntry.try_from_slice (entry_data program_id chain hash) = .ok entry ∧
      cid_hash entry.cid = entry.cid_hash ∧ entry.cid_hash = hash

/-- One change of the chain: a transaction whose accounts are pairwise distinct,
    or anything that leaves the data of the registry's accounts alone. -/
inductive Step (program_id : ProgramId) (chain : Chain) : Chain → Prop where
  | submitted (tx : Transaction) (hdistinct : tx.account_ids.Nodup) :
      Step program_id chain (submit program_id chain tx)
  | elsewhere (after : Chain)
      (hkept : ∀ hash, entry_data program_id after hash = entry_data program_id chain hash) :
      Step program_id chain after

def Reachable (program_id : ProgramId) (initial : Chain) : Chain → Prop :=
  Relation.ReflTransGen (Step program_id) initial

/-- Accounts of different hashes are different accounts. -/
def PdaInjective (program_id : ProgramId) : Prop :=
  Function.Injective (entry_pda program_id)

variable {program_id : ProgramId}

omit [Sha256] in
theorem registry_entries (chain : Chain) (hash : CidHash) :
    (registry program_id chain).entries hash = decode_entry (entry_data program_id chain hash) := rfl

omit [Sha256] in
theorem registry_eq_none {chain : Chain} {hash : CidHash} (hdata : entry_data program_id chain hash = []) :
    (registry program_id chain).entries hash = none := by
  rw [registry_entries, hdata, decode_entry, if_pos rfl]

theorem WellFormed.registry_isSome {chain : Chain} (hformed : WellFormed program_id chain) {hash : CidHash}
    (hdata : entry_data program_id chain hash ≠ []) :
    ((registry program_id chain).entries hash).isSome := by
  obtain ⟨entry, hread, _⟩ := hformed hash hdata
  simp [registry, decode_entry, hdata, hread, Except.toOption]

/-- A stored entry stands under the hash of its CID. -/
theorem WellFormed.cid_hash_of_stored {chain : Chain} (hformed : WellFormed program_id chain) {hash : CidHash}
    {entry : AnchorEntry} (hentry : (registry program_id chain).entries hash = some entry) :
    cid_hash entry.cid = hash := by
  rw [registry_entries, decode_entry] at hentry
  split at hentry
  · cases hentry
  · rename_i hdata
    obtain ⟨stored, hread, hhash, rfl⟩ := hformed hash hdata
    rw [hread] at hentry
    cases hentry
    exact hhash

omit [Sha256] in
theorem entry_data_update (hinjective : PdaInjective program_id) (chain : Chain) (hash : CidHash)
    (account : Account) (other : CidHash) :
    entry_data program_id (Function.update chain (entry_pda program_id hash) account) other =
      if other = hash then account.data.bytes else entry_data program_id chain other := by
  unfold entry_data
  by_cases hother : other = hash
  · subst hother
    simp
  · have hpda : entry_pda program_id other ≠ entry_pda program_id hash := fun h => hother (hinjective h)
    simp [hother, hpda]

omit [Sha256] in
theorem settled_data (post : AccountPostState) : (settled program_id post).data = post.account.data := by
  unfold settled
  split <;> rfl

/-- Writing an entry's bytes to its unused account claims its hash. -/
theorem registry_write (hinjective : PdaInjective program_id) {chain : Chain}
    (hformed : WellFormed program_id chain) {entry : AnchorEntry} {account : Account}
    (hhash : cid_hash entry.cid = entry.cid_hash) (hunused : entry_data program_id chain entry.cid_hash = [])
    (hbytes : entry.to_vec = some account.data.bytes) :
    (registry program_id (Function.update chain (entry_pda program_id entry.cid_hash) account)).entries =
        claim (registry program_id chain).entries entry.cid_hash entry ∧
      WellFormed program_id (Function.update chain (entry_pda program_id entry.cid_hash) account) := by
  have hread := AnchorEntry.try_from_slice_to_vec hbytes
  have hnonempty := AnchorEntry.to_vec_ne_nil hbytes
  constructor
  · funext hash
    rw [claim_apply, registry_entries, entry_data_update hinjective]
    by_cases hcase : hash = entry.cid_hash
    · subst hcase
      rw [registry_eq_none hunused, if_pos rfl, if_pos rfl]
      simp [decode_entry, hnonempty, hread, Except.toOption]
    · rw [if_neg hcase, if_neg (Ne.symm hcase), Option.or_none, registry_entries]
  · intro hash hdata
    rw [entry_data_update hinjective] at hdata ⊢
    by_cases hcase : hash = entry.cid_hash
    · rw [if_pos hcase]
      exact ⟨entry, hread, hhash, hcase.symm⟩
    · rw [if_neg hcase] at hdata ⊢
      exact hformed hash hdata

/-- One processed account is one claim of the registry. -/
theorem registry_processed (hinjective : PdaInjective program_id) {chain : Chain}
    (hformed : WellFormed program_id chain) {account : AccountId × Bool} {entry : AnchorEntry}
    {post : AccountPostState} (hhash : cid_hash entry.cid = entry.cid_hash)
    (hprocessed : Processed program_id (chain.snapshot account) entry post) :
    (registry program_id (Function.update chain account.1 (settled program_id post))).entries =
        claim (registry program_id chain).entries entry.cid_hash entry ∧
      WellFormed program_id (Function.update chain account.1 (settled program_id post)) := by
  have haddress : account.1 = entry_pda program_id entry.cid_hash := hprocessed.address
  cases hprocessed with
  | present _ hdata =>
    have hsame : Function.update chain account.1 (settled program_id (.new (chain.snapshot account).account)) =
        chain := Function.update_eq_self account.1 chain
    have hstored : entry_data program_id chain entry.cid_hash ≠ [] := by
      rw [entry_data, ← haddress]
      exact hdata
    rw [hsame, claim_of_isSome (hformed.registry_isSome hstored)]
    exact ⟨rfl, hformed⟩
  | fresh _ hdata data hbytes =>
    have hunused : entry_data program_id chain entry.cid_hash = [] := by
      rw [entry_data, ← haddress]
      exact hdata
    rw [haddress]
    apply registry_write hinjective hformed hhash hunused
    rw [settled_data]
    exact hbytes

/-- The processed accounts of one transaction are the claims of its entries, in
    order. Distinct accounts make every snapshot current when its turn comes. -/
theorem registry_settle (hinjective : PdaInjective program_id) {chain : Chain}
    (hformed : WellFormed program_id chain) {accounts : List (AccountId × Bool)}
    (hdistinct : (accounts.map Prod.fst).Nodup) {entries : List AnchorEntry}
    (hhashes : ∀ entry ∈ entries, cid_hash entry.cid = entry.cid_hash) {posts : List AccountPostState}
    (hprocessed : ProcessedAll program_id (accounts.map chain.snapshot) entries posts) :
    (registry program_id (settle program_id chain ((accounts.map Prod.fst).zip posts))).entries =
        claim_all (registry program_id chain).entries (entries.map fun entry => (entry.cid_hash, entry)) ∧
      WellFormed program_id (settle program_id chain ((accounts.map Prod.fst).zip posts)) := by
  induction accounts generalizing chain entries posts with
  | nil =>
    cases hprocessed
    exact ⟨rfl, hformed⟩
  | cons account rest ih =>
    cases hprocessed with
    | @cons _ entry post _ entries posts head tail =>
      obtain ⟨hfresh, hrest⟩ := List.nodup_cons.mp hdistinct
      obtain ⟨hclaim, hformed⟩ := registry_processed hinjective hformed
        (hhashes entry List.mem_cons_self) head
      have hcurrent : rest.map chain.snapshot =
          rest.map (Chain.snapshot (Function.update chain account.1 (settled program_id post))) := by
        apply List.map_congr_left
        intro other hother
        have hne : other.1 ≠ account.1 := fun h => hfresh (h ▸ List.mem_map_of_mem hother)
        rw [Chain.snapshot, Chain.snapshot, Function.update_of_ne hne]
      rw [hcurrent] at tail
      have hnext := ih hformed hrest (fun other hother => hhashes other (List.mem_cons_of_mem entry hother)) tail
      rw [hclaim] at hnext
      exact hnext

/-- A completed transaction applies its instruction to the registry. -/
theorem submit_registry (hinjective : PdaInjective program_id) {chain : Chain}
    (hformed : WellFormed program_id chain) {tx : Transaction} (hdistinct : tx.account_ids.Nodup)
    {output : ProgramOutput} (hrun : run_guest program_id chain tx = .ok output) :
    ∃ instruction, RegistryInstruction.try_from_slice tx.instruction = .ok instruction ∧
      ProcessedAll program_id (tx.pre_states chain) instruction.new_entries output.post_states ∧
      (registry program_id (submit program_id chain tx)).entries =
        claim_all (registry program_id chain).entries instruction.writes ∧
      WellFormed program_id (submit program_id chain tx) := by
  obtain ⟨instruction, hdecode, _, hprocessed⟩ := main_cases hrun
  have hsettle := registry_settle hinjective hformed hdistinct
    (fun entry hentry => RegistryInstruction.cid_hash_of_mem_new_entries hentry) hprocessed
  refine ⟨instruction, hdecode, hprocessed, ?_⟩
  rw [submit, hrun]
  exact hsettle

omit [Sha256] in
theorem submit_of_panic {chain : Chain} {tx : Transaction} {panic : Panic} [Sha256]
    (hrun : run_guest program_id chain tx = .error panic) : submit program_id chain tx = chain := by
  rw [submit, hrun]

/-- A step keeps the registry's accounts well formed. -/
theorem WellFormed.step (hinjective : PdaInjective program_id) {chain after : Chain}
    (hformed : WellFormed program_id chain) (hstep : Step program_id chain after) :
    WellFormed program_id after := by
  cases hstep with
  | submitted tx hdistinct =>
    cases hrun : run_guest program_id chain tx with
    | ok output =>
      obtain ⟨_, _, _, _, hafter⟩ := submit_registry hinjective hformed hdistinct hrun
      exact hafter
    | error panic =>
      rw [submit_of_panic hrun]
      exact hformed
  | elsewhere _ hkept =>
    intro hash hdata
    rw [hkept] at hdata ⊢
    exact hformed hash hdata

theorem Unused.wellFormed {chain : Chain} (hunused : Unused program_id chain) : WellFormed program_id chain :=
  fun hash hdata => absurd (hunused hash) hdata

/-- Every state reached from an unused registry is well formed. -/
theorem WellFormed.of_reachable (hinjective : PdaInjective program_id) {initial chain : Chain}
    (hunused : Unused program_id initial) (hreachable : Reachable program_id initial chain) :
    WellFormed program_id chain := by
  induction hreachable with
  | refl => exact hunused.wellFormed
  | tail _ hstep ih => exact ih.step hinjective hstep

/-- A chain on which no account has been used. -/
def unusedChain : Chain := fun _ =>
  { program_owner := Nssa.DEFAULT_PROGRAM_ID, balance := 0, data := ⟨[], Nat.zero_le _⟩, nonce := 0 }

omit [Sha256] in
theorem unused_unusedChain : Unused program_id unusedChain := fun _ => rfl

end

theorem pdaInjective_seedAddressed (program_id : ProgramId) : PdaInjective program_id := by
  rintro ⟨first⟩ ⟨second⟩ heq
  cases heq
  rfl

end whistleblower_registry
