import Whistleblower.Guest.Refinement

open nssa_core whistleblower_core first_writer

namespace whistleblower_registry

variable [Sha256] [Nssa] {program_id : ProgramId}

omit [Sha256] in
theorem ProcessedAll.processed {pres : List AccountWithMetadata} {entries : List AnchorEntry}
    {posts : List AccountPostState} (hprocessed : ProcessedAll program_id pres entries posts) {i : Nat}
    {pre : AccountWithMetadata} {entry : AnchorEntry} {post : AccountPostState} (hpre : pres[i]? = some pre)
    (hentry : entries[i]? = some entry) (hpost : posts[i]? = some post) : Processed program_id pre entry post := by
  induction hprocessed generalizing i with
  | nil => cases hpre
  | cons head tail ih =>
    cases i with
    | zero =>
      cases hpre
      cases hentry
      cases hpost
      exact head
    | succ i => exact ih hpre hentry hpost

omit [Sha256] in
theorem settle_cons (chain : Chain) (post : AccountId × AccountPostState)
    (rest : List (AccountId × AccountPostState)) :
    settle program_id chain (post :: rest) =
      settle program_id (Function.update chain post.1 (settled program_id post.2)) rest := rfl

/-- What the data of the account of a hash stands for: nothing, or an entry under that hash. -/
inductive Stores (hash : CidHash) : List UInt8 → Option AnchorEntry → Prop where
  | unused : Stores hash [] none
  | entry {bytes : List UInt8} {entry : AnchorEntry} (hread : AnchorEntry.try_from_slice bytes = .ok entry)
      (hnonempty : bytes ≠ []) (hhash : cid_hash entry.cid = entry.cid_hash) (hkey : entry.cid_hash = hash) :
      Stores hash bytes (some entry)

omit [Nssa] in
theorem Stores.decode {hash : CidHash} {bytes : List UInt8} {value : Option AnchorEntry}
    (hstores : Stores hash bytes value) : decode_entry bytes = value := by
  cases hstores with
  | unused => rfl
  | entry hread hnonempty =>
    rw [decode_entry, if_neg hnonempty, hread]
    rfl

omit [Nssa] in
theorem Stores.of_ne_nil {hash : CidHash} {bytes : List UInt8} {value : Option AnchorEntry}
    (hstores : Stores hash bytes value) (hnonempty : bytes ≠ []) :
    ∃ entry, AnchorEntry.try_from_slice bytes = .ok entry ∧ cid_hash entry.cid = entry.cid_hash ∧
      entry.cid_hash = hash ∧ value = some entry := by
  cases hstores with
  | unused => exact absurd rfl hnonempty
  | entry hread _ hhash hkey => exact ⟨_, hread, hhash, hkey, rfl⟩

theorem WellFormed.stores {chain : Chain} (hformed : WellFormed program_id chain) (hash : CidHash) :
    Stores hash (entry_data program_id chain hash) ((registry program_id chain).entries hash) := by
  rw [registry_entries]
  by_cases hdata : entry_data program_id chain hash = []
  · rw [hdata]
    exact .unused
  · obtain ⟨entry, hread, hhash, hkey⟩ := hformed hash hdata
    have hstores := Stores.entry hread hdata hhash hkey
    rwa [hstores.decode]

theorem WellFormed.of_stores {chain : Chain} {store : CidHash → Option AnchorEntry}
    (hstores : ∀ hash, Stores hash (entry_data program_id chain hash) (store hash)) :
    (registry program_id chain).entries = store ∧ WellFormed program_id chain := by
  constructor
  · funext hash
    exact (hstores hash).decode
  · intro hash hdata
    obtain ⟨entry, hread, hhash, hkey, _⟩ := (hstores hash).of_ne_nil hdata
    exact ⟨entry, hread, hhash, hkey⟩

/-- An account that was processed stands for what it stood for, or else for the new entry. -/
theorem Processed.stores {chain : Chain} (hformed : WellFormed program_id chain) {account : AccountId × Bool}
    {entry : AnchorEntry} {post : AccountPostState} (hhash : cid_hash entry.cid = entry.cid_hash)
    (hprocessed : Processed program_id (chain.snapshot account) entry post) :
    Stores entry.cid_hash (settled program_id post).data.bytes
      (((registry program_id chain).entries entry.cid_hash).or (some entry)) := by
  have haddress : account.1 = entry_pda program_id entry.cid_hash := hprocessed.address
  rw [settled_data]
  cases hprocessed with
  | present _ hdata =>
    have hnonempty : entry_data program_id chain entry.cid_hash ≠ [] := by
      rw [entry_data, ← haddress]
      exact hdata
    obtain ⟨stored, hfound⟩ := Option.isSome_iff_exists.mp (hformed.registry_isSome hnonempty)
    have hstores := hformed.stores entry.cid_hash
    rw [entry_data, ← haddress, hfound] at hstores
    rw [hfound, Option.some_or]
    exact hstores
  | fresh _ hdata data hbytes =>
    have hunused : entry_data program_id chain entry.cid_hash = [] := by
      rw [entry_data, ← haddress]
      exact hdata
    rw [registry_eq_none hunused, Option.none_or]
    exact .entry (AnchorEntry.try_from_slice_to_vec hbytes) (AnchorEntry.to_vec_ne_nil hbytes) hhash rfl

/-- Post-states that were all made from one snapshot, applied in order: under a hash
    without an entry the last of its new entries stays. -/
theorem settle_stores (hinjective : PdaInjective program_id) {chain : Chain}
    (hformed : WellFormed program_id chain) {accounts : List (AccountId × Bool)} {entries : List AnchorEntry}
    (hhashes : ∀ entry ∈ entries, cid_hash entry.cid = entry.cid_hash) {posts : List AccountPostState}
    (hprocessed : ProcessedAll program_id (accounts.map chain.snapshot) entries posts) {current : Chain}
    {hash : CidHash} {value : Option AnchorEntry}
    (hcurrent : Stores hash (entry_data program_id current hash) value) :
    Stores hash (entry_data program_id (settle program_id current ((accounts.map Prod.fst).zip posts)) hash)
      ((first_write (entries.map fun entry => (entry.cid_hash, entry)).reverse hash).elim value
        fun entry => ((registry program_id chain).entries hash).or (some entry)) := by
  induction accounts generalizing current value entries posts with
  | nil =>
    cases hprocessed
    exact hcurrent
  | cons account rest ih =>
    cases hprocessed with
    | @cons _ entry post _ entries posts head tail =>
      have hothers : ∀ other ∈ entries, cid_hash other.cid = other.cid_hash :=
        fun other hother => hhashes other (List.mem_cons_of_mem entry hother)
      have haddress : account.1 = entry_pda program_id entry.cid_hash := head.address
      rw [List.map_cons, List.map_cons, List.zip_cons_cons, settle_cons, haddress, List.reverse_cons,
        first_write_append, first_write_cons, first_write_nil]
      have hnext := entry_data_update hinjective current entry.cid_hash (settled program_id post) hash
      by_cases hkey : hash = entry.cid_hash
      · subst hkey
        rw [if_pos rfl] at hnext ⊢
        have hrest := ih hothers tail (hnext ▸ head.stores hformed (hhashes entry List.mem_cons_self))
        cases hlast : first_write (entries.map fun entry => (entry.cid_hash, entry)).reverse entry.cid_hash with
        | none => rwa [hlast] at hrest
        | some last => rwa [hlast] at hrest
      · rw [if_neg hkey] at hnext
        rw [if_neg (Ne.symm hkey), Option.or_none]
        exact ih hothers tail (hnext ▸ hcurrent)

/-- A completed transaction gives each hash without an entry the last entry it names for it. -/
theorem submit_stores (hinjective : PdaInjective program_id) {chain : Chain}
    (hformed : WellFormed program_id chain) {tx : Transaction} {output : ProgramOutput}
    (hrun : run_guest program_id chain tx = .ok output) :
    ∃ instruction, RegistryInstruction.try_from_slice tx.instruction = .ok instruction ∧
      (registry program_id (submit program_id chain tx)).entries =
        (fun hash => ((registry program_id chain).entries hash).or (first_write instruction.writes.reverse hash)) ∧
      WellFormed program_id (submit program_id chain tx) := by
  obtain ⟨instruction, hdecode, _, hprocessed⟩ := main_cases hrun
  refine ⟨instruction, hdecode, WellFormed.of_stores fun hash => ?_⟩
  have hstores := settle_stores hinjective hformed
    (fun entry hentry => RegistryInstruction.cid_hash_of_mem_new_entries hentry) hprocessed (hformed.stores hash)
  rw [submit, hrun]
  change Stores hash _ ((first_write instruction.writes.reverse hash).elim _ _) at hstores
  cases hlast : first_write instruction.writes.reverse hash with
  | none =>
    rw [Option.or_none]
    rwa [hlast] at hstores
  | some last => rwa [hlast] at hstores

/-- Any transaction, whether or not it names an account twice, keeps the registry's
    accounts well formed. -/
theorem WellFormed.submit (hinjective : PdaInjective program_id) {chain : Chain}
    (hformed : WellFormed program_id chain) (tx : Transaction) :
    WellFormed program_id (submit program_id chain tx) := by
  cases hrun : run_guest program_id chain tx with
  | ok output =>
    obtain ⟨_, _, _, hafter⟩ := submit_stores hinjective hformed hrun
    exact hafter
  | error panic =>
    rw [submit_of_panic hrun]
    exact hformed

/-- One change of a chain that executes any transaction, with its post-states in order. -/
inductive AnyStep (program_id : ProgramId) (chain : Chain) : Chain → Prop where
  | submitted (tx : Transaction) : AnyStep program_id chain (submit program_id chain tx)
  | elsewhere (after : Chain)
      (hkept : ∀ hash, entry_data program_id after hash = entry_data program_id chain hash) :
      AnyStep program_id chain after

/-- The states the program can lead to, transactions with repeated accounts included. -/
def ReachableAny (program_id : ProgramId) (initial : Chain) : Chain → Prop :=
  Relation.ReflTransGen (AnyStep program_id) initial

theorem WellFormed.of_reachable_any (hinjective : PdaInjective program_id) {initial chain : Chain}
    (hunused : Unused program_id initial) (hreachable : ReachableAny program_id initial chain) :
    WellFormed program_id chain := by
  induction hreachable with
  | refl => exact hunused.wellFormed
  | tail _ hstep ih =>
    cases hstep with
    | submitted tx => exact ih.submit hinjective tx
    | elsewhere _ hkept =>
      intro hash hdata
      rw [hkept] at hdata ⊢
      exact ih hash hdata

end whistleblower_registry
