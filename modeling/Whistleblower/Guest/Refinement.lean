import Whistleblower.Guest.Chain

open nssa_core whistleblower_core

namespace whistleblower_registry

section

variable [Sha256] [Nssa]

omit [Sha256] in
theorem ProcessedAll.length {program_id : ProgramId} {pres : List AccountWithMetadata} {entries : List AnchorEntry}
    {posts : List AccountPostState} (hprocessed : ProcessedAll program_id pres entries posts) :
    posts.length = pres.length := by
  induction hprocessed with
  | nil => rfl
  | cons _ _ ih => rw [List.length_cons, List.length_cons, ih]

omit [Sha256] in
/-- Every post-state stands where its pre-state stood, and changes its data at most. -/
theorem ProcessedAll.account {program_id : ProgramId} {pres : List AccountWithMetadata} {entries : List AnchorEntry}
    {posts : List AccountPostState} (hprocessed : ProcessedAll program_id pres entries posts) {i : Nat}
    {pre : AccountWithMetadata} {post : AccountPostState} (hpre : pres[i]? = some pre)
    (hpost : posts[i]? = some post) :
    ∃ data, post.account = { pre.account with data } ∧
      (pre.account.data.bytes ≠ [] → data = pre.account.data) := by
  induction hprocessed generalizing i with
  | nil => cases hpre
  | cons head tail ih =>
    cases i with
    | zero =>
      cases hpre
      cases hpost
      exact head.account
    | succ i => exact ih hpre hpost

/-- Over every run from an unused registry, the program is the reference registry:
    its accounts hold nothing but entries under their own hashes, a completed
    transaction returns its accounts in order with at most empty data filled and
    applies its instruction, and a panic changes nothing. -/
theorem guest_refines_registry {program_id : ProgramId} (hinjective : PdaInjective program_id)
    {initial chain : Chain} (hunused : Unused program_id initial)
    (hreachable : Reachable program_id initial chain) :
    (∀ hash, entry_data program_id chain hash ≠ [] →
      ∃ entry, AnchorEntry.try_from_slice (entry_data program_id chain hash) = .ok entry ∧
        cid_hash entry.cid = entry.cid_hash ∧
        entry_pda program_id entry.cid_hash = entry_pda program_id hash) ∧
    ∀ tx : Transaction, tx.account_ids.Nodup →
      (∀ output, run_guest program_id chain tx = .ok output →
        output.pre_states = tx.pre_states chain ∧
        output.post_states.length = tx.accounts.length ∧
        (∀ (i : Nat) (pre : AccountWithMetadata) (post : AccountPostState),
          (tx.pre_states chain)[i]? = some pre → output.post_states[i]? = some post →
          ∃ data, post.account = { pre.account with data } ∧
            (pre.account.data.bytes ≠ [] → data = pre.account.data)) ∧
        ∃ instruction outcome, RegistryInstruction.try_from_slice tx.instruction = .ok instruction ∧
          (registry program_id chain).apply instruction =
            (.ok outcome, registry program_id (submit program_id chain tx))) ∧
      (∀ panic, run_guest program_id chain tx = .error panic →
        registry program_id (submit program_id chain tx) = registry program_id chain) := by
  have hformed := WellFormed.of_reachable hinjective hunused hreachable
  constructor
  · intro hash hdata
    obtain ⟨entry, hread, hhash, rfl⟩ := hformed hash hdata
    exact ⟨entry, hread, hhash, rfl⟩
  · intro tx hdistinct
    constructor
    · intro output hrun
      obtain ⟨instruction, hdecode, hprocessed, hafter, _⟩ := submit_registry hinjective hformed hdistinct hrun
      obtain ⟨_, _, hpre, _⟩ := main_cases hrun
      obtain ⟨outcome, happly⟩ := (registry program_id chain).apply_eq instruction
      refine ⟨hpre, ?_, fun _ _ _ => hprocessed.account, instruction, outcome, hdecode, ?_⟩
      · rw [hprocessed.length, Transaction.pre_states, List.length_map]
      · rw [happly, ← hafter]
    · intro panic hrun
      rw [submit_of_panic hrun]

/-- The first transaction of a registry. -/
def firstAnchor (program_id : ProgramId) : Transaction where
  accounts := [(entry_pda program_id (cid_hash ⟨"bafy-first"⟩), false)]
  instruction := ((RegistryInstruction.AnchorOne ⟨"bafy-first"⟩ ⟨Vector.replicate 32 7⟩ 42).to_vec).getD []

/-- A batch for the account of the first transaction, and for one that is unused. -/
def secondAnchor (program_id : ProgramId) : Transaction where
  accounts := [
    (entry_pda program_id (cid_hash ⟨"bafy-first"⟩), false),
    (entry_pda program_id (cid_hash ⟨"bafy-second"⟩), false)]
  instruction := ((RegistryInstruction.AnchorBatch [
    (⟨"bafy-first"⟩, ⟨Vector.replicate 32 8⟩), (⟨"bafy-second"⟩, ⟨Vector.replicate 32 9⟩)] 43).to_vec).getD []

end

/-- The batch keeps the entry of the first transaction, and adds one. -/
theorem guest_refines_registry_second_anchor :
    let program_id : ProgramId := Vector.replicate 8 1
    let chain := submit program_id unusedChain (firstAnchor program_id)
    let tx := secondAnchor program_id
    entry_data program_id chain (cid_hash ⟨"bafy-first"⟩) ≠ [] ∧
      entry_data program_id chain (cid_hash ⟨"bafy-second"⟩) = [] ∧
      ∃ output, run_guest program_id chain tx = .ok output ∧ output.pre_states = tx.pre_states chain ∧
        output.post_states.length = tx.accounts.length ∧
        ∃ instruction outcome, RegistryInstruction.try_from_slice tx.instruction = .ok instruction ∧
          (registry program_id chain).apply instruction =
            (.ok outcome, registry program_id (submit program_id chain tx)) := by
  intro program_id chain tx
  have hfirst : (firstAnchor program_id).account_ids.Nodup := List.pairwise_singleton _ _
  have hdistinct : tx.account_ids.Nodup := by decide +kernel
  have hcompletes : (run_guest program_id chain tx).isOk = true := by decide +kernel
  have hrefines := guest_refines_registry (pdaInjective_seedAddressed program_id) unused_unusedChain
    (.single (.submitted (firstAnchor program_id) hfirst))
  refine ⟨by decide +kernel, by decide +kernel, ?_⟩
  cases hrun : run_guest program_id chain tx with
  | error panic => simp [hrun, Except.isOk, Except.toBool] at hcompletes
  | ok output =>
    obtain ⟨hpre, hlength, _, happlies⟩ := (hrefines.2 tx hdistinct).1 output hrun
    exact ⟨output, rfl, hpre, hlength, happlies⟩

end whistleblower_registry
