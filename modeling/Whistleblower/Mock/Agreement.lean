import Whistleblower.Lez.Sequencer
import Whistleblower.Mock.Registry

open nssa_core whistleblower_core document_indexing whistleblower_registry whistleblower_lez_adapter first_writer

namespace whistleblower_mock_adapter

/-- An entry without the time it was anchored at. -/
def undated (entry : AnchorEntry) : AnchorEntry := { entry with anchor_timestamp := 0 }

/-- What a caller sees of a call's result, up to timestamps: the entries, or that it failed. -/
def observed (result : Except AdapterError (List AnchorEntry)) : Option (List AnchorEntry) :=
  result.toOption.map (List.map undated)

section

variable [Sha256]

/-- The same call on the mock. -/
def MockRegistryClient.answer (mock : MockRegistryClient) :
    Call → Except AdapterError (List AnchorEntry) × MockRegistryClient
  | .anchor_one cid metadata_hash =>
    let (result, after) := mock.anchor_one cid metadata_hash
    (result.map fun entry => [entry], after)
  | .anchor_batch entries => mock.anchor_batch entries
  | .query_by_cid_hash hash => ((mock.query_by_cid_hash hash).map Option.toList, mock)

/-- The results of calls on the mock, one after the other. -/
def mock_session : MockRegistryClient → List Call → List (Except AdapterError (List AnchorEntry))
  | _, [] => []
  | mock, call :: rest => (mock.answer call).1 :: mock_session (mock.answer call).2 rest

/-- The hashes a call anchors, in order. -/
def anchors (call : Call) : List CidHash := call.pairs.map fun pair => cid_hash pair.1

/-- Each pair of a call under its hash. -/
def keyed (call : Call) : List (CidHash × Pair) := call.pairs.map fun pair => (cid_hash pair.1, pair)

/-- What a call that repeats a hash must meet, depending on what becomes of its transaction:
    a refused call differs, a dropped one may only name hashes that were anchored before,
    and in one that is applied the first and the last pair of a new hash are the same. -/
def Harmless (policy : RepeatPolicy) (anchored : List CidHash) (call : Call) : Prop :=
  match policy with
  | .refused => False
  | .dropped => ∀ hash ∈ anchors call, hash ∈ anchored
  | .applied => ∀ hash ∈ anchors call, hash ∉ anchored →
      first_write (keyed call).reverse hash = first_write (keyed call) hash

/-- A call whose entries can be counted in four bytes, and that repeats no hash except harmlessly. -/
def Faithful (policy : RepeatPolicy) (anchored : List CidHash) (call : Call) : Prop :=
  call.pairs.length < 256 ^ 4 ∧ ((anchors call).Nodup ∨ Harmless policy anchored call)

/-- Calls that are each polled for, and faithful after those before them. -/
def FaithfulAll (policy : RepeatPolicy) (client : LezRegistryClient) : List CidHash → List Call → Prop
  | _, [] => True
  | anchored, call :: rest =>
    call.Polled client ∧ Faithful policy anchored call ∧ FaithfulAll policy client (anchored ++ anchors call) rest

/-- A pair's entry, without a time. -/
def undated_entry (pair : Pair) : AnchorEntry := new_entry pair.1 pair.2 0

theorem undated_entry_injective : Function.Injective undated_entry := by
  rintro ⟨first_cid, first_hash⟩ ⟨second_cid, second_hash⟩ heq
  cases heq
  rfl

theorem keys_keyed (call : Call) : (keyed call).map Prod.fst = anchors call := by
  rw [keyed, anchors, List.map_map]
  rfl

theorem isSome_first_write_keyed {call : Call} {hash : CidHash} :
    (first_write (keyed call) hash).isSome ↔ hash ∈ anchors call := by
  rw [isSome_first_write, keys_keyed]

/-- The writes of a call, without their times. -/
theorem first_write_undated {writes : List (CidHash × Pair)} {anchor_timestamp : UInt64} (hash : CidHash) :
    (first_write (writes.map fun write =>
        (write.1, new_entry write.2.1 write.2.2 anchor_timestamp)) hash).map undated =
      (first_write writes hash).map undated_entry := by
  rw [first_write_map (fun pair : Pair => new_entry pair.1 pair.2 anchor_timestamp), Option.map_map]
  rfl

theorem mem_hashes_of_mem_anchors {call : Call} {hash : CidHash} (hmem : hash ∈ anchors call) :
    hash ∈ call.hashes := by
  cases call with
  | anchor_one cid metadata_hash => exact hmem
  | anchor_batch entries => exact hmem
  | query_by_cid_hash hash => cases hmem

/-- A call that finds an entry under each of its hashes returns these. -/
theorem read_of_found {call : Call} {entries : CidHash → Option AnchorEntry} {found : List AnchorEntry}
    (hfound : found.map some = call.hashes.map entries) : call.read entries = some found := by
  have hpresent : ∀ hash ∈ call.hashes, (entries hash).isSome := by
    intro hash hhash
    have hentry : entries hash ∈ found.map some := hfound ▸ List.mem_map_of_mem hhash
    obtain ⟨entry, _, hentry⟩ := List.mem_map.mp hentry
    rw [← hentry]
    rfl
  have hpairs : ∀ pair ∈ call.pairs, (entries (cid_hash pair.1)).isSome :=
    fun pair hpair => hpresent _ (mem_hashes_of_mem_anchors (List.mem_map_of_mem hpair))
  have hread : call.hashes.filterMap entries = (call.hashes.map entries).filterMap id := by
    rw [List.filterMap_map]
    rfl
  rw [Call.read, if_pos hpairs, hread, ← hfound, List.filterMap_map]
  exact congrArg some (List.filterMap_some)

/-- After a call the mock has claimed its hashes, and returns what then stands under them. -/
theorem MockRegistryClient.answer_eq (mock : MockRegistryClient) (call : Call) :
    (mock.answer call).2.entries = claim_all mock.entries (call.pairs.map write) ∧
      (mock.answer call).1.toOption = call.read (mock.answer call).2.entries := by
  cases call with
  | anchor_one cid metadata_hash =>
    obtain ⟨entry, hone, hentry⟩ := mock.anchor_one_eq (cid, metadata_hash)
    have hanswer : mock.answer (.anchor_one cid metadata_hash) =
        ((mock.anchor_one cid metadata_hash).1.map fun entry => [entry], (mock.anchor_one cid metadata_hash).2) := rfl
    rw [hanswer, hone]
    have hread : (Except.ok entry : Except AdapterError AnchorEntry).toOption =
        claim_all mock.entries [write (cid, metadata_hash)] (cid_hash cid) := hentry.symm
    exact ⟨rfl, Call.read_single (cid, metadata_hash) rfl rfl hread⟩
  | anchor_batch entries =>
    obtain ⟨found, hloop, hfound⟩ := anchor_batch_loop_eq entries [] mock
    have hanswer : mock.answer (.anchor_batch entries) = anchor_batch_loop entries [] mock := rfl
    rw [hanswer, hloop]
    refine ⟨rfl, (read_of_found ?_).symm⟩
    rw [List.nil_append, hfound, Call.hashes, List.map_map]
    rfl
  | query_by_cid_hash hash => exact ⟨rfl, (Call.read_query mock.entries hash).symm⟩

theorem read_undated (call : Call) (entries : CidHash → Option AnchorEntry) :
    (call.read entries).map (List.map undated) = call.read fun hash => (entries hash).map undated := by
  unfold Call.read
  simp only [Option.isSome_map]
  split
  · rw [Option.map_some, List.map_filterMap]
  · rfl

theorem forall_pairs_iff {call : Call} {P : CidHash → Prop} :
    (∀ pair ∈ call.pairs, P (cid_hash pair.1)) ↔ ∀ hash ∈ anchors call, P hash := by
  rw [anchors, List.forall_mem_map]

/-- A call asks for the hashes it anchors, unless it is a query. -/
theorem hashes_cases (call : Call) : call.hashes = anchors call ∨ ∃ hash, call = .query_by_cid_hash hash := by
  cases call with
  | anchor_one cid metadata_hash => exact .inl rfl
  | anchor_batch entries => exact .inl rfl
  | query_by_cid_hash hash => exact .inr ⟨hash, rfl⟩

omit [Sha256] in
theorem eq_of_filterMap_eq {first second : CidHash → Option AnchorEntry} {hashes : List CidHash}
    (hfirst : ∀ hash ∈ hashes, (first hash).isSome) (hsecond : ∀ hash ∈ hashes, (second hash).isSome)
    (heq : hashes.filterMap first = hashes.filterMap second) : ∀ hash ∈ hashes, first hash = second hash := by
  induction hashes with
  | nil => intro hash hhash; cases hhash
  | cons head rest ih =>
    obtain ⟨one, hone⟩ := Option.isSome_iff_exists.mp (hfirst head List.mem_cons_self)
    obtain ⟨other, hother⟩ := Option.isSome_iff_exists.mp (hsecond head List.mem_cons_self)
    rw [List.filterMap_cons_some hone, List.filterMap_cons_some hother, List.cons.injEq] at heq
    have hrest := ih (fun hash hhash => hfirst hash (List.mem_cons_of_mem head hhash))
      (fun hash hhash => hsecond hash (List.mem_cons_of_mem head hhash)) heq.2
    rw [List.forall_mem_cons]
    exact ⟨by rw [hone, hother, heq.1], hrest⟩

/-- Two registries answer a call alike exactly when they agree under its hashes, if the
    second has an entry under each that the call anchors. -/
theorem read_eq_read {call : Call} {first second : CidHash → Option AnchorEntry}
    (hpresent : ∀ hash ∈ anchors call, (second hash).isSome) :
    call.read first = call.read second ↔ ∀ hash ∈ call.hashes, first hash = second hash := by
  constructor
  · intro heq
    obtain hhashes | ⟨queried, rfl⟩ := hashes_cases call
    · have hsecond : call.read second = some (call.hashes.filterMap second) := if_pos (forall_pairs_iff.mpr hpresent)
      rw [hsecond, Call.read] at heq
      split at heq
      · rename_i hfirst
        rw [hhashes] at heq ⊢
        exact eq_of_filterMap_eq (forall_pairs_iff.mp hfirst) hpresent (Option.some.inj heq)
      · cases heq
    · rw [Call.read_query, Call.read_query] at heq
      intro hash hhash
      cases List.mem_singleton.mp hhash
      have hlists := congrArg List.head? (Option.some.inj heq)
      rwa [Option.head?_toList, Option.head?_toList] at hlists
  · intro hagree
    have hfirst : ∀ hash ∈ anchors call, (first hash).isSome := by
      intro hash hhash
      rw [hagree hash (mem_hashes_of_mem_anchors hhash)]
      exact hpresent hash hhash
    rw [Call.read, Call.read, if_pos (forall_pairs_iff.mpr hfirst), if_pos (forall_pairs_iff.mpr hpresent)]
    exact congrArg some (List.filterMap_congr hagree)

end

section

variable [Sha256] [Nssa] {policy : RepeatPolicy} {client : LezRegistryClient}

/-- What stands under a hash on the chain, up to the time. -/
def standing (program_id : ProgramId) (chain : Chain) (hash : CidHash) : Option AnchorEntry :=
  ((registry program_id chain).entries hash).map undated

/-- The call's pairs were written in order: the last one stays under a hash that had no entry. -/
structure Written (program_id : ProgramId) (call : Call) (chain after : Chain) : Prop where
  formed : WellFormed program_id after
  entries : ∀ hash, standing program_id after hash =
    (standing program_id chain hash).or ((first_write (keyed call).reverse hash).map undated_entry)

omit [Nssa] in
theorem writes_instruction {call : Call} {anchor_timestamp : UInt64} {instruction : RegistryInstruction}
    (hinstruction : call.instruction anchor_timestamp = some instruction) :
    instruction.writes = (keyed call).map fun write => (write.1, new_entry write.2.1 write.2.2 anchor_timestamp) := by
  rw [RegistryInstruction.writes, new_entries_instruction hinstruction, keyed, List.map_map, List.map_map]
  rfl

theorem Written.of_submit (hinjective : PdaInjective client.program_id) {chain : Chain}
    (hformed : WellFormed client.program_id chain) {call : Call} (hfits : Fits call.pairs) {tx : Transaction}
    (hattempt : call.Attempt client tx) :
    Written client.program_id call chain (submit client.program_id chain tx) := by
  obtain ⟨anchor_timestamp, instruction, output, hinstruction, hdecode, hrun⟩ := hattempt.completes hfits chain
  obtain ⟨decoded, hread, hentries, hafter⟩ := submit_stores hinjective hformed hrun
  have hsame : Except.ok decoded = Except.ok instruction := hread.symm.trans hdecode
  cases hsame
  constructor
  case formed => exact hafter
  case entries =>
    intro hash
    unfold standing
    rw [hentries, Option.map_or, writes_instruction hinstruction, ← List.map_reverse, first_write_undated]

theorem fits_length {pairs : List Pair} (hfits : Fits pairs) :
    ∀ pair ∈ pairs, (text.bytes pair.1.inner).length < 256 ^ 4 := by
  intro pair hpair
  obtain ⟨bytes, hbytes, _⟩ := hfits pair hpair 0
  exact (new_entry pair.1 pair.2 0).isSome_to_vec.mp (Option.isSome_of_eq_some hbytes)

theorem short_instruction {call : Call} (hfits : Fits call.pairs) {anchor_timestamp : UInt64}
    {instruction : RegistryInstruction} (hinstruction : call.instruction anchor_timestamp = some instruction) :
    instruction.to_vec.isSome ↔ call.pairs.length < 256 ^ 4 := by
  rw [RegistryInstruction.isSome_to_vec]
  have hcids := fits_length hfits
  cases call with
  | anchor_one cid metadata_hash =>
    cases hinstruction
    exact ⟨fun _ => show 1 < 256 ^ 4 by decide, fun _ => hcids _ List.mem_cons_self⟩
  | anchor_batch entries =>
    cases hinstruction
    exact ⟨And.left, fun hlength => ⟨hlength, hcids⟩⟩
  | query_by_cid_hash hash => cases hinstruction

theorem nodup_account_ids (hinjective : PdaInjective client.program_id) (call : Call) (payload : List UInt8) :
    (LezRegistryClient.transaction
        (call.pairs.map fun pair => client.entry_pda_for pair.1) payload).account_ids.Nodup ↔
      (anchors call).Nodup := by
  rw [account_ids_transaction, entry_pdas_eq]
  exact List.nodup_map_iff hinjective

variable (policy) in
/-- What can become of the chain when a call is made. -/
theorem leaves_cases (hinjective : PdaInjective client.program_id) {chain : Chain}
    (hformed : WellFormed client.program_id chain) {call : Call} (hfits : Fits call.pairs)
    (anchor_timestamp : UInt64) :
    (¬ call.pairs.length < 256 ^ 4 ∧ call.leaves policy client anchor_timestamp chain = none) ∨
    (call.pairs.length < 256 ^ 4 ∧ ((anchors call).Nodup ∨ policy = .applied) ∧
      ∃ after, call.leaves policy client anchor_timestamp chain = some after ∧
        Written client.program_id call chain after) ∨
    (call.pairs.length < 256 ^ 4 ∧ ¬ (anchors call).Nodup ∧ policy = .refused ∧
      call.leaves policy client anchor_timestamp chain = none) ∨
    (call.pairs.length < 256 ^ 4 ∧ ¬ (anchors call).Nodup ∧ policy = .dropped ∧
      call.leaves policy client anchor_timestamp chain = some chain) := by
  cases hinstruction : call.instruction anchor_timestamp with
  | none =>
    cases call with
    | anchor_one cid metadata_hash => cases hinstruction
    | anchor_batch entries => cases hinstruction
    | query_by_cid_hash hash =>
      have hwritten : Written client.program_id (.query_by_cid_hash hash) chain chain :=
        { formed := hformed, entries := fun _ => Option.or_none.symm }
      exact .inr (.inl
        ⟨show 0 < 256 ^ 4 by decide, .inl List.nodup_nil, chain, Call.leaves_query _ _ _ _ _, hwritten⟩)
  | some instruction =>
    have hleaves : call.leaves policy client anchor_timestamp chain =
        submitted policy client (call.pairs.map fun pair => client.entry_pda_for pair.1) instruction chain := by
      rw [Call.leaves, hinstruction]
    rw [hleaves, submitted]
    have hshort := short_instruction hfits hinstruction
    cases hpayload : instruction.to_vec with
    | none =>
      refine .inl ⟨?_, rfl⟩
      rw [← hshort, hpayload]
      simp
    | some payload =>
      have hlength : call.pairs.length < 256 ^ 4 := by
        rw [← hshort, hpayload]
        rfl
      have hwritten := Written.of_submit hinjective hformed hfits
        ⟨anchor_timestamp, instruction, payload, hinstruction, hpayload, rfl⟩
      have hnodup := nodup_account_ids hinjective call payload
      rw [Option.bind_some]
      unfold execute
      rw [if_congr hnodup rfl rfl]
      by_cases hdistinct : (anchors call).Nodup
      · rw [if_pos hdistinct]
        exact .inr (.inl ⟨hlength, .inl hdistinct, _, rfl, hwritten⟩)
      · rw [if_neg hdistinct]
        cases policy with
        | refused => exact .inr (.inr (.inl ⟨hlength, hdistinct, rfl, rfl⟩))
        | dropped => exact .inr (.inr (.inr ⟨hlength, hdistinct, rfl, rfl⟩))
        | applied => exact .inr (.inl ⟨hlength, .inr rfl, _, rfl, hwritten⟩)

/-- The chain and the mock hold the same entries up to their times, under the hashes anchored so far. -/
structure Alike (program_id : ProgramId) (anchored : List CidHash) (chain : Chain) (mock : MockRegistryClient) :
    Prop where
  formed : WellFormed program_id chain
  entries : ∀ hash, standing program_id chain hash = (mock.entries hash).map undated
  anchored : ∀ hash, (mock.entries hash).isSome ↔ hash ∈ anchored

omit [Nssa] in
theorem MockRegistryClient.answer_standing (mock : MockRegistryClient) (call : Call) (hash : CidHash) :
    ((mock.answer call).2.entries hash).map undated =
      ((mock.entries hash).map undated).or ((first_write (keyed call) hash).map undated_entry) := by
  have hwrites : call.pairs.map write = (keyed call).map fun write => (write.1, new_entry write.2.1 write.2.2 1) := by
    rw [keyed, List.map_map]
    rfl
  rw [(mock.answer_eq call).1, claim_all_apply, Option.map_or, hwrites, first_write_undated]

omit [Nssa] in
theorem observed_answer (mock : MockRegistryClient) (call : Call) :
    observed (mock.answer call).1 = call.read fun hash => ((mock.answer call).2.entries hash).map undated := by
  rw [observed, (mock.answer_eq call).2, read_undated]

omit [Nssa] in
theorem anchored_answer {mock : MockRegistryClient} {anchored : List CidHash}
    (hanchored : ∀ hash, (mock.entries hash).isSome ↔ hash ∈ anchored) (call : Call) (hash : CidHash) :
    ((mock.answer call).2.entries hash).isSome ↔ hash ∈ anchored ++ anchors call := by
  have hstanding := mock.answer_standing call hash
  have hsome := congrArg Option.isSome hstanding
  rw [Option.isSome_map, Option.isSome_or, Option.isSome_map, Option.isSome_map] at hsome
  rw [hsome, Bool.or_eq_true, hanchored, isSome_first_write_keyed, List.mem_append]

section

variable {anchored : List CidHash} {chain after : Chain} {mock : MockRegistryClient} {call : Call}
  {result : Except AdapterError (List AnchorEntry)}

/-- A call that reads the chain agrees with the mock if they agree under its hashes. -/
theorem observed_eq_iff (hanchored : ∀ hash, (mock.entries hash).isSome ↔ hash ∈ anchored)
    (hread : result.toOption = call.read (registry client.program_id after).entries) :
    observed result = observed (mock.answer call).1 ↔
      ∀ hash ∈ call.hashes, standing client.program_id after hash =
        ((mock.answer call).2.entries hash).map undated := by
  have hpresent : ∀ hash ∈ anchors call, (((mock.answer call).2.entries hash).map undated).isSome := by
    intro hash hhash
    rw [Option.isSome_map, anchored_answer hanchored]
    exact List.mem_append_right anchored hhash
  rw [observed_answer, observed, hread, read_undated]
  exact read_eq_read hpresent

omit [Nssa] in
/-- The mock always returns. -/
theorem observed_ne_of_failed (hanchored : ∀ hash, (mock.entries hash).isSome ↔ hash ∈ anchored)
    (hfailed : result.toOption = none) : observed result ≠ observed (mock.answer call).1 := by
  have hpresent : ∀ hash ∈ anchors call, (((mock.answer call).2.entries hash).map undated).isSome := by
    intro hash hhash
    rw [Option.isSome_map, anchored_answer hanchored]
    exact List.mem_append_right anchored hhash
  rw [observed_answer, observed, hfailed, Call.read, if_pos (forall_pairs_iff.mpr hpresent)]
  rintro ⟨⟩

theorem Alike.standing_anchored (halike : Alike client.program_id anchored chain mock) {hash : CidHash}
    (hhash : hash ∈ anchored) : (standing client.program_id chain hash).isSome := by
  rw [halike.entries, Option.isSome_map, halike.anchored]
  exact hhash

theorem Alike.standing_new (halike : Alike client.program_id anchored chain mock) {hash : CidHash}
    (hhash : hash ∉ anchored) : standing client.program_id chain hash = none := by
  rw [← halike.anchored, Bool.not_eq_true, Option.isSome_eq_false_iff, Option.isNone_iff_eq_none] at hhash
  rw [halike.entries, hhash]
  rfl

/-- Written pairs agree with the mock's under a hash that had an entry, or whose first pair is its last. -/
theorem Written.agrees_iff (halike : Alike client.program_id anchored chain mock)
    (hwritten : Written client.program_id call chain after) (hash : CidHash) :
    standing client.program_id after hash = ((mock.answer call).2.entries hash).map undated ↔
      (hash ∉ anchored → first_write (keyed call).reverse hash = first_write (keyed call) hash) := by
  rw [hwritten.entries, mock.answer_standing, ← halike.entries]
  by_cases hhash : hash ∈ anchored
  · obtain ⟨entry, hentry⟩ := Option.isSome_iff_exists.mp (halike.standing_anchored hhash)
    rw [hentry, Option.some_or, Option.some_or]
    exact ⟨fun _ hnew => absurd hhash hnew, fun _ => rfl⟩
  · rw [halike.standing_new hhash, Option.none_or, Option.none_or,
      (Option.map_injective undated_entry_injective).eq_iff]
    exact ⟨fun heq _ => heq, fun heq => heq hhash⟩

/-- The chain as it was agrees with the mock under a hash the call anchors if that had an entry. -/
theorem Alike.agrees_iff (halike : Alike client.program_id anchored chain mock) {hash : CidHash}
    (hhash : hash ∈ anchors call) :
    standing client.program_id chain hash = ((mock.answer call).2.entries hash).map undated ↔ hash ∈ anchored := by
  rw [mock.answer_standing, ← halike.entries]
  constructor
  · intro heq
    by_contra hnew
    rw [halike.standing_new hnew, Option.none_or] at heq
    have hfirst := isSome_first_write_keyed.mpr hhash
    rw [← Option.isSome_map, ← heq] at hfirst
    cases hfirst
  · intro hold
    obtain ⟨entry, hentry⟩ := Option.isSome_iff_exists.mp (halike.standing_anchored hold)
    rw [hentry, Option.some_or]

omit [Nssa] in
theorem first_write_keyed_eq_none {hash : CidHash} (hhash : hash ∉ anchors call) :
    first_write (keyed call) hash = none ∧ first_write (keyed call).reverse hash = none := by
  have hkeys : ∀ write ∈ keyed call, write.1 ≠ hash := by
    rintro write hwrite rfl
    exact hhash (keys_keyed call ▸ List.mem_map_of_mem hwrite)
  exact ⟨first_write_eq_none hkeys, first_write_eq_none fun write hwrite => hkeys write (List.mem_reverse.mp hwrite)⟩

omit [Nssa] in
/-- In a faithful call that is applied, the last pair of a new hash is as good as the first. -/
theorem Faithful.reverse (happlied : (anchors call).Nodup ∨ policy = .applied)
    (hfaithful : Faithful policy anchored call) {hash : CidHash} (hnew : hash ∉ anchored) :
    first_write (keyed call).reverse hash = first_write (keyed call) hash := by
  by_cases hhash : hash ∈ anchors call
  · by_cases hnodup : (anchors call).Nodup
    · exact first_write_reverse (keys_keyed call ▸ hnodup) hash
    · obtain rfl := happlied.resolve_left hnodup
      have hharmless : Harmless .applied anchored call := hfaithful.2.resolve_left hnodup
      exact hharmless hash hhash hnew
  · obtain ⟨hfirst, hlast⟩ := first_write_keyed_eq_none hhash
    rw [hfirst, hlast]

/-- A call whose pairs were written agrees with the mock exactly if it is faithful. -/
theorem Written.outcome (halike : Alike client.program_id anchored chain mock)
    (hwritten : Written client.program_id call chain after) (hlength : call.pairs.length < 256 ^ 4)
    (happlied : (anchors call).Nodup ∨ policy = .applied)
    (hread : result.toOption = call.read (registry client.program_id after).entries) :
    (observed result = observed (mock.answer call).1 ↔ Faithful policy anchored call) ∧
      (Faithful policy anchored call →
        Alike client.program_id (anchored ++ anchors call) after (mock.answer call).2) := by
  have hagrees := hwritten.agrees_iff halike
  refine ⟨(observed_eq_iff halike.anchored hread).trans ⟨?agree, ?faithful⟩, ?alike⟩
  case agree =>
    intro hsame
    refine ⟨hlength, ?_⟩
    by_cases hnodup : (anchors call).Nodup
    · exact .inl hnodup
    · obtain rfl := happlied.resolve_left hnodup
      exact .inr fun hash hhash => (hagrees hash).mp (hsame hash (mem_hashes_of_mem_anchors hhash))
  case faithful => exact fun hfaithful hash _ => (hagrees hash).mpr fun hnew => hfaithful.reverse happlied hnew
  case alike =>
    intro hfaithful
    exact {
      formed := hwritten.formed
      entries := fun hash => (hagrees hash).mpr fun hnew => hfaithful.reverse happlied hnew
      anchored := anchored_answer halike.anchored call }

/-- A dropped call agrees with the mock exactly if all its hashes had entries. -/
theorem Alike.outcome_dropped (halike : Alike client.program_id anchored chain mock)
    (hlength : call.pairs.length < 256 ^ 4) (hrepeats : ¬ (anchors call).Nodup)
    (hread : result.toOption = call.read (registry client.program_id chain).entries) :
    (observed result = observed (mock.answer call).1 ↔ Faithful .dropped anchored call) ∧
      (Faithful .dropped anchored call →
        Alike client.program_id (anchored ++ anchors call) chain (mock.answer call).2) := by
  have hold : Faithful .dropped anchored call → ∀ hash ∈ anchors call, hash ∈ anchored :=
    fun hfaithful => hfaithful.2.resolve_left hrepeats
  have hhashes : call.hashes = anchors call := by
    obtain hhashes | ⟨hash, rfl⟩ := hashes_cases call
    · exact hhashes
    · exact absurd List.nodup_nil hrepeats
  refine ⟨(observed_eq_iff halike.anchored hread).trans ⟨?agree, ?faithful⟩, ?alike⟩
  case agree =>
    intro hsame
    exact ⟨hlength, .inr fun hash hhash => (halike.agrees_iff hhash).mp (hsame hash (hhashes ▸ hhash))⟩
  case faithful =>
    intro hfaithful hash hhash
    rw [hhashes] at hhash
    exact (halike.agrees_iff hhash).mpr (hold hfaithful hash hhash)
  case alike =>
    intro hfaithful
    refine { formed := halike.formed, entries := fun hash => ?_, anchored := anchored_answer halike.anchored call }
    by_cases hhash : hash ∈ anchors call
    · exact (halike.agrees_iff hhash).mpr (hold hfaithful hash hhash)
    · rw [mock.answer_standing, (first_write_keyed_eq_none hhash).1, halike.entries]
      exact Option.or_none.symm

/-- One call, made to a chain and a mock that are alike: the results agree exactly if the
    call is polled for and faithful, and then the two are alike again. -/
theorem outcome_agrees (hinjective : PdaInjective client.program_id)
    (halike : Alike client.program_id anchored chain mock) (hfits : Fits call.pairs)
    (houtcome : call.Outcome policy client chain after result) :
    (observed result = observed (mock.answer call).1 ↔ call.Polled client ∧ Faithful policy anchored call) ∧
      (call.Polled client ∧ Faithful policy anchored call →
        Alike client.program_id (anchored ++ anchors call) after (mock.answer call).2) := by
  have hfails : result.toOption = none → ¬ (call.Polled client ∧ Faithful policy anchored call) →
      (observed result = observed (mock.answer call).1 ↔ call.Polled client ∧ Faithful policy anchored call) ∧
        (call.Polled client ∧ Faithful policy anchored call →
          Alike client.program_id (anchored ++ anchors call) after (mock.answer call).2) :=
    fun hfailed hunfaithful =>
      ⟨iff_of_false (observed_ne_of_failed halike.anchored hfailed) hunfaithful, fun h => absurd h hunfaithful⟩
  obtain ⟨anchor_timestamp, houtcome⟩ := houtcome
  have hcases := leaves_cases policy hinjective halike.formed hfits anchor_timestamp
  obtain ⟨hleaves, hread, hunread⟩ | ⟨hleaves, hfailed, _⟩ := houtcome
  · by_cases hpolled : call.Polled client
    · have hread := hread hpolled
      rw [hleaves] at hcases
      simp only [hpolled, true_and]
      obtain ⟨_, ⟨⟩⟩ | ⟨hlength, happlied, _, ⟨rfl⟩, hwritten⟩ | ⟨_, _, _, ⟨⟩⟩ |
        ⟨hlength, hrepeats, rfl, ⟨rfl⟩⟩ := hcases
      · exact hwritten.outcome halike hlength happlied hread
      · exact halike.outcome_dropped hlength hrepeats hread
    · exact hfails (hunread hpolled) fun hfaithful => hpolled hfaithful.1
  · rw [hleaves] at hcases
    obtain ⟨hlong, _⟩ | ⟨_, _, _, ⟨⟩, _⟩ | ⟨_, hrepeats, rfl, _⟩ | ⟨_, _, _, ⟨⟩⟩ := hcases
    · exact hfails hfailed fun hfaithful => hlong hfaithful.2.1
    · exact hfails hfailed fun hfaithful => hfaithful.2.2.elim hrepeats id

end

/-- Calls made one after the other to a client of the chain, and their results. -/
inductive Session (policy : RepeatPolicy) (client : LezRegistryClient) :
    Chain → List Call → List (Except AdapterError (List AnchorEntry)) → Prop where
  | nil {chain : Chain} : Session policy client chain [] []
  | cons {chain after : Chain} {call : Call} {rest : List Call} {trace : List (Exchange LezIo)}
      {result : Except AdapterError (List AnchorEntry)} {results : List (Except AdapterError (List AnchorEntry))}
      (returns : (call.program client).Returns trace result)
      (answered : Async.Answered (sequencer policy client.program_id) chain trace after)
      (tail : Session policy client after rest results) :
      Session policy client chain (call :: rest) (result :: results)

theorem outcome_formed (hinjective : PdaInjective client.program_id) {chain after : Chain}
    (hformed : WellFormed client.program_id chain) {call : Call} {result : Except AdapterError (List AnchorEntry)}
    (houtcome : call.Outcome policy client chain after result) : WellFormed client.program_id after := by
  obtain ⟨anchor_timestamp, ⟨hleaves, _⟩ | ⟨_, _, rfl⟩⟩ := houtcome
  · unfold Call.leaves at hleaves
    split at hleaves
    · exact submitted_wellFormed hinjective hformed hleaves
    · rwa [← Option.some.inj hleaves]
  · exact hformed

theorem exists_session (hinjective : PdaInjective client.program_id) {chain : Chain}
    (hformed : WellFormed client.program_id chain) (calls : List Call) :
    ∃ results, Session policy client chain calls results := by
  induction calls generalizing chain with
  | nil => exact ⟨[], .nil⟩
  | cons call rest ih =>
    have hensures : Async.Ensures (sequencer policy client.program_id) Served
        (fun after result => call.Outcome policy client chain after result) (call.program client) chain :=
      program_sequenced hinjective hformed call
    obtain ⟨trace, result, after, hreturns, hanswered⟩ :=
      hensures.exists_returns (sequencer_total policy client.program_id)
    have houtcome := hensures.answered hreturns hanswered
    obtain ⟨results, htail⟩ := ih (outcome_formed hinjective hformed houtcome)
    exact ⟨result :: results, .cons hreturns hanswered htail⟩

theorem session_agrees (hinjective : PdaInjective client.program_id) {anchored : List CidHash} {chain : Chain}
    {mock : MockRegistryClient} (halike : Alike client.program_id anchored chain mock) {calls : List Call}
    (hfits : ∀ call ∈ calls, Fits call.pairs) {results : List (Except AdapterError (List AnchorEntry))}
    (hsession : Session policy client chain calls results) :
    results.map observed = (mock_session mock calls).map observed ↔ FaithfulAll policy client anchored calls := by
  induction hsession generalizing anchored mock with
  | nil => exact iff_of_true rfl trivial
  | @cons chain after call rest trace result results hreturns hanswered _ ih =>
    obtain ⟨hhead, hrest⟩ := List.forall_mem_cons.mp hfits
    have houtcome := (program_sequenced hinjective halike.formed call).answered hreturns hanswered
    obtain ⟨hagrees, hnext⟩ := outcome_agrees hinjective halike hhead houtcome
    rw [mock_session, List.map_cons, List.map_cons, List.cons.injEq, hagrees, FaithfulAll, and_assoc.symm]
    exact and_congr_right fun hfaithful => ih (hnext hfaithful) hrest

theorem alike_of_unused {chain : Chain} (hunused : Unused client.program_id chain) :
    Alike client.program_id [] chain .default where
  formed := hunused.wellFormed
  entries hash := by
    rw [standing, registry_eq_none (hunused hash)]
    rfl
  anchored hash := by simp [MockRegistryClient.default]

/-- The mock stands in for the client on an unused chain exactly where no call is left without
    polls, has too many entries, or repeats a hash in a way that the chain's sequencer makes
    visible. -/
theorem mock_stands_in (hinjective : PdaInjective client.program_id) {chain : Chain}
    (hunused : Unused client.program_id chain) {calls : List Call} (hfits : ∀ call ∈ calls, Fits call.pairs) :
    (∃ results, Session policy client chain calls results) ∧
      ∀ results, Session policy client chain calls results →
        (results.map observed = (mock_session .default calls).map observed ↔ FaithfulAll policy client [] calls) :=
  ⟨exists_session hinjective hunused.wellFormed calls,
    fun _ hsession => session_agrees hinjective (alike_of_unused hunused) hfits hsession⟩

end

/-- One document with two descriptions, in one batch. -/
def corrected : List Pair :=
  [(⟨"bafy-first"⟩, ⟨Vector.replicate 32 7⟩), (⟨"bafy-first"⟩, ⟨Vector.replicate 32 8⟩)]

/-- One document listed twice, in one batch. -/
def listed_twice : List Pair :=
  [(⟨"bafy-first"⟩, ⟨Vector.replicate 32 7⟩), (⟨"bafy-first"⟩, ⟨Vector.replicate 32 7⟩)]

theorem mock_stands_in_listed_twice :
    ∃ results, Session .applied stillClient unusedChain
        [.anchor_batch listed_twice, .query_by_cid_hash (cid_hash ⟨"bafy-first"⟩)] results ∧
      results.map observed = (mock_session .default
        [.anchor_batch listed_twice, .query_by_cid_hash (cid_hash ⟨"bafy-first"⟩)]).map observed := by
  have hfits : ∀ call ∈ [Call.anchor_batch listed_twice, .query_by_cid_hash (cid_hash ⟨"bafy-first"⟩)],
      Fits call.pairs := by
    rw [List.forall_mem_cons, List.forall_mem_singleton]
    exact ⟨fits_of_short (by decide), fun _ h => by cases h⟩
  have hpolls : stillClient.max_attempts ≠ 0 := LezRegistryClient.max_attempts_eq_zero.not.mpr (by decide)
  have hfaithful : FaithfulAll .applied stillClient []
      [.anchor_batch listed_twice, .query_by_cid_hash (cid_hash ⟨"bafy-first"⟩)] :=
    ⟨fun _ => hpolls, ⟨show 2 < 256 ^ 4 by decide, .inr fun _ _ _ => rfl⟩,
      fun _ => hpolls, ⟨show 0 < 256 ^ 4 by decide, .inl List.nodup_nil⟩, trivial⟩
  obtain ⟨⟨results, hsession⟩, hagrees⟩ :=
    mock_stands_in (pdaInjective_seedAddressed stillClient.program_id) unused_unusedChain hfits
  exact ⟨results, hsession, (hagrees results hsession).mpr hfaithful⟩

/-- The mock keeps the first of two descriptions in one batch, the chain the last. -/
theorem mock_keeps_the_other_description :
    ∃ results, Session .applied stillClient unusedChain [.anchor_batch corrected] results ∧
      results.map observed ≠ (mock_session .default [.anchor_batch corrected]).map observed := by
  have hfits : ∀ call ∈ [Call.anchor_batch corrected], Fits call.pairs := by
    rw [List.forall_mem_singleton]
    exact fits_of_short (by decide)
  have hinjective := pdaInjective_seedAddressed stillClient.program_id
  have hexists : ∃ results, Session .applied stillClient unusedChain [.anchor_batch corrected] results :=
    exists_session hinjective unused_unusedChain.wellFormed _
  obtain ⟨results, hsession⟩ := hexists
  refine ⟨results, hsession, fun hsame => ?_⟩
  have hagrees := session_agrees hinjective (alike_of_unused unused_unusedChain) hfits hsession
  obtain ⟨_, ⟨_, hnodup | hharmless⟩, _⟩ := hagrees.mp hsame
  · exact (List.nodup_cons.mp hnodup).1 List.mem_cons_self
  · have hlast : first_write (keyed (.anchor_batch corrected)).reverse (cid_hash ⟨"bafy-first"⟩) =
        some (⟨"bafy-first"⟩, ⟨Vector.replicate 32 8⟩) := (first_write_cons _ _ _).trans (if_pos rfl)
    have hfirst : first_write (keyed (.anchor_batch corrected)) (cid_hash ⟨"bafy-first"⟩) =
        some (⟨"bafy-first"⟩, ⟨Vector.replicate 32 7⟩) := (first_write_cons _ _ _).trans (if_pos rfl)
    have hsame_pair := hharmless (cid_hash ⟨"bafy-first"⟩) List.mem_cons_self List.not_mem_nil
    rw [hlast, hfirst] at hsame_pair
    exact absurd hsame_pair (by decide)

end whistleblower_mock_adapter
