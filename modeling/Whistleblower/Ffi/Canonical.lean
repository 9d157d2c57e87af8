import Whistleblower.Ffi.Query
import Whistleblower.Indexing.Batch.Distinct
import Whistleblower.Indexing.Batch.Recovery

open nssa_core whistleblower_core whistleblower_registry document_indexing first_writer

namespace whistleblower_ffi

/-- The CID is one that the constructor returned. -/
def Normalised (cid : CanonicalCid) : Prop := ∃ s, CanonicalCid.new s = .ok cid

/-- Whatever instruction the bytes encode, its CIDs were normalised. -/
def NormalisedInstruction (input : List UInt8) : Prop :=
  ∀ instruction : RegistryInstruction, instruction.to_vec = some input → ∀ cid ∈ instruction.cids, Normalised cid

/-- The text of the `cid` field in a payload. -/
def payload_cid (payload : List UInt8) : Option String := do
  let value ← json.parse payload
  match json.fields MetadataEnvelopeV1.field_names value with
  | .ok [_, cid, _, _, _, _, _, _] => (json.as_string cid).toOption
  | _ => none

/-- If the payload is an envelope, the text of its `cid` field was normalised. -/
def NormalisedPayload (payload : List UInt8) : Prop :=
  (MetadataEnvelopeV1.from_slice payload).isOk → ∃ s, payload_cid payload = some s ∧ Normalised ⟨s⟩

theorem payload_cid_of_from_slice {payload : List UInt8} {envelope : MetadataEnvelopeV1}
    (hread : MetadataEnvelopeV1.from_slice payload = .ok envelope) :
    payload_cid payload = some envelope.cid.inner := by
  unfold MetadataEnvelopeV1.from_slice json.from_slice at hread
  split at hread
  · rename_i value hparse
    obtain ⟨_, cid, _, _, _, _, _, _, hfields, hcid⟩ := MetadataEnvelopeV1.fields_of_deserialize hread
    simp only [payload_cid, hparse, hfields, hcid, Option.bind_eq_bind, Option.bind_some]
    rfl
  · cases hread

/-- The CIDs that bytes decode to are canonical exactly if they were normalised before
    they were encoded. -/
theorem instruction_cids_iff (input : List UInt8) :
    (∀ instruction, RegistryInstruction.try_from_slice input = .ok instruction →
        ∀ cid ∈ instruction.cids, cid.Canonical) ↔ NormalisedInstruction input := by
  constructor
  · intro hcanonical instruction hinput cid hcid
    exact CanonicalCid.canonical_iff_new.mp
      (hcanonical instruction (RegistryInstruction.try_from_slice_eq_ok.mpr hinput) cid hcid)
  · intro hnormalised instruction hdecode cid hcid
    exact CanonicalCid.canonical_iff_new.mpr
      (hnormalised instruction (RegistryInstruction.try_from_slice_eq_ok.mp hdecode) cid hcid)

/-- The CID that a payload decodes to is canonical exactly if its text was normalised. -/
theorem payload_cid_iff (payload : List UInt8) :
    (∀ envelope, MetadataEnvelopeV1.from_slice payload = .ok envelope → envelope.cid.Canonical) ↔
      NormalisedPayload payload := by
  constructor
  · intro hcanonical hok
    cases hread : MetadataEnvelopeV1.from_slice payload with
    | error e =>
      rw [hread] at hok
      cases hok
    | ok envelope =>
      exact ⟨envelope.cid.inner, payload_cid_of_from_slice hread,
        CanonicalCid.canonical_iff_new.mp (hcanonical envelope hread)⟩
  · intro hnormalised envelope hread
    obtain ⟨s, hs, hnew⟩ := hnormalised (by rw [hread]; rfl)
    rw [payload_cid_of_from_slice hread] at hs
    cases hs
    exact CanonicalCid.canonical_iff_new.mpr hnew

section

variable [Sha256] [Nssa]

/-- A step of the chain whose transaction, if it is one, carries normalised CIDs. -/
inductive NormalisedStep (program_id : ProgramId) (chain : Chain) : Chain → Prop where
  | submitted (tx : Transaction) (hdistinct : tx.account_ids.Nodup) (hcids : NormalisedInstruction tx.instruction) :
      NormalisedStep program_id chain (submit program_id chain tx)
  | elsewhere (after : Chain)
      (hkept : ∀ hash, entry_data program_id after hash = entry_data program_id chain hash) :
      NormalisedStep program_id chain after

/-- Every stored entry has a canonical CID. -/
def StoredCanonical (program_id : ProgramId) (chain : Chain) : Prop :=
  ∀ hash entry, (registry program_id chain).entries hash = some entry → entry.cid.Canonical

variable {program_id : ProgramId}

/-- A transaction with normalised CIDs stores canonical ones. -/
theorem StoredCanonical.submitted (hinjective : PdaInjective program_id) {chain : Chain}
    (hformed : WellFormed program_id chain) (hstored : StoredCanonical program_id chain) {tx : Transaction}
    (hdistinct : tx.account_ids.Nodup) (hcids : NormalisedInstruction tx.instruction) :
    StoredCanonical program_id (submit program_id chain tx) := by
  cases hrun : run_guest program_id chain tx with
  | error panic =>
    rw [submit_of_panic hrun]
    exact hstored
  | ok output =>
    obtain ⟨instruction, hdecode, _, hafter, _⟩ := submit_registry hinjective hformed hdistinct hrun
    intro hash entry hentry
    rw [hafter, claim_all_apply, Option.or_eq_some_iff] at hentry
    rcases hentry with hold | ⟨_, hnew⟩
    · exact hstored hash entry hold
    · obtain ⟨written, hwritten, heq⟩ := List.mem_map.mp (first_write_mem hnew)
      cases heq
      have hcid : entry.cid ∈ instruction.cids := by
        rw [← instruction.map_cid_new_entries]
        exact List.mem_map_of_mem hwritten
      exact (instruction_cids_iff tx.instruction).mpr hcids instruction hdecode entry.cid hcid

/-- Along steps with normalised CIDs the registry stays well formed and canonical. -/
theorem StoredCanonical.of_reachable (hinjective : PdaInjective program_id) {initial chain : Chain}
    (hunused : Unused program_id initial)
    (hreachable : Relation.ReflTransGen (NormalisedStep program_id) initial chain) :
    WellFormed program_id chain ∧ StoredCanonical program_id chain := by
  induction hreachable with
  | refl =>
    refine ⟨hunused.wellFormed, fun hash entry hentry => ?_⟩
    rw [registry_eq_none (hunused hash)] at hentry
    cases hentry
  | tail _ hstep ih =>
    obtain ⟨hformed, hstored⟩ := ih
    cases hstep with
    | submitted tx hdistinct hcids =>
      exact ⟨hformed.step hinjective (.submitted tx hdistinct), hstored.submitted hinjective hformed hdistinct hcids⟩
    | elsewhere _ hkept =>
      refine ⟨hformed.step hinjective (.elsewhere _ hkept), fun hash entry hentry => ?_⟩
      rw [registry_entries, hkept] at hentry
      exact hstored hash entry hentry

/-- Bytes and payloads decode to canonical CIDs exactly if these were normalised. Where
    all payloads of a run were, the registry is asked for canonical CIDs only. Where all
    transactions of a chain were, all stored CIDs are canonical, no two differ in white
    space only, and a query for a stored entry's own CID finds the entry. -/
theorem cids_canonical_iff :
    (∀ input, (∀ instruction, RegistryInstruction.try_from_slice input = .ok instruction →
        ∀ cid ∈ instruction.cids, cid.Canonical) ↔ NormalisedInstruction input) ∧
      (∀ payload, (∀ envelope, MetadataEnvelopeV1.from_slice payload = .ok envelope → envelope.cid.Canonical) ↔
        NormalisedPayload payload) ∧
      (∀ config file stream shutdown seen initial last actions,
        batch.Loop.start config file (.ok stream) shutdown seen = .ok initial →
        transition.run batch.Loop.step initial actions = some last →
        (∀ received, .ok received ∈ stream → NormalisedPayload received.payload) →
        ∀ entries, last.Asked entries → ∀ pair ∈ entries, pair.1.Canonical) ∧
      (∀ program_id, PdaInjective program_id → ∀ initial chain, Unused program_id initial →
        Relation.ReflTransGen (NormalisedStep program_id) initial chain →
        (∀ hash entry, (registry program_id chain).entries hash = some entry → entry.cid.Canonical) ∧
        (∀ first second entry other, (registry program_id chain).entries first = some entry →
          (registry program_id chain).entries second = some other →
          text.trim entry.cid.as_str = text.trim other.cid.as_str → first = second ∧ entry = other) ∧
        ∀ hash entry, (registry program_id chain).entries hash = some entry → ∀ host args v,
          json.from_slice_any host.number_fits args = .ok v → Host.Serves host program_id v →
          json.str_at v "cid" = some entry.cid.as_str →
          (query_by_cid_impl host args).Returns [fetched chain (entry_pda program_id hash)]
            (.ok (query_json (some entry)).render)) := by
  refine ⟨instruction_cids_iff, payload_cid_iff, ?_, ?_⟩
  · intro config file stream shutdown seen initial last actions hstart hrun hnormalised entries hasked pair hpair
    obtain ⟨hsize, ledger, dedupe, _, _, _, hstream, rfl⟩ := batch.Loop.start_cases hstart
    cases hstream
    have hsound := (batch.Loop.Sound.started hsize dedupe ledger stream shutdown seen).run hrun
    have hpipeline : pair ∈ last.pipeline := by
      have hflushed : pair ∈ last.batches.flatten := List.mem_flatten_of_mem (hsound.flushes.asked hasked) hpair
      simp only [batch.Loop.pipeline, List.mem_append]
      exact .inl (.inl (.inl hflushed))
    obtain ⟨received, hreceived, hannounces⟩ := hsound.announced hpipeline
    obtain ⟨envelope, hread, hcid, _⟩ := hannounces.from_slice
    rw [← hcid]
    exact (payload_cid_iff received.payload).mpr (hnormalised received hreceived) envelope hread
  · intro program_id hinjective initial chain hunused hreachable
    obtain ⟨hformed, hstored⟩ := StoredCanonical.of_reachable hinjective hunused hreachable
    refine ⟨hstored, ?_, ?_⟩
    · intro first second entry other hentry hother htrim
      have hcid : entry.cid = other.cid := by
        have hinner : entry.cid.inner = other.cid.inner := by
          rw [← (hstored first entry hentry).2, ← (hstored second other hother).2]
          exact htrim
        exact congrArg CanonicalCid.mk hinner
      have hhash : first = second := by
        rw [← hformed.cid_hash_of_stored hentry, hcid, hformed.cid_hash_of_stored hother]
      rw [hhash, hother] at hentry
      exact ⟨hhash, (Option.some.inj hentry).symm⟩
    · intro hash entry hentry host args v hargs hserves hcid
      have hreturns := query_by_cid_returns hformed hargs hserves hcid (hstored hash entry hentry).new_as_str
      rw [hformed.cid_hash_of_stored hentry, hentry] at hreturns
      exact hreturns

/-- The transaction that anchors one CID. -/
def anchoring (program_id : ProgramId) (cid : CanonicalCid) : Transaction where
  accounts := [(entry_pda program_id (cid_hash cid), false)]
  instruction := ((RegistryInstruction.AnchorOne cid ⟨Vector.replicate 32 7⟩ 42).to_vec).getD []

/-- A host on which everything works. -/
def sampleHost (program_id : ProgramId) : Host where
  number_fits := fun _ => true
  init_wallet := fun _ => .ok ()
  registry_client := fun _ => .ok { program_id, confirm_secs := 60, timestamp_source := .Fixed 0 }
  runtime := .ok ()

omit [Sha256] [Nssa] in
theorem serves_sampleHost (program_id : ProgramId) (v : json.Value) : (sampleHost program_id).Serves program_id v :=
  ⟨rfl, ⟨_, rfl, rfl⟩, rfl⟩

end

/-- The arguments that name one CID. -/
def query_args (cid : String) : json.Value := json.record [("cid", .of_string cid)]

theorem from_slice_any_query_args {cid : String} {number_fits : List UInt8 → Bool}
    (hreadable : json.readable number_fits json.max_nesting (query_args cid) = true) :
    json.from_slice_any number_fits (query_args cid).render = .ok (query_args cid) := by
  refine json.from_slice_any_render (json.written_record ?_) hreadable
  simp

theorem normalised_announcement {cid title : String} (hnormalised : Normalised ⟨cid⟩) :
    NormalisedPayload (batch.announcement batch.sampleConfig.topic (batch.sampleEnvelope cid title)).payload :=
  fun _ => ⟨cid, payload_cid_of_from_slice (MetadataEnvelopeV1.from_slice_canonical rfl), hnormalised⟩

/-- An anchored CID is found, and a batch of two announcements asks for their CIDs. -/
theorem cids_canonical_iff_anchored :
    let program_id : ProgramId := Vector.replicate 8 1
    let entry := new_entry ⟨"bafy-a"⟩ ⟨Vector.replicate 32 7⟩ 42
    let chain := submit program_id unusedChain (anchoring program_id entry.cid)
    let stream := [
      .ok (batch.announcement batch.sampleConfig.topic (batch.sampleEnvelope "bafy-a" "first")),
      .ok (batch.announcement batch.sampleConfig.topic (batch.sampleEnvelope "bafy-b" "second"))]
    let entries := [batch.samplePair "bafy-a" "first", batch.samplePair "bafy-b" "second"]
    (entry.cid.Canonical ∧
      (query_by_cid_impl (sampleHost program_id) (query_args "bafy-a").render).Returns
        [fetched chain (entry_pda program_id entry.cid_hash)] (.ok (query_json (some entry)).render)) ∧
      ∃ last, batch.sampleRun stream (batch.deliver ++ batch.deliver ++ batch.replies entries) = some last ∧
        last.Asked entries ∧ ∀ pair ∈ entries, pair.1.Canonical := by
  intro program_id entry chain stream entries
  have hdecode : RegistryInstruction.try_from_slice (anchoring program_id entry.cid).instruction =
      .ok (.AnchorOne entry.cid ⟨Vector.replicate 32 7⟩ 42) := by
    decide +kernel
  have hnormalised : NormalisedInstruction (anchoring program_id entry.cid).instruction := by
    intro instruction hinput cid hcid
    rw [← RegistryInstruction.try_from_slice_eq_ok, hdecode] at hinput
    cases hinput
    rw [List.mem_singleton.mp hcid]
    exact ⟨"bafy-a", by decide +kernel⟩
  have hstored : (registry program_id chain).entries entry.cid_hash = some entry := by decide +kernel
  have hstep : NormalisedStep program_id unusedChain chain :=
    .submitted (anchoring program_id entry.cid) (List.nodup_singleton _) hnormalised
  obtain ⟨hcanonical, _, hquery⟩ := cids_canonical_iff.2.2.2 program_id (pdaInjective_seedAddressed program_id)
    unusedChain chain unused_unusedChain (.single hstep)
  refine ⟨⟨hcanonical _ entry hstored, ?query⟩, ?batches⟩
  case query =>
    exact hquery _ entry hstored (sampleHost program_id) _ _ (from_slice_any_query_args (by decide +kernel))
      (serves_sampleHost program_id _) (by decide +kernel)
  case batches =>
    obtain ⟨last, hrun, hasked⟩ := batch.asked_full_batch
    refine ⟨last, hrun, hasked, ?_⟩
    refine cids_canonical_iff.2.2.1 _ _ _ _ _ _ _ _ (batch.sampleStart stream) hrun ?_ entries hasked
    intro received hreceived
    obtain hfirst | hsecond := List.mem_pair.mp hreceived
    · rw [Except.ok.inj hfirst]
      exact normalised_announcement ⟨"bafy-a", by decide +kernel⟩
    · rw [Except.ok.inj hsecond]
      exact normalised_announcement ⟨"bafy-b", by decide +kernel⟩

/-- Bytes and payloads may carry a CID with white space around it, or without any
    character. The program stores such an entry, and a query for its own CID asks for
    another account and finds nothing. -/
theorem decoded_cid_not_canonical :
    let program_id : ProgramId := Vector.replicate 8 1
    let cid : CanonicalCid := ⟨" bafy-a"⟩
    let entry := new_entry cid ⟨Vector.replicate 32 7⟩ 42
    let chain := submit program_id unusedChain (anchoring program_id cid)
    (∃ instruction, RegistryInstruction.try_from_slice (anchoring program_id cid).instruction = .ok instruction ∧
      cid ∈ instruction.cids) ∧
      ¬cid.Canonical ∧
      (registry program_id chain).entries (cid_hash cid) = some entry ∧
      (∃ other, CanonicalCid.new cid.as_str = .ok other ∧
        (query_by_cid_impl (sampleHost program_id) (query_args cid.as_str).render).Returns
          [fetched chain (entry_pda program_id (cid_hash other))] (.ok (query_json none).render)) ∧
      ∃ envelope, MetadataEnvelopeV1.from_slice (batch.announcement "topic" (batch.sampleEnvelope "" "")).payload =
        .ok envelope ∧ ¬envelope.cid.Canonical := by
  intro program_id cid entry chain
  have hdecode : RegistryInstruction.try_from_slice (anchoring program_id cid).instruction =
      .ok (.AnchorOne cid ⟨Vector.replicate 32 7⟩ 42) := by
    decide +kernel
  have hstored : (registry program_id chain).entries (cid_hash cid) = some entry ∧
      (registry program_id chain).entries (cid_hash ⟨"bafy-a"⟩) = none := by
    decide +kernel
  have hformed : WellFormed program_id chain :=
    unused_unusedChain.wellFormed.step (pdaInjective_seedAddressed program_id)
      (.submitted (anchoring program_id cid) (List.nodup_singleton _))
  have hnew : CanonicalCid.new cid.as_str = .ok ⟨"bafy-a"⟩ := by decide +kernel
  refine ⟨⟨_, hdecode, List.mem_singleton_self cid⟩, by decide +kernel, hstored.1, ⟨_, hnew, ?_⟩, ?_⟩
  · have hargs : json.from_slice_any (sampleHost program_id).number_fits (query_args cid.as_str).render =
        .ok (query_args cid.as_str) := from_slice_any_query_args (by decide +kernel)
    have hasked : json.str_at (query_args cid.as_str) "cid" = some cid.as_str := by decide +kernel
    have hreturns := query_by_cid_returns hformed hargs (serves_sampleHost program_id _) hasked hnew
    rw [hstored.2] at hreturns
    exact hreturns
  · exact ⟨_, MetadataEnvelopeV1.from_slice_canonical rfl, by decide +kernel⟩

end whistleblower_ffi
