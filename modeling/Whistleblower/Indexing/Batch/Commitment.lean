import Mathlib.Data.Set.Function
import Whistleblower.Indexing.Batch.Recovery

open whistleblower_core

namespace document_indexing.batch

section

variable [Sha256]

/-- The payload and what it is written back as: the two texts whose hashes meet. -/
def texts (payload : List UInt8) : Set (List UInt8) := fun bytes =>
  bytes = payload ∨
    ∃ envelope, MetadataEnvelopeV1.from_slice payload = .ok envelope ∧ envelope.canonical_json_bytes = .ok bytes

/-- The hash that goes with a payload is the payload's own exactly if the payload is in
    canonical form. -/
theorem Announces.commits_iff {topic : String} {received : ReceivedEnvelope} {pair : Pair}
    (hannounces : Announces topic received pair) (hcollision : Set.InjOn Sha256.digest (texts received.payload)) :
    pair.2.digest = sha256_bytes received.payload ↔
      ∃ envelope : MetadataEnvelopeV1, envelope.canonical_json_bytes = .ok received.payload := by
  obtain ⟨envelope, hread, _, hhash⟩ := hannounces.from_slice
  have hdigest : pair.2.digest = Sha256.digest envelope.serialize.render := by
    rw [MetadataEnvelopeV1.metadata_hash_eq] at hhash
    rw [← Except.ok.inj hhash]
  rw [hdigest, sha256_bytes]
  constructor
  · intro hequal
    have hbytes : envelope.serialize.render = received.payload :=
      hcollision (.inr ⟨envelope, hread, rfl⟩) (.inl rfl) hequal
    exact ⟨envelope, by rw [← hbytes]; rfl⟩
  · rintro ⟨other, hcanonical⟩
    have hother := MetadataEnvelopeV1.from_slice_canonical hcanonical
    rw [hread] at hother
    cases hother
    rw [← Except.ok.inj hcanonical]

/-- Every pair on its way to the registry was announced by an envelope of the stream,
    and commits to the payload of that envelope exactly if this is canonical. -/
theorem submitted_commits_iff {config : BatchConfig} {file : Except IoFault File}
    {stream : List (Except AdapterError ReceivedEnvelope)} {shutdown : Watch} {seen : Nat}
    {initial last : Loop} {actions : List Action}
    (hstart : Loop.start config file (.ok stream) shutdown seen = .ok initial)
    (hrun : transition.run Loop.step initial actions = some last)
    {received : ReceivedEnvelope} {outcome : Except IoFault IngestOutcome}
    (hingested : (received, outcome) ∈ last.ingested) {pair : Pair}
    (haccept : accept config.topic received outcome = some pair)
    (hcollision : Set.InjOn Sha256.digest (texts received.payload)) :
    pair ∈ last.batches.flatten ++ last.buffer ++ last.channel ++ last.subscriber.held.toList ∧
      .ok received ∈ stream ∧
      (pair.2.digest = sha256_bytes received.payload ↔
        ∃ envelope : MetadataEnvelopeV1, envelope.canonical_json_bytes = .ok received.payload) := by
  obtain ⟨hsize, ledger, dedupe, _, _, _, hstream, rfl⟩ := Loop.start_cases hstart
  cases hstream
  have hsound := (Loop.Sound.started hsize dedupe ledger stream shutdown seen).run hrun
  have hconfig : last.config = config := hsound.config
  refine ⟨?_, hsound.delivers.mem_stream hingested, (accept_eq_some.mp haccept).2.commits_iff hcollision⟩
  have haccepted : pair ∈ last.accepted := by
    rw [Loop.accepted, hconfig]
    exact List.mem_filterMap.mpr ⟨(received, outcome), hingested, haccept⟩
  rw [← hsound.conserves] at haccepted
  exact haccepted

theorem texts_of_canonical {envelope : MetadataEnvelopeV1} {payload : List UInt8}
    (hcanonical : envelope.canonical_json_bytes = .ok payload) : Set.InjOn Sha256.digest (texts payload) := by
  have hone : ∀ bytes ∈ texts payload, bytes = payload := by
    rintro bytes (rfl | ⟨other, hread, hbytes⟩)
    · rfl
    · rw [MetadataEnvelopeV1.from_slice_canonical hcanonical] at hread
      cases hread
      rw [hcanonical] at hbytes
      exact (Except.ok.inj hbytes).symm
  intro first hfirst second hsecond _
  rw [hone first hfirst, hone second hsecond]

end

/-- A canonical announcement is accepted under the hash of its payload. -/
theorem submitted_commits_iff_canonical :
    let received := announcement sampleConfig.topic (sampleEnvelope "bafy-a" "first")
    let pair := samplePair "bafy-a" "first"
    ∃ last, sampleRun [.ok received] deliver = some last ∧ last.buffer = [pair] ∧
      pair.2.digest = sha256_bytes received.payload := by
  intro received pair
  let outcome : Except IoFault IngestOutcome := .ok (.New (envelope_hash received))
  have hevaluated : (sampleRun [.ok received] deliver).map (fun last => (last.ingested, last.buffer)) =
      some ([(received, outcome)], [pair]) := by
    decide +kernel
  have haccept : accept sampleConfig.topic received outcome = some pair := by decide +kernel
  have hcanonical : (sampleEnvelope "bafy-a" "first").canonical_json_bytes = .ok received.payload := rfl
  obtain ⟨last, hrun, hlast⟩ := Option.map_eq_some_iff.mp hevaluated
  obtain ⟨hingested, hbuffer⟩ := Prod.mk.inj hlast
  have hcommits := (submitted_commits_iff (sampleStart [.ok received]) hrun (hingested ▸ List.mem_cons_self) haccept
    (texts_of_canonical hcanonical)).2.2
  exact ⟨last, hrun, hbuffer, hcommits.mpr ⟨_, hcanonical⟩⟩

/-- A line feed after the canonical bytes is not part of what is hashed. The payload is
    accepted, and the registry anchors its CID under the hash of other bytes. -/
theorem anchored_under_other_hash :
    let envelope := sampleEnvelope "bafy-a" "first"
    let received : ReceivedEnvelope :=
      { announcement sampleConfig.topic envelope with payload := envelope.serialize.render ++ text.bytes "\n" }
    let pair := samplePair "bafy-a" "first"
    let actions := deliver ++ [.subscriber_next, .anchorer_recv] ++ replies [pair] ++ [.anchorer_join]
    ∃ last, sampleRun [.ok received] actions = some last ∧ last.ingested.map Prod.fst = [received] ∧
      last.accepted = [pair] ∧ Anchored last.calls [pair] ∧ pair.2.digest ≠ sha256_bytes received.payload := by
  intro envelope received pair actions
  have hevaluated : (sampleRun [.ok received] actions).any (fun last =>
      last.ingested.map Prod.fst = [received] ∧ last.accepted = [pair] ∧ last.batches = [[pair]] ∧
        last.returned = some (.ok ())) = true := by
    decide +kernel
  have hother : pair.2.digest ≠ sha256_bytes received.payload := by decide +kernel
  obtain ⟨last, hrun, hchecked⟩ := (Option.any_eq_true _ _).mp hevaluated
  obtain ⟨hingested, haccepted, hbatches, hreturned⟩ := of_decide_eq_true hchecked
  have hsound := (Loop.Sound.started (by decide) _ _ _ _ _).run hrun
  have hanchored := hsound.flushes.anchored hreturned (hbatches ▸ List.mem_cons_self)
  exact ⟨last, hrun, hingested, haccepted, hanchored, hother⟩

end document_indexing.batch
