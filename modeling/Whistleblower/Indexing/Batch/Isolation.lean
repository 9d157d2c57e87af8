import Whistleblower.Indexing.Batch.Execution
import Whistleblower.Indexing.Batch.Recovery

open nssa_core whistleblower_core whistleblower_registry

namespace document_indexing.batch

/-- The second list is the first one with items of the allowed kind inserted. -/
inductive Inserted {A : Type} (Allowed : A → Prop) : List A → List A → Prop where
  | nil : Inserted Allowed [] []
  | keep (item : A) {items more : List A} (rest : Inserted Allowed items more) :
      Inserted Allowed (item :: items) (item :: more)
  | insert (item : A) {items more : List A} (hallowed : Allowed item) (rest : Inserted Allowed items more) :
      Inserted Allowed items (item :: more)

theorem Inserted.sublist {A : Type} {Allowed : A → Prop} {items more : List A}
    (hinserted : Inserted Allowed items more) : items.Sublist more := by
  induction hinserted with
  | nil => exact .slnil
  | keep item _ ih => exact ih.cons_cons item
  | insert item _ _ ih => exact ih.cons item

/-- What a stream delivers besides errors. -/
def envelopes (stream : List (Except AdapterError ReceivedEnvelope)) : List ReceivedEnvelope :=
  stream.filterMap Except.toOption

theorem mem_envelopes {stream : List (Except AdapterError ReceivedEnvelope)} {received : ReceivedEnvelope} :
    received ∈ envelopes stream ↔ .ok received ∈ stream := by
  rw [envelopes, List.mem_filterMap]
  constructor
  · rintro ⟨item, hitem, hreceived⟩
    cases item with
    | error e => cases hreceived
    | ok actual =>
      cases hreceived
      exact hitem
  · intro hitem
    exact ⟨_, hitem, rfl⟩

section

variable [Sha256]

/-- The pair an envelope announces: the one it is accepted as if it is new. -/
def announced (topic : String) (received : ReceivedEnvelope) : Option Pair :=
  accept topic received (.ok (.New (envelope_hash received)))

/-- The pairs announced by the envelopes of a stream, in order. -/
def announcements (topic : String) (stream : List (Except AdapterError ReceivedEnvelope)) : List Pair :=
  (envelopes stream).filterMap (announced topic)

/-- What an item announces, if anything, is no CID that the stream announces. -/
def Unrelated (topic : String) (stream : List (Except AdapterError ReceivedEnvelope))
    (item : Except AdapterError ReceivedEnvelope) : Prop :=
  ∀ pair ∈ announcements topic [item], pair.1 ∉ (announcements topic stream).map Prod.fst

theorem announced_eq_some {topic : String} {received : ReceivedEnvelope} {pair : Pair} :
    announced topic received = some pair ↔ Announces topic received pair := by
  rw [announced, accept_eq_some]
  exact and_iff_right ⟨_, rfl⟩

theorem mem_announcements {topic : String} {stream : List (Except AdapterError ReceivedEnvelope)} {pair : Pair} :
    pair ∈ announcements topic stream ↔ ∃ received, .ok received ∈ stream ∧ Announces topic received pair := by
  simp only [announcements, List.mem_filterMap, mem_envelopes, announced_eq_some]

theorem announcements_cons (topic : String) (item : Except AdapterError ReceivedEnvelope)
    (stream : List (Except AdapterError ReceivedEnvelope)) :
    announcements topic (item :: stream) = announcements topic [item] ++ announcements topic stream := by
  simp only [announcements, envelopes, ← List.filterMap_append]
  rfl

omit [Sha256] in
theorem first_pair_eq_none {pairs : List Pair} {cid : CanonicalCid} :
    first_pair pairs cid = none ↔ cid ∉ pairs.map Prod.fst := by
  simp only [first_pair, List.find?_eq_none, List.mem_map, decide_eq_true_eq, not_exists, not_and]

/-- Inserted items do not change which pair is announced first under a CID that none of
    them announces. -/
theorem Inserted.first_announced {Allowed : Except AdapterError ReceivedEnvelope → Prop} {topic : String}
    {cid : CanonicalCid} (hother : ∀ item, Allowed item → cid ∉ (announcements topic [item]).map Prod.fst)
    {stream more : List (Except AdapterError ReceivedEnvelope)} (hinserted : Inserted Allowed stream more) :
    first_pair (announcements topic more) cid = first_pair (announcements topic stream) cid := by
  induction hinserted with
  | nil => rfl
  | keep item _ ih =>
    rw [announcements_cons, first_pair_append, ih, ← first_pair_append, ← announcements_cons]
  | insert item hallowed _ ih =>
    rw [announcements_cons, first_pair_append, first_pair_eq_none.mpr (hother item hallowed), Option.none_or, ih]

/-- What the ledger hashes of an envelope. -/
def hashed (received : ReceivedEnvelope) : List UInt8 := text.bytes received.topic ++ 0 :: received.payload

/-- The envelopes of a stream are on the topic, and the ledger tells them apart. -/
structure Distinguished (topic : String) (stream : List (Except AdapterError ReceivedEnvelope)) : Prop where
  topic : ∀ received ∈ envelopes stream, received.topic = topic
  hashes : Set.InjOn Sha256.digest {bytes | bytes ∈ (envelopes stream).map hashed}

theorem Distinguished.of_sublist {topic : String} {stream more : List (Except AdapterError ReceivedEnvelope)}
    (hdistinguished : Distinguished topic more) (hitems : stream.Sublist more) : Distinguished topic stream := by
  have henvelopes : (envelopes stream).Sublist (envelopes more) := hitems.filterMap Except.toOption
  constructor
  · exact fun received hreceived => hdistinguished.topic received (henvelopes.subset hreceived)
  · exact hdistinguished.hashes.mono fun _ hbytes => List.map_subset hashed henvelopes.subset hbytes

/-- Envelopes that the ledger takes for the same have the same payload. -/
theorem Distinguished.payload {topic : String} {stream : List (Except AdapterError ReceivedEnvelope)}
    (hdistinguished : Distinguished topic stream) {first second : ReceivedEnvelope}
    (hfirst : first ∈ envelopes stream) (hsecond : second ∈ envelopes stream)
    (hhash : envelope_hash first = envelope_hash second) : first.payload = second.payload := by
  have hdigest : Sha256.digest (hashed first) = Sha256.digest (hashed second) :=
    Vector.toList_inj.mp (text.hex_encode_injective hhash)
  have hbytes := hdistinguished.hashes (List.mem_map_of_mem hfirst) (List.mem_map_of_mem hsecond) hdigest
  rw [hashed, hashed, hdistinguished.topic first hfirst, hdistinguished.topic second hsecond] at hbytes
  exact List.tail_eq_of_cons_eq (List.append_cancel_left hbytes)

/-- Envelopes that the ledger takes for the same announce the same. -/
theorem Distinguished.announced {topic : String} {stream : List (Except AdapterError ReceivedEnvelope)}
    (hdistinguished : Distinguished topic stream) {first second : ReceivedEnvelope}
    (hfirst : first ∈ envelopes stream) (hsecond : second ∈ envelopes stream)
    (hhash : envelope_hash first = envelope_hash second) :
    batch.announced topic first = batch.announced topic second := by
  have htopics : first.topic = second.topic :=
    (hdistinguished.topic first hfirst).trans (hdistinguished.topic second hsecond).symm
  have hpayloads := hdistinguished.payload hfirst hsecond hhash
  simp only [batch.announced, accept, parse_envelope, htopics, hpayloads]

namespace Loop

/-- With a fresh ledger, dropping what was delivered before does not change which pair
    is accepted first under a CID. -/
theorem Ingests.first_accepted {topic : String} {dedupe current : DurableDedupeStore} {ledger file : File}
    {log : List (ReceivedEnvelope × Except IoFault IngestOutcome)}
    (hingests : Ingests (· = none) dedupe ledger log current file) (hfresh : dedupe.seen = ∅)
    (hsame : ∀ entry ∈ log, ∀ other ∈ log, envelope_hash entry.1 = envelope_hash other.1 →
      announced topic entry.1 = announced topic other.1) (cid : CanonicalCid) :
    first_pair (log.filterMap fun (envelope, outcome) => accept topic envelope outcome) cid =
      first_pair ((log.map Prod.fst).filterMap (announced topic)) cid := by
  induction hingests with
  | nil => rfl
  | @snoc log current next before after hearlier fault hpermitted envelope outcome hingest ih =>
    subst hpermitted
    have hlog := ih fun entry hentry other hother =>
      hsame entry (List.mem_append_left _ hentry) other (List.mem_append_left _ hother)
    rw [List.filterMap_append, List.map_append, List.filterMap_append, first_pair_append, first_pair_append, hlog]
    by_cases hknown : envelope_hash envelope ∈ current.seen
    · rw [DurableDedupeStore.ingest_of_mem hknown] at hingest
      cases hingest
      obtain ⟨entry, hentry, hhash⟩ : ∃ entry ∈ log, envelope_hash entry.1 = envelope_hash envelope := by
        have hseen := (hearlier.seen (envelope_hash envelope)).mp hknown
        rw [hfresh] at hseen
        exact hseen.resolve_left (Finset.notMem_empty _)
      have hagain := hsame entry (List.mem_append_left _ hentry) _ (List.mem_append_right _ List.mem_cons_self) hhash
      cases hannounced : announced topic envelope with
      | none => simp [accept, hannounced]
      | some pair =>
        by_cases hcid : pair.1 = cid
        · have hsome : first_pair ((log.map Prod.fst).filterMap (announced topic)) cid ≠ none := by
            rw [Ne, first_pair_eq_none, not_not, ← hcid]
            refine List.mem_map_of_mem (List.mem_filterMap.mpr ⟨entry.1, List.mem_map_of_mem hentry, ?_⟩)
            rw [hagain, hannounced]
          obtain ⟨earliest, hearliest⟩ := Option.ne_none_iff_exists'.mp hsome
          rw [hearliest, Option.some_or, Option.some_or]
        · simp [accept, hannounced, first_pair, hcid]
    · rw [DurableDedupeStore.ingest_of_not_mem hknown] at hingest
      cases hingest
      rfl

end Loop

end

section

variable [Sha256] [Nssa]

/-- The entry of a pair is small enough for its account. -/
def Fits (pair : Pair) : Prop :=
  (text.bytes pair.1.inner).length < 256 ^ 4 ∧ 76 + (text.bytes pair.1.inner).length ≤ Nssa.DATA_MAX_LENGTH

omit [Sha256] in
instance (pair : Pair) : Decidable (Fits pair) := by
  unfold Fits
  infer_instance

/-- A batch which the registry executes. -/
structure Executable (batch : List Pair) : Prop where
  distinct : Loop.Distinct batch
  length : batch.length < 256 ^ 4
  fits : ∀ pair ∈ batch, Fits pair

/-- The pair received is not in the buffer with its CID and fits its account, and
    the buffer with it is not too long to be encoded. -/
def Loop.Admits (loop : Loop) (action : Action) : Prop :=
  loop.Fresh action ∧ (loop.buffer ++ loop.received action).length < 256 ^ 4 ∧
    ∀ pair ∈ loop.received action, Fits pair

instance (loop : Loop) (action : Action) : Decidable (loop.Admits action) := by
  unfold Loop.Admits
  infer_instance

/-- All batches of a run are executable if every pair was admissible when it was
    received. -/
theorem Loop.executable_iff {initial last : Loop} {actions : List Action} (hinitial : initial.Batched Executable)
    (hrun : transition.run Loop.step initial actions = some last) :
    transition.Along Loop.step Loop.Admits initial actions ↔ last.Batched Executable := by
  refine batched_iff (P := Executable) ⟨List.nodup_nil, by decide, by simp⟩ ?_ ?_ hinitial hrun
  · intro part rest hwhole
    have hlength := hwhole.length
    rw [List.length_append] at hlength
    exact ⟨hwhole.distinct.of_append_left, by omega,
      fun pair hpair => hwhole.fits pair (List.mem_append_left _ hpair)⟩
  · intro loop action hbuffer
    rw [Admits, fresh_iff hbuffer.distinct]
    constructor
    · rintro ⟨hdistinct, hlength, hfits⟩
      exact ⟨hdistinct, hlength, List.forall_mem_append.mpr ⟨hbuffer.fits, hfits⟩⟩
    · intro hwhole
      exact ⟨hwhole.distinct, hwhole.length, (List.forall_mem_append.mp hwhole.fits).2⟩

/-- A run over a stream with a fresh ledger, left alone, and what the registry has
    become by executing its batches. -/
structure Served (program_id : ProgramId) (chain : Chain) (config : BatchConfig)
    (stream : List (Except AdapterError ReceivedEnvelope)) (initial : Loop) (actions : List Action) (last : Loop)
    (final : Chain) : Prop where
  start : ∃ shutdown seen, shutdown.value = false ∧
    Loop.start config (.ok none) (.ok stream) shutdown seen = .ok initial
  run : transition.run Loop.step initial actions = some last
  undisturbed : ∀ action ∈ actions, Undisturbed action
  executes : Executes program_id chain last.calls final

namespace Served

variable {program_id : ProgramId} {chain final : Chain} {config : BatchConfig}
  {stream : List (Except AdapterError ReceivedEnvelope)} {initial last : Loop} {actions : List Action}

theorem started (hserved : Served program_id chain config stream initial actions last final) :
    1 ≤ config.batch_size ∧ ∃ shutdown seen, shutdown.value = false ∧
      initial = Loop.started config { seen := ∅ } none stream shutdown seen := by
  obtain ⟨shutdown, seen, hsignal, hstart⟩ := hserved.start
  obtain ⟨hsize, ledger, dedupe, _, hledger, hopen, hstream, rfl⟩ := Loop.start_cases hstart
  cases hledger
  cases hopen
  cases hstream
  exact ⟨hsize, shutdown, seen, hsignal, rfl⟩

theorem sound (hserved : Served program_id chain config stream initial actions last final) :
    Loop.Sound stream initial last ∧ initial.config = config := by
  obtain ⟨hsize, shutdown, seen, _, rfl⟩ := hserved.started
  exact ⟨(Loop.Sound.started hsize _ _ _ _ _).run hserved.run, rfl⟩

/-- What was flushed was announced. -/
theorem flushed_announced (hserved : Served program_id chain config stream initial actions last final)
    {batch : List Pair} (hbatch : batch ∈ last.batches) {pair : Pair} (hpair : pair ∈ batch) :
    pair ∈ announcements config.topic stream := by
  obtain ⟨hsound, hconfig⟩ := hserved.sound
  have hpipeline : pair ∈ last.pipeline := by
    simp only [Loop.pipeline, List.append_assoc]
    exact List.mem_append_left _ (List.mem_flatten.mpr ⟨batch, hbatch, hpair⟩)
  rw [mem_announcements, ← hconfig]
  exact hsound.announced hpipeline

theorem first_accepted (hserved : Served program_id chain config stream initial actions last final)
    (hdistinguished : Distinguished config.topic stream) (cid : CanonicalCid) :
    first_pair last.accepted cid =
      first_pair ((last.ingested.map Prod.fst).filterMap (announced config.topic)) cid := by
  obtain ⟨hsound, hconfig⟩ := hserved.sound
  obtain ⟨_, shutdown, seen, _, rfl⟩ := hserved.started
  have hrecords : Loop.Records (· = none) (Loop.started config { seen := ∅ } none stream shutdown seen) last :=
    .of_undisturbed .nil hserved.run hserved.undisturbed
  rw [Loop.accepted, hsound.config]
  refine Loop.Ingests.first_accepted hrecords rfl ?_ cid
  intro entry hentry other hother
  exact hdistinguished.announced (mem_envelopes.mpr (hsound.delivers.mem_stream hentry))
    (mem_envelopes.mpr (hsound.delivers.mem_stream hother))

/-- The pair anchored first under a CID is the one announced first under it. -/
theorem first_anchored (hserved : Served program_id chain config stream initial actions last final)
    (hdistinguished : Distinguished config.topic stream) {cid : CanonicalCid} {pair : Pair}
    (hfirst : first_pair (anchored_batches last.calls).flatten cid = some pair) :
    first_pair (announcements config.topic stream) cid = some pair := by
  obtain ⟨hsound, _⟩ := hserved.sound
  have haccepted : (anchored_batches last.calls).flatten <+: last.accepted := by
    have hflushed : last.batches.flatten <+: last.accepted := by
      rw [← hsound.conserves]
      simp only [Loop.pipeline, List.append_assoc]
      exact List.prefix_append _ _
    exact hsound.flushes.anchored_prefix.flatten.trans hflushed
  have hdelivered : last.ingested.map Prod.fst <+: envelopes stream := by
    obtain ⟨consumed, hstream, hconsumed⟩ := hsound.delivers
    rw [envelopes, hstream, List.filterMap_append, hconsumed, List.append_assoc]
    exact List.prefix_append _ _
  have hreceived := haccepted.find?_eq_some hfirst
  rw [← first_pair, hserved.first_accepted hdistinguished] at hreceived
  exact (hdelivered.filterMap (announced config.topic)).find?_eq_some hreceived

/-- A run that is left alone and returns successfully anchors, under every CID, what
    was announced first. -/
theorem first_anchored_of_returned (hserved : Served program_id chain config stream initial actions last final)
    (hdistinguished : Distinguished config.topic stream) (hreturned : last.returned = some (.ok ()))
    (cid : CanonicalCid) :
    first_pair (anchored_batches last.calls).flatten cid = first_pair (announcements config.topic stream) cid := by
  obtain ⟨hsound, _⟩ := hserved.sound
  have hfirst := hserved.first_accepted hdistinguished cid
  obtain ⟨hsize, shutdown, seen, hsignal, rfl⟩ := hserved.started
  have hcompleted := Loop.Completed.of_run hsize hserved.run hsignal hserved.undisturbed hreturned
  rw [hsound.flushes.of_returned hreturned, hcompleted.flushed, hfirst, announcements, envelopes,
    hcompleted.delivered]

/-- A run whose pairs are all admissible does not fail. -/
theorem returned_ok (hserved : Served program_id chain config stream initial actions last final)
    (hinjective : PdaInjective program_id)
    (hcids : Set.InjOn cid_hash {cid | cid ∈ (announcements config.topic stream).map Prod.fst})
    (hadmits : transition.Along Loop.step Loop.Admits initial actions) {result : Except BatchError Unit}
    (hreturned : last.returned = some result) : result = .ok () := by
  cases result with
  | ok value => rfl
  | error err =>
    obtain ⟨hsound, _⟩ := hserved.sound
    obtain ⟨batch, hbatch, e, hfailed⟩ := hsound.flushes.of_failed hreturned
    obtain ⟨stamped, hstamped, hanswered⟩ := hserved.executes
    rw [← hstamped] at hfailed
    obtain ⟨current, anchor_timestamp, hrefused⟩ := answered_failed hanswered hfailed
    have hbatched : last.Batched Executable := by
      refine (Loop.executable_iff ?_ hserved.run).mp hadmits
      obtain ⟨_, shutdown, seen, _, rfl⟩ := hserved.started
      exact Loop.batched_started ⟨List.nodup_nil, by decide, by simp⟩ _ _ _ _ _ _
    have hexecutable := hbatched.batches batch hbatch
    have hcollision : Set.InjOn cid_hash {cid | cid ∈ batch.map Prod.fst} := by
      apply hcids.mono
      rintro _ hcid
      obtain ⟨pair, hpair, rfl⟩ := List.mem_map.mp hcid
      exact List.mem_map_of_mem (hserved.flushed_announced hbatch hpair)
    have hexecuted := execute_isSome hinjective current hexecutable.distinct hcollision hexecutable.length
      hexecutable.fits anchor_timestamp
    rw [hrefused] at hexecuted
    cases hexecuted

/-- In the end the registry holds under an announced CID what it held before, or else
    the pair anchored first. -/
theorem registry_anchored (hserved : Served program_id chain config stream initial actions last final)
    (hinjective : PdaInjective program_id) (hformed : WellFormed program_id chain)
    (hcids : Set.InjOn cid_hash {cid | cid ∈ (announcements config.topic stream).map Prod.fst}) {cid : CanonicalCid}
    (hcid : cid ∈ (announcements config.topic stream).map Prod.fst) :
    ((registry program_id final).entries (cid_hash cid)).map pair_of =
      (((registry program_id chain).entries (cid_hash cid)).map pair_of).or
        (first_pair (anchored_batches last.calls).flatten cid) := by
  obtain ⟨hsound, _⟩ := hserved.sound
  obtain ⟨stamped, hstamped, hanswered⟩ := hserved.executes
  rw [← hstamped]
  refine answered_registry hinjective hformed hanswered ?_
  rw [hstamped]
  intro batch hbatch pair hpair hhash
  have hflushed := hsound.flushes.anchored_prefix.subset hbatch
  exact hcids (List.mem_map_of_mem (hserved.flushed_announced hflushed hpair)) hcid hhash

end Served

/-- If every pair is admissible when the second run receives it, then each CID of the
    first stream that is anchored after the first run is anchored with the same hash
    after the second, whose stream has unrelated items inserted. -/
theorem insertions_keep_anchors {program_id : ProgramId} (hinjective : PdaInjective program_id)
    {genesis chain : Chain} (hunused : Unused program_id genesis) (hreachable : Reachable program_id genesis chain)
    {config : BatchConfig} {stream more : List (Except AdapterError ReceivedEnvelope)}
    (hinserted : Inserted (Unrelated config.topic stream) stream more)
    (hdistinguished : Distinguished config.topic more)
    (hcids : Set.InjOn cid_hash {cid | cid ∈ (announcements config.topic more).map Prod.fst})
    {initial last : Loop} {actions : List Action} {final : Chain}
    (hserved : Served program_id chain config stream initial actions last final)
    {initial' last' : Loop} {actions' : List Action} {final' : Chain}
    (hserved' : Served program_id chain config more initial' actions' last' final')
    (hadmits : transition.Along Loop.step Loop.Admits initial' actions') {result : Except BatchError Unit}
    (hreturned : last'.returned = some result) {cid : CanonicalCid}
    (hcid : cid ∈ (announcements config.topic stream).map Prod.fst) {entry : AnchorEntry}
    (hentry : (registry program_id final).entries (cid_hash cid) = some entry) :
    ∃ entry', (registry program_id final').entries (cid_hash cid) = some entry' ∧
      entry'.cid = entry.cid ∧ entry'.metadata_hash = entry.metadata_hash := by
  have hformed := WellFormed.of_reachable hinjective hunused hreachable
  have hannounced : announcements config.topic stream ⊆ announcements config.topic more :=
    ((hinserted.sublist.filterMap Except.toOption).filterMap (announced config.topic)).subset
  have hcids' : Set.InjOn cid_hash {cid | cid ∈ (announcements config.topic stream).map Prod.fst} :=
    hcids.mono fun _ hmem => List.map_subset Prod.fst hannounced hmem
  have hfirst := hserved.registry_anchored hinjective hformed hcids' hcid
  have hsecond := hserved'.registry_anchored hinjective hformed hcids (List.map_subset Prod.fst hannounced hcid)
  cases hserved'.returned_ok hinjective hcids hadmits hreturned
  have hunrelated : ∀ item, Unrelated config.topic stream item →
      cid ∉ (announcements config.topic [item]).map Prod.fst := by
    intro item hunrelated hitem
    obtain ⟨pair, hpair, rfl⟩ := List.mem_map.mp hitem
    exact hunrelated pair hpair hcid
  rw [hserved'.first_anchored_of_returned hdistinguished hreturned, hinserted.first_announced hunrelated] at hsecond
  have hkept : ((registry program_id final').entries (cid_hash cid)).map pair_of = some (pair_of entry) := by
    rw [hentry, Option.map_some] at hfirst
    cases hbefore : ((registry program_id chain).entries (cid_hash cid)).map pair_of with
    | some pair =>
      rw [hbefore, Option.some_or] at hfirst hsecond
      rw [hsecond, hfirst]
    | none =>
      rw [hbefore, Option.none_or] at hfirst hsecond
      rw [hsecond, hserved.first_anchored (hdistinguished.of_sublist hinserted.sublist) hfirst.symm]
  obtain ⟨entry', hentry', hpair⟩ := Option.map_eq_some_iff.mp hkept
  obtain ⟨hsame, hhash⟩ := Prod.mk.inj hpair
  exact ⟨entry', hentry', hsame, hhash⟩

end

/-- Announcements announce the pairs of their envelopes. -/
theorem announcements_announcement (topic : String) (announced : List MetadataEnvelopeV1) :
    announcements topic (announced.map fun envelope => .ok (announcement topic envelope)) =
      announced.map fun envelope => (envelope.cid, ⟨Sha256.digest envelope.serialize.render⟩) := by
  induction announced with
  | nil => rfl
  | cons envelope rest ih =>
    have hfirst := announced_eq_some.mpr (announcement_announces topic envelope)
    rw [List.map_cons, announcements_cons, ih, List.map_cons]
    simp [announcements, envelopes, Except.toOption, hfirst]

theorem unrelated_announcement {topic : String} {envelope : MetadataEnvelopeV1}
    {stream : List (Except AdapterError ReceivedEnvelope)}
    (hcid : envelope.cid ∉ (announcements topic stream).map Prod.fst) :
    Unrelated topic stream (.ok (announcement topic envelope)) := by
  intro pair hpair
  have hsingle := announcements_announcement topic [envelope]
  rw [List.map_singleton, List.map_singleton] at hsingle
  rw [hsingle, List.mem_singleton] at hpair
  rw [hpair]
  exact hcid

/-- The answers of a schedule, each at time zero. -/
def stamped (actions : List Action) : List (Exchange Adapters × UInt64) :=
  (actions.filterMap Loop.reply).map fun exchange => (exchange, 0)

theorem sampleServed {program_id : ProgramId} {stream : List (Except AdapterError ReceivedEnvelope)}
    {actions : List Action} {last : Loop} {final : Chain} (hrun : sampleRun stream actions = some last)
    (hundisturbed : ∀ action ∈ actions, Undisturbed action)
    (hfinal : transition.run (answered program_id) unusedChain (stamped actions) = some final) :
    Served program_id unusedChain sampleConfig stream
      (Loop.started sampleConfig { seen := ∅ } none stream ⟨false, 0, false⟩ 0) actions last final where
  start := ⟨_, _, rfl, sampleStart stream⟩
  run := hrun
  undisturbed := hundisturbed
  executes := by
    refine ⟨stamped actions, ?_, hfinal⟩
    rw [Loop.calls_run hrun, stamped, List.map_map]
    exact List.map_id _

def sampleProgram : ProgramId := Vector.replicate 8 1

/-- The only announcement of a stream is anchored. -/
theorem sampleServed_alone :
    let pair := samplePair "bafy-a" "first"
    let stream := [.ok (announcement sampleConfig.topic (sampleEnvelope "bafy-a" "first"))]
    ∃ initial actions last final, Served sampleProgram unusedChain sampleConfig stream initial actions last final ∧
      last.returned = some (.ok ()) ∧
      ((registry sampleProgram final).entries (cid_hash pair.1)).map pair_of = some pair := by
  intro pair stream
  let actions := deliver ++ [.subscriber_next, .anchorer_recv] ++ replies [pair] ++ [.anchorer_join]
  have hundisturbed : ∀ action ∈ actions, Undisturbed action := by decide +kernel
  have hreturned : (sampleRun stream actions).map Loop.returned = some (some (.ok ())) := by decide +kernel
  have hregistry : (transition.run (answered sampleProgram) unusedChain (stamped actions)).map (fun final =>
      ((registry sampleProgram final).entries (cid_hash pair.1)).map pair_of) = some (some pair) := by
    decide +kernel
  obtain ⟨last, hrun, hlast⟩ := Option.map_eq_some_iff.mp hreturned
  obtain ⟨final, hfinal, hentries⟩ := Option.map_eq_some_iff.mp hregistry
  exact ⟨_, actions, last, final, sampleServed hrun hundisturbed hfinal, hlast, hentries⟩

theorem injOn_of_forall {A B : Type} {f : A → B} {items : List A}
    (hall : ∀ first ∈ items, ∀ second ∈ items, f first = f second → first = second) :
    Set.InjOn f {item | item ∈ items} :=
  fun first hfirst second hsecond => hall first hfirst second hsecond

/-- An announcement before the only one of a stream fills the batch of both. -/
theorem insertions_keep_anchors_full_batch :
    let pair := samplePair "bafy-a" "first"
    let stream := [.ok (announcement sampleConfig.topic (sampleEnvelope "bafy-a" "first"))]
    let more := .ok (announcement sampleConfig.topic (sampleEnvelope "bafy-b" "second")) :: stream
    let actions := deliver ++ deliver ++ replies [samplePair "bafy-b" "second", pair] ++
      [.subscriber_next, .anchorer_recv, .anchorer_join]
    ∃ last final, sampleRun more actions = some last ∧ Executes sampleProgram unusedChain last.calls final ∧
      ∃ entry, (registry sampleProgram final).entries (cid_hash pair.1) = some entry ∧
        entry.metadata_hash = pair.2 := by
  intro pair stream more actions
  have hstream : announcements sampleConfig.topic stream = [pair] :=
    announcements_announcement sampleConfig.topic [sampleEnvelope "bafy-a" "first"]
  have hmore : announcements sampleConfig.topic more = [samplePair "bafy-b" "second", pair] :=
    announcements_announcement sampleConfig.topic [sampleEnvelope "bafy-b" "second", sampleEnvelope "bafy-a" "first"]
  have hinserted : Inserted (Unrelated sampleConfig.topic stream) stream more := by
    refine .insert _ (unrelated_announcement ?_) (.keep _ .nil)
    rw [hstream]
    decide
  have htopics : ∀ received ∈ envelopes more, received.topic = sampleConfig.topic := by decide +kernel
  have hhashes : Set.InjOn Sha256.digest {bytes | bytes ∈ (envelopes more).map hashed} :=
    injOn_of_forall (by decide +kernel)
  have hcids : Set.InjOn cid_hash {cid | cid ∈ (announcements sampleConfig.topic more).map Prod.fst} :=
    injOn_of_forall (by rw [hmore]; decide +kernel)
  have hcid : pair.1 ∈ (announcements sampleConfig.topic stream).map Prod.fst := by
    rw [hstream]
    exact List.mem_cons_self
  have hundisturbed : ∀ action ∈ actions, Undisturbed action := by decide +kernel
  have hadmits : transition.Along Loop.step Loop.Admits
      (Loop.started sampleConfig { seen := ∅ } none more ⟨false, 0, false⟩ 0) actions := by
    decide +kernel
  have hreturned : (sampleRun more actions).map Loop.returned = some (some (.ok ())) := by decide +kernel
  have hexecuted : (transition.run (answered sampleProgram) unusedChain (stamped actions)).isSome := by decide +kernel
  obtain ⟨initial, alone, last, final, hserved, _, hanchored⟩ := sampleServed_alone
  obtain ⟨last', hrun', hlast'⟩ := Option.map_eq_some_iff.mp hreturned
  obtain ⟨final', hfinal'⟩ := Option.isSome_iff_exists.mp hexecuted
  obtain ⟨entry, hentry, hpair⟩ := Option.map_eq_some_iff.mp hanchored
  have hserved' := sampleServed hrun' hundisturbed hfinal'
  obtain ⟨entry', hentry', _, hsame⟩ := insertions_keep_anchors (pdaInjective_seedAddressed sampleProgram)
    unused_unusedChain .refl hinserted ⟨htopics, hhashes⟩ hcids hserved hserved' hadmits hlast' hcid hentry
  exact ⟨last', final', hrun', hserved'.executes, entry', hentry', hsame.trans (congrArg Prod.snd hpair)⟩

/-- The answers to a flush that every attempt fails, with the waits between them. -/
def refusals (policy : RetryPolicy) (batch : List Pair) (e : AdapterError) : List (Exchange Adapters) :=
  (List.range (policy.max_attempts.toNat - 1)).flatMap (fun attempt =>
    [failed_call batch e, ⟨AdapterCall.sleep (policy.backoff_for (attempt + 1)), ()⟩]) ++ [failed_call batch e]

/-- Another CID announced twice, under two titles, before the only announcement of a
    stream. The batch of the two is refused, the run fails, and the CID of the stream
    is never anchored. -/
theorem insertions_keep_out_cid :
    let pair := samplePair "bafy-a" "first"
    let stream := [.ok (announcement sampleConfig.topic (sampleEnvelope "bafy-a" "first"))]
    let more := .ok (announcement sampleConfig.topic (sampleEnvelope "bafy-x" "first")) ::
      .ok (announcement sampleConfig.topic (sampleEnvelope "bafy-x" "second")) :: stream
    let error := AdapterError.retryable "submit anchor_batch: duplicate accounts"
    Inserted (Unrelated sampleConfig.topic stream) stream more ∧
      (∃ initial actions last final, Served sampleProgram unusedChain sampleConfig stream initial actions last final ∧
        last.returned = some (.ok ()) ∧
        ((registry sampleProgram final).entries (cid_hash pair.1)).map pair_of = some pair) ∧
      ∃ initial actions last final, Served sampleProgram unusedChain sampleConfig more initial actions last final ∧
        last.returned = some (.error (.Anchor error)) ∧
        (registry sampleProgram final).entries (cid_hash pair.1) = none := by
  intro pair stream more error
  let twice := [samplePair "bafy-x" "first", samplePair "bafy-x" "second"]
  let actions := deliver ++ deliver ++ (refusals sampleConfig.retry_policy twice error).map Action.anchorer_reply
  have hstream : announcements sampleConfig.topic stream = [pair] :=
    announcements_announcement sampleConfig.topic [sampleEnvelope "bafy-a" "first"]
  refine ⟨?_, sampleServed_alone, ?_⟩
  · refine .insert _ (unrelated_announcement ?_) (.insert _ (unrelated_announcement ?_) (.keep _ .nil)) <;>
    · rw [hstream]
      decide
  · have hundisturbed : ∀ action ∈ actions, Undisturbed action := by decide +kernel
    have hreturned : (sampleRun more actions).map Loop.returned = some (some (.error (.Anchor error))) := by
      decide +kernel
    have hregistry : (transition.run (answered sampleProgram) unusedChain (stamped actions)).map (fun final =>
        (registry sampleProgram final).entries (cid_hash pair.1)) = some none := by
      decide +kernel
    obtain ⟨last, hrun, hlast⟩ := Option.map_eq_some_iff.mp hreturned
    obtain ⟨final, hfinal, hentries⟩ := Option.map_eq_some_iff.mp hregistry
    exact ⟨_, actions, last, final, sampleServed hrun hundisturbed hfinal, hlast, hentries⟩

end document_indexing.batch
