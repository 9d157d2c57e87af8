import Mathlib.Algebra.GroupWithZero.Nat
import Whistleblower.Indexing.Export
import Whistleblower.Indexing.Batch.Isolation
import Whistleblower.Indexing.Batch.Replay

open whistleblower_core whistleblower_mock_adapter first_writer

namespace document_indexing.batch

/-- The items a file client delivers. -/
def items (topic : String) (payloads : List (List UInt8)) : List (Except AdapterError ReceivedEnvelope) :=
  payloads.zipIdx.map fun record => .ok (FileDeliveryClient.item topic record)

theorem envelopes_items (topic : String) (payloads : List (List UInt8)) :
    envelopes (items topic payloads) = payloads.zipIdx.map (FileDeliveryClient.item topic) := by
  rw [envelopes, items, List.filterMap_map]
  exact congrFun List.filterMap_eq_map' _

theorem topic_items {topic : String} {payloads : List (List UInt8)} {received : ReceivedEnvelope}
    (hreceived : received ∈ envelopes (items topic payloads)) : received.topic = topic := by
  rw [envelopes_items] at hreceived
  obtain ⟨record, _, rfl⟩ := List.mem_map.mp hreceived
  rfl

theorem payloads_items (topic : String) (payloads : List (List UInt8)) :
    (envelopes (items topic payloads)).map ReceivedEnvelope.payload = payloads := by
  rw [envelopes_items, List.map_map]
  exact List.zipIdx_map_fst 0 payloads

section

variable [Sha256]

/-- The pair a payload stands for, if it parses. -/
def payload_pair (payload : List UInt8) : Option Pair :=
  (MetadataEnvelopeV1.from_slice payload).toOption.map fun envelope =>
    (envelope.cid, ⟨Sha256.digest envelope.serialize.render⟩)

theorem payload_pair_eq_some {payload : List UInt8} {pair : Pair} :
    payload_pair payload = some pair ↔ ∃ envelope, MetadataEnvelopeV1.from_slice payload = .ok envelope ∧
      envelope.cid = pair.1 ∧ envelope.metadata_hash = .ok pair.2 := by
  rw [payload_pair]
  cases hread : MetadataEnvelopeV1.from_slice payload with
  | error e => simp [Except.toOption]
  | ok envelope => simp [Except.toOption, MetadataEnvelopeV1.metadata_hash_eq, Prod.ext_iff]

/-- On its topic an envelope announces the pair of its payload. -/
theorem announced_payload {topic : String} {received : ReceivedEnvelope} (htopic : received.topic = topic) :
    announced topic received = payload_pair received.payload := by
  apply Option.ext
  intro pair
  rw [announced_eq_some, payload_pair_eq_some, Announces, parse_envelope, if_neg (not_not.mpr htopic)]
  cases MetadataEnvelopeV1.from_slice received.payload <;> simp

theorem announcements_items (topic : String) (payloads : List (List UInt8)) :
    announcements topic (items topic payloads) = payloads.filterMap payload_pair := by
  rw [announcements, ← payloads_items topic payloads, List.filterMap_map, payloads_items]
  exact List.filterMap_congr fun received hreceived => announced_payload (topic_items hreceived)

/-- The pair a line stands for, if it is a record that parses. -/
def line_pair (line : String) : Option Pair := (FileDeliveryClient.record line).bind payload_pair

theorem line_pair_eq_some {line : String} {pair : Pair} :
    line_pair line = some pair ↔ ∃ envelope, FileDeliveryClient.Reads line envelope ∧ envelope.cid = pair.1 ∧
      envelope.metadata_hash = .ok pair.2 := by
  simp only [line_pair, Option.bind_eq_some_iff, payload_pair_eq_some, FileDeliveryClient.Reads]
  constructor
  · rintro ⟨payload, hrecord, envelope, hread, hcid, hhash⟩
    exact ⟨envelope, ⟨payload, hrecord, hread⟩, hcid, hhash⟩
  · rintro ⟨envelope, ⟨payload, hrecord, hread⟩, hcid, hhash⟩
    exact ⟨payload, hrecord, envelope, hread, hcid, hhash⟩

theorem announcements_from_jsonl (topic contents : String) :
    announcements topic (items topic (FileDeliveryClient.from_jsonl contents).envelopes) =
      (text.lines contents).filterMap line_pair := by
  rw [announcements_items, FileDeliveryClient.envelopes_from_jsonl, List.filterMap_filterMap]
  rfl

/-- The first line that names a CID gives it this hash. -/
def FirstNaming (contents : String) (cid : CanonicalCid) (metadata_hash : MetadataHash) : Prop :=
  ∃ before line after envelope, text.lines contents = before ++ line :: after ∧
    FileDeliveryClient.Reads line envelope ∧ envelope.cid = cid ∧ envelope.metadata_hash = .ok metadata_hash ∧
    ∀ earlier ∈ before, ∀ other, FileDeliveryClient.Reads earlier other → other.cid ≠ cid

omit [Sha256] in
/-- The first pair of a list of lines that names a CID is that of the first line that does. -/
theorem first_pair_lines {lines : List String} {read : String → Option Pair} {cid : CanonicalCid} {pair : Pair}
    (hfirst : first_pair (lines.filterMap read) cid = some pair) :
    pair.1 = cid ∧ ∃ before line after, lines = before ++ line :: after ∧ read line = some pair ∧
      ∀ earlier ∈ before, ∀ other, read earlier = some other → other.1 ≠ cid := by
  induction lines with
  | nil => cases hfirst
  | cons line rest ih =>
    cases hread : read line with
    | none =>
      rw [List.filterMap_cons_none hread] at hfirst
      obtain ⟨hcid, before, found, after, rfl, hfound, hearlier⟩ := ih hfirst
      refine ⟨hcid, line :: before, found, after, rfl, hfound, ?_⟩
      rw [List.forall_mem_cons]
      refine ⟨fun other hother => ?_, hearlier⟩
      rw [hread] at hother
      cases hother
    | some other =>
      rw [List.filterMap_cons_some hread, first_pair, List.find?_cons] at hfirst
      by_cases hcid : other.1 = cid
      · simp only [hcid, decide_true, Option.some.injEq] at hfirst
        subst hfirst
        exact ⟨hcid, [], line, rest, rfl, hread, fun earlier hearlier => by cases hearlier⟩
      · simp only [hcid, decide_false] at hfirst
        obtain ⟨hpair, before, found, after, rfl, hfound, hearlier⟩ := ih hfirst
        refine ⟨hpair, line :: before, found, after, rfl, hfound, ?_⟩
        rw [List.forall_mem_cons]
        refine ⟨fun another hanother => ?_, hearlier⟩
        rw [hread] at hanother
        cases hanother
        exact hcid

theorem FirstNaming.of_first_pair {contents : String} {cid : CanonicalCid} {pair : Pair}
    (hfirst : first_pair ((text.lines contents).filterMap line_pair) cid = some pair) :
    pair.1 = cid ∧ FirstNaming contents cid pair.2 := by
  obtain ⟨hcid, before, line, after, hlines, hline, hearlier⟩ := first_pair_lines hfirst
  obtain ⟨envelope, hreads, hnamed, hhash⟩ := line_pair_eq_some.mp hline
  refine ⟨hcid, before, line, after, envelope, hlines, hreads, hnamed.trans hcid, hhash, ?_⟩
  intro earlier hmem other hother
  exact hearlier earlier hmem (other.cid, ⟨Sha256.digest other.serialize.render⟩)
    (line_pair_eq_some.mpr ⟨other, hother, rfl, rfl⟩)

/-- A CID is named by a line exactly if some pair of the lines carries it. -/
theorem isSome_first_pair_lines {contents : String} {cid : CanonicalCid} :
    (first_pair ((text.lines contents).filterMap line_pair) cid).isSome ↔
      ∃ line ∈ text.lines contents, ∃ envelope, FileDeliveryClient.Reads line envelope ∧ envelope.cid = cid := by
  rw [Option.isSome_iff_ne_none, Ne, first_pair_eq_none, not_not]
  simp only [List.mem_map, List.mem_filterMap, line_pair_eq_some]
  constructor
  · rintro ⟨pair, ⟨line, hline, envelope, hreads, hcid, _⟩, rfl⟩
    exact ⟨line, hline, envelope, hreads, hcid⟩
  · rintro ⟨line, hline, envelope, hreads, hcid⟩
    exact ⟨(cid, ⟨Sha256.digest envelope.serialize.render⟩), ⟨line, hline, envelope, hreads, hcid, rfl⟩, rfl⟩

/-- The different payloads of the text that parse. -/
def parsing (contents : String) : Finset (List UInt8) :=
  (((text.lines contents).filterMap FileDeliveryClient.record).filter fun payload =>
    (MetadataEnvelopeV1.from_slice payload).isOk).toFinset

theorem isSome_payload_pair (payload : List UInt8) :
    (payload_pair payload).isSome = (MetadataEnvelopeV1.from_slice payload).isOk := by
  rw [payload_pair]
  cases MetadataEnvelopeV1.from_slice payload <;> rfl

omit [Sha256] in
/-- Another payload is counted if it is of the kind and was not there yet. -/
theorem card_filter_append (kind : List UInt8 → Bool) (payloads : List (List UInt8)) (payload : List UInt8) :
    ((payloads ++ [payload]).filter kind).toFinset.card =
      (payloads.filter kind).toFinset.card + if kind payload ∧ payload ∉ payloads then 1 else 0 := by
  rw [List.filter_append, List.toFinset_append]
  cases hkind : kind payload with
  | false => simp [hkind]
  | true =>
    have hlast : ([payload].filter kind).toFinset = {payload} := by simp [hkind]
    rw [hlast, Finset.union_singleton]
    by_cases hmem : payload ∈ payloads
    · rw [Finset.insert_eq_of_mem (by simp [hmem, hkind])]
      simp [hmem]
    · rw [Finset.card_insert_of_notMem (by simp [hmem])]
      simp [hmem]

/-- A ledger that was fresh, and tells payloads apart, knows exactly the payloads of the log. -/
theorem Loop.Ingests.known_iff {topic : String} {dedupe current : DurableDedupeStore} {ledger file : File}
    {log : List (ReceivedEnvelope × Except IoFault IngestOutcome)}
    (hingests : Loop.Ingests (· = none) dedupe ledger log current file) (hfresh : dedupe.seen = ∅)
    (htopic : ∀ entry ∈ log, entry.1.topic = topic) {envelope : ReceivedEnvelope} (hlast : envelope.topic = topic)
    (hsame : ∀ entry ∈ log, envelope_hash entry.1 = envelope_hash envelope → entry.1.payload = envelope.payload) :
    envelope_hash envelope ∈ current.seen ↔ envelope.payload ∈ log.map fun entry => entry.1.payload := by
  rw [hingests.seen, hfresh, List.mem_map]
  constructor
  · intro hknown
    obtain ⟨entry, hentry, hhash⟩ := hknown.resolve_left (Finset.notMem_empty _)
    exact ⟨entry, hentry, hsame entry hentry hhash⟩
  · rintro ⟨entry, hentry, hpayload⟩
    have htopics : entry.1.topic = envelope.topic := (htopic entry hentry).trans hlast.symm
    exact .inr ⟨entry, hentry, envelope_hash_congr htopics hpayload⟩

/-- On a fresh ledger that tells payloads apart, as many are accepted as different ones parse. -/
theorem Loop.Ingests.length_accepted {topic : String} {dedupe current : DurableDedupeStore} {ledger file : File}
    {log : List (ReceivedEnvelope × Except IoFault IngestOutcome)}
    (hingests : Loop.Ingests (· = none) dedupe ledger log current file) (hfresh : dedupe.seen = ∅)
    (htopic : ∀ entry ∈ log, entry.1.topic = topic)
    (hsame : ∀ entry ∈ log, ∀ other ∈ log, envelope_hash entry.1 = envelope_hash other.1 →
      entry.1.payload = other.1.payload) :
    (log.filterMap fun (envelope, outcome) => accept topic envelope outcome).length =
      ((log.map fun entry => entry.1.payload).filter fun payload =>
        (MetadataEnvelopeV1.from_slice payload).isOk).toFinset.card := by
  induction hingests with
  | nil => rfl
  | @snoc log current next before after hearlier fault hpermitted envelope outcome hingest ih =>
    subst hpermitted
    have hlog := ih (fun entry hentry => htopic entry (List.mem_append_left _ hentry))
      fun entry hentry other hother =>
        hsame entry (List.mem_append_left _ hentry) other (List.mem_append_left _ hother)
    have hlast := htopic _ (List.mem_append_right log List.mem_cons_self)
    have hknown_iff := hearlier.known_iff hfresh
      (fun entry hentry => htopic entry (List.mem_append_left _ hentry)) hlast fun entry hentry hhash =>
        hsame entry (List.mem_append_left _ hentry) _ (List.mem_append_right _ List.mem_cons_self) hhash
    rw [List.filterMap_append, List.length_append, List.map_append, List.map_singleton, card_filter_append, hlog]
    congr 1
    by_cases hknown : envelope_hash envelope ∈ current.seen
    · have hmem := hknown_iff.mp hknown
      rw [DurableDedupeStore.ingest_of_mem hknown] at hingest
      cases hingest
      rw [if_neg fun h => h.2 hmem]
      rfl
    · have hnew : envelope.payload ∉ log.map fun entry => entry.1.payload :=
        fun hmem => hknown (hknown_iff.mpr hmem)
      rw [DurableDedupeStore.ingest_of_not_mem hknown] at hingest
      cases hingest
      have hannounced : accept topic envelope (.ok (.New (envelope_hash envelope))) = payload_pair envelope.payload :=
        announced_payload hlast
      have hparses := isSome_payload_pair envelope.payload
      cases hpair : payload_pair envelope.payload with
      | none =>
        rw [hpair] at hannounced hparses
        simp [hannounced, ← hparses]
      | some pair =>
        rw [hpair] at hannounced hparses
        simp [hannounced, ← hparses, hnew]

/-- No line names a CID that only shares its hash with this one. -/
def Unmistaken (contents : String) (cid : CanonicalCid) : Prop :=
  ∀ line ∈ text.lines contents, ∀ envelope, FileDeliveryClient.Reads line envelope →
    cid_hash envelope.cid = cid_hash cid → envelope.cid = cid

/-- What a replay of the text leaves: an entry for each CID that a line names, with the hash
    of the first such line, and reports of as many pairs as different payloads parse. -/
structure Outcome (contents : String) (replay : Replay) : Prop where
  named : ∀ cid, Unmistaken contents cid →
    ((replay.registry.entries (cid_hash cid)).isSome ↔
      ∃ line ∈ text.lines contents, ∃ envelope, FileDeliveryClient.Reads line envelope ∧ envelope.cid = cid)
  first : ∀ cid, Unmistaken contents cid → ∀ entry, replay.registry.entries (cid_hash cid) = some entry →
    entry.cid = cid ∧ FirstNaming contents cid entry.metadata_hash
  sizes : (reported replay.loop.calls).sum = (parsing contents).card

/-- The start of a replay, with a ledger that records nothing and an empty registry. -/
def Replay.started (config : BatchConfig) (ledger : File) (contents : String) (shutdown : Watch) (seen : Nat) :
    Replay where
  loop := Loop.started config { seen := ∅ } ledger
    (items config.topic (FileDeliveryClient.from_jsonl contents).envelopes) shutdown seen
  registry := .default

/-- The ledger's hash tells the records of the text apart. -/
def ToldApart (topic contents : String) : Prop :=
  Set.InjOn (fun payload => Sha256.digest (text.bytes topic ++ 0 :: payload))
    {payload | payload ∈ (FileDeliveryClient.from_jsonl contents).envelopes}

theorem ToldApart.distinguished {topic contents : String} (htold : ToldApart topic contents) :
    Distinguished topic (items topic (FileDeliveryClient.from_jsonl contents).envelopes) := by
  refine ⟨fun received hreceived => topic_items hreceived, ?_⟩
  have hhashed : ∀ bytes ∈ (envelopes (items topic (FileDeliveryClient.from_jsonl contents).envelopes)).map hashed,
      ∃ payload ∈ (FileDeliveryClient.from_jsonl contents).envelopes, bytes = text.bytes topic ++ 0 :: payload := by
    intro bytes hbytes
    obtain ⟨received, hreceived, rfl⟩ := List.mem_map.mp hbytes
    refine ⟨received.payload, ?_, ?_⟩
    · rw [← payloads_items topic (FileDeliveryClient.from_jsonl contents).envelopes]
      exact List.mem_map_of_mem hreceived
    · rw [hashed, topic_items hreceived]
  intro first hfirst second hsecond hdigest
  obtain ⟨one, hone, rfl⟩ := hhashed first hfirst
  obtain ⟨other, hother, rfl⟩ := hhashed second hsecond
  rw [htold hone hother hdigest]

theorem Replay.Going.started {config : BatchConfig} (hcapacity : config.batch_size ≤ Loop.max_capacity)
    (hinterval : config.batch_interval ≠ 0) (hattempts : 1 ≤ config.retry_policy.max_attempts.toNat) (ledger : File)
    (contents : String) {shutdown : Watch} (hsignal : shutdown.value = false) (seen : Nat) :
    (Replay.started config ledger contents shutdown seen).Going := by
  refine ⟨hattempts, .started config _ _ _ hsignal seen, ?_⟩
  rw [Replay.started, Loop.started, Loop.prepared_of_fits hcapacity hinterval]
  exact .selecting ⟨rfl, rfl⟩

section

variable {config : BatchConfig} {ledger : File} {contents : String} {shutdown : Watch} {seen : Nat} {last : Replay}

/-- The registry holds the first accepted pair of each CID. -/
theorem registry_accepted {accepted : List Pair} {registry : MockRegistryClient}
    (hentries : registry.entries = claim_all (fun _ => none) (accepted.map MockRegistryClient.write))
    {cid : CanonicalCid} (hcollision : ∀ pair ∈ accepted, cid_hash pair.1 = cid_hash cid → pair.1 = cid) :
    (registry.entries (cid_hash cid)).map pair_of = first_pair accepted cid := by
  have hwrites : accepted.map MockRegistryClient.write = (RegistryInstruction.AnchorBatch accepted 1).writes := by
    rw [RegistryInstruction.writes, RegistryInstruction.new_entries, List.map_map]
    rfl
  rw [hentries, claim_all_apply, Option.none_or, hwrites]
  exact first_write_batch 1 hcollision

/-- Everything a replay that was left alone has done when it returns. -/
structure Finished (config : BatchConfig) (contents : String) (loop : Loop) : Prop where
  flushed : loop.batches.flatten = loop.accepted
  announced : ∀ pair ∈ loop.accepted, ∃ line ∈ text.lines contents, line_pair line = some pair
  first : ∀ cid, first_pair loop.accepted cid = first_pair ((text.lines contents).filterMap line_pair) cid
  length : loop.accepted.length = (parsing contents).card

theorem Finished.of_run (hsize : 1 ≤ config.batch_size) (hsignal : shutdown.value = false)
    (htold : ToldApart config.topic contents) {actions : List Action} {loop : Loop}
    (hrun : transition.run Loop.step (Replay.started config ledger contents shutdown seen).loop actions = some loop)
    (hundisturbed : ∀ action ∈ actions, Undisturbed action) (hreturned : loop.returned = some (.ok ())) :
    Finished config contents loop := by
  have hsound := (Loop.Sound.started hsize _ _ _ _ _).run hrun
  have hcompleted := Loop.Completed.of_run hsize hrun hsignal hundisturbed hreturned
  have hdistinguished := htold.distinguished
  have hconfig : loop.config = config := hsound.config
  have hdelivered : loop.ingested.map Prod.fst =
      envelopes (items config.topic (FileDeliveryClient.from_jsonl contents).envelopes) := hcompleted.delivered.symm
  have hreceived : ∀ entry ∈ loop.ingested,
      entry.1 ∈ envelopes (items config.topic (FileDeliveryClient.from_jsonl contents).envelopes) :=
    fun entry hentry => mem_envelopes.mpr (hsound.delivers.mem_stream hentry)
  refine ⟨hcompleted.flushed, ?announced, ?first, ?length⟩
  case announced =>
    intro pair hpair
    rw [← hsound.conserves] at hpair
    have hmem : pair ∈ announcements config.topic
        (items config.topic (FileDeliveryClient.from_jsonl contents).envelopes) :=
      mem_announcements.mpr (hsound.announced hpair)
    rw [announcements_from_jsonl, List.mem_filterMap] at hmem
    exact hmem
  case first =>
    intro cid
    rw [Loop.accepted, hconfig, ← announcements_from_jsonl config.topic contents, announcements, ← hdelivered]
    exact Loop.Ingests.first_accepted hcompleted.recorded rfl
      (fun entry hentry other hother =>
        hdistinguished.announced (hreceived entry hentry) (hreceived other hother)) cid
  case length =>
    have hpayloads : (loop.ingested.map fun entry => entry.1.payload) =
        (text.lines contents).filterMap FileDeliveryClient.record := by
      rw [← FileDeliveryClient.envelopes_from_jsonl,
        ← payloads_items config.topic (FileDeliveryClient.from_jsonl contents).envelopes, ← hdelivered, List.map_map]
      rfl
    rw [Loop.accepted, hconfig, parsing, ← hpayloads]
    exact Loop.Ingests.length_accepted hcompleted.recorded rfl
      (fun entry hentry => topic_items (hreceived entry hentry))
      fun entry hentry other hother => hdistinguished.payload (hreceived entry hentry) (hreceived other hother)

/-- A replay that was left alone returns successfully, and with this outcome. -/
theorem Replay.outcome (hsize : 1 ≤ config.batch_size) (hsignal : shutdown.value = false)
    (htold : ToldApart config.topic contents) {turns : List Turn}
    (hrun : transition.run Replay.step (Replay.started config ledger contents shutdown seen) turns = some last)
    (hundisturbed : ∀ turn ∈ turns, turn.Undisturbed) (hgoing : last.Going) {result : Except BatchError Unit}
    (hreturned : last.loop.returned = some result) : result = .ok () ∧ Outcome contents last := by
  obtain ⟨rfl, hmirrors⟩ := hgoing.of_returned hreturned
  obtain ⟨actions, hactions, hallowed⟩ := Replay.loop_run hrun hundisturbed
  have hfinished := Finished.of_run hsize hsignal htold hactions hallowed hreturned
  have hentries := hmirrors.entries
  rw [hfinished.flushed] at hentries
  have hstands : ∀ cid, Unmistaken contents cid → (last.registry.entries (cid_hash cid)).map pair_of =
      first_pair ((text.lines contents).filterMap line_pair) cid := by
    intro cid hunmistaken
    rw [← hfinished.first cid]
    refine registry_accepted hentries ?_
    intro pair hpair hhash
    obtain ⟨line, hline, hread⟩ := hfinished.announced pair hpair
    obtain ⟨envelope, hreads, hcid, _⟩ := line_pair_eq_some.mp hread
    rw [← hcid] at hhash ⊢
    exact hunmistaken line hline envelope hreads hhash
  refine ⟨rfl, ?named, ?first, ?sizes⟩
  case named =>
    intro cid hunmistaken
    rw [← isSome_first_pair_lines, ← hstands cid hunmistaken, Option.isSome_map]
  case first =>
    intro cid hunmistaken entry hentry
    have hfirst := hstands cid hunmistaken
    rw [hentry, Option.map_some] at hfirst
    exact FirstNaming.of_first_pair hfirst.symm
  case sizes =>
    rw [hmirrors.reported, ← List.length_flatten, hfinished.flushed, hfinished.length]

/-- A replay of a text whose buffer has a capacity returns under every schedule that is fair to
    the tasks, always successfully, and with the outcome that the text alone determines. -/
theorem file_replay (hsize : 1 ≤ config.batch_size) (hcapacity : config.batch_size ≤ Loop.max_capacity)
    (hinterval : config.batch_interval ≠ 0) (hattempts : 1 ≤ config.retry_policy.max_attempts.toNat)
    (hsignal : shutdown.value = false) (hfresh : DurableDedupeStore.open (.ok ledger) = .ok { seen := ∅ })
    (htold : ToldApart config.topic contents) :
    ∃ initial, Loop.start config (.ok ledger) ((FileDeliveryClient.from_jsonl contents).subscribe config.topic)
        shutdown seen = .ok initial ∧
      ∀ schedule : Nat → Turn, (∀ time, (schedule time).Undisturbed) →
        (∀ task : Turn, task.Task → transition.Fair Replay.step schedule ⟨initial, .default⟩ task) →
        (∃ time, (transition.follow Replay.step schedule ⟨initial, .default⟩ time).loop.returned = some (.ok ())) ∧
        ∀ time result,
          (transition.follow Replay.step schedule ⟨initial, .default⟩ time).loop.returned = some result →
          result = .ok () ∧ Outcome contents (transition.follow Replay.step schedule ⟨initial, .default⟩ time) := by
  refine ⟨(Replay.started config ledger contents shutdown seen).loop, ?start, ?run⟩
  case start =>
    unfold Loop.start
    rw [if_neg (Nat.ne_of_gt hsize), hfresh]
    rfl
  case run =>
    intro schedule hundisturbed hfair
    have hstarted := Replay.Going.started hcapacity hinterval hattempts ledger contents hsignal seen
    have hgoing := transition.follow_preserves Replay.ranked.kept hundisturbed hstarted
    have hreturns : ∀ time result, (transition.follow Replay.step schedule
        (Replay.started config ledger contents shutdown seen) time).loop.returned = some result → result = .ok () ∧
          Outcome contents
            (transition.follow Replay.step schedule
              (Replay.started config ledger contents shutdown seen) time) := by
      intro time result hreturned
      obtain ⟨turns, hrun, hallowed⟩ := transition.run_of_follow hundisturbed time
      exact Replay.outcome hsize hsignal htold hrun hallowed (hgoing time) hreturned
    refine ⟨?_, hreturns⟩
    obtain ⟨time, hdone⟩ := Replay.ranked.eventually hundisturbed hfair hstarted
    obtain ⟨result, hreturned⟩ := Option.isSome_iff_exists.mp hdone
    obtain ⟨rfl, _⟩ := hreturns time result hreturned
    exact ⟨time, hreturned⟩

end

end

/-- A comment, a blank line, and one record with white space around it. -/
def sampleText : String :=
  "# envelopes to anchor\n\n  \x7b\"version\":1,\"cid\":\"bafy-a\",\"title\":\"first\",\"description\":\"\"," ++
    "\"content_type\":\"text/plain\",\"size_bytes\":10,\"timestamp\":1725000000,\"tags\":[]\x7d \n"

/-- The tasks take their turns one after the other. -/
def inTurn (time : Nat) : Turn :=
  match time % 6 with
  | 0 => .act .subscriber_next
  | 1 => .act (.subscriber_ingest none)
  | 2 => .act .subscriber_send
  | 3 => .act .anchorer_recv
  | 4 => .answer
  | _ => .act .anchorer_join

theorem undisturbed_inTurn (time : Nat) : (inTurn time).Undisturbed := by
  unfold inTurn
  split
  case h_2 => exact rfl
  all_goals trivial

theorem fair_inTurn (initial : Replay) {task : Turn} (htask : task.Task) :
    transition.Fair Replay.step inTurn initial task := by
  intro start _
  have hturn : ∀ i < 6, inTurn (6 * start + i) = inTurn i := by
    intro i hi
    have hmod : (6 * start + i) % 6 = i % 6 := by omega
    rw [inTurn, hmod, ← inTurn]
  cases htask with
  | subscriber_next => exact ⟨6 * start + 0, by omega, hturn 0 (by omega)⟩
  | subscriber_ingest => exact ⟨6 * start + 1, by omega, hturn 1 (by omega)⟩
  | subscriber_send => exact ⟨6 * start + 2, by omega, hturn 2 (by omega)⟩
  | anchorer_recv => exact ⟨6 * start + 3, by omega, hturn 3 (by omega)⟩
  | answer => exact ⟨6 * start + 4, by omega, hturn 4 (by omega)⟩
  | anchorer_join => exact ⟨6 * start + 5, by omega, hturn 5 (by omega)⟩

/-- The records of a text are one of a document, the same again, and one of the document under
    another title. -/
def Repeated (contents : String) : Prop :=
  (FileDeliveryClient.from_jsonl contents).envelopes = [
    (sampleEnvelope "bafy-a" "first").serialize.render, (sampleEnvelope "bafy-a" "first").serialize.render,
    (sampleEnvelope "bafy-a" "second").serialize.render]

theorem exists_repeated : ∃ contents, Repeated contents := by
  obtain ⟨contents, hexport⟩ := FileDeliveryClient.export_exists
    [sampleEnvelope "bafy-a" "first", sampleEnvelope "bafy-a" "first", sampleEnvelope "bafy-a" "second"]
  exact ⟨contents, List.map_injective_iff.mpr (fun _ _ => Except.ok.inj) hexport.envelopes⟩

namespace Repeated

variable {contents : String} (hrepeated : Repeated contents)

include hrepeated

theorem reads {line : String} (hline : line ∈ text.lines contents) {envelope : MetadataEnvelopeV1}
    (hreads : FileDeliveryClient.Reads line envelope) :
    envelope = sampleEnvelope "bafy-a" "first" ∨ envelope = sampleEnvelope "bafy-a" "second" := by
  obtain ⟨payload, hrecord, hread⟩ := hreads
  have hmem : payload ∈ (FileDeliveryClient.from_jsonl contents).envelopes := by
    rw [FileDeliveryClient.envelopes_from_jsonl]
    exact List.mem_filterMap.mpr ⟨line, hline, hrecord⟩
  have hfirst := (sampleEnvelope "bafy-a" "first").from_slice_canonical rfl
  have hsecond := (sampleEnvelope "bafy-a" "second").from_slice_canonical rfl
  rw [hrepeated] at hmem
  simp only [List.mem_cons, List.not_mem_nil, or_false] at hmem
  obtain rfl | rfl | rfl := hmem
  · exact .inl (Except.ok.inj (hread.symm.trans hfirst))
  · exact .inl (Except.ok.inj (hread.symm.trans hfirst))
  · exact .inr (Except.ok.inj (hread.symm.trans hsecond))

theorem named : ∃ line ∈ text.lines contents, ∃ envelope,
    FileDeliveryClient.Reads line envelope ∧ envelope.cid = ⟨"bafy-a"⟩ := by
  have hmem : (sampleEnvelope "bafy-a" "first").serialize.render ∈
      (text.lines contents).filterMap FileDeliveryClient.record := by
    rw [← FileDeliveryClient.envelopes_from_jsonl, hrepeated]
    exact List.mem_cons_self
  obtain ⟨line, hline, hrecord⟩ := List.mem_filterMap.mp hmem
  exact ⟨line, hline, _, ⟨_, hrecord, MetadataEnvelopeV1.from_slice_canonical rfl⟩, rfl⟩

/-- The two payloads have different hashes. -/
theorem toldApart : ToldApart sampleConfig.topic contents := by
  have hdigests :
      Sha256.digest (text.bytes sampleConfig.topic ++ 0 :: (sampleEnvelope "bafy-a" "first").serialize.render) ≠
        Sha256.digest (text.bytes sampleConfig.topic ++ 0 :: (sampleEnvelope "bafy-a" "second").serialize.render) := by
    decide +kernel
  rw [ToldApart, hrepeated]
  generalize (sampleEnvelope "bafy-a" "first").serialize.render = first at hdigests ⊢
  generalize (sampleEnvelope "bafy-a" "second").serialize.render = second at hdigests ⊢
  intro one hone other hother hsame
  obtain rfl | rfl : one = first ∨ one = second := by simpa using hone
  · obtain rfl | rfl : other = one ∨ other = second := by simpa using hother
    · rfl
    · exact absurd hsame hdigests
  · obtain rfl | rfl : other = first ∨ other = one := by simpa using hother
    · exact absurd hsame.symm hdigests
    · rfl

theorem unmistaken : Unmistaken contents ⟨"bafy-a"⟩ := by
  intro line hline envelope hreads _
  obtain rfl | rfl := hrepeated.reads hline hreads
  · rfl
  · rfl

end Repeated

/-- The document is anchored with its first description, and the payloads are reported. -/
theorem file_replay_repeated :
    ∃ contents initial time, Repeated contents ∧ Loop.start sampleConfig (.ok none)
        ((FileDeliveryClient.from_jsonl contents).subscribe sampleConfig.topic) ⟨false, 0, false⟩ 0 = .ok initial ∧
      (transition.follow Replay.step inTurn ⟨initial, .default⟩ time).loop.returned = some (.ok ()) ∧
      (∃ entry, (transition.follow Replay.step inTurn ⟨initial, .default⟩ time).registry.entries
        (cid_hash ⟨"bafy-a"⟩) = some entry ∧ FirstNaming contents ⟨"bafy-a"⟩ entry.metadata_hash) ∧
      (reported (transition.follow Replay.step inTurn ⟨initial, .default⟩ time).loop.calls).sum =
        (parsing contents).card := by
  obtain ⟨contents, hrepeated⟩ := exists_repeated
  obtain ⟨initial, hstart, hreplay⟩ := @file_replay _ sampleConfig none contents ⟨false, 0, false⟩ 0
    (by decide) (by decide +kernel) (by decide) (by decide) rfl rfl hrepeated.toldApart
  obtain ⟨⟨time, hreturned⟩, houtcome⟩ :=
    hreplay inTurn undisturbed_inTurn fun task htask => fair_inTurn _ htask
  obtain ⟨_, hnamed, hfirst, hsizes⟩ := houtcome time _ hreturned
  have hpresent := (hnamed _ hrepeated.unmistaken).mpr hrepeated.named
  obtain ⟨entry, hentry⟩ := Option.isSome_iff_exists.mp hpresent
  obtain ⟨_, hnaming⟩ := hfirst _ hrepeated.unmistaken entry hentry
  exact ⟨contents, initial, time, hrepeated, hstart, hreturned, ⟨entry, hentry, hnaming⟩, hsizes⟩

/-- A loop that has panicked does not go on. -/
theorem Loop.panicked_step [Sha256] {loop next : Loop} {action : Action} {message : String}
    (hpanicked : loop.anchorer = .panicked message) (hstep : loop.step action = some next) :
    next.anchorer = .panicked message := by
  have hbusy : ∀ {place : Anchorer}, loop.anchorer = place → place = .panicked message :=
    fun hplace => hplace.symm.trans hpanicked
  cases step_cases hstep with
  | anchorer_woken hplace => cases hbusy hplace
  | anchorer_stopped hplace => cases hbusy hplace
  | buffered _ _ hplace => cases hbusy hplace
  | filled _ _ hplace => cases hbusy hplace
  | channel_closed _ hplace => cases hbusy hplace
  | idle_tick hplace => cases hbusy hplace
  | tick hplace => cases hbusy hplace
  | replied _ _ _ _ hplace => cases hbusy hplace
  | unwound _ _ _ hplace => cases hbusy hplace
  | joined _ hplace => cases hbusy hplace
  | _ => exact hpanicked

/-- The largest batch size that can be asked for. -/
def oversizedConfig : BatchConfig := { sampleConfig with batch_size := 2 ^ 64 - 1 }

/-- A batch size whose buffer cannot be counted makes the loop panic at its start, so that it
    never returns. -/
theorem oversized_buffer_panics : ¬ ∀ (config : BatchConfig) (contents : String), 1 ≤ config.batch_size →
    config.batch_size < 2 ^ 64 → config.batch_interval ≠ 0 → 1 ≤ config.retry_policy.max_attempts.toNat →
    ToldApart config.topic contents → ∀ initial,
      Loop.start config (.ok none) ((FileDeliveryClient.from_jsonl contents).subscribe config.topic)
        ⟨false, 0, false⟩ 0 = .ok initial →
      ∀ schedule : Nat → Turn, (∀ time, (schedule time).Undisturbed) →
        (∀ task : Turn, task.Task → transition.Fair Replay.step schedule ⟨initial, .default⟩ task) →
        ∃ time, (transition.follow Replay.step schedule ⟨initial, .default⟩ time).loop.returned = some (.ok ()) := by
  intro hclaim
  have htold : ToldApart oversizedConfig.topic "" := fun _ hnone => nomatch hnone
  obtain ⟨time, hreturned⟩ := hclaim oversizedConfig "" (by decide +kernel) (by decide +kernel) (by decide)
    (by decide) htold (Replay.started oversizedConfig none "" ⟨false, 0, false⟩ 0).loop rfl inTurn undisturbed_inTurn
    fun task htask => fair_inTurn _ htask
  have hstep : ∀ (replay : Replay) (turn : Turn) (next : Replay), True →
      replay.loop.anchorer = .panicked "capacity overflow" → replay.step turn = some next →
      next.loop.anchorer = .panicked "capacity overflow" := by
    intro replay turn next _ hpanicked hnext
    obtain ⟨action, haction, _⟩ := (Replay.step_cases hnext).loop
    exact Loop.panicked_step hpanicked haction
  have hoversized : Loop.prepared oversizedConfig = .panicked "capacity overflow" := if_pos (by decide +kernel)
  have hstays : (transition.follow Replay.step inTurn
      ⟨(Replay.started oversizedConfig none "" ⟨false, 0, false⟩ 0).loop, .default⟩ time).loop.anchorer =
        .panicked "capacity overflow" := transition.follow_preserves hstep (fun _ => trivial) hoversized time
  rw [Loop.anchorer_of_returned hreturned] at hstays
  cases hstays

end document_indexing.batch
