import Whistleblower.Indexing.Batch.Shutdown

open whistleblower_core

namespace document_indexing.batch

/-- No shutdown is signalled, and the file system does not fail. -/
def Undisturbed : Action → Prop
  | .shutdown_send value => value = false
  | .subscriber_ingest fault => fault = none
  | _ => True

instance : (action : Action) → Decidable (Undisturbed action)
  | .shutdown_send value => inferInstanceAs (Decidable (value = false))
  | .subscriber_ingest fault => decidable_of_iff (fault.isNone = true) Option.isNone_iff_eq_none
  | .shutdown_drop | .subscriber_changed | .subscriber_next | .subscriber_send | .anchorer_changed | .anchorer_recv
  | .anchorer_tick | .anchorer_reply _ | .anchorer_unwind | .anchorer_join => .isTrue trivial

section

variable [Sha256]

/-- The envelope is on the topic, parses, and carries this pair. -/
def Announces (topic : String) (envelope : ReceivedEnvelope) (pair : Pair) : Prop :=
  ∃ parsed, parse_envelope envelope topic = .ok parsed ∧ parsed.cid = pair.1 ∧
    parsed.metadata_hash = .ok pair.2

theorem accept_eq_some {topic : String} {envelope : ReceivedEnvelope} {outcome : Except IoFault IngestOutcome}
    {pair : Pair} :
    accept topic envelope outcome = some pair ↔
      (∃ hash, outcome = .ok (.New hash)) ∧ Announces topic envelope pair := by
  unfold accept Announces
  constructor
  · intro haccept
    split at haccept
    · cases haccept
    · cases haccept
    · rename_i hash
      split at haccept
      · cases haccept
      · rename_i parsed hparse
        split at haccept
        · cases haccept
        · rename_i mh hhash
          cases haccept
          exact ⟨⟨hash, rfl⟩, parsed, hparse, rfl, hhash⟩
  · rintro ⟨⟨hash, rfl⟩, parsed, hparse, hcid, hhash⟩
    simp [hparse, hcid, hhash]

theorem Announces.from_slice {topic : String} {received : ReceivedEnvelope} {pair : Pair}
    (hannounces : Announces topic received pair) :
    ∃ envelope, MetadataEnvelopeV1.from_slice received.payload = .ok envelope ∧ envelope.cid = pair.1 ∧
      envelope.metadata_hash = .ok pair.2 := by
  obtain ⟨envelope, hparse, hcid, hhash⟩ := hannounces
  unfold parse_envelope at hparse
  split at hparse
  · cases hparse
  · split at hparse
    · rename_i read hread
      cases hparse
      exact ⟨envelope, hread, hcid, hhash⟩
    · cases hparse

end

namespace Loop

section

variable [Sha256]

/-- Without a shutdown, the subscriber ends with its stream and the anchorer
    leaves after the subscriber has ended. -/
structure Uninterrupted (loop : Loop) : Prop where
  signal : loop.shutdown.value = false
  exhausted : loop.subscriber = .finished none → loop.stream = []
  left : loop.anchorer.left = true → ∃ unsent, loop.subscriber = .finished unsent

omit [Sha256] in
theorem Uninterrupted.leave {loop : Loop} (huninterrupted : loop.Uninterrupted) {unsent : Option Pair}
    (hsubscriber : loop.subscriber = .finished unsent) : loop.leave.Uninterrupted := by
  rcases loop.leave_cases with ⟨_, hleave⟩ | ⟨_, hleave⟩ <;> rw [hleave] <;>
    exact ⟨huninterrupted.signal, huninterrupted.exhausted, fun _ => ⟨unsent, hsubscriber⟩⟩

omit [Sha256] in
/-- The anchorer stays while the subscriber has not ended. -/
theorem Uninterrupted.stays {loop : Loop} (huninterrupted : loop.Uninterrupted)
    (hsubscriber : ∀ unsent, loop.subscriber ≠ .finished unsent) : ¬ loop.anchorer.left = true := by
  intro hgone
  obtain ⟨unsent, hfinished⟩ := huninterrupted.left hgone
  exact hsubscriber unsent hfinished

theorem Uninterrupted.step {loop next : Loop} {action : Action} (hundisturbed : Undisturbed action)
    (huninterrupted : loop.Uninterrupted) (hstep : loop.step action = some next) : next.Uninterrupted := by
  have hstays := huninterrupted.stays
  obtain ⟨hsignal, hexhausted, hleft⟩ := huninterrupted
  cases step_cases hstep with
  | shutdown_send value => exact ⟨hundisturbed, hexhausted, hleft⟩
  | subscriber_woken hsubscriber =>
    refine ⟨hsignal, ?_, ?_⟩
    · intro hfinished
      simp [hsignal] at hfinished
    · exact fun hgone => absurd hgone (hstays (by simp [hsubscriber]))
  | stream_closed _ hstream => exact ⟨hsignal, fun _ => hstream, fun _ => ⟨none, rfl⟩⟩
  | receive_error e rest hsubscriber =>
    refine ⟨hsignal, ?_, hleft⟩
    intro hfinished
    rw [hsubscriber] at hfinished
    cases hfinished
  | received envelope rest hsubscriber =>
    refine ⟨hsignal, fun hfinished => (nomatch hfinished), ?_⟩
    exact fun hgone => absurd hgone (hstays (by simp [hsubscriber]))
  | ingested fault envelope hsubscriber outcome =>
    refine ⟨hsignal, ?_, ?_⟩
    · intro hfinished
      cases haccept : accept loop.config.topic envelope outcome <;> simp [haccept] at hfinished
    · exact fun hgone => absurd hgone (hstays (by simp [hsubscriber]))
  | sent pair hsubscriber =>
    refine ⟨hsignal, fun hfinished => (nomatch hfinished), ?_⟩
    exact fun hgone => absurd hgone (hstays (by simp [hsubscriber]))
  | unsent pair => exact ⟨hsignal, fun hfinished => (nomatch hfinished), fun _ => ⟨some pair, rfl⟩⟩
  | anchorer_stopped _ _ hvalue =>
    rw [hsignal] at hvalue
    cases hvalue
  | filled => exact ⟨hsignal, hexhausted, fun hgone => by cases (left_after_flush _).symm.trans hgone⟩
  | channel_closed unsent _ _ hsubscriber => exact Uninterrupted.leave ⟨hsignal, hexhausted, hleft⟩ hsubscriber
  | tick => exact ⟨hsignal, hexhausted, fun hgone => by cases (left_after_flush _).symm.trans hgone⟩
  | replied exchange pending rest after hanchorer =>
    refine ⟨hsignal, hexhausted, ?_⟩
    intro hgone
    cases after with
    | «continue» => cases (left_after_flush rest).symm.trans hgone
    | leave => exact hleft (by rw [hanchorer]; rfl)
  | unwound => exact ⟨hsignal, hexhausted, fun hgone => (nomatch hgone)⟩
  | joined unsent _ hsubscriber => exact ⟨hsignal, hexhausted, fun _ => ⟨unsent, hsubscriber⟩⟩
  | _ => exact ⟨hsignal, hexhausted, hleft⟩

/-- Without a shutdown the anchorer never leaves anything behind. -/
theorem Uninterrupted.drained {loop : Loop} (huninterrupted : loop.Uninterrupted) (action : Action) :
    loop.Drained action := by
  cases action with
  | anchorer_changed =>
    intro hvalue
    rw [huninterrupted.signal] at hvalue
    cases hvalue
  | subscriber_ingest fault =>
    intro hleft
    obtain ⟨unsent, hfinished⟩ := huninterrupted.left hleft
    rw [next_accepted, hfinished]
  | _ => trivial

/-- A hash is known once an envelope that has it was ingested, whatever became of
    its line in the file. -/
theorem Ingests.seen {Permitted : Option IoFault → Prop} {dedupe current : DurableDedupeStore}
    {ledger file : File} {log : List (ReceivedEnvelope × Except IoFault IngestOutcome)}
    (hingests : Ingests Permitted dedupe ledger log current file) (hash : String) :
    hash ∈ current.seen ↔ hash ∈ dedupe.seen ∨ ∃ entry ∈ log, envelope_hash entry.1 = hash := by
  induction hingests with
  | nil => simp
  | @snoc log current next before after _ fault _ envelope outcome hingest ih =>
    have hnext : hash ∈ next.seen ↔ hash ∈ current.seen ∨ envelope_hash envelope = hash := by
      have hseen := current.ingest_seen before fault envelope
      rw [hingest] at hseen
      rw [show next.seen = _ from hseen, Finset.mem_insert, or_comm, eq_comm]
    rw [hnext, ih]
    simp only [List.mem_append, List.mem_singleton]
    constructor
    · rintro ((hmem | ⟨entry, hentry, rfl⟩) | rfl)
      · exact .inl hmem
      · exact .inr ⟨entry, .inl hentry, rfl⟩
      · exact .inr ⟨_, .inr rfl, rfl⟩
    · rintro (hmem | ⟨entry, hentry | rfl, rfl⟩)
      · exact .inl (.inl hmem)
      · exact .inl (.inr ⟨entry, hentry, rfl⟩)
      · exact .inr rfl

/-- Without failures an envelope is new exactly if its hash was not in the ledger
    and no earlier envelope of the run had it. -/
theorem Ingests.new_iff {dedupe current : DurableDedupeStore} {ledger file : File}
    {log before after : List (ReceivedEnvelope × Except IoFault IngestOutcome)} {envelope : ReceivedEnvelope}
    {outcome : Except IoFault IngestOutcome} (hingests : Ingests (· = none) dedupe ledger log current file)
    (hlog : log = before ++ (envelope, outcome) :: after) :
    (∃ hash, outcome = .ok (.New hash)) ↔
      envelope_hash envelope ∉ dedupe.seen ∧ ∀ entry ∈ before, envelope_hash entry.1 ≠ envelope_hash envelope := by
  induction hingests generalizing after with
  | nil => simp at hlog
  | @snoc log current next file' file'' hearlier fault hpermitted last result hingest ih =>
    subst hpermitted
    rcases List.eq_nil_or_concat after with rfl | ⟨middle, tail, rfl⟩
    · obtain ⟨rfl, hlast⟩ := List.append_inj' hlog rfl
      cases hlast
      have hseen := hearlier.seen (envelope_hash envelope)
      have hnew : (∃ hash, outcome = .ok (.New hash)) ↔ envelope_hash envelope ∉ current.seen := by
        by_cases hknown : envelope_hash envelope ∈ current.seen
        · rw [DurableDedupeStore.ingest_of_mem hknown] at hingest
          cases hingest
          simp [hknown]
        · rw [DurableDedupeStore.ingest_of_not_mem hknown] at hingest
          cases hingest
          simp [hknown]
      rw [hnew, hseen, not_or]
      simp
    · rw [List.concat_eq_append, ← List.cons_append, ← List.append_assoc] at hlog
      obtain ⟨hlog, _⟩ := List.append_inj' hlog rfl
      exact ih hlog

/-- A run that is left alone meets no failure of its file. -/
theorem Records.of_undisturbed {initial last : Loop} {actions : List Action}
    (hinitial : Records (· = none) initial initial) (hrun : transition.run Loop.step initial actions = some last)
    (hundisturbed : ∀ action ∈ actions, Undisturbed action) : Records (· = none) initial last := by
  refine transition.run_preserves_along (C := fun _ => Undisturbed) (P := Records (· = none) initial) ?_
    (.of_forall (fun action haction _ => hundisturbed action haction) initial) hinitial hrun
  intro loop action next hallowed hcurrent hstep
  refine hcurrent.step ?_ hstep
  cases action with
  | subscriber_ingest fault => exact hallowed
  | _ => trivial

/-- Every pair on its way to the registry was announced on the topic. -/
theorem Sound.announced {stream : List (Except AdapterError ReceivedEnvelope)} {initial loop : Loop}
    (hsound : Sound stream initial loop) {pair : Pair} (hpair : pair ∈ loop.pipeline) :
    ∃ received, .ok received ∈ stream ∧ Announces initial.config.topic received pair := by
  rw [hsound.conserves, accepted, hsound.config, List.mem_filterMap] at hpair
  obtain ⟨entry, hentry, haccept⟩ := hpair
  exact ⟨entry.1, hsound.delivers.mem_stream hentry, (accept_eq_some.mp haccept).2⟩

/-- What a run that was left alone has done when it returns. -/
structure Completed (stream : List (Except AdapterError ReceivedEnvelope)) (initial last : Loop) : Prop where
  flushed : last.batches.flatten = last.accepted
  anchored : ∀ batch ∈ last.batches, Anchored last.calls batch
  delivered : stream.filterMap Except.toOption = last.ingested.map Prod.fst
  recorded : Records (· = none) initial last

omit [Sha256] in
theorem Uninterrupted.started (config : BatchConfig) (dedupe : DurableDedupeStore) (ledger : File)
    (stream : List (Except AdapterError ReceivedEnvelope)) {shutdown : Watch} (hsignal : shutdown.value = false)
    (seen : Nat) : (started config dedupe ledger stream shutdown seen).Uninterrupted := by
  refine ⟨hsignal, fun hfinished => (nomatch hfinished), fun hleft => ?_⟩
  obtain hprepared | ⟨message, hprepared⟩ := prepared_eq config <;>
    simp [Loop.started, hprepared, Anchorer.left] at hleft

/-- A run that is not shut down, and returns successfully, has flushed everything it
    accepted of its whole stream. -/
theorem Completed.of_run {config : BatchConfig} (hsize : 1 ≤ config.batch_size) {dedupe : DurableDedupeStore}
    {ledger : File} {stream : List (Except AdapterError ReceivedEnvelope)} {shutdown : Watch} {seen : Nat}
    {last : Loop} {actions : List Action}
    (hrun : transition.run step (Loop.started config dedupe ledger stream shutdown seen) actions = some last)
    (hsignal : shutdown.value = false) (hundisturbed : ∀ action ∈ actions, Undisturbed action)
    (hreturned : last.returned = some (.ok ())) :
    Completed stream (Loop.started config dedupe ledger stream shutdown seen) last := by
  have hstarted := Sound.started hsize dedupe ledger stream shutdown seen
  have halong : transition.Along step (fun _ => Undisturbed)
      (Loop.started config dedupe ledger stream shutdown seen) actions :=
    .of_forall (fun action haction _ => hundisturbed action haction) _
  obtain ⟨hsound, hemptied, huninterrupted⟩ := transition.run_preserves_along
    (P := fun loop => Sound stream (Loop.started config dedupe ledger stream shutdown seen) loop ∧
      loop.Emptied ∧ loop.Uninterrupted)
    (fun _ action _ hallowed ⟨hcurrent, hemptied, huninterrupted⟩ hstep =>
      ⟨hcurrent.step hstep, hemptied.step (huninterrupted.drained action) hcurrent.unsent hstep,
        huninterrupted.step hallowed hstep⟩)
    halong ⟨hstarted, fun _ => ⟨rfl, rfl, rfl⟩, .started config dedupe ledger stream hsignal seen⟩ hrun
  have hanchorer := anchorer_of_returned hreturned
  have hleft : last.anchorer.left = true := by rw [hanchorer]; rfl
  obtain ⟨hbuffer, hchannel, hheld⟩ := hemptied hleft
  obtain ⟨unsent, hfinished⟩ := huninterrupted.left hleft
  rw [hfinished] at hheld
  cases hheld
  obtain ⟨consumed, hstream, hdelivered⟩ := hsound.delivers
  rw [huninterrupted.exhausted hfinished, List.append_nil] at hstream
  rw [hfinished] at hdelivered
  have hrecorded : Records (· = none) (Loop.started config dedupe ledger stream shutdown seen) last :=
    .of_undisturbed .nil hrun hundisturbed
  refine ⟨?_, fun _ => hsound.flushes.anchored hreturned, ?_, hrecorded⟩
  · rw [← hsound.conserves, pipeline, hbuffer, hchannel, hfinished]
    simp
  · rw [hstream, hdelivered]
    exact List.append_nil _

end

end Loop

/-- Whatever earlier runs left in the ledger, a later run that is left alone submits a
    pair exactly if an envelope of its stream announces it whose hash is not in that
    ledger, and is the first of its hash in the stream. -/
theorem resubmitted_iff [Sha256] {config : BatchConfig} {ledger : File}
    {stream : List (Except AdapterError ReceivedEnvelope)} {shutdown : Watch} {seen : Nat}
    {initial last : Loop} {actions : List Action}
    (hstart : Loop.start config (.ok ledger) (.ok stream) shutdown seen = .ok initial)
    (hrun : transition.run Loop.step initial actions = some last) (hsignal : shutdown.value = false)
    (hundisturbed : ∀ action ∈ actions, Undisturbed action) (hreturned : last.returned = some (.ok ()))
    (pair : Pair) :
    (∃ batch ∈ last.batches, pair ∈ batch ∧ Anchored last.calls batch) ↔
      ∃ before envelope after, stream.filterMap Except.toOption = before ++ envelope :: after ∧
        Announces config.topic envelope pair ∧ envelope_hash envelope ∉ initial.dedupe.seen ∧
        ∀ earlier ∈ before, envelope_hash earlier ≠ envelope_hash envelope := by
  obtain ⟨hsize, ledger, dedupe, _, _, _, hstream, rfl⟩ := Loop.start_cases hstart
  cases hstream
  have hcompleted := Loop.Completed.of_run hsize hrun hsignal hundisturbed hreturned
  have hconfig : last.config = config :=
    ((Loop.Sound.started hsize dedupe ledger stream shutdown seen).run hrun).config
  have hsubmitted : (∃ batch ∈ last.batches, pair ∈ batch ∧ Anchored last.calls batch) ↔ pair ∈ last.accepted := by
    rw [← hcompleted.flushed, List.mem_flatten]
    constructor
    · rintro ⟨batch, hbatch, hpair, _⟩
      exact ⟨batch, hbatch, hpair⟩
    · rintro ⟨batch, hbatch, hpair⟩
      exact ⟨batch, hbatch, hpair, hcompleted.anchored batch hbatch⟩
  rw [hsubmitted, Loop.accepted, hconfig, List.mem_filterMap]
  constructor
  · rintro ⟨⟨envelope, outcome⟩, hentry, haccept⟩
    obtain ⟨hnew, hannounces⟩ := accept_eq_some.mp haccept
    obtain ⟨before, after, hlog⟩ := List.append_of_mem hentry
    obtain ⟨hunrecorded, hfirst⟩ := (hcompleted.recorded.new_iff hlog).mp hnew
    refine ⟨before.map Prod.fst, envelope, after.map Prod.fst, ?_, hannounces, hunrecorded, ?_⟩
    · rw [hcompleted.delivered, hlog, List.map_append, List.map_cons]
    · intro earlier hearlier
      obtain ⟨entry, hentry, rfl⟩ := List.mem_map.mp hearlier
      exact hfirst entry hentry
  · rintro ⟨before, envelope, after, hstream, hannounces, hunrecorded, hfirst⟩
    rw [hcompleted.delivered] at hstream
    obtain ⟨earlier, rest, hlog, rfl, hrest⟩ := List.map_eq_append_iff.mp hstream
    obtain ⟨⟨received, outcome⟩, later, rfl, hreceived, _⟩ := List.map_eq_cons_iff.mp hrest
    change received = envelope at hreceived
    subst hreceived
    refine ⟨(received, outcome), by rw [hlog]; exact List.mem_append_right _ List.mem_cons_self, ?_⟩
    apply accept_eq_some.mpr
    refine ⟨(hcompleted.recorded.new_iff hlog).mpr ⟨hunrecorded, ?_⟩, hannounces⟩
    exact fun entry hentry => hfirst entry.1 (List.mem_map_of_mem hentry)

theorem announcement_announces (topic : String) (envelope : MetadataEnvelopeV1) :
    Announces topic (announcement topic envelope)
      (envelope.cid, ⟨Sha256.digest envelope.serialize.render⟩) := by
  refine ⟨envelope, ?_, rfl, rfl⟩
  have hread : MetadataEnvelopeV1.from_slice (announcement topic envelope).payload = .ok envelope :=
    MetadataEnvelopeV1.from_slice_canonical rfl
  rw [parse_envelope, if_neg (by simp [announcement]), hread]

/-- A run stops after ingesting its announcement. On the ledger that it left, another
    announcement is submitted with the end of the stream. -/
theorem resubmitted_iff_stopped :
    let first := announcement sampleConfig.topic (sampleEnvelope "bafy-a" "first")
    let second := announcement sampleConfig.topic (sampleEnvelope "bafy-b" "second")
    let pair := samplePair "bafy-b" "second"
    let actions := [.subscriber_next, .subscriber_ingest none] ++ deliver ++ [.subscriber_next, .anchorer_recv] ++
      replies [pair] ++ [.anchorer_join]
    ∃ stopped initial last,
      sampleRun [.ok first] [.subscriber_next, .subscriber_ingest none] = some stopped ∧
      Loop.start sampleConfig (.ok stopped.ledger) (.ok [.ok first, .ok second]) ⟨false, 0, false⟩ 0 = .ok initial ∧
      envelope_hash first ∈ initial.dedupe.seen ∧ transition.run Loop.step initial actions = some last ∧
      ∃ batch ∈ last.batches, pair ∈ batch ∧ Anchored last.calls batch := by
  intro first second pair actions
  have hevaluated : (do
      let stopped ← sampleRun [.ok first] [.subscriber_next, .subscriber_ingest none]
      let initial ← (Loop.start sampleConfig (.ok stopped.ledger) (.ok [.ok first, .ok second])
        ⟨false, 0, false⟩ 0).toOption
      let last ← transition.run Loop.step initial actions
      some (decide (envelope_hash first ∈ initial.dedupe.seen), decide (envelope_hash second ∈ initial.dedupe.seen),
        last.returned)) = some (true, false, some (.ok ())) := by
    decide +kernel
  simp only [Option.bind_eq_bind, Option.bind_eq_some_iff] at hevaluated
  obtain ⟨stopped, hstopped, initial, hinitial, last, hrun, hlast⟩ := hevaluated
  simp only [Option.some.injEq, Prod.mk.injEq, decide_eq_true_eq, decide_eq_false_iff_not] at hlast
  obtain ⟨hfirst, hsecond, hreturned⟩ := hlast
  have hstart := eq_ok_of_toOption hinitial
  have hundisturbed : ∀ action ∈ actions, Undisturbed action := by decide +kernel
  refine ⟨stopped, initial, last, hstopped, hstart, hfirst, hrun, ?_⟩
  refine (resubmitted_iff hstart hrun rfl hundisturbed hreturned pair).mpr ?_
  refine ⟨[first], second, [], rfl, announcement_announces _ _, hsecond, ?_⟩
  intro earlier hearlier hsame
  rw [List.mem_singleton.mp hearlier] at hsame
  rw [hsame] at hfirst
  exact hsecond hfirst

/-- A run that stops after ingesting its envelope has written it to the ledger. A
    second run, left alone, is delivered the envelope again and submits nothing. -/
theorem reemission_is_not_resubmitted :
    let envelope := sampleEnvelope "bafy-a" "first"
    let pair : Pair := (envelope.cid, ⟨Sha256.digest envelope.serialize.render⟩)
    let stream := [.ok (announcement sampleConfig.topic envelope)]
    let actions := [.subscriber_next, .subscriber_ingest none, .subscriber_next, .anchorer_recv, .anchorer_join]
    ∃ crashed initial last,
      sampleRun stream [.subscriber_next, .subscriber_ingest none] = some crashed ∧
      crashed.calls.length = 0 ∧
      Loop.start sampleConfig (.ok crashed.ledger) (.ok stream) ⟨false, 0, false⟩ 0 = .ok initial ∧
      transition.run Loop.step initial actions = some last ∧
      (∀ action ∈ actions, Undisturbed action) ∧ last.stream = [] ∧ last.returned = some (.ok ()) ∧
      Announces sampleConfig.topic (announcement sampleConfig.topic envelope) pair ∧
      ¬∃ batch ∈ last.batches, pair ∈ batch := by
  intro envelope pair stream actions
  have hevaluated : (do
      let crashed ← sampleRun stream [.subscriber_next, .subscriber_ingest none]
      let initial ← (Loop.start sampleConfig (.ok crashed.ledger) (.ok stream) ⟨false, 0, false⟩ 0).toOption
      let last ← transition.run Loop.step initial actions
      some (crashed.calls.length, last.stream.length, last.batches.length, last.returned)) =
        some (0, 0, 0, some (.ok ())) := by
    decide +kernel
  simp only [Option.bind_eq_bind, Option.bind_eq_some_iff] at hevaluated
  obtain ⟨crashed, hcrashed, initial, hinitial, last, hrun, hlast⟩ := hevaluated
  simp only [Option.some.injEq, Prod.mk.injEq] at hlast
  obtain ⟨hcalls, hstream, hbatches, hreturned⟩ := hlast
  refine ⟨crashed, initial, last, hcrashed, hcalls, eq_ok_of_toOption hinitial, hrun, by decide,
    List.length_eq_zero_iff.mp hstream, hreturned, announcement_announces _ _, ?_⟩
  rw [List.length_eq_zero_iff.mp hbatches]
  rintro ⟨batch, hbatch, _⟩
  cases hbatch

end document_indexing.batch
