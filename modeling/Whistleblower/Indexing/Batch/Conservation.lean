import Whistleblower.Indexing.Batch.Flush

open whistleblower_core

namespace document_indexing.batch

/-- The envelope a subscriber has received and not yet ingested. -/
@[simp] def Subscriber.awaiting : Subscriber → Option ReceivedEnvelope
  | .ingesting envelope => some envelope
  | _ => none

/-- The pair a subscriber has ingested and not handed over. -/
@[simp] def Subscriber.held : Subscriber → Option Pair
  | .sending pair => some pair
  | .finished unsent => unsent
  | _ => none

namespace Loop

/-- The pairs handed over for submission, then those that wait for it, in order. -/
def pipeline (self : Loop) : List Pair :=
  self.batches.flatten ++ self.buffer ++ self.channel ++ self.subscriber.held.toList

section

variable [Sha256]

/-- The pairs of the envelopes that were ingested as new and parsed, in order. -/
def accepted (self : Loop) : List Pair :=
  self.ingested.filterMap fun (envelope, outcome) => accept self.config.topic envelope outcome

@[simp] theorem accepted_flush (loop : Loop) (after : After) : (loop.flush after).accepted = loop.accepted := rfl

@[simp] theorem accepted_leave (loop : Loop) : loop.leave.accepted = loop.accepted := by
  rcases loop.leave_cases with ⟨_, hleave⟩ | ⟨_, hleave⟩ <;> rw [hleave] <;> rfl

end

/-- A flush moves the buffer to the batches, and loses nothing of it. -/
@[simp] theorem pipeline_flush (loop : Loop) (after : After) : (loop.flush after).pipeline = loop.pipeline := by
  simp [pipeline, flush]

@[simp] theorem pipeline_leave (loop : Loop) : loop.leave.pipeline = loop.pipeline := by
  rcases loop.leave_cases with ⟨_, hleave⟩ | ⟨_, hleave⟩
  · rw [hleave]
    rfl
  · rw [hleave, pipeline_flush]

/-- Receiving moves a pair from the front of the channel to the end of the buffer. -/
theorem pipeline_recv {loop : Loop} {pair : Pair} {rest : List Pair} (hchannel : loop.channel = pair :: rest) :
    pipeline { loop with channel := rest, buffer := loop.buffer ++ [pair] } = loop.pipeline := by
  simp [pipeline, hchannel]

variable [Sha256]

/-- The pipeline holds exactly what was accepted. -/
def Conserves (loop : Loop) : Prop := loop.pipeline = loop.accepted

theorem Conserves.step {loop next : Loop} {action : Action} (hconserves : loop.Conserves)
    (hstep : loop.step action = some next) : next.Conserves := by
  unfold Conserves at hconserves ⊢
  cases step_cases hstep with
  | subscriber_woken hsubscriber =>
    refine Eq.trans ?_ hconserves
    cases loop.shutdown.value <;> simp [pipeline, hsubscriber]
  | stream_closed hsubscriber =>
    refine Eq.trans ?_ hconserves
    simp [pipeline, hsubscriber]
  | received envelope rest hsubscriber =>
    refine Eq.trans ?_ hconserves
    simp [pipeline, hsubscriber]
  | ingested fault envelope hsubscriber outcome =>
    have hheld : loop.subscriber.held = none := by rw [hsubscriber]; rfl
    simp only [pipeline, accepted, hheld] at hconserves ⊢
    rw [List.filterMap_append, ← hconserves]
    cases haccept : accept loop.config.topic envelope outcome <;> simp [haccept]
  | sent pair hsubscriber =>
    refine Eq.trans ?_ hconserves
    simp [pipeline, hsubscriber]
  | unsent pair hsubscriber =>
    refine Eq.trans ?_ hconserves
    simp [pipeline, hsubscriber]
  | anchorer_stopped =>
    rw [pipeline_leave, accepted_leave]
    exact hconserves
  | buffered pair rest _ hchannel =>
    rw [pipeline_recv hchannel]
    exact hconserves
  | filled pair rest _ hchannel =>
    rw [pipeline_flush, accepted_flush, pipeline_recv hchannel]
    exact hconserves
  | channel_closed =>
    rw [pipeline_leave, accepted_leave]
    exact hconserves
  | tick =>
    rw [pipeline_flush, accepted_flush]
    exact hconserves
  | _ => exact hconserves

/-- Batches are neither empty nor too long, and the buffer stays below the size
    at which it is flushed. -/
structure Sized (loop : Loop) : Prop where
  batches : ∀ batch ∈ loop.batches, 1 ≤ batch.length ∧ batch.length ≤ loop.config.batch_size
  buffer : loop.buffer.length < loop.config.batch_size

omit [Sha256] in
theorem Sized.flush {loop : Loop} (hbatches : ∀ batch ∈ loop.batches,
      1 ≤ batch.length ∧ batch.length ≤ loop.config.batch_size)
    (hbuffer : loop.buffer ≠ []) (hsize : loop.buffer.length ≤ loop.config.batch_size) (after : After) :
    (loop.flush after).Sized := by
  have hpositive := List.length_pos_iff.mpr hbuffer
  constructor
  · intro batch hbatch
    rcases List.mem_append.mp hbatch with hbatch | hbatch
    · exact hbatches batch hbatch
    · rw [List.mem_singleton.mp hbatch]
      exact ⟨hpositive, hsize⟩
  · exact Nat.lt_of_lt_of_le hpositive hsize

omit [Sha256] in
theorem Sized.leave {loop : Loop} (hsized : loop.Sized) : loop.leave.Sized := by
  rcases loop.leave_cases with ⟨_, hleave⟩ | ⟨hbuffer, hleave⟩
  · rw [hleave]
    exact ⟨hsized.batches, hsized.buffer⟩
  · rw [hleave]
    exact .flush hsized.batches hbuffer (Nat.le_of_lt hsized.buffer) .leave

theorem Sized.step {loop next : Loop} {action : Action} (hsized : loop.Sized)
    (hstep : loop.step action = some next) : next.Sized := by
  cases step_cases hstep with
  | anchorer_stopped =>
    have hwoken : Sized { loop with anchorer_seen := loop.shutdown.version } :=
      ⟨hsized.batches, hsized.buffer⟩
    exact hwoken.leave
  | buffered pair rest _ _ hroom => exact ⟨hsized.batches, hroom⟩
  | filled pair rest _ _ hfull =>
    have hlength : (loop.buffer ++ [pair]).length ≤ loop.config.batch_size := by
      have hbuffer := hsized.buffer
      rw [List.length_append, List.length_singleton]
      omega
    apply Sized.flush
    · exact hsized.batches
    · simp
    · exact hlength
  | channel_closed => exact hsized.leave
  | tick _ hbuffer => exact .flush hsized.batches hbuffer (Nat.le_of_lt hsized.buffer) .continue
  | _ => exact ⟨hsized.batches, hsized.buffer⟩

/-- The envelopes delivered so far are those ingested, and at most one that is
    about to be. -/
def Delivers (stream : List (Except AdapterError ReceivedEnvelope)) (loop : Loop) : Prop :=
  ∃ consumed, stream = consumed ++ loop.stream ∧
    consumed.filterMap Except.toOption = loop.ingested.map Prod.fst ++ loop.subscriber.awaiting.toList

omit [Sha256] in
theorem leave_delivers {stream : List (Except AdapterError ReceivedEnvelope)} {loop : Loop}
    (hdelivers : loop.Delivers stream) : loop.leave.Delivers stream := by
  rcases loop.leave_cases with ⟨_, hleave⟩ | ⟨_, hleave⟩ <;> rw [hleave] <;> exact hdelivers

theorem Delivers.step {stream : List (Except AdapterError ReceivedEnvelope)} {loop next : Loop}
    {action : Action} (hdelivers : loop.Delivers stream) (hstep : loop.step action = some next) :
    next.Delivers stream := by
  obtain ⟨consumed, hstream, hingested⟩ := hdelivers
  cases step_cases hstep with
  | subscriber_woken hsubscriber =>
    refine ⟨consumed, hstream, ?_⟩
    rw [hsubscriber] at hingested
    cases loop.shutdown.value <;> exact hingested
  | stream_closed hsubscriber =>
    refine ⟨consumed, hstream, ?_⟩
    rw [hsubscriber] at hingested
    exact hingested
  | receive_error e rest hsubscriber hrest =>
    refine ⟨consumed ++ [.error e], by simp [hstream, hrest], ?_⟩
    have hnone : [(Except.error e : Except AdapterError ReceivedEnvelope)].filterMap Except.toOption = [] := rfl
    rw [List.filterMap_append, hnone, List.append_nil]
    exact hingested
  | received envelope rest hsubscriber hrest =>
    refine ⟨consumed ++ [.ok envelope], by simp [hstream, hrest], ?_⟩
    have hone : [(Except.ok envelope : Except AdapterError ReceivedEnvelope)].filterMap Except.toOption =
        [envelope] := rfl
    rw [hsubscriber] at hingested
    simp [List.filterMap_append, hone, hingested]
  | ingested fault envelope hsubscriber outcome =>
    refine ⟨consumed, hstream, ?_⟩
    rw [hsubscriber] at hingested
    cases haccept : accept loop.config.topic envelope outcome <;> simpa using hingested
  | sent pair hsubscriber =>
    refine ⟨consumed, hstream, ?_⟩
    rw [hsubscriber] at hingested
    exact hingested
  | unsent pair hsubscriber =>
    refine ⟨consumed, hstream, ?_⟩
    rw [hsubscriber] at hingested
    exact hingested
  | anchorer_stopped => exact leave_delivers ⟨consumed, hstream, hingested⟩
  | channel_closed => exact leave_delivers ⟨consumed, hstream, hingested⟩
  | _ => exact ⟨consumed, hstream, hingested⟩

omit [Sha256] in
theorem Delivers.mem_stream {stream : List (Except AdapterError ReceivedEnvelope)} {loop : Loop}
    (hdelivers : loop.Delivers stream) {entry : ReceivedEnvelope × Except IoFault IngestOutcome}
    (hentry : entry ∈ loop.ingested) : .ok entry.1 ∈ stream := by
  obtain ⟨consumed, hstream, hdelivered⟩ := hdelivers
  have hconsumed : entry.1 ∈ consumed.filterMap Except.toOption := by
    rw [hdelivered]
    exact List.mem_append_left _ (List.mem_map_of_mem hentry)
  obtain ⟨item, hitem, hreceived⟩ := List.mem_filterMap.mp hconsumed
  rw [hstream]
  cases item with
  | error e => cases hreceived
  | ok envelope =>
    cases hreceived
    exact List.mem_append_left _ hitem

/-- The answer an action brings, if it brings one. -/
def reply : Action → Option (Exchange Adapters)
  | .anchorer_reply exchange => some exchange
  | _ => none

theorem calls_step {loop next : Loop} {action : Action} (hstep : loop.step action = some next) :
    next.calls = loop.calls ++ (reply action).toList := by
  cases step_cases hstep with
  | anchorer_stopped =>
    rcases leave_cases { loop with anchorer_seen := loop.shutdown.version } with ⟨_, hleave⟩ | ⟨_, hleave⟩ <;>
      rw [hleave] <;> exact (List.append_nil _).symm
  | channel_closed =>
    rcases loop.leave_cases with ⟨_, hleave⟩ | ⟨_, hleave⟩ <;> rw [hleave] <;> exact (List.append_nil _).symm
  | replied => rfl
  | _ => exact (List.append_nil _).symm

/-- The recorded calls of a run are the answers its schedule brings. -/
theorem calls_run {initial last : Loop} {actions : List Action}
    (hrun : transition.run Loop.step initial actions = some last) :
    last.calls = initial.calls ++ actions.filterMap reply := by
  induction actions generalizing initial with
  | nil =>
    cases hrun
    exact (List.append_nil _).symm
  | cons action rest ih =>
    obtain ⟨next, hstep, hrest⟩ := transition.run_cons_eq_some.mp hrun
    rw [ih hrest, calls_step hstep, List.append_assoc, List.filterMap_cons]
    cases reply action <;> rfl

/-- A log of ingested envelopes is what the ledger answered, one after another,
    under failures of the permitted kinds. -/
inductive Ingests (Permitted : Option IoFault → Prop) (dedupe : DurableDedupeStore) (ledger : File) :
    List (ReceivedEnvelope × Except IoFault IngestOutcome) → DurableDedupeStore → File → Prop where
  | nil : Ingests Permitted dedupe ledger [] dedupe ledger
  | snoc {log : List (ReceivedEnvelope × Except IoFault IngestOutcome)} {current next : DurableDedupeStore}
      {before after : File} (earlier : Ingests Permitted dedupe ledger log current before)
      (fault : Option IoFault) (hpermitted : Permitted fault) (envelope : ReceivedEnvelope)
      (outcome : Except IoFault IngestOutcome)
      (hingest : current.ingest before fault envelope = (outcome, next, after)) :
      Ingests Permitted dedupe ledger (log ++ [(envelope, outcome)]) next after

/-- The failures an action brings are of the permitted kinds. -/
def Faults (Permitted : Option IoFault → Prop) : Action → Prop
  | .subscriber_ingest fault => Permitted fault
  | _ => True

/-- The run so far has asked the ledger about exactly the envelopes in its record. -/
def Records (Permitted : Option IoFault → Prop) (initial loop : Loop) : Prop :=
  Ingests Permitted initial.dedupe initial.ledger loop.ingested loop.dedupe loop.ledger

omit [Sha256] in
theorem leave_keeps (loop : Loop) :
    loop.leave.config = loop.config ∧ loop.leave.subscriber = loop.subscriber ∧
      loop.leave.channel = loop.channel ∧ loop.leave.stream = loop.stream ∧
      loop.leave.dedupe = loop.dedupe ∧ loop.leave.ledger = loop.ledger ∧
      loop.leave.ingested = loop.ingested ∧ loop.leave.calls = loop.calls := by
  rcases loop.leave_cases with ⟨_, hleave⟩ | ⟨_, hleave⟩ <;> rw [hleave] <;>
    exact ⟨rfl, rfl, rfl, rfl, rfl, rfl, rfl, rfl⟩

theorem Records.step {Permitted : Option IoFault → Prop} {initial loop next : Loop} {action : Action}
    (hpermitted : Faults Permitted action) (hrecords : Records Permitted initial loop)
    (hstep : loop.step action = some next) : Records Permitted initial next := by
  have hleave : ∀ current : Loop, Records Permitted initial current → Records Permitted initial current.leave := by
    intro current hcurrent
    obtain ⟨_, _, _, _, hdedupe, hledger, hingested, _⟩ := current.leave_keeps
    rw [Records, hdedupe, hledger, hingested]
    exact hcurrent
  cases step_cases hstep with
  | ingested fault envelope _ outcome dedupe ledger hingest =>
    exact .snoc hrecords fault hpermitted envelope outcome hingest
  | anchorer_stopped => exact hleave { loop with anchorer_seen := loop.shutdown.version } hrecords
  | channel_closed => exact hleave loop hrecords
  | _ => exact hrecords

theorem config_step {loop next : Loop} {action : Action} (hstep : loop.step action = some next) :
    next.config = loop.config := by
  cases step_cases hstep with
  | anchorer_stopped => exact (leave_keeps { loop with anchorer_seen := loop.shutdown.version }).1
  | channel_closed => exact (leave_keeps loop).1
  | _ => rfl

/-- A pair is lost with the subscriber only after the anchorer has ended. -/
def UnsentAfterEnd (loop : Loop) : Prop :=
  ∀ pair, loop.subscriber = .finished (some pair) → loop.receiver_dropped = true

theorem UnsentAfterEnd.step {loop next : Loop} {action : Action} (hunsent : loop.UnsentAfterEnd)
    (hstep : loop.step action = some next) : next.UnsentAfterEnd := by
  have hselecting : loop.anchorer = .selecting → ∀ pair, loop.subscriber ≠ .finished (some pair) := by
    intro hanchorer pair hfinished
    have h := hunsent pair hfinished
    rw [receiver_dropped, hanchorer] at h
    cases h
  intro pair hfinished
  cases step_cases hstep with
  | subscriber_woken hsubscriber => cases hvalue : loop.shutdown.value <;> simp [hvalue] at hfinished
  | stream_closed => cases hfinished
  | receive_error => exact hunsent pair hfinished
  | received => cases hfinished
  | ingested fault envelope _ outcome =>
    cases haccept : accept loop.config.topic envelope outcome <;> simp [haccept] at hfinished
  | sent => cases hfinished
  | unsent other _ hreceiver => exact hreceiver
  | anchorer_stopped hanchorer =>
    rw [(leave_keeps _).2.1] at hfinished
    exact absurd hfinished (hselecting hanchorer pair)
  | channel_closed _ hanchorer =>
    rw [(leave_keeps _).2.1] at hfinished
    exact absurd hfinished (hselecting hanchorer pair)
  | filled _ _ hanchorer => exact absurd hfinished (hselecting hanchorer pair)
  | tick hanchorer => exact absurd hfinished (hselecting hanchorer pair)
  | replied exchange pending rest after hanchorer =>
    have h := hunsent pair hfinished
    rw [receiver_dropped, hanchorer] at h
    cases h
  | unwound => rfl
  | joined => rfl
  | _ => exact hunsent pair hfinished

/-- All of the above, in one invariant of a run. -/
structure Sound (stream : List (Except AdapterError ReceivedEnvelope)) (initial loop : Loop) : Prop where
  config : loop.config = initial.config
  conserves : loop.Conserves
  delivers : loop.Delivers stream
  records : Records (fun _ => True) initial loop
  sized : loop.Sized
  flushes : loop.Flushes
  unsent : loop.UnsentAfterEnd

theorem Sound.started {config : BatchConfig} (hsize : 1 ≤ config.batch_size) (dedupe : DurableDedupeStore)
    (ledger : File) (stream : List (Except AdapterError ReceivedEnvelope)) (shutdown : Watch) (seen : Nat) :
    Sound stream (started config dedupe ledger stream shutdown seen)
      (started config dedupe ledger stream shutdown seen) where
  config := rfl
  conserves := rfl
  delivers := ⟨[], rfl, rfl⟩
  records := .nil
  sized := ⟨fun _ hbatch => (nomatch hbatch), hsize⟩
  flushes := .started config dedupe ledger stream shutdown seen
  unsent := fun _ hfinished => (nomatch hfinished)

theorem Sound.step {stream : List (Except AdapterError ReceivedEnvelope)} {initial loop next : Loop}
    {action : Action} (hsound : Sound stream initial loop) (hstep : loop.step action = some next) :
    Sound stream initial next where
  config := (config_step hstep).trans hsound.config
  conserves := hsound.conserves.step hstep
  delivers := hsound.delivers.step hstep
  records := hsound.records.step (by cases action <;> trivial) hstep
  sized := hsound.sized.step hstep
  flushes := hsound.flushes.step hstep
  unsent := hsound.unsent.step hstep

theorem Sound.run {stream : List (Except AdapterError ReceivedEnvelope)} {initial last : Loop}
    {actions : List Action} (hsound : Sound stream initial initial)
    (hrun : transition.run Loop.step initial actions = some last) : Sound stream initial last :=
  transition.run_preserves (P := Sound stream initial) (fun _ _ _ hcurrent hstep => hcurrent.step hstep)
    hsound hrun

end Loop

/-- At every reachable point, the batches handed to a flush, the buffer, the channel
    and the pair in the subscriber's hands are together, in order, the pairs of the
    delivered envelopes that the ledger took as new and that parsed. Every batch the
    registry is asked for is one of these batches, neither empty nor too long. -/
theorem pipeline_conserves [Sha256] {config : BatchConfig} {file : Except IoFault File}
    {stream : List (Except AdapterError ReceivedEnvelope)} {shutdown : Watch} {seen : Nat}
    {initial last : Loop} {actions : List Action}
    (hstart : Loop.start config file (.ok stream) shutdown seen = .ok initial)
    (hrun : transition.run Loop.step initial actions = some last) :
    last.batches.flatten ++ last.buffer ++ last.channel ++ last.subscriber.held.toList =
        last.ingested.filterMap (fun (envelope, outcome) => accept config.topic envelope outcome) ∧
      (∃ consumed, stream = consumed ++ last.stream ∧
        consumed.filterMap Except.toOption = last.ingested.map Prod.fst ++ last.subscriber.awaiting.toList) ∧
      Loop.Ingests (fun _ => True) initial.dedupe initial.ledger last.ingested last.dedupe last.ledger ∧
      (∀ batch ∈ last.batches, 1 ≤ batch.length ∧ batch.length ≤ config.batch_size) ∧
      (∀ exchange ∈ last.calls, ∀ entries,
        exchange.request = AdapterCall.anchor_batch entries → entries ∈ last.batches) ∧
      (∀ entries resume after,
        last.anchorer = .flushing (.ask (AdapterCall.anchor_batch entries) resume) after → entries ∈ last.batches) ∧
      (last.receiver_dropped = false → ∀ pair, last.subscriber ≠ .finished (some pair)) := by
  obtain ⟨hsize, ledger, dedupe, stream', _, _, hstream, rfl⟩ := Loop.start_cases hstart
  cases hstream
  have hsound := (Loop.Sound.started hsize dedupe ledger stream shutdown seen).run hrun
  have hconfig : last.config = config := hsound.config
  refine ⟨?_, hsound.delivers, hsound.records, ?_, hsound.flushes.submitted, ?_, ?_⟩
  · have hconserves := hsound.conserves
    rw [Loop.Conserves, Loop.accepted, hconfig] at hconserves
    exact hconserves
  · have hbatches := hsound.sized.batches
    rw [hconfig] at hbatches
    exact hbatches
  · intro entries resume after hanchorer
    exact hsound.flushes.asked (.inr ⟨resume, after, hanchorer⟩)
  · intro hreceiver pair hfinished
    rw [hsound.unsent pair hfinished] at hreceiver
    cases hreceiver

/-- An envelope as its publisher broadcasts it. -/
def announcement (topic : String) (envelope : MetadataEnvelopeV1) : ReceivedEnvelope where
  message_hash := ""
  topic := topic
  payload := envelope.serialize.render
  timestamp_ns := 0

/-- The steps that take one delivered item through the subscriber into the buffer. -/
def deliver : List Action := [.subscriber_next, .subscriber_ingest none, .subscriber_send, .anchorer_recv]

/-- The registry's answer to a batch of CIDs it has not seen. -/
def accepting (batch : List Pair) : Exchange Adapters :=
  anchored_call batch (batch.map fun pair => new_entry pair.1 pair.2 0)

/-- The answers to the two calls of a flush whose batch is accepted at once. -/
def replies (batch : List Pair) : List Action := [
  .anchorer_reply (accepting batch),
  .anchorer_reply ⟨AdapterCall.sink_send { batch_size := batch.length, anchored := batch.length }, ()⟩]

def sampleConfig : BatchConfig where
  topic := DEFAULT_CONTENT_TOPIC
  batch_size := 2
  batch_interval := .from_millis 1000
  retry_policy := .default

def sampleEnvelope (cid title : String) : MetadataEnvelopeV1 where
  version := 1
  cid := ⟨cid⟩
  title := title
  description := ""
  content_type := "text/plain"
  size_bytes := 10
  timestamp := 1725000000
  tags := []

/-- The pair that the subscriber computes from the announcement. -/
def samplePair [Sha256] (cid title : String) : Pair :=
  (⟨cid⟩, ⟨Sha256.digest (sampleEnvelope cid title).serialize.render⟩)

theorem sampleStart (stream : List (Except AdapterError ReceivedEnvelope)) :
    Loop.start sampleConfig (.ok none) (.ok stream) ⟨false, 0, false⟩ 0 =
      .ok (Loop.started sampleConfig { seen := ∅ } none stream ⟨false, 0, false⟩ 0) := rfl

/-- A run on a fresh ledger, with a signal that has not been touched. -/
def sampleRun (stream : List (Except AdapterError ReceivedEnvelope)) (actions : List Action) : Option Loop :=
  transition.run Loop.step (Loop.started sampleConfig { seen := ∅ } none stream ⟨false, 0, false⟩ 0) actions

/-- Two announcements with a receive error between them fill a batch. -/
theorem pipeline_conserves_full_batch :
    let stream := [
      .ok (announcement sampleConfig.topic (sampleEnvelope "bafy-a" "first")),
      .error (.retryable "receive"),
      .ok (announcement sampleConfig.topic (sampleEnvelope "bafy-b" "second"))]
    ∃ last, sampleRun stream (deliver ++ .subscriber_next :: deliver) = some last ∧
      last.batches.map List.length = [2] ∧
      last.batches.flatten ++ last.buffer ++ last.channel ++ last.subscriber.held.toList =
        last.ingested.filterMap fun (envelope, outcome) => accept sampleConfig.topic envelope outcome := by
  intro stream
  have hevaluated : (sampleRun stream (deliver ++ .subscriber_next :: deliver)).map
      (fun last => last.batches.map List.length) = some [2] := by
    decide +kernel
  obtain ⟨last, hrun, hlengths⟩ := Option.map_eq_some_iff.mp hevaluated
  exact ⟨last, hrun, hlengths, (pipeline_conserves (sampleStart stream) hrun).1⟩

end document_indexing.batch
