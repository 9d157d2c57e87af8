import Whistleblower.Lib.Fairness
import Whistleblower.Mock.Registry
import Whistleblower.Indexing.Batch.Recovery

open whistleblower_core whistleblower_mock_adapter first_writer

namespace document_indexing.batch

/-- A run of the loop together with the registry that it submits to. -/
structure Replay where
  loop : Loop
  registry : MockRegistryClient

/-- A turn of the schedule: an action, or the answer to the pending call. -/
inductive Turn where
  | act (action : Action)
  | answer

section

variable [Sha256]

/-- What is answered to a call, if the registry, the sink or the clock is asked. -/
def serve (registry : MockRegistryClient) :
    (request : AdapterCall) → Option (request.Response × MockRegistryClient)
  | .anchor_one cid metadata_hash => some (registry.anchor_one cid metadata_hash)
  | .anchor_batch entries => some (registry.anchor_batch entries)
  | .query_by_cid_hash cid_hash => some (registry.query_by_cid_hash cid_hash, registry)
  | .sink_send _ => some ((), registry)
  | .sleep _ => some ((), registry)
  | .upload_file _ | .publish _ _ | .panic _ => none

namespace Replay

def answer (self : Replay) : Option Replay :=
  match self.loop.anchorer with
  | .flushing (.ask request _) _ =>
    (serve self.registry request).bind fun (response, registry) =>
      (self.loop.anchorer_reply ⟨request, response⟩).map fun loop => { loop, registry }
  | _ => none

/-- Take one turn, if it is enabled. Calls are answered by the registry only. -/
def step (self : Replay) : Turn → Option Replay
  | .act (.anchorer_reply _) => none
  | .act action => (self.loop.step action).map fun loop => { self with loop }
  | .answer => self.answer

/-- Everything a turn can do. -/
inductive Stepped (replay : Replay) : Turn → Replay → Prop where
  | acted {action : Action} {loop : Loop} (hreply : Loop.reply action = none)
      (hstep : replay.loop.step action = some loop) : Stepped replay (.act action) { replay with loop }
  | answered {request : AdapterCall} {resume : Adapters.Response request → Async Adapters (Except BatchError Unit)}
      {after : After} {response : request.Response} {registry : MockRegistryClient}
      (hanchorer : replay.loop.anchorer = .flushing (.ask request resume) after)
      (hserve : serve replay.registry request = some (response, registry)) :
      Stepped replay .answer {
        loop := { replay.loop with
          calls := replay.loop.calls ++ [⟨request, response⟩]
          anchorer := Loop.after_flush (resume response) after }
        registry }

omit [Sha256] in
theorem anchorer_reply_ask {loop : Loop} {request : AdapterCall}
    {resume : Adapters.Response request → Async Adapters (Except BatchError Unit)} {after : After}
    (hanchorer : loop.anchorer = .flushing (.ask request resume) after) (response : request.Response) :
    loop.anchorer_reply ⟨request, response⟩ = some { loop with
      calls := loop.calls ++ [⟨request, response⟩]
      anchorer := Loop.after_flush (resume response) after } := by
  have hresume := Async.resume?_ask (I := Adapters) resume response
  unfold Loop.anchorer_reply
  simp only [hanchorer, hresume]

theorem step_cases {replay next : Replay} {turn : Turn} (hstep : replay.step turn = some next) :
    Stepped replay turn next := by
  cases turn with
  | act action =>
    cases action with
    | anchorer_reply exchange => cases hstep
    | shutdown_drop =>
      cases hstep
      exact .acted rfl rfl
    | _ =>
      obtain ⟨loop, hloop, rfl⟩ := Option.map_eq_some_iff.mp hstep
      exact .acted rfl hloop
  | answer =>
    rw [step, answer] at hstep
    split at hstep
    · rename_i request resume after hanchorer
      obtain ⟨⟨response, registry⟩, hserve, hstep⟩ := Option.bind_eq_some_iff.mp hstep
      obtain ⟨loop, hloop, rfl⟩ := Option.map_eq_some_iff.mp hstep
      rw [anchorer_reply_ask hanchorer] at hloop
      cases hloop
      exact .answered hanchorer hserve
    · cases hstep

/-- A turn takes one step of the loop. -/
theorem Stepped.loop {replay next : Replay} {turn : Turn} (hstepped : Stepped replay turn next) :
    ∃ action, replay.loop.step action = some next.loop ∧
      (turn = .act action ∨ (turn = .answer ∧ Undisturbed action)) := by
  cases hstepped with
  | acted _ hstep => exact ⟨_, hstep, .inl rfl⟩
  | @answered request resume after response registry hanchorer hserve =>
    refine ⟨.anchorer_reply ⟨request, response⟩, ?_, .inr ⟨rfl, trivial⟩⟩
    exact anchorer_reply_ask hanchorer response

end Replay

end

/-- How many calls are left to a flush that goes well. -/
def calls_left : Async Adapters (Except BatchError Unit) → Nat
  | .ret _ => 0
  | .ask request _ =>
    match (request : AdapterCall) with
    | .anchor_batch _ => 2
    | _ => 1

def Subscriber.rank : Subscriber → Nat
  | .selecting => 1
  | .ingesting _ => 7
  | .sending _ => 6
  | .finished _ => 0

def After.rank : After → Nat
  | .continue => 2
  | .leave => 1

def Anchorer.rank : Anchorer → Nat
  | .selecting => 2
  | .flushing pending after => calls_left pending + after.rank
  | .joining => 1
  | .returned _ => 0
  | .panicked _ => 0

namespace Loop

/-- The work that is left. An item counts for more the less far it has come. -/
def rank (self : Loop) : Nat :=
  8 * self.stream.length + self.subscriber.rank + 4 * self.channel.length + 3 * self.buffer.length +
    self.anchorer.rank

/-- An action that can leave the tasks where they are. -/
def Idle : Action → Prop
  | .shutdown_send _ | .shutdown_drop | .subscriber_changed | .anchorer_changed | .anchorer_tick => True
  | _ => False

/-- At most the signal, and what is seen of it, differ. -/
def Alike (loop next : Loop) : Prop :=
  ∃ shutdown subscriber_seen anchorer_seen, next = { loop with shutdown, subscriber_seen, anchorer_seen }

/-- A flush starts with the submission of its batch, and reports what is accepted. -/
theorem flush_batch_eq {config : BatchConfig} (hattempts : 1 ≤ config.retry_policy.max_attempts.toNat)
    (batch : List Pair) :
    ∃ resume : Except AdapterError (List AnchorEntry) → Async Adapters (Except BatchError Unit),
      flush_batch config batch = .ask (I := Adapters) (AdapterCall.anchor_batch batch) resume ∧
      ∀ entries, resume (.ok entries) = .ask (I := Adapters)
        (AdapterCall.sink_send { batch_size := batch.length, anchored := entries.length })
        fun _ => .ret (.ok ()) := by
  obtain ⟨left, hleft⟩ := Nat.exists_eq_add_of_le' hattempts
  unfold flush_batch with_retry
  rw [hleft]
  exact ⟨_, rfl, fun _ => rfl⟩

theorem rank_flush (loop : Loop) (hattempts : 1 ≤ loop.config.retry_policy.max_attempts.toNat) (after : After) :
    (loop.flush after).rank =
      8 * loop.stream.length + loop.subscriber.rank + 4 * loop.channel.length + 2 + after.rank := by
  obtain ⟨resume, hflush, _⟩ := flush_batch_eq hattempts loop.buffer
  rw [rank, flush, hflush]
  simp only [after_flush, Anchorer.rank, calls_left, List.length_nil]
  omega

/-- Leaving the loop is progress. -/
theorem rank_leave {loop : Loop} (hattempts : 1 ≤ loop.config.retry_policy.max_attempts.toNat)
    (hanchorer : loop.anchorer = .selecting) : loop.leave.rank < loop.rank := by
  obtain ⟨hbuffer, hleave⟩ | ⟨hbuffer, hleave⟩ := loop.leave_cases
  · rw [hleave]
    simp only [rank, hanchorer, Anchorer.rank]
    omega
  · have hpositive := List.length_pos_iff.mpr hbuffer
    rw [hleave, rank_flush loop hattempts]
    simp only [rank, hanchorer, Anchorer.rank, After.rank]
    omega

variable [Sha256]

/-- Unless it answers a call, a step without a shutdown makes progress, or is idle and
    changes only the signal and what is seen of it. -/
theorem rank_step {loop next : Loop} {action : Action} (hattempts : 1 ≤ loop.config.retry_policy.max_attempts.toNat)
    (hsignal : loop.shutdown.value = false) (hreply : reply action = none) (hstep : loop.step action = some next) :
    next.rank < loop.rank ∨ (Idle action ∧ loop.Alike next) := by
  cases step_cases hstep with
  | shutdown_send => exact .inr ⟨trivial, _, _, _, rfl⟩
  | shutdown_drop => exact .inr ⟨trivial, _, _, _, rfl⟩
  | subscriber_woken hsubscriber =>
    refine .inr ⟨trivial, loop.shutdown, loop.shutdown.version, loop.anchorer_seen, ?_⟩
    rw [hsignal, ← hsubscriber]
    rfl
  | stream_closed hsubscriber =>
    left
    simp only [rank, hsubscriber, Subscriber.rank]
    omega
  | receive_error e rest hsubscriber hstream =>
    left
    simp only [rank, hstream, List.length_cons]
    omega
  | received envelope rest hsubscriber hstream =>
    left
    simp only [rank, hsubscriber, hstream, Subscriber.rank, List.length_cons]
    omega
  | ingested fault envelope hsubscriber outcome =>
    left
    cases haccept : accept loop.config.topic envelope outcome <;>
      simp only [rank, hsubscriber, Subscriber.rank] <;> omega
  | sent pair hsubscriber =>
    left
    simp only [rank, hsubscriber, Subscriber.rank, List.length_append, List.length_singleton]
    omega
  | unsent pair hsubscriber =>
    left
    simp only [rank, hsubscriber, Subscriber.rank]
    omega
  | anchorer_woken => exact .inr ⟨trivial, _, _, _, rfl⟩
  | anchorer_stopped _ _ hvalue =>
    rw [hsignal] at hvalue
    cases hvalue
  | buffered pair rest _ hchannel =>
    left
    simp only [rank, hchannel, List.length_append, List.length_cons, List.length_nil]
    omega
  | filled pair rest hanchorer hchannel =>
    left
    rw [rank_flush { loop with channel := rest, buffer := loop.buffer ++ [pair] } hattempts]
    simp only [rank, hanchorer, hchannel, Anchorer.rank, After.rank, List.length_cons]
    omega
  | channel_closed _ hanchorer => exact .inl (rank_leave hattempts hanchorer)
  | idle_tick => exact .inr ⟨trivial, _, _, _, rfl⟩
  | tick hanchorer hbuffer =>
    left
    have hpositive := List.length_pos_iff.mpr hbuffer
    rw [rank_flush loop hattempts]
    simp only [rank, hanchorer, Anchorer.rank, After.rank]
    omega
  | replied => cases hreply
  | unwound message resume after hanchorer =>
    left
    simp only [rank, hanchorer, Anchorer.rank, calls_left]
    omega
  | joined _ hanchorer =>
    left
    simp only [rank, hanchorer, Anchorer.rank]
    omega

omit [Sha256] in
theorem subscriber_next_enabled {loop : Loop} (hsubscriber : loop.subscriber = .selecting) :
    loop.subscriber_next.isSome := by
  rw [subscriber_next, hsubscriber]
  cases loop.stream with
  | nil => rfl
  | cons item rest => cases item <;> rfl

theorem subscriber_ingest_enabled {loop : Loop} {envelope : ReceivedEnvelope} (fault : Option IoFault)
    (hsubscriber : loop.subscriber = .ingesting envelope) : (loop.subscriber_ingest fault).isSome := by
  rw [subscriber_ingest, hsubscriber]
  rfl

omit [Sha256] in
theorem subscriber_send_enabled {loop : Loop} {pair : Pair} (hsubscriber : loop.subscriber = .sending pair) :
    loop.subscriber_send.isSome := by
  rw [subscriber_send, hsubscriber]
  dsimp only
  split <;> rfl

omit [Sha256] in
theorem anchorer_recv_enabled {loop : Loop} (hanchorer : loop.anchorer = .selecting)
    (hready : loop.channel ≠ [] ∨ ∃ unsent, loop.subscriber = .finished unsent) : loop.anchorer_recv.isSome := by
  rw [anchorer_recv, hanchorer]
  cases hchannel : loop.channel with
  | cons pair rest => rfl
  | nil =>
    obtain ⟨unsent, hsubscriber⟩ := hready.resolve_left (not_not.mpr hchannel)
    rw [hsubscriber]
    rfl

omit [Sha256] in
theorem anchorer_join_enabled {loop : Loop} {unsent : Option Pair} (hanchorer : loop.anchorer = .joining)
    (hsubscriber : loop.subscriber = .finished unsent) : loop.anchorer_join.isSome := by
  rw [anchorer_join, hanchorer, hsubscriber]
  rfl

end Loop

/-- No shutdown is signalled, and the file system does not fail. -/
def Turn.Undisturbed : Turn → Prop
  | .act action => batch.Undisturbed action
  | .answer => True

/-- The turns in which a task goes on. -/
inductive Turn.Task : Turn → Prop where
  | subscriber_next : Turn.Task (.act .subscriber_next)
  | subscriber_ingest : Turn.Task (.act (.subscriber_ingest none))
  | subscriber_send : Turn.Task (.act .subscriber_send)
  | anchorer_recv : Turn.Task (.act .anchorer_recv)
  | answer : Turn.Task .answer
  | anchorer_join : Turn.Task (.act .anchorer_join)

/-- A turn that can leave the tasks where they are. -/
def Turn.Idle : Turn → Prop
  | .act action => Loop.Idle action
  | .answer => False

theorem Turn.Task.undisturbed {turn : Turn} (htask : turn.Task) : turn.Undisturbed := by
  cases htask with
  | subscriber_ingest => exact rfl
  | _ => trivial

/-- The sizes reported to the sink, oldest first. -/
def reported (calls : List (Exchange Adapters)) : List Nat :=
  calls.filterMap fun exchange =>
    match (exchange.request : AdapterCall) with
    | .sink_send submission => some submission.batch_size
    | _ => none

section

variable [Sha256]

/-- These batches were anchored and reported. -/
structure Mirrors (batches : List (List Pair)) (calls : List (Exchange Adapters)) (registry : MockRegistryClient) :
    Prop where
  reported : reported calls = batches.map List.length
  entries : registry.entries = claim_all (fun _ => none) (batches.flatten.map MockRegistryClient.write)

/-- What is pending after a batch was anchored: the report of its size. -/
def report (batch : List Pair) (entries : List AnchorEntry) : Async Adapters (Except BatchError Unit) :=
  .ask (I := Adapters) (AdapterCall.sink_send { batch_size := batch.length, anchored := entries.length })
    fun _ => .ret (.ok ())

/-- How far the registry and the sink are, at each place of the anchorer. -/
inductive Underway (batches : List (List Pair)) (calls : List (Exchange Adapters)) (registry : MockRegistryClient) :
    Anchorer → Prop where
  | selecting (hmirrors : Mirrors batches calls registry) : Underway batches calls registry .selecting
  | joining (hmirrors : Mirrors batches calls registry) : Underway batches calls registry .joining
  | returned (hmirrors : Mirrors batches calls registry) : Underway batches calls registry (.returned (.ok ()))
  | submitting {earlier : List (List Pair)} {batch : List Pair}
      {resume : Except AdapterError (List AnchorEntry) → Async Adapters (Except BatchError Unit)} (after : After)
      (hbatches : batches = earlier ++ [batch]) (hmirrors : Mirrors earlier calls registry)
      (hresume : ∀ entries, resume (.ok entries) = report batch entries) :
      Underway batches calls registry (.flushing (.ask (I := Adapters) (AdapterCall.anchor_batch batch) resume) after)
  | reporting {earlier : List (List Pair)} {batch : List Pair} {entries : List AnchorEntry} (after : After)
      (hbatches : batches = earlier ++ [batch]) (hreported : reported calls = earlier.map List.length)
      (hentries : registry.entries = claim_all (fun _ => none) (batches.flatten.map MockRegistryClient.write)) :
      Underway batches calls registry (.flushing (report batch entries) after)

omit [Sha256] in
theorem reported_append (calls : List (Exchange Adapters)) (exchange : Exchange Adapters) :
    reported (calls ++ [exchange]) = reported calls ++ reported [exchange] := List.filterMap_append

/-- What the registry answers to a batch, and holds afterwards. -/
theorem serve_batch (registry : MockRegistryClient) (batch : List Pair) :
    ∃ entries, serve registry (.anchor_batch batch) =
      some ((Except.ok entries : Except AdapterError (List AnchorEntry)),
      { entries := claim_all registry.entries (batch.map MockRegistryClient.write) }) := by
  obtain ⟨entries, hloop, _⟩ := MockRegistryClient.anchor_batch_loop_eq batch [] registry
  exact ⟨[] ++ entries, congrArg some hloop⟩

namespace Underway

variable {loop : Loop} {registry : MockRegistryClient}

theorem flush (loop : Loop) (hattempts : 1 ≤ loop.config.retry_policy.max_attempts.toNat)
    (hmirrors : Mirrors loop.batches loop.calls registry) (after : After) :
    Underway (loop.flush after).batches (loop.flush after).calls registry (loop.flush after).anchorer := by
  obtain ⟨resume, hflush, hresume⟩ := Loop.flush_batch_eq hattempts loop.buffer
  rw [Loop.flush, hflush]
  exact .submitting after rfl hmirrors hresume

theorem leave (hattempts : 1 ≤ loop.config.retry_policy.max_attempts.toNat)
    (hmirrors : Mirrors loop.batches loop.calls registry) :
    Underway loop.leave.batches loop.leave.calls registry loop.leave.anchorer := by
  obtain ⟨_, hleave⟩ | ⟨_, hleave⟩ := loop.leave_cases
  · rw [hleave]
    exact .joining hmirrors
  · rw [hleave]
    exact flush loop hattempts hmirrors .leave

theorem of_selecting (hunderway : Underway loop.batches loop.calls registry loop.anchorer)
    (hanchorer : loop.anchorer = .selecting) : Mirrors loop.batches loop.calls registry := by
  rw [hanchorer] at hunderway
  cases hunderway with
  | selecting hmirrors => exact hmirrors

/-- A step that answers nothing keeps the registry and the sink in place. -/
theorem acted {next : Loop} {action : Action} (hattempts : 1 ≤ loop.config.retry_policy.max_attempts.toNat)
    (hsignal : loop.shutdown.value = false) (hunderway : Underway loop.batches loop.calls registry loop.anchorer)
    (hreply : Loop.reply action = none) (hstep : loop.step action = some next) :
    Underway next.batches next.calls registry next.anchorer := by
  cases Loop.step_cases hstep with
  | anchorer_stopped _ _ hvalue =>
    rw [hsignal] at hvalue
    cases hvalue
  | filled pair rest hanchorer =>
    exact flush { loop with channel := rest, buffer := loop.buffer ++ [pair] } hattempts
      (hunderway.of_selecting hanchorer) .continue
  | channel_closed _ hanchorer => exact leave hattempts (hunderway.of_selecting hanchorer)
  | tick hanchorer => exact flush loop hattempts (hunderway.of_selecting hanchorer) .continue
  | replied => cases hreply
  | unwound message resume after hanchorer =>
    rw [hanchorer] at hunderway
    cases hunderway
  | joined _ hanchorer =>
    rw [hanchorer] at hunderway
    cases hunderway with
    | joining hmirrors => exact .returned hmirrors
  | _ => exact hunderway

/-- An answer brings the flush one call further. -/
theorem answered {request : AdapterCall}
    {resume : Adapters.Response request → Async Adapters (Except BatchError Unit)}
    {after : After} {response : request.Response} {registry' : MockRegistryClient}
    (hunderway : Underway loop.batches loop.calls registry (.flushing (.ask request resume) after))
    (hserve : serve registry request = some (response, registry')) :
    Underway loop.batches (loop.calls ++ [⟨request, response⟩]) registry' (Loop.after_flush (resume response) after) ∧
      (Loop.after_flush (resume response) after).rank <
        (Anchorer.flushing (.ask (I := Adapters) request resume) after).rank := by
  cases hunderway with
  | @submitting earlier batch _ _ hbatches hmirrors hresume =>
    obtain ⟨entries, hanswer⟩ := serve_batch registry batch
    rw [hanswer] at hserve
    cases hserve
    rw [hresume]
    have hreported : reported (loop.calls ++ [anchored_call batch entries]) = earlier.map List.length := by
      rw [reported_append, hmirrors.reported]
      exact List.append_nil _
    have hentries : claim_all registry.entries (batch.map MockRegistryClient.write) =
        claim_all (fun _ => none) (loop.batches.flatten.map MockRegistryClient.write) := by
      rw [hmirrors.entries, ← claim_all_append, ← List.map_append, hbatches, List.flatten_append,
        List.flatten_singleton]
    refine ⟨.reporting after hbatches hreported hentries, ?_⟩
    simp [report, Loop.after_flush, Anchorer.rank, calls_left]
  | @reporting earlier batch entries _ hbatches hreported hentries =>
    cases hserve
    have hsizes : reported (loop.calls ++
        [⟨AdapterCall.sink_send { batch_size := batch.length, anchored := entries.length }, ()⟩]) =
          loop.batches.map List.length := by
      rw [reported_append, hreported, hbatches, List.map_append]
      rfl
    have hmirrors : Mirrors loop.batches _ registry := ⟨hsizes, hentries⟩
    cases after with
    | «continue» => exact ⟨.selecting hmirrors, show 2 < 1 + 2 by decide⟩
    | leave => exact ⟨.joining hmirrors, show 1 < 1 + 1 by decide⟩

end Underway

namespace Replay

/-- A run that is left alone, and whose registry accepts every batch. -/
structure Going (replay : Replay) : Prop where
  attempts : 1 ≤ replay.loop.config.retry_policy.max_attempts.toNat
  uninterrupted : replay.loop.Uninterrupted
  underway : Underway replay.loop.batches replay.loop.calls replay.registry replay.loop.anchorer

/-- It stays so, and makes progress in each turn that is not idle. -/
theorem Going.step {replay next : Replay} {turn : Turn} (hundisturbed : turn.Undisturbed) (hgoing : replay.Going)
    (hstep : replay.step turn = some next) :
    next.Going ∧ (next.loop.rank < replay.loop.rank ∨
      (turn.Idle ∧ replay.loop.Alike next.loop ∧ next.registry = replay.registry)) := by
  obtain ⟨hattempts, huninterrupted, hunderway⟩ := hgoing
  cases step_cases hstep with
  | @acted action loop hreply hloop =>
    have hconfig := Loop.config_step hloop
    refine ⟨⟨?_, huninterrupted.step hundisturbed hloop,
      hunderway.acted hattempts huninterrupted.signal hreply hloop⟩, ?_⟩
    · change 1 ≤ loop.config.retry_policy.max_attempts.toNat
      rw [hconfig]
      exact hattempts
    · exact (Loop.rank_step hattempts huninterrupted.signal hreply hloop).imp_right
        fun ⟨hidle, halike⟩ => ⟨hidle, halike, rfl⟩
  | @answered request resume after response registry hanchorer hserve =>
    have hreply : replay.loop.step (.anchorer_reply ⟨request, response⟩) = some _ :=
      anchorer_reply_ask hanchorer response
    rw [hanchorer] at hunderway
    obtain ⟨hnext, hrank⟩ := hunderway.answered hserve
    have hallowed : Undisturbed (.anchorer_reply ⟨request, response⟩) := trivial
    refine ⟨⟨hattempts, huninterrupted.step hallowed hreply, hnext⟩, .inl ?_⟩
    simp only [Loop.rank, hanchorer]
    omega

/-- A run that has returned has anchored and reported all its batches. -/
theorem Going.of_returned {replay : Replay} (hgoing : replay.Going) {result : Except BatchError Unit}
    (hreturned : replay.loop.returned = some result) :
    result = .ok () ∧ Mirrors replay.loop.batches replay.loop.calls replay.registry := by
  have hunderway := hgoing.underway
  rw [Loop.anchorer_of_returned hreturned] at hunderway
  cases hunderway with
  | returned hmirrors => exact ⟨rfl, hmirrors⟩

theorem isSome_act (replay : Replay) {action : Action} (hreply : Loop.reply action = none) :
    (replay.step (.act action)).isSome = (replay.loop.step action).isSome := by
  cases action with
  | anchorer_reply exchange => cases hreply
  | shutdown_drop => rfl
  | _ => exact Option.isSome_map

theorem answer_enabled {replay : Replay} {request : AdapterCall}
    {resume : Adapters.Response request → Async Adapters (Except BatchError Unit)} {after : After}
    (hanchorer : replay.loop.anchorer = .flushing (.ask request resume) after)
    (hserve : (serve replay.registry request).isSome) : (replay.step .answer).isSome := by
  obtain ⟨⟨response, registry⟩, hserve⟩ := Option.isSome_iff_exists.mp hserve
  have hreply := anchorer_reply_ask hanchorer response
  unfold step answer
  simp only [hanchorer, hserve, Option.bind_some, hreply, Option.map_some, Option.isSome_some]

/-- Until the loop has returned, one of the tasks can go on. -/
theorem Going.progress {replay : Replay} (hgoing : replay.Going) (hrunning : ¬ replay.loop.returned.isSome) :
    ∃ task : Turn, task.Task ∧ (replay.step task).isSome := by
  have hunderway := hgoing.underway
  cases hanchorer : replay.loop.anchorer with
  | selecting =>
    by_cases hready : replay.loop.channel ≠ [] ∨ ∃ unsent, replay.loop.subscriber = .finished unsent
    · exact ⟨_, .anchorer_recv, (isSome_act replay rfl).trans (Loop.anchorer_recv_enabled hanchorer hready)⟩
    · cases hsubscriber : replay.loop.subscriber with
      | selecting =>
        exact ⟨_, .subscriber_next, (isSome_act replay rfl).trans (Loop.subscriber_next_enabled hsubscriber)⟩
      | ingesting envelope =>
        exact ⟨_, .subscriber_ingest,
          (isSome_act replay rfl).trans (Loop.subscriber_ingest_enabled none hsubscriber)⟩
      | sending pair =>
        exact ⟨_, .subscriber_send, (isSome_act replay rfl).trans (Loop.subscriber_send_enabled hsubscriber)⟩
      | finished unsent => exact absurd (.inr ⟨unsent, hsubscriber⟩) hready
  | flushing pending after =>
    rw [hanchorer] at hunderway
    cases hunderway with
    | submitting =>
      refine ⟨_, .answer, answer_enabled hanchorer ?_⟩
      rfl
    | reporting =>
      refine ⟨_, .answer, answer_enabled hanchorer ?_⟩
      rfl
  | joining =>
    have hleft : replay.loop.anchorer.left = true := by rw [hanchorer]; rfl
    obtain ⟨unsent, hsubscriber⟩ := hgoing.uninterrupted.left hleft
    exact ⟨_, .anchorer_join, (isSome_act replay rfl).trans (Loop.anchorer_join_enabled hanchorer hsubscriber)⟩
  | returned result =>
    rw [Loop.returned, hanchorer] at hrunning
    exact absurd rfl hrunning
  | panicked message =>
    rw [hanchorer] at hunderway
    cases hunderway

/-- What is seen of the signal disables no task. -/
theorem enabled_of_alike {replay next : Replay} (halike : replay.loop.Alike next.loop)
    (hregistry : next.registry = replay.registry) {task : Turn} (htask : task.Task)
    (henabled : (replay.step task).isSome) : (next.step task).isSome := by
  obtain ⟨loop, registry⟩ := next
  obtain ⟨shutdown, subscriber_seen, anchorer_seen, hloop⟩ := halike
  change loop = _ at hloop
  change registry = _ at hregistry
  subst hloop hregistry
  have hacted : ∀ {action : Action}, Loop.reply action = none → (replay.step (.act action)).isSome →
      ∃ after, replay.loop.Stepped action after := by
    intro action hreply hsome
    rw [isSome_act replay hreply] at hsome
    obtain ⟨after, hstep⟩ := Option.isSome_iff_exists.mp hsome
    exact ⟨after, Loop.step_cases hstep⟩
  cases htask with
  | subscriber_next =>
    obtain ⟨after, hstepped⟩ := hacted rfl henabled
    have hsubscriber : replay.loop.subscriber = .selecting := by cases hstepped <;> assumption
    exact (isSome_act _ rfl).trans (Loop.subscriber_next_enabled hsubscriber)
  | subscriber_ingest =>
    obtain ⟨after, hstepped⟩ := hacted rfl henabled
    cases hstepped with
    | ingested fault envelope hsubscriber =>
      exact (isSome_act _ rfl).trans (Loop.subscriber_ingest_enabled none hsubscriber)
  | subscriber_send =>
    obtain ⟨after, hstepped⟩ := hacted rfl henabled
    have hsubscriber : ∃ pair, replay.loop.subscriber = .sending pair := by cases hstepped <;> exact ⟨_, ‹_›⟩
    obtain ⟨pair, hsubscriber⟩ := hsubscriber
    exact (isSome_act _ rfl).trans (Loop.subscriber_send_enabled hsubscriber)
  | anchorer_recv =>
    obtain ⟨after, hstepped⟩ := hacted rfl henabled
    have hready : replay.loop.anchorer = .selecting ∧
        (replay.loop.channel ≠ [] ∨ ∃ unsent, replay.loop.subscriber = .finished unsent) := by
      cases hstepped with
      | buffered pair rest hanchorer hchannel => exact ⟨hanchorer, .inl (by simp [hchannel])⟩
      | filled pair rest hanchorer hchannel => exact ⟨hanchorer, .inl (by simp [hchannel])⟩
      | channel_closed unsent hanchorer _ hsubscriber => exact ⟨hanchorer, .inr ⟨unsent, hsubscriber⟩⟩
    exact (isSome_act _ rfl).trans (Loop.anchorer_recv_enabled hready.1 hready.2)
  | answer =>
    obtain ⟨after, hstep⟩ := Option.isSome_iff_exists.mp henabled
    cases step_cases hstep with
    | answered hanchorer hserve => exact answer_enabled hanchorer (Option.isSome_of_eq_some hserve)
  | anchorer_join =>
    obtain ⟨after, hstepped⟩ := hacted rfl henabled
    cases hstepped with
    | joined unsent hanchorer hsubscriber =>
      exact (isSome_act _ rfl).trans (Loop.anchorer_join_enabled hanchorer hsubscriber)

/-- Progress in these runs is the work that is left to the tasks. -/
theorem ranked : transition.Ranked step Turn.Undisturbed Turn.Task Going
    (fun replay => replay.loop.returned.isSome) (fun replay => replay.loop.rank) where
  kept _ _ _ hundisturbed hgoing hstep := (hgoing.step hundisturbed hstep).1
  progress _ hgoing hrunning := hgoing.progress hrunning
  lowers _ _ _ htask hgoing hstep := by
    obtain hlower | ⟨hidle, _⟩ := (hgoing.step htask.undisturbed hstep).2
    · exact hlower
    · cases htask <;> cases hidle
  undisturbed replay turn next hundisturbed hgoing hstep := by
    obtain hlower | ⟨_, halike, hregistry⟩ := (hgoing.step hundisturbed hstep).2
    · exact .inl hlower
    · refine .inr ⟨?_, fun task htask henabled => enabled_of_alike halike hregistry htask henabled⟩
      obtain ⟨shutdown, subscriber_seen, anchorer_seen, hloop⟩ := halike
      rw [hloop]
      rfl

/-- The loop of a run has made a run that was left alone. -/
theorem loop_run {initial last : Replay} {turns : List Turn} (hrun : transition.run step initial turns = some last)
    (hundisturbed : ∀ turn ∈ turns, turn.Undisturbed) :
    ∃ actions, transition.run Loop.step initial.loop actions = some last.loop ∧
      ∀ action ∈ actions, Undisturbed action := by
  induction turns generalizing initial with
  | nil =>
    cases hrun
    exact ⟨[], rfl, fun action haction => by cases haction⟩
  | cons turn rest ih =>
    obtain ⟨next, hstep, hrest⟩ := transition.run_cons_eq_some.mp hrun
    obtain ⟨hturn, hothers⟩ := List.forall_mem_cons.mp hundisturbed
    obtain ⟨actions, hactions, hallowed⟩ := ih hrest hothers
    obtain ⟨action, hloop, haction⟩ := (step_cases hstep).loop
    refine ⟨action :: actions, transition.run_cons_eq_some.mpr ⟨next.loop, hloop, hactions⟩, ?_⟩
    rw [List.forall_mem_cons]
    obtain rfl | ⟨_, haction⟩ := haction
    · exact ⟨hturn, hallowed⟩
    · exact ⟨haction, hallowed⟩

end Replay

end

end document_indexing.batch
