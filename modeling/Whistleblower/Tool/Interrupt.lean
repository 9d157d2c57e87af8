import Whistleblower.Lib.Credits
import Whistleblower.Lib.Fairness
import Whistleblower.Tool.Report

open whistleblower_core whistleblower_lez_adapter document_indexing document_indexing.batch

namespace document_indexing.batch

/-- The most that a flush can ask: its attempts, the pauses after them, and the report. -/
def flush_calls (policy : RetryPolicy) : Nat := 2 * policy.max_attempts.toNat + 1

theorem affords_retried {T : Type} (policy : RetryPolicy) {op : Async Adapters (Except AdapterError T)}
    (hop : Async.Affords (I := Adapters) (fun _ => 1) (fun _ => 0) op 1) (left attempt : Nat)
    (last_err : Option AdapterError) :
    Async.Affords (I := Adapters) (fun _ => 1) (fun _ => 1) (retry_loop policy op left attempt last_err)
      (2 * left + 1) := by
  induction left generalizing attempt last_err with
  | zero =>
    cases last_err with
    | none => exact ⟨Nat.le_refl 1, fun response => nomatch response⟩
    | some e => exact .ret (Nat.le_refl 1)
  | succ left ih =>
    have hcredits : 2 * (left + 1) + 1 = 1 + (2 * left + 2) := by omega
    rw [retry_loop, hcredits]
    refine (hop.frame _).bind fun result => ?_
    cases result with
    | ok value => exact .ret (by omega)
    | error e =>
      dsimp only
      split
      · exact .ret (by omega)
      · split
        · exact Async.Affords.call_bind (by omega) fun _ => ih _ _
        · exact (ih _ _).mono (fun _ => Nat.le_refl 1) (by omega)

theorem affords_flush_batch (config : BatchConfig) (batch : List Pair) :
    Async.Affords (I := Adapters) (fun _ => 1) (fun _ => 0) (flush_batch config batch)
      (flush_calls config.retry_policy) := by
  have hcall : Async.Affords (I := Adapters) (fun _ => 1) (fun _ => 0)
      (Async.call (I := Adapters) (.anchor_batch batch)) 1 := ⟨Nat.le_refl 1, fun _ => Nat.le_refl 0⟩
  refine (affords_retried config.retry_policy hcall _ 1 none).bind fun result => ?_
  cases result with
  | error e => exact .ret (Nat.zero_le 1)
  | ok entries => exact ⟨Nat.le_refl 1, fun _ => Nat.le_refl 0⟩

/-- A call that the surroundings of the program answer. -/
def Answerable : AdapterCall → Prop
  | .anchor_batch _ => True
  | .sink_send _ => True
  | .sleep _ => True
  | _ => False

theorem asks_retried {T : Type} (policy : RetryPolicy) {op : Async Adapters (Except AdapterError T)}
    (hop : Async.Asks (I := Adapters) Answerable op) {left attempt : Nat} {last_err : Option AdapterError}
    (hgoes : 1 ≤ left ∨ last_err ≠ none) :
    Async.Asks (I := Adapters) Answerable (retry_loop policy op left attempt last_err) := by
  induction left generalizing attempt last_err with
  | zero =>
    cases last_err with
    | none => simp at hgoes
    | some e => trivial
  | succ left ih =>
    rw [retry_loop]
    refine hop.bind fun result => ?_
    cases result with
    | ok value => trivial
    | error e =>
      have hnext : Async.Asks (I := Adapters) Answerable (retry_loop policy op left (attempt + 1) (some e)) :=
        ih (.inr (Option.some_ne_none e))
      dsimp only
      split
      · trivial
      · split
        · exact Async.Asks.bind (Async.Asks.call (I := Adapters) trivial) fun _ => hnext
        · exact hnext

theorem asks_flush_batch {config : BatchConfig} (hattempts : 1 ≤ config.retry_policy.max_attempts.toNat)
    (batch : List Pair) : Async.Asks (I := Adapters) Answerable (flush_batch config batch) := by
  have hcall : Async.Asks (I := Adapters) Answerable (Async.call (I := Adapters) (.anchor_batch batch)) :=
    .call trivial
  refine (asks_retried config.retry_policy hcall (.inl hattempts)).bind fun result => ?_
  cases result with
  | error e => trivial
  | ok entries => exact Async.Asks.bind (Async.Asks.call (I := Adapters) trivial) fun _ => trivial

/-- The anchorer has left its loop for good. -/
def Anchorer.departed : Anchorer → Prop
  | .selecting => False
  | .flushing _ .continue => False
  | _ => True

/-- What is ahead of a subscriber, if a flush asks for at most so many calls. -/
def Subscriber.ahead (calls : Nat) : Subscriber → Nat
  | .selecting => 1
  | .ingesting _ => 2 * calls + 5
  | .sending _ => 2 * calls + 4
  | .finished _ => 0

/-- What is ahead of the anchorer. Each call counts twice, as its answer may have to be printed. -/
noncomputable def Anchorer.ahead : Anchorer → Nat
  | .selecting => 2
  | .flushing pending after => 2 * Async.worst (I := Adapters) (fun _ => 1) pending + after.rank
  | .joining => 1
  | .returned _ => 0
  | .panicked _ => 0

/-- A flush whose calls are all answered, and which asks for finitely many. -/
def Ends (pending : Async Adapters (Except BatchError Unit)) : Prop :=
  Async.Asks (I := Adapters) Answerable pending ∧
    ∃ credits, Async.Affords (I := Adapters) (fun _ => 1) (fun _ => 0) pending credits

/-- The anchorer neither panics nor waits for what does not come. -/
def Anchorer.Proper : Anchorer → Prop
  | .flushing (.ask request resume) _ => Ends (.ask request resume)
  | .flushing (.ret _) _ => False
  | .panicked _ => False
  | _ => True

namespace Loop

/-- The work that can still come, at most. An item counts for more the less far it has come. -/
noncomputable def ahead (self : Loop) : Nat :=
  let calls := flush_calls self.config.retry_policy
  (2 * calls + 5) * self.stream.length + self.subscriber.ahead calls + (2 * calls + 2) * self.channel.length +
    (2 * calls + 1) * self.buffer.length + self.anchorer.ahead

theorem proper_after_flush {pending : Async Adapters (Except BatchError Unit)} (hends : Ends pending)
    (after : After) : Anchorer.Proper (after_flush pending after) := by
  cases pending with
  | ask request resume => exact hends
  | ret result =>
    cases result with
    | error e => trivial
    | ok value => cases after <;> trivial

theorem departed_after_flush (pending : Async Adapters (Except BatchError Unit)) :
    (after_flush pending .leave).departed := by
  cases pending with
  | ask request resume => trivial
  | ret result => cases result <;> trivial

theorem ahead_after_flush (pending : Async Adapters (Except BatchError Unit)) (after : After) :
    (after_flush pending after).ahead ≤ 2 * Async.worst (I := Adapters) (fun _ => 1) pending + after.rank := by
  cases pending with
  | ask request resume => exact Nat.le_refl _
  | ret result =>
    cases result with
    | error e => exact Nat.zero_le _
    | ok value => cases after <;> exact Nat.le_add_left _ _

/-- A loop that tries every flush, with receivers that have seen no more of the signal than was sent. -/
structure Proper (loop : Loop) : Prop where
  attempts : 1 ≤ loop.config.retry_policy.max_attempts.toNat
  anchorer : Anchorer.Proper loop.anchorer
  subscriber_seen : loop.subscriber_seen ≤ loop.shutdown.version
  anchorer_seen : loop.anchorer_seen ≤ loop.shutdown.version

theorem Proper.flush {loop : Loop} (hproper : loop.Proper) (after : After) : (loop.flush after).Proper where
  attempts := hproper.attempts
  anchorer := proper_after_flush ⟨asks_flush_batch hproper.attempts _, _, affords_flush_batch _ _⟩ after
  subscriber_seen := hproper.subscriber_seen
  anchorer_seen := hproper.anchorer_seen

theorem Proper.leave {loop : Loop} (hproper : loop.Proper) : loop.leave.Proper := by
  obtain ⟨_, hleave⟩ | ⟨_, hleave⟩ := loop.leave_cases
  · rw [hleave]
    exact ⟨hproper.attempts, trivial, hproper.subscriber_seen, hproper.anchorer_seen⟩
  · rw [hleave]
    exact hproper.flush .leave

theorem Proper.step [Sha256] {loop next : Loop} {action : Action} (hproper : loop.Proper)
    (hstep : loop.step action = some next) : next.Proper := by
  obtain ⟨hattempts, hanchorer, hsubscriber_seen, hanchorer_seen⟩ := hproper
  cases step_cases hstep with
  | shutdown_send => exact ⟨hattempts, hanchorer, Nat.le_succ_of_le hsubscriber_seen, Nat.le_succ_of_le hanchorer_seen⟩
  | subscriber_woken => exact ⟨hattempts, hanchorer, Nat.le_refl _, hanchorer_seen⟩
  | anchorer_woken => exact ⟨hattempts, hanchorer, hsubscriber_seen, Nat.le_refl _⟩
  | anchorer_stopped =>
    have hwoken : Proper { loop with anchorer_seen := loop.shutdown.version } :=
      ⟨hattempts, hanchorer, hsubscriber_seen, Nat.le_refl _⟩
    exact hwoken.leave
  | filled pair rest =>
    have hfilled : Proper { loop with channel := rest, buffer := loop.buffer ++ [pair] } :=
      ⟨hattempts, hanchorer, hsubscriber_seen, hanchorer_seen⟩
    exact hfilled.flush .continue
  | channel_closed => exact Proper.leave ⟨hattempts, hanchorer, hsubscriber_seen, hanchorer_seen⟩
  | tick => exact Proper.flush ⟨hattempts, hanchorer, hsubscriber_seen, hanchorer_seen⟩ .continue
  | replied exchange pending rest after hplace hresume =>
    obtain ⟨resume, rfl, rfl⟩ := Async.resume?_eq_some hresume
    rw [hplace] at hanchorer
    obtain ⟨hasks, credits, haffords⟩ : Ends _ := hanchorer
    exact ⟨hattempts, proper_after_flush ⟨hasks.2 _, _, haffords.2 _⟩ after, hsubscriber_seen, hanchorer_seen⟩
  | unwound message resume after hplace =>
    rw [hplace] at hanchorer
    exact absurd hanchorer.1.1 (by simp [Answerable])
  | joined => exact ⟨hattempts, trivial, hsubscriber_seen, hanchorer_seen⟩
  | _ => exact ⟨hattempts, hanchorer, hsubscriber_seen, hanchorer_seen⟩

/-- The interrupt was sent, and a task that has seen it has left its loop. -/
structure Stopping (loop : Loop) : Prop where
  value : loop.shutdown.value = true
  subscriber : loop.subscriber_seen = loop.shutdown.version → ∃ unsent, loop.subscriber = .finished unsent
  anchorer : loop.anchorer_seen = loop.shutdown.version → loop.anchorer.departed

theorem Stopping.of_interrupt {loop : Loop} (hproper : loop.Proper) :
    Stopping { loop with shutdown := { loop.shutdown with value := true, version := loop.shutdown.version + 1 } } where
  value := rfl
  subscriber := fun hseen => absurd hseen (Nat.ne_of_lt (Nat.lt_succ_of_le hproper.subscriber_seen))
  anchorer := fun hseen => absurd hseen (Nat.ne_of_lt (Nat.lt_succ_of_le hproper.anchorer_seen))

theorem Stopping.leave {loop : Loop} (hvalue : loop.shutdown.value = true)
    (hsubscriber : loop.subscriber_seen = loop.shutdown.version → ∃ unsent, loop.subscriber = .finished unsent) :
    loop.leave.Stopping := by
  obtain ⟨_, hleave⟩ | ⟨_, hleave⟩ := loop.leave_cases
  · rw [hleave]
    exact ⟨hvalue, hsubscriber, fun _ => trivial⟩
  · rw [hleave]
    exact ⟨hvalue, hsubscriber, fun _ => departed_after_flush _⟩

/-- Apart from the sender of the signal, nothing makes a stopping loop go on. -/
theorem Stopping.step [Sha256] {loop next : Loop} {action : Action} (hstopping : loop.Stopping)
    (hsends : ∀ value, action ≠ .shutdown_send value) (hstep : loop.step action = some next) : next.Stopping := by
  obtain ⟨hvalue, hsubscriber, hanchorer⟩ := hstopping
  have hselecting : loop.anchorer = .selecting → loop.anchorer_seen ≠ loop.shutdown.version := by
    intro hplace hseen
    have hdeparted := hanchorer hseen
    rw [hplace] at hdeparted
    exact hdeparted
  have hrunning : (∀ unsent, loop.subscriber ≠ .finished unsent) → loop.subscriber_seen ≠ loop.shutdown.version := by
    intro hruns hseen
    obtain ⟨unsent, hfinished⟩ := hsubscriber hseen
    exact hruns unsent hfinished
  cases step_cases hstep with
  | shutdown_send value => exact absurd rfl (hsends value)
  | shutdown_drop => exact ⟨hvalue, hsubscriber, hanchorer⟩
  | subscriber_woken => exact ⟨hvalue, fun _ => ⟨none, if_pos hvalue⟩, hanchorer⟩
  | stream_closed => exact ⟨hvalue, fun _ => ⟨none, rfl⟩, hanchorer⟩
  | receive_error e rest hplace =>
    exact ⟨hvalue, fun hseen => absurd hseen (hrunning (by simp [hplace])), hanchorer⟩
  | received envelope rest hplace =>
    exact ⟨hvalue, fun hseen => absurd hseen (hrunning (by simp [hplace])), hanchorer⟩
  | ingested fault envelope hplace =>
    exact ⟨hvalue, fun hseen => absurd hseen (hrunning (by simp [hplace])), hanchorer⟩
  | sent pair hplace => exact ⟨hvalue, fun hseen => absurd hseen (hrunning (by simp [hplace])), hanchorer⟩
  | unsent pair => exact ⟨hvalue, fun _ => ⟨some pair, rfl⟩, hanchorer⟩
  | anchorer_woken _ _ hsilent =>
    rw [hvalue] at hsilent
    cases hsilent
  | anchorer_stopped => exact @Stopping.leave { loop with anchorer_seen := loop.shutdown.version } hvalue hsubscriber
  | buffered _ _ hplace => exact ⟨hvalue, hsubscriber, fun hseen => absurd hseen (hselecting hplace)⟩
  | filled _ _ hplace => exact ⟨hvalue, hsubscriber, fun hseen => absurd hseen (hselecting hplace)⟩
  | channel_closed => exact .leave hvalue hsubscriber
  | idle_tick => exact ⟨hvalue, hsubscriber, hanchorer⟩
  | tick hplace => exact ⟨hvalue, hsubscriber, fun hseen => absurd hseen (hselecting hplace)⟩
  | replied exchange pending rest after hplace =>
    refine ⟨hvalue, hsubscriber, fun hseen => ?_⟩
    have hdeparted := hanchorer hseen
    rw [hplace] at hdeparted
    cases after with
    | «continue» => exact hdeparted.elim
    | leave => exact departed_after_flush rest
  | unwound => exact ⟨hvalue, hsubscriber, fun _ => trivial⟩
  | joined => exact ⟨hvalue, hsubscriber, fun _ => trivial⟩

/-- A flush of something takes less than what it flushes has ahead. -/
theorem ahead_flush {loop : Loop} (hanchorer : loop.anchorer = .selecting) (hbuffer : loop.buffer ≠ [])
    (after : After) : (loop.flush after).ahead < loop.ahead := by
  have hworst := Async.worst_le (affords_flush_batch loop.config loop.buffer)
  have hflush := ahead_after_flush (flush_batch loop.config loop.buffer) after
  have hrank : after.rank ≤ 2 := by cases after <;> decide
  have hlength := Nat.le_mul_of_pos_right (2 * flush_calls loop.config.retry_policy + 1)
    (List.length_pos_iff.mpr hbuffer)
  have hselecting : loop.anchorer.ahead = 2 := by rw [hanchorer, Anchorer.ahead]
  simp only [ahead, flush, hselecting, List.length_nil]
  omega

theorem ahead_leave {loop : Loop} (hanchorer : loop.anchorer = .selecting) : loop.leave.ahead < loop.ahead := by
  obtain ⟨_, hleave⟩ | ⟨hbuffer, hleave⟩ := loop.leave_cases
  · rw [hleave]
    simp only [ahead, hanchorer, Anchorer.ahead]
    omega
  · rw [hleave]
    exact ahead_flush hanchorer hbuffer .leave

/-- An answer takes one call off a flush, which counts twice. -/
theorem ahead_reply {request : AdapterCall}
    {resume : Adapters.Response request → Async Adapters (Except BatchError Unit)}
    (hends : Ends (.ask request resume)) (response : request.Response) (after : After) :
    (after_flush (resume response) after).ahead + 2 ≤
      (Anchorer.flushing (.ask (I := Adapters) request resume) after).ahead := by
  obtain ⟨_, credits, haffords⟩ := hends
  have hworst := Async.worst_resume haffords response
  have hflush := ahead_after_flush (resume response) after
  change _ + 2 ≤ 2 * Async.worst (I := Adapters) (fun _ => 1) (.ask request resume) + after.rank
  omega

/-- Once it is to stop, a loop has less ahead after each step that answers no call, unless a tick
    finds nothing to do. -/
theorem ahead_step [Sha256] {loop next : Loop} {action : Action} (hproper : loop.Proper)
    (hvalue : loop.shutdown.value = true) (hreply : reply action = none)
    (hsends : ∀ value, action ≠ .shutdown_send value) (hdrops : action ≠ .shutdown_drop)
    (hstep : loop.step action = some next) :
    next.ahead < loop.ahead ∨ (action = .anchorer_tick ∧ next = loop) := by
  cases step_cases hstep with
  | shutdown_send value => exact absurd rfl (hsends value)
  | shutdown_drop => exact absurd rfl hdrops
  | subscriber_woken hplace =>
    left
    simp only [ahead, hplace, hvalue, if_true, Subscriber.ahead]
    omega
  | stream_closed hplace =>
    left
    simp only [ahead, hplace, Subscriber.ahead]
    omega
  | receive_error e rest hplace hstream =>
    left
    simp only [ahead, hstream, List.length_cons, Nat.mul_succ]
    omega
  | received envelope rest hplace hstream =>
    left
    simp only [ahead, hplace, hstream, List.length_cons, Nat.mul_succ, Subscriber.ahead]
    omega
  | ingested fault envelope hplace outcome =>
    left
    cases haccept : accept loop.config.topic envelope outcome <;> simp only [ahead, hplace, Subscriber.ahead] <;> omega
  | sent pair hplace =>
    left
    simp only [ahead, hplace, List.length_append, List.length_singleton, Nat.mul_succ, Subscriber.ahead]
    omega
  | unsent pair hplace =>
    left
    simp only [ahead, hplace, Subscriber.ahead]
    omega
  | anchorer_woken _ _ hsilent =>
    rw [hvalue] at hsilent
    cases hsilent
  | anchorer_stopped hplace =>
    exact .inl (@ahead_leave { loop with anchorer_seen := loop.shutdown.version } hplace)
  | buffered pair rest hplace hchannel =>
    left
    simp only [ahead, hchannel, List.length_cons, List.length_append, List.length_nil, Nat.mul_succ]
    omega
  | filled pair rest hplace hchannel =>
    left
    refine Nat.lt_trans (@ahead_flush { loop with channel := rest, buffer := loop.buffer ++ [pair] } hplace
      (by simp) .continue) ?_
    simp only [ahead, hchannel, List.length_cons, List.length_append, List.length_nil, Nat.mul_succ]
    omega
  | channel_closed _ hplace => exact .inl (ahead_leave hplace)
  | idle_tick => exact .inr ⟨rfl, rfl⟩
  | tick hplace hbuffer => exact .inl (ahead_flush hplace hbuffer .continue)
  | replied => cases hreply
  | unwound message resume after hplace =>
    have hanchorer := hproper.anchorer
    rw [hplace] at hanchorer
    exact absurd hanchorer.1.1 (by simp [Answerable])
  | joined _ hplace =>
    left
    simp only [ahead, hplace, Anchorer.ahead]
    omega

end Loop

end document_indexing.batch

namespace whistleblower_batch

/-- The tasks that bring the program to its end. Neither the stream nor the timer is one of them. -/
inductive Process.Turn.Task : Process.Turn → Prop where
  | subscriber_changed : Task (.arm .subscriber_changed)
  | ingest : Task .ingest
  | subscriber_send : Task (.arm .subscriber_send)
  | anchorer_changed : Task (.arm .anchorer_changed)
  | answer : Task .answer
  | anchorer_join : Task (.arm .anchorer_join)
  | log : Task .log
  | proceed : Task .proceed

def Main.ahead : Main → Nat
  | .batching => 2
  | .logging _ => 1
  | .exited _ => 0
  | .panicked _ => 0

namespace Process

variable {W : Type}

/-- What is ahead of the whole program. -/
noncomputable def ahead (self : Process W) : Nat :=
  self.loop.ahead + self.submissions.length + (if self.logger_runs then 1 else 0) + self.main.ahead

/-- No panic is on its way to `main`. -/
structure Proper (process : Process W) : Prop where
  loop : process.loop.Proper
  main : ∀ message, process.main ≠ .panicked message

/-- An interrupt was received, and the program is about to end. -/
structure Ending (process : Process W) : Prop where
  proper : process.Proper
  tells : process.Tells
  stopping : process.loop.Stopping
  handled : process.handler_waits = false

theorem Proper.of_started {build : Build} {cli : Cli} {process : Process W}
    (hcapacity : cli.batch_size ≤ Loop.max_capacity) (hinterval : cli.batch_interval_secs ≠ 0)
    (hstarted : Started build cli process) : process.Proper := by
  obtain ⟨_, _, dedupe, ledger, stream, hprocess⟩ := hstarted.eq
  rw [hprocess]
  have hattempts : 1 ≤ RetryPolicy.default.max_attempts.toNat := by decide
  refine ⟨⟨hattempts, ?_, Nat.le_refl 0, Nat.le_refl 0⟩, ?_⟩
  · have hpositive : cli.config.batch_interval ≠ 0 := Nat.mul_ne_zero hinterval (by decide)
    rw [Loop.started, Loop.prepared_of_fits hcapacity hpositive]
    trivial
  · rintro _ ⟨⟩

variable [Sha256] {surroundings : Surroundings W} {process next : Process W}

theorem Proper.step {turn : Turn} (hproper : process.Proper) (hstep : process.step surroundings turn = some next) :
    next.Proper := by
  obtain ⟨hloop, hmain⟩ := hproper
  cases (step_cases hstep).2 with
  | armed _ hacted => exact ⟨hloop.step hacted, hmain⟩
  | ingested hacted => exact ⟨hloop.step hacted, hmain⟩
  | answered hanchorer => exact ⟨hloop.step (step_reply hanchorer _), hmain⟩
  | interrupted _ hopen => exact ⟨hloop.step (step_interrupt hopen), hmain⟩
  | panicked message _ hanchorer =>
    have hsound := hloop.anchorer
    rw [hanchorer] at hsound
    exact hsound.elim
  | returned => exact ⟨hloop, by rintro _ ⟨⟩⟩
  | exited => exact ⟨hloop, by rintro _ ⟨⟩⟩
  | failed => exact ⟨hloop, by rintro _ ⟨⟩⟩
  | _ => exact ⟨hloop, hmain⟩

/-- Each turn of an ending program leaves less ahead, unless a tick finds nothing to do. -/
theorem Ending.step {turn : Turn} (hending : process.Ending) (hstep : process.step surroundings turn = some next) :
    next.Ending ∧ (next.ahead < process.ahead ∨ (turn = .arm .anchorer_tick ∧ next = process)) := by
  have hproper := hending.proper.step hstep
  have htells := hending.tells.step hstep
  have hwaits := hending.handled
  have hvalue := hending.stopping.value
  cases (step_cases hstep).2 with
  | @armed action loop harms hloop =>
    have hsends : ∀ value, action ≠ .shutdown_send value := by
      rintro _ rfl
      cases harms
    have hdrops : action ≠ .shutdown_drop := by
      rintro rfl
      cases harms
    have hreply : Loop.reply action = none := by cases action <;> first | rfl | cases harms
    refine ⟨⟨hproper, htells, hending.stopping.step hsends hloop, hwaits⟩, ?_⟩
    obtain hlower | ⟨rfl, rfl⟩ := Loop.ahead_step hending.proper.loop hvalue hreply hsends hdrops hloop
    · left
      simp only [ahead]
      omega
    · exact .inr ⟨rfl, rfl⟩
  | @ingested fault loop world hloop =>
    refine ⟨⟨hproper, htells, hending.stopping.step (by rintro _ ⟨⟩) hloop, hwaits⟩, .inl ?_⟩
    obtain hlower | ⟨htick, _⟩ := Loop.ahead_step hending.proper.loop hvalue rfl (by rintro _ ⟨⟩) (by rintro ⟨⟩) hloop
    · simp only [ahead]
      omega
    · cases htick
  | @answered request resume after response world hanchorer hserve =>
    refine ⟨⟨hproper, htells, hending.stopping.step (by rintro _ ⟨⟩) (step_reply hanchorer response), hwaits⟩, .inl ?_⟩
    have hends := hending.proper.loop.anchorer
    rw [hanchorer] at hends
    have hreply := Loop.ahead_reply hends response after
    have hsent : (sent request).length ≤ 1 := by cases request <;> simp [sent]
    simp only [ahead, Loop.ahead, hanchorer, List.length_append]
    omega
  | interrupted hruns =>
    rw [hwaits] at hruns
    cases hruns
  | deaf _ hruns =>
    rw [hwaits] at hruns
    cases hruns
  | logged submission rest hruns hsubmissions =>
    refine ⟨⟨hproper, htells, hending.stopping, hwaits⟩, .inl ?_⟩
    simp only [ahead, hsubmissions, List.length_cons]
    omega
  | logger_ended hruns =>
    refine ⟨⟨hproper, htells, hending.stopping, hwaits⟩, .inl ?_⟩
    simp only [ahead, hruns, if_true, Bool.false_eq_true, if_false]
    omega
  | returned _ hmain =>
    refine ⟨⟨hproper, htells, hending.stopping, hwaits⟩, .inl ?_⟩
    simp only [ahead, hmain, Main.ahead]
    omega
  | panicked message => exact absurd rfl (hproper.main message)
  | exited hmain =>
    refine ⟨⟨hproper, htells, hending.stopping, hwaits⟩, .inl ?_⟩
    simp only [ahead, hmain, Main.ahead]
    omega
  | failed _ hmain =>
    refine ⟨⟨hproper, htells, hending.stopping, hwaits⟩, .inl ?_⟩
    simp only [ahead, hmain, Main.ahead]
    omega

theorem enabled_arm (hended : process.main.ended = false) {action : batch.Action} (harms : process.arms action = true)
    (henabled : (process.loop.step action).isSome) : (process.step surroundings (.arm action)).isSome := by
  simp only [step, hended, harms, Bool.false_eq_true, if_false, if_true]
  rwa [Option.isSome_map]

/-- Until it has ended, one of the tasks of an ending program can go on. -/
theorem Ending.progress (hending : process.Ending) (hrunning : ¬ ∃ result, process.main = .exited result) :
    ∃ task, Turn.Task task ∧ (process.step surroundings task).isSome := by
  have hvalue := hending.stopping.value
  have hanchorer := hending.proper.loop.anchorer
  have hwoken : ∀ {seen}, seen ≠ process.loop.shutdown.version → process.loop.shutdown.changed seen = true := by
    intro seen hseen
    simp [Watch.changed, Ne.symm hseen]
  cases hmain : process.main with
  | batching =>
    have hended : process.main.ended = false := by rw [hmain]; rfl
    cases hplace : process.loop.anchorer with
    | selecting =>
      have hseen : process.loop.anchorer_seen ≠ process.loop.shutdown.version := by
        intro hseen
        have hdeparted := hending.stopping.anchorer hseen
        rw [hplace] at hdeparted
        exact hdeparted
      refine ⟨_, .anchorer_changed, enabled_arm hended rfl ?_⟩
      simp [Loop.step, Loop.anchorer_changed, hplace, hwoken hseen]
    | flushing pending after =>
      rw [hplace] at hanchorer
      cases pending with
      | ret result => exact hanchorer.elim
      | ask request resume =>
        have hserved : ∃ response world, surroundings.serve process.world request = some (response, world) := by
          have hanswerable := hanchorer.1.1
          cases request <;> first | exact ⟨_, _, rfl⟩ | exact hanswerable.elim
        obtain ⟨response, world, hserve⟩ := hserved
        refine ⟨.answer, .answer, ?_⟩
        have hreply : process.loop.anchorer_reply ⟨request, response⟩ = some _ := step_reply hplace response
        simp [Process.step, hended, answer, hplace, hserve, hreply]
    | joining =>
      cases hsubscriber : process.loop.subscriber with
      | selecting =>
        have hseen : process.loop.subscriber_seen ≠ process.loop.shutdown.version := by
          intro hseen
          obtain ⟨unsent, hfinished⟩ := hending.stopping.subscriber hseen
          rw [hsubscriber] at hfinished
          cases hfinished
        refine ⟨_, .subscriber_changed, enabled_arm hended rfl ?_⟩
        simp [Loop.step, Loop.subscriber_changed, hsubscriber, hwoken hseen]
      | ingesting envelope =>
        refine ⟨.ingest, .ingest, ?_⟩
        simp [Process.step, hended, ingest, Loop.subscriber_ingest, hsubscriber]
      | sending pair => exact ⟨_, .subscriber_send, enabled_arm hended rfl (Loop.subscriber_send_enabled hsubscriber)⟩
      | finished unsent =>
        exact ⟨_, .anchorer_join, enabled_arm hended rfl (Loop.anchorer_join_enabled hplace hsubscriber)⟩
    | returned result =>
      refine ⟨.proceed, .proceed, ?_⟩
      simp [Process.step, Main.ended, proceed, hmain, hplace]
    | panicked message =>
      rw [hplace] at hanchorer
      exact hanchorer.elim
  | logging result =>
    cases hruns : process.logger_runs with
    | true =>
      refine ⟨.log, .log, ?_⟩
      cases hsubmissions : process.submissions <;> simp [Process.step, Main.ended, log, hruns, hsubmissions, hmain]
    | false =>
      refine ⟨.proceed, .proceed, ?_⟩
      cases result <;> simp [Process.step, Main.ended, proceed, hmain, hruns]
  | exited result => exact absurd ⟨result, hmain⟩ hrunning
  | panicked message => exact absurd hmain (hending.proper.main message)

/-- Progress towards the end is what the program has ahead. -/
theorem ranked (surroundings : Surroundings W) : transition.Ranked (step surroundings) (fun _ => True) Turn.Task Ending
    (fun process => ∃ result, process.main = .exited result) ahead where
  kept _ _ _ _ hending hstep := (hending.step hstep).1
  progress _ hending hrunning := hending.progress hrunning
  lowers _ _ _ htask hending hstep := by
    obtain hlower | ⟨rfl, _⟩ := (hending.step hstep).2
    · exact hlower
    · cases htask
  undisturbed process turn next _ hending hstep := by
    obtain hlower | ⟨_, rfl⟩ := (hending.step hstep).2
    · exact .inl hlower
    · exact .inr ⟨rfl, fun _ _ henabled => henabled⟩

end Process

/-- An interrupt ends the program, if its loop could start. Whatever it was doing, whatever the registry answers and the
    ledger refuses from then on, and whether or not the stream goes on, a fair schedule brings
    `main` to its end, with a line printed for each batch that was accepted. -/
theorem interrupt_ends [Sha256] {W : Type} {surroundings : Surroundings W} {build : Build} {cli : Cli}
    (hcapacity : cli.batch_size ≤ Loop.max_capacity) (hinterval : cli.batch_interval_secs ≠ 0)
    {initial : Process W} (hstarted : Started build cli initial)
    {schedule : Nat → Process.Turn}
    (hfair : ∀ task, Process.Turn.Task task → transition.Fair (Process.step surroundings) schedule initial task)
    {start : Nat} (hinterrupt : schedule start = .signal (.ok ()))
    (henabled : (Process.step surroundings (transition.follow (Process.step surroundings) schedule initial start)
      (.signal (.ok ()))).isSome) :
    ∃ time result, (transition.follow (Process.step surroundings) schedule initial time).main = .exited result ∧
      printed (transition.follow (Process.step surroundings) schedule initial time).stderr =
        accepted_submissions (transition.follow (Process.step surroundings) schedule initial time).loop.calls := by
  have hkept : ∀ time, (transition.follow (Process.step surroundings) schedule initial time).Proper ∧
      (transition.follow (Process.step surroundings) schedule initial time).Tells := by
    have hstep : ∀ process turn next, True → process.Proper ∧ process.Tells →
        Process.step surroundings process turn = some next → next.Proper ∧ next.Tells :=
      fun _ _ _ _ ⟨hproper, htells⟩ hstep => ⟨hproper.step hstep, htells.step hstep⟩
    exact transition.follow_preserves hstep (fun _ => trivial)
      ⟨.of_started hcapacity hinterval hstarted, .of_started hstarted⟩
  obtain ⟨next, hnext⟩ := Option.isSome_iff_exists.mp henabled
  have hfollowed : transition.follow (Process.step surroundings) schedule initial (start + 1) = next := by
    rw [transition.follow, hinterrupt, hnext, Option.getD_some]
  have hending : (transition.follow (Process.step surroundings) schedule initial (start + 1)).Ending := by
    obtain ⟨hproper, htells⟩ := hkept (start + 1)
    have hbefore := (hkept start).1.loop
    rw [hfollowed] at hproper htells ⊢
    cases (Process.step_cases hnext).2 with
    | interrupted => exact ⟨hproper, htells, .of_interrupt hbefore, rfl⟩
  obtain ⟨time, result, hmain⟩ := (Process.ranked surroundings).eventually_from (fun _ => trivial) hfair hending
  refine ⟨start + 1 + time, result, hmain, ?_⟩
  exact (hkept (start + 1 + time)).2.printed_of_exited hmain

/-- An interrupt comes first, and then the tasks take their turns one after the other. -/
def interruptedAtOnce (time : Nat) : Process.Turn :=
  if time = 0 then .signal (.ok ())
  else
    match time % 8 with
    | 0 => .arm .subscriber_changed
    | 1 => .ingest
    | 2 => .arm .subscriber_send
    | 3 => .arm .anchorer_changed
    | 4 => .answer
    | 5 => .arm .anchorer_join
    | 6 => .log
    | _ => .proceed

theorem fair_interruptedAtOnce (initial : Process Unit) {task : Process.Turn} (htask : Process.Turn.Task task) :
    transition.Fair (Process.step accepting) interruptedAtOnce initial task := by
  intro start _
  have hturn : ∀ i < 8, interruptedAtOnce (8 * (start + 1) + i) = interruptedAtOnce (8 + i) := by
    intro i hi
    have hmod : (8 * (start + 1) + i) % 8 = (8 + i) % 8 := by omega
    rw [interruptedAtOnce, interruptedAtOnce, hmod, if_neg (by omega), if_neg (by omega)]
  cases htask with
  | subscriber_changed => exact ⟨8 * (start + 1) + 0, by omega, hturn 0 (by omega)⟩
  | ingest => exact ⟨8 * (start + 1) + 1, by omega, hturn 1 (by omega)⟩
  | subscriber_send => exact ⟨8 * (start + 1) + 2, by omega, hturn 2 (by omega)⟩
  | anchorer_changed => exact ⟨8 * (start + 1) + 3, by omega, hturn 3 (by omega)⟩
  | answer => exact ⟨8 * (start + 1) + 4, by omega, hturn 4 (by omega)⟩
  | anchorer_join => exact ⟨8 * (start + 1) + 5, by omega, hturn 5 (by omega)⟩
  | log => exact ⟨8 * (start + 1) + 6, by omega, hturn 6 (by omega)⟩
  | proceed => exact ⟨8 * (start + 1) + 7, by omega, hturn 7 (by omega)⟩

theorem interrupt_ends_at_once : ∃ time result,
    (transition.follow (Process.step accepting) interruptedAtOnce replayProcess time).main = .exited result := by
  obtain ⟨time, result, hmain, _⟩ := @interrupt_ends _ _ accepting _ _ (by decide +kernel) (by decide) _ started_replayProcess
    interruptedAtOnce (fun _ => fair_interruptedAtOnce replayProcess) 0 rfl rfl
  exact ⟨time, result, hmain⟩

end whistleblower_batch
