import Whistleblower.Indexing.Batch

open whistleblower_core

namespace document_indexing.batch

variable [Sha256]

namespace Loop

omit [Sha256] in
/-- A run that starts has a positive batch size, a ledger that was read, and a stream. -/
theorem start_cases {config : BatchConfig} {file : Except IoFault File}
    {subscription : Except AdapterError (List (Except AdapterError ReceivedEnvelope))} {shutdown : Watch}
    {seen : Nat} {initial : Loop} (hstart : start config file subscription shutdown seen = .ok initial) :
    1 ≤ config.batch_size ∧ ∃ ledger dedupe stream, file = .ok ledger ∧
      DurableDedupeStore.open (.ok ledger) = .ok dedupe ∧ subscription = .ok stream ∧
      initial = started config dedupe ledger stream shutdown seen := by
  unfold start at hstart
  split at hstart
  · cases hstart
  · rename_i hsize
    split at hstart
    · rename_i ledger dedupe hopen
      split at hstart
      · rename_i stream
        cases hstart
        exact ⟨Nat.pos_of_ne_zero hsize, ledger, dedupe, stream, rfl, hopen, rfl, rfl⟩
      · cases hstart
    · cases hstart
    · cases hstart

/-- Everything an action can do, with what enables it. -/
inductive Stepped (loop : Loop) : Action → Loop → Prop where
  | shutdown_send (value : Bool) (hopen : loop.shutdown.closed = false) :
      Stepped loop (.shutdown_send value)
        { loop with shutdown := { loop.shutdown with value, version := loop.shutdown.version + 1 } }
  | shutdown_drop :
      Stepped loop .shutdown_drop { loop with shutdown := { loop.shutdown with closed := true } }
  | subscriber_woken (hsubscriber : loop.subscriber = .selecting)
      (hchanged : loop.shutdown.changed loop.subscriber_seen = true) :
      Stepped loop .subscriber_changed { loop with
        subscriber_seen := loop.shutdown.version
        subscriber := if loop.shutdown.value then .finished none else .selecting }
  | stream_closed (hsubscriber : loop.subscriber = .selecting) (hstream : loop.stream = []) :
      Stepped loop .subscriber_next { loop with subscriber := .finished none }
  | receive_error (e : AdapterError) (rest : List (Except AdapterError ReceivedEnvelope))
      (hsubscriber : loop.subscriber = .selecting) (hstream : loop.stream = .error e :: rest) :
      Stepped loop .subscriber_next { loop with stream := rest }
  | received (envelope : ReceivedEnvelope) (rest : List (Except AdapterError ReceivedEnvelope))
      (hsubscriber : loop.subscriber = .selecting) (hstream : loop.stream = .ok envelope :: rest) :
      Stepped loop .subscriber_next { loop with stream := rest, subscriber := .ingesting envelope }
  | ingested (fault : Option IoFault) (envelope : ReceivedEnvelope)
      (hsubscriber : loop.subscriber = .ingesting envelope) (outcome : Except IoFault IngestOutcome)
      (dedupe : DurableDedupeStore) (ledger : File)
      (hingest : loop.dedupe.ingest loop.ledger fault envelope = (outcome, dedupe, ledger)) :
      Stepped loop (.subscriber_ingest fault) { loop with
        dedupe, ledger
        ingested := loop.ingested ++ [(envelope, outcome)]
        subscriber :=
          match accept loop.config.topic envelope outcome with
          | some pair => .sending pair
          | none => .selecting }
  | sent (pair : Pair) (hsubscriber : loop.subscriber = .sending pair)
      (hreceiver : loop.receiver_dropped = false) :
      Stepped loop .subscriber_send
        { loop with subscriber := .selecting, channel := loop.channel ++ [pair] }
  | unsent (pair : Pair) (hsubscriber : loop.subscriber = .sending pair)
      (hreceiver : loop.receiver_dropped = true) :
      Stepped loop .subscriber_send { loop with subscriber := .finished (some pair) }
  | anchorer_woken (hanchorer : loop.anchorer = .selecting)
      (hchanged : loop.shutdown.changed loop.anchorer_seen = true) (hvalue : loop.shutdown.value = false) :
      Stepped loop .anchorer_changed { loop with anchorer_seen := loop.shutdown.version }
  | anchorer_stopped (hanchorer : loop.anchorer = .selecting)
      (hchanged : loop.shutdown.changed loop.anchorer_seen = true) (hvalue : loop.shutdown.value = true) :
      Stepped loop .anchorer_changed (leave { loop with anchorer_seen := loop.shutdown.version })
  | buffered (pair : Pair) (rest : List Pair) (hanchorer : loop.anchorer = .selecting)
      (hchannel : loop.channel = pair :: rest) (hroom : (loop.buffer ++ [pair]).length < loop.config.batch_size) :
      Stepped loop .anchorer_recv { loop with channel := rest, buffer := loop.buffer ++ [pair] }
  | filled (pair : Pair) (rest : List Pair) (hanchorer : loop.anchorer = .selecting)
      (hchannel : loop.channel = pair :: rest) (hfull : loop.config.batch_size ≤ (loop.buffer ++ [pair]).length) :
      Stepped loop .anchorer_recv
        (flush { loop with channel := rest, buffer := loop.buffer ++ [pair] } .continue)
  | channel_closed (unsent : Option Pair) (hanchorer : loop.anchorer = .selecting)
      (hchannel : loop.channel = []) (hsubscriber : loop.subscriber = .finished unsent) :
      Stepped loop .anchorer_recv loop.leave
  | idle_tick (hanchorer : loop.anchorer = .selecting) (hbuffer : loop.buffer = []) :
      Stepped loop .anchorer_tick loop
  | tick (hanchorer : loop.anchorer = .selecting) (hbuffer : loop.buffer ≠ []) :
      Stepped loop .anchorer_tick (loop.flush .continue)
  | replied (exchange : Exchange Adapters) (pending next : Async Adapters (Except BatchError Unit))
      (after : After) (hanchorer : loop.anchorer = .flushing pending after)
      (hresume : pending.resume? exchange = some next) :
      Stepped loop (.anchorer_reply exchange)
        { loop with calls := loop.calls ++ [exchange], anchorer := after_flush next after }
  | unwound (message : String) (resume : Adapters.Response (.panic message) → Async Adapters (Except BatchError Unit))
      (after : After) (hanchorer : loop.anchorer = .flushing (.ask (.panic message) resume) after) :
      Stepped loop .anchorer_unwind { loop with anchorer := .panicked message }
  | joined (unsent : Option Pair) (hanchorer : loop.anchorer = .joining)
      (hsubscriber : loop.subscriber = .finished unsent) :
      Stepped loop .anchorer_join { loop with anchorer := .returned (.ok ()) }

theorem subscriber_changed_cases {loop next : Loop} (hstep : loop.subscriber_changed = some next) :
    Stepped loop .subscriber_changed next := by
  unfold subscriber_changed at hstep
  split at hstep
  · rename_i hsubscriber
    split at hstep
    · rename_i hchanged
      cases hstep
      exact .subscriber_woken hsubscriber hchanged
    · cases hstep
  · cases hstep

theorem subscriber_next_cases {loop next : Loop} (hstep : loop.subscriber_next = some next) :
    Stepped loop .subscriber_next next := by
  unfold subscriber_next at hstep
  split at hstep
  · rename_i hsubscriber
    split at hstep
    · rename_i hstream
      cases hstep
      exact .stream_closed hsubscriber hstream
    · rename_i e rest hstream
      cases hstep
      exact .receive_error e rest hsubscriber hstream
    · rename_i envelope rest hstream
      cases hstep
      exact .received envelope rest hsubscriber hstream
  · cases hstep

theorem subscriber_ingest_cases {loop next : Loop} {fault : Option IoFault}
    (hstep : loop.subscriber_ingest fault = some next) : Stepped loop (.subscriber_ingest fault) next := by
  unfold subscriber_ingest at hstep
  split at hstep
  · rename_i envelope hsubscriber
    cases hstep
    exact .ingested fault envelope hsubscriber _ _ _ rfl
  · cases hstep

theorem subscriber_send_cases {loop next : Loop} (hstep : loop.subscriber_send = some next) :
    Stepped loop .subscriber_send next := by
  unfold subscriber_send at hstep
  split at hstep
  · rename_i pair hsubscriber
    split at hstep
    · rename_i hreceiver
      cases hstep
      exact .unsent pair hsubscriber hreceiver
    · rename_i hreceiver
      cases hstep
      exact .sent pair hsubscriber (Bool.eq_false_iff.mpr hreceiver)
  · cases hstep

theorem anchorer_changed_cases {loop next : Loop} (hstep : loop.anchorer_changed = some next) :
    Stepped loop .anchorer_changed next := by
  unfold anchorer_changed at hstep
  split at hstep
  · rename_i hanchorer
    split at hstep
    · rename_i hchanged
      cases hstep
      cases hvalue : loop.shutdown.value with
      | false => exact .anchorer_woken hanchorer hchanged hvalue
      | true => exact .anchorer_stopped hanchorer hchanged hvalue
    · cases hstep
  · cases hstep

theorem anchorer_recv_cases {loop next : Loop} (hstep : loop.anchorer_recv = some next) :
    Stepped loop .anchorer_recv next := by
  unfold anchorer_recv at hstep
  split at hstep
  · rename_i hanchorer
    split at hstep
    · rename_i pair rest hchannel
      cases hstep
      dsimp only
      split
      · rename_i hfull
        exact .filled pair rest hanchorer hchannel hfull
      · rename_i hroom
        exact .buffered pair rest hanchorer hchannel (Nat.lt_of_not_le hroom)
    · rename_i hchannel
      split at hstep
      · rename_i unsent hsubscriber
        cases hstep
        exact .channel_closed unsent hanchorer hchannel hsubscriber
      · cases hstep
  · cases hstep

theorem anchorer_tick_cases {loop next : Loop} (hstep : loop.anchorer_tick = some next) :
    Stepped loop .anchorer_tick next := by
  unfold anchorer_tick at hstep
  split at hstep
  · rename_i hanchorer
    cases hstep
    split
    · rename_i hbuffer
      exact .idle_tick hanchorer hbuffer
    · rename_i hbuffer
      exact .tick hanchorer hbuffer
  · cases hstep

theorem anchorer_reply_cases {loop next : Loop} {exchange : Exchange Adapters}
    (hstep : loop.anchorer_reply exchange = some next) : Stepped loop (.anchorer_reply exchange) next := by
  unfold anchorer_reply at hstep
  split at hstep
  · rename_i pending after hanchorer
    split at hstep
    · rename_i rest hresume
      cases hstep
      exact .replied exchange pending rest after hanchorer hresume
    · cases hstep
  · cases hstep

theorem anchorer_unwind_cases {loop next : Loop} (hstep : loop.anchorer_unwind = some next) :
    Stepped loop .anchorer_unwind next := by
  unfold anchorer_unwind at hstep
  split at hstep
  · rename_i message resume after hanchorer
    cases hstep
    exact .unwound message resume after hanchorer
  · cases hstep

theorem anchorer_join_cases {loop next : Loop} (hstep : loop.anchorer_join = some next) :
    Stepped loop .anchorer_join next := by
  unfold anchorer_join at hstep
  split at hstep
  · rename_i unsent hanchorer hsubscriber
    cases hstep
    exact .joined unsent hanchorer hsubscriber
  · cases hstep

/-- A step does one of the things listed, and nothing else. -/
theorem step_cases {loop next : Loop} {action : Action} (hstep : loop.step action = some next) :
    Stepped loop action next := by
  cases action with
  | shutdown_send value =>
    rw [step] at hstep
    split at hstep
    · cases hstep
    · rename_i hopen
      cases hstep
      exact .shutdown_send value (Bool.eq_false_iff.mpr hopen)
  | shutdown_drop =>
    cases hstep
    exact .shutdown_drop
  | subscriber_changed => exact subscriber_changed_cases hstep
  | subscriber_next => exact subscriber_next_cases hstep
  | subscriber_ingest fault => exact subscriber_ingest_cases hstep
  | subscriber_send => exact subscriber_send_cases hstep
  | anchorer_changed => exact anchorer_changed_cases hstep
  | anchorer_recv => exact anchorer_recv_cases hstep
  | anchorer_tick => exact anchorer_tick_cases hstep
  | anchorer_reply exchange => exact anchorer_reply_cases hstep
  | anchorer_unwind => exact anchorer_unwind_cases hstep
  | anchorer_join => exact anchorer_join_cases hstep

omit [Sha256] in
theorem anchorer_of_returned {loop : Loop} {result : Except BatchError Unit}
    (hreturned : loop.returned = some result) : loop.anchorer = .returned result := by
  unfold returned at hreturned
  split at hreturned
  · cases hreturned
    assumption
  · cases hreturned

omit [Sha256] in
/-- Leaving with something buffered is a flush, and else only the change of place. -/
theorem leave_cases (loop : Loop) :
    (loop.buffer = [] ∧ loop.leave = { loop with anchorer := .joining }) ∨
      (loop.buffer ≠ [] ∧ loop.leave = loop.flush .leave) := by
  unfold leave
  by_cases hbuffer : loop.buffer = []
  · exact .inl ⟨hbuffer, if_pos hbuffer⟩
  · exact .inr ⟨hbuffer, if_neg hbuffer⟩

end Loop

end document_indexing.batch
