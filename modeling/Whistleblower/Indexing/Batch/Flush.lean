import Whistleblower.Indexing.Batch.Steps

open whistleblower_core

namespace document_indexing.batch

/-- The successful answer to a submitted batch. -/
def anchored_call (batch : List Pair) (entries : List AnchorEntry) : Exchange Adapters :=
  ⟨.anchor_batch batch, (Except.ok entries : Except AdapterError (List AnchorEntry))⟩

/-- The answer that a batch failed. -/
def failed_call (batch : List Pair) (e : AdapterError) : Exchange Adapters :=
  ⟨.anchor_batch batch, (Except.error e : Except AdapterError (List AnchorEntry))⟩

/-- The batch that an answer accepts, if it accepts one. -/
def anchored_batch : Exchange Adapters → Option (List Pair)
  | ⟨.anchor_batch batch, response⟩ =>
    match (response : Except AdapterError (List AnchorEntry)) with
    | .ok _ => some batch
    | .error _ => none
  | _ => none

/-- The batches that the registry has accepted, oldest first. -/
def anchored_batches (calls : List (Exchange Adapters)) : List (List Pair) := calls.filterMap anchored_batch

/-- The registry has accepted this batch. -/
def Anchored (calls : List (Exchange Adapters)) (batch : List Pair) : Prop :=
  ∃ entries, anchored_call batch entries ∈ calls

theorem anchored_batch_eq_some {exchange : Exchange Adapters} {batch : List Pair} :
    anchored_batch exchange = some batch ↔ ∃ entries, exchange = anchored_call batch entries := by
  unfold anchored_batch
  constructor
  · intro h
    split at h
    · split at h
      · cases h
        exact ⟨_, rfl⟩
      · cases h
    · cases h
  · rintro ⟨entries, rfl⟩
    rfl

theorem mem_anchored_batches {calls : List (Exchange Adapters)} {batch : List Pair} :
    batch ∈ anchored_batches calls ↔ Anchored calls batch := by
  simp only [anchored_batches, List.mem_filterMap, anchored_batch_eq_some, Anchored]
  constructor
  · rintro ⟨_, hcall, entries, rfl⟩
    exact ⟨entries, hcall⟩
  · rintro ⟨entries, hcall⟩
    exact ⟨_, hcall, entries, rfl⟩

@[simp] theorem anchored_batches_append (calls : List (Exchange Adapters)) (exchange : Exchange Adapters) :
    anchored_batches (calls ++ [exchange]) = anchored_batches calls ++ (anchored_batch exchange).toList := by
  rw [anchored_batches, List.filterMap_append]
  cases hbatch : anchored_batch exchange <;> simp [anchored_batches, hbatch]

/-- While a batch is flushed, only it is submitted, and until the registry has accepted
    it. -/
def Submits (earlier : List (List Pair)) (batch : List Pair) (calls : List (Exchange Adapters))
    (request : AdapterCall) : Prop :=
  (anchored_batches calls = earlier ∧ ∀ entries, request = .anchor_batch entries → entries = batch) ∨
    (anchored_batches calls = earlier ++ [batch] ∧ ∃ submission, request = .sink_send submission)

/-- A flush succeeds if its batch was accepted, and fails if its batch was refused. -/
def Flushed (earlier : List (List Pair)) (batch : List Pair) (calls : List (Exchange Adapters)) :
    Except BatchError Unit → Prop
  | .ok () => anchored_batches calls = earlier ++ [batch]
  | .error _ => anchored_batches calls = earlier ∧ ∃ e, failed_call batch e ∈ calls

/-- A flush submits its own batch only, and succeeds only on an accepted one. -/
theorem flush_batch_ensures (config : BatchConfig) {earlier : List (List Pair)} (batch : List Pair)
    {calls : List (Exchange Adapters)} (hearlier : anchored_batches calls = earlier) :
    Async.Ensures (Async.recording Adapters) (Submits earlier batch) (Flushed earlier batch)
      (flush_batch config batch) calls := by
  have hcall : ∀ before, anchored_batches before = earlier →
      Async.Ensures (Async.recording Adapters) (Submits earlier batch)
        (OnResult (fun calls e => anchored_batches calls = earlier ∧ failed_call batch e ∈ calls)
          fun calls _ => anchored_batches calls = earlier ++ [batch])
        (Async.call (I := Adapters) (.anchor_batch batch)) before := by
    intro before hbefore
    refine .call ?_ ?_
    · rintro _ rfl
      exact .inl ⟨hbefore, fun entries h => by cases h; rfl⟩
    · rintro _ (e | entries) _ _ rfl rfl rfl
      · refine ⟨?_, List.mem_append_right _ List.mem_cons_self⟩
        rw [anchored_batches_append, hbefore]
        exact List.append_nil _
      · change anchored_batches _ = _
        rw [anchored_batches_append, hbefore]
        rfl
  refine Async.Ensures.bind (with_retry_records (V := fun calls => anchored_batches calls = earlier)
    (fun _ _ hfailed => hfailed.1)
    (fun _ _ _ hfailed => ⟨by rw [anchored_batches_append, hfailed.1]; exact List.append_nil _,
      List.mem_append_left _ hfailed.2⟩)
    (fun _ _ hvalid => .inl ⟨hvalid, by rintro _ ⟨⟩⟩) (fun _ _ hvalid => .inl ⟨hvalid, by rintro _ ⟨⟩⟩)
    hcall calls hearlier) ?_
  intro later result hresult
  cases result with
  | error e =>
    refine .ret ?_
    rintro _ rfl
    obtain ⟨hkept, hfailed⟩ := hresult later rfl
    exact ⟨hkept, e, hfailed⟩
  | ok entries =>
    have hanchored : anchored_batches later = earlier ++ [batch] := hresult later rfl
    have hsend : Async.Ensures (Async.recording Adapters) (Submits earlier batch)
        (fun calls (_ : Unit) => anchored_batches calls = earlier ++ [batch])
        (Async.call (I := Adapters) (.sink_send { batch_size := batch.length, anchored := entries.length }))
        later := by
      refine .call ?_ ?_
      · rintro _ rfl
        exact .inr ⟨hanchored, _, rfl⟩
      · rintro _ response _ _ rfl rfl rfl
        rw [anchored_batches_append, hanchored]
        exact List.append_nil _
    exact hsend.bind fun last _ hlast => .ret fun final hfinal => hlast final hfinal

/-- Which of the flushed batches are accepted at each place of the anchorer: all, but
    for the last one during its flush or after a failure. -/
def Settled (calls : List (Exchange Adapters)) (batches : List (List Pair)) : Anchorer → Prop
  | .flushing pending _ => ∃ earlier batch, batches = earlier ++ [batch] ∧
      Async.Ensures (Async.recording Adapters) (Submits earlier batch) (Flushed earlier batch) pending calls
  | .returned (.error e) => ∃ earlier batch, batches = earlier ++ [batch] ∧ Flushed earlier batch calls (.error e)
  | .panicked _ => ∃ rest, batches = anchored_batches calls ++ rest
  | _ => anchored_batches calls = batches

namespace Loop

theorem settled_after_flush {calls : List (Exchange Adapters)} {earlier : List (List Pair)} {batch : List Pair}
    {pending : Async Adapters (Except BatchError Unit)}
    (hpending : Async.Ensures (Async.recording Adapters) (Submits earlier batch) (Flushed earlier batch)
      pending calls) (after : After) :
    Settled calls (earlier ++ [batch]) (after_flush pending after) := by
  cases pending with
  | ask request resume => exact ⟨earlier, batch, rfl, hpending⟩
  | ret result =>
    have hresult := hpending calls rfl
    cases result with
    | error e => exact ⟨earlier, batch, rfl, hresult⟩
    | ok value => cases after <;> exact hresult

/-- The record of calls agrees with the record of batches. -/
structure Flushes (loop : Loop) : Prop where
  settled : Settled loop.calls loop.batches loop.anchorer
  submitted : ∀ exchange ∈ loop.calls, ∀ entries,
    exchange.request = AdapterCall.anchor_batch entries → entries ∈ loop.batches

theorem Flushes.of_selecting {loop : Loop} (hflushes : loop.Flushes) (hanchorer : loop.anchorer = .selecting) :
    anchored_batches loop.calls = loop.batches := by
  have hsettled := hflushes.settled
  rw [hanchorer] at hsettled
  exact hsettled

/-- After a successful return every batch was accepted. -/
theorem Flushes.of_returned {loop : Loop} (hflushes : loop.Flushes) (hreturned : loop.returned = some (.ok ())) :
    anchored_batches loop.calls = loop.batches := by
  have hsettled := hflushes.settled
  rw [anchorer_of_returned hreturned] at hsettled
  exact hsettled

theorem Flushes.anchored {loop : Loop} (hflushes : loop.Flushes) (hreturned : loop.returned = some (.ok ()))
    {batch : List Pair} (hbatch : batch ∈ loop.batches) : Anchored loop.calls batch := by
  rw [← hflushes.of_returned hreturned] at hbatch
  exact mem_anchored_batches.mp hbatch

/-- After a failed return the last batch was refused. -/
theorem Flushes.of_failed {loop : Loop} (hflushes : loop.Flushes) {err : BatchError}
    (hreturned : loop.returned = some (.error err)) :
    ∃ batch ∈ loop.batches, ∃ e, failed_call batch e ∈ loop.calls := by
  have hsettled := hflushes.settled
  rw [anchorer_of_returned hreturned] at hsettled
  obtain ⟨earlier, batch, hbatches, _, e, hfailed⟩ := hsettled
  exact ⟨batch, by rw [hbatches]; exact List.mem_append_right _ List.mem_cons_self, e, hfailed⟩

/-- What the pending request of a flush tells. -/
theorem Flushes.of_pending {loop : Loop} (hflushes : loop.Flushes) {request : AdapterCall}
    {resume : Adapters.Response request → Async Adapters (Except BatchError Unit)} {after : After}
    (hanchorer : loop.anchorer = .flushing (.ask request resume) after) :
    ∃ earlier batch, loop.batches = earlier ++ [batch] ∧ Submits earlier batch loop.calls request := by
  have hsettled := hflushes.settled
  rw [hanchorer] at hsettled
  obtain ⟨earlier, batch, hbatches, hpending⟩ := hsettled
  exact ⟨earlier, batch, hbatches, (hpending loop.calls rfl).1⟩

/-- The registry is asked, or has been asked, to anchor these entries. -/
def Asked (loop : Loop) (entries : List Pair) : Prop :=
  (∃ exchange ∈ loop.calls, exchange.request = AdapterCall.anchor_batch entries) ∨
    ∃ resume after, loop.anchorer = .flushing (.ask (AdapterCall.anchor_batch entries) resume) after

/-- What the registry is asked for was flushed. -/
theorem Flushes.asked {loop : Loop} (hflushes : loop.Flushes) {entries : List Pair} (hasked : loop.Asked entries) :
    entries ∈ loop.batches := by
  rcases hasked with ⟨exchange, hexchange, hrequest⟩ | ⟨resume, after, hanchorer⟩
  · exact hflushes.submitted exchange hexchange entries hrequest
  · obtain ⟨earlier, batch, hbatches, hsubmits⟩ := hflushes.of_pending hanchorer
    rcases hsubmits with ⟨_, hbatch⟩ | ⟨_, submission, hsink⟩
    · rw [hbatch entries rfl, hbatches]
      exact List.mem_append_right _ List.mem_cons_self
    · cases hsink

/-- The accepted batches are the first of the flushed ones, in order. -/
theorem Flushes.anchored_prefix {loop : Loop} (hflushes : loop.Flushes) :
    anchored_batches loop.calls <+: loop.batches := by
  have hsettled := hflushes.settled
  have hall : anchored_batches loop.calls = loop.batches → anchored_batches loop.calls <+: loop.batches :=
    fun heq => heq ▸ List.prefix_refl _
  cases hanchorer : loop.anchorer with
  | selecting =>
    rw [hanchorer] at hsettled
    exact hall hsettled
  | joining =>
    rw [hanchorer] at hsettled
    exact hall hsettled
  | panicked message =>
    rw [hanchorer] at hsettled
    obtain ⟨rest, hbatches⟩ := hsettled
    exact ⟨rest, hbatches.symm⟩
  | returned result =>
    rw [hanchorer] at hsettled
    cases result with
    | ok value => exact hall hsettled
    | error e =>
      obtain ⟨earlier, batch, hbatches, hearlier, _⟩ := hsettled
      rw [hbatches, hearlier]
      exact List.prefix_append _ _
  | flushing pending after =>
    rw [hanchorer] at hsettled
    obtain ⟨earlier, batch, hbatches, hpending⟩ := hsettled
    rw [hbatches]
    cases pending with
    | ret result =>
      have hresult := hpending loop.calls rfl
      cases result with
      | ok value => exact hresult ▸ List.prefix_refl _
      | error e => exact hresult.1 ▸ List.prefix_append _ _
    | ask request resume =>
      rcases (hpending loop.calls rfl).1 with ⟨hearlier, _⟩ | ⟨hwhole, _⟩
      · exact hearlier ▸ List.prefix_append _ _
      · exact hwhole ▸ List.prefix_refl _

theorem Flushes.flush {loop : Loop} (hflushes : loop.Flushes) (hanchorer : loop.anchorer = .selecting)
    (after : After) : (loop.flush after).Flushes where
  settled := settled_after_flush (flush_batch_ensures _ _ (hflushes.of_selecting hanchorer)) after
  submitted := fun exchange hexchange entries hrequest =>
    List.mem_append_left _ (hflushes.submitted exchange hexchange entries hrequest)

theorem Flushes.leave {loop : Loop} (hflushes : loop.Flushes) (hanchorer : loop.anchorer = .selecting) :
    loop.leave.Flushes := by
  rcases loop.leave_cases with ⟨_, hleave⟩ | ⟨_, hleave⟩
  · rw [hleave]
    exact ⟨hflushes.of_selecting hanchorer, hflushes.submitted⟩
  · rw [hleave]
    exact hflushes.flush hanchorer .leave

theorem Flushes.started (config : BatchConfig) (dedupe : DurableDedupeStore) (ledger : File)
    (stream : List (Except AdapterError ReceivedEnvelope)) (shutdown : Watch) (seen : Nat) :
    (started config dedupe ledger stream shutdown seen).Flushes := by
  constructor
  · obtain hprepared | ⟨message, hprepared⟩ := prepared_eq config <;>
      simp [Loop.started, hprepared, Settled, anchored_batches]
  · intro exchange hexchange
    cases hexchange

theorem Flushes.step [Sha256] {loop next : Loop} {action : Action} (hflushes : loop.Flushes)
    (hstep : loop.step action = some next) : next.Flushes := by
  cases step_cases hstep with
  | anchorer_stopped hanchorer =>
    have hwoken : Flushes { loop with anchorer_seen := loop.shutdown.version } :=
      ⟨hflushes.settled, hflushes.submitted⟩
    exact hwoken.leave hanchorer
  | filled pair rest hanchorer =>
    have hfilled : Flushes { loop with channel := rest, buffer := loop.buffer ++ [pair] } :=
      ⟨hflushes.settled, hflushes.submitted⟩
    exact hfilled.flush hanchorer .continue
  | channel_closed _ hanchorer => exact hflushes.leave hanchorer
  | tick hanchorer => exact hflushes.flush hanchorer .continue
  | replied exchange pending rest after hanchorer hresume =>
    have hsettled := hflushes.settled
    rw [hanchorer] at hsettled
    obtain ⟨earlier, batch, hbatches, hpending⟩ := hsettled
    obtain ⟨hasks, hrest⟩ := hpending.resume hresume rfl
    constructor
    · simp only [hbatches]
      exact settled_after_flush hrest after
    · intro other hother entries hrequest
      rcases List.mem_append.mp hother with hother | hother
      · exact hflushes.submitted other hother entries hrequest
      · rw [List.mem_singleton.mp hother] at hrequest
        rcases hasks with ⟨_, hsubmits⟩ | ⟨_, submission, hsink⟩
        · rw [hsubmits entries hrequest, hbatches]
          exact List.mem_append_right _ List.mem_cons_self
        · rw [hsink] at hrequest
          cases hrequest
  | unwound =>
    refine ⟨?_, hflushes.submitted⟩
    obtain ⟨rest, hbatches⟩ := hflushes.anchored_prefix
    exact ⟨rest, hbatches.symm⟩
  | joined unsent hanchorer =>
    have hsettled := hflushes.settled
    rw [hanchorer] at hsettled
    exact ⟨hsettled, hflushes.submitted⟩
  | _ => exact ⟨hflushes.settled, hflushes.submitted⟩

end Loop

end document_indexing.batch
