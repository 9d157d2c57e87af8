import Whistleblower.Indexing.Batch.Flush

open whistleblower_core

namespace document_indexing.batch

/-- What is to be reported of an answer, if it accepts a batch. -/
def accepted_submission : Exchange Adapters → Option BatchSubmission
  | ⟨.anchor_batch batch, response⟩ =>
    match (response : Except AdapterError (List AnchorEntry)) with
    | .ok entries => some { batch_size := batch.length, anchored := entries.length }
    | .error _ => none
  | _ => none

/-- The submissions that the registry has accepted, oldest first. -/
def accepted_submissions (calls : List (Exchange Adapters)) : List BatchSubmission :=
  calls.filterMap accepted_submission

/-- A submission that the sink has taken. -/
def reported_call (submission : BatchSubmission) : Exchange Adapters := ⟨.sink_send submission, ()⟩

def reported_submission : Exchange Adapters → Option BatchSubmission
  | ⟨.sink_send submission, _⟩ => some submission
  | _ => none

/-- The submissions that were reported, oldest first. -/
def reported_submissions (calls : List (Exchange Adapters)) : List BatchSubmission :=
  calls.filterMap reported_submission

@[simp] theorem accepted_submissions_append (calls : List (Exchange Adapters)) (exchange : Exchange Adapters) :
    accepted_submissions (calls ++ [exchange]) =
      accepted_submissions calls ++ (accepted_submission exchange).toList := by
  rw [accepted_submissions, List.filterMap_append]
  cases hexchange : accepted_submission exchange <;> simp [accepted_submissions, hexchange]

@[simp] theorem reported_submissions_append (calls : List (Exchange Adapters)) (exchange : Exchange Adapters) :
    reported_submissions (calls ++ [exchange]) =
      reported_submissions calls ++ (reported_submission exchange).toList := by
  rw [reported_submissions, List.filterMap_append]
  cases hexchange : reported_submission exchange <;> simp [reported_submissions, hexchange]

theorem batch_size_accepted_submission (exchange : Exchange Adapters) :
    (accepted_submission exchange).map BatchSubmission.batch_size = (anchored_batch exchange).map List.length := by
  obtain ⟨request, response⟩ := exchange
  cases (request : AdapterCall) with
  | anchor_batch batch =>
    cases (response : Except AdapterError (List AnchorEntry)) with
    | ok entries => rfl
    | error e => rfl
  | _ => rfl

/-- The accepted submissions have the sizes of the accepted batches. -/
theorem batch_size_accepted_submissions (calls : List (Exchange Adapters)) :
    (accepted_submissions calls).map BatchSubmission.batch_size = (anchored_batches calls).map List.length := by
  rw [accepted_submissions, anchored_batches, List.map_filterMap, List.map_filterMap]
  exact List.filterMap_congr fun exchange _ => batch_size_accepted_submission exchange

theorem mem_accepted_submissions {calls : List (Exchange Adapters)} {submission : BatchSubmission}
    (hmem : submission ∈ accepted_submissions calls) : ∃ batch entries, anchored_call batch entries ∈ calls ∧
      submission = { batch_size := batch.length, anchored := entries.length } := by
  obtain ⟨exchange, hcall, haccepted⟩ := List.mem_filterMap.mp hmem
  unfold accepted_submission at haccepted
  split at haccepted
  · rename_i batch response
    cases hresponse : (response : Except AdapterError (List AnchorEntry)) with
    | ok entries =>
      rw [hresponse] at hcall haccepted
      cases haccepted
      exact ⟨batch, entries, hcall, rfl⟩
    | error e =>
      rw [hresponse] at haccepted
      cases haccepted
  · cases haccepted

/-- All that was accepted is reported. -/
def Squared (calls : List (Exchange Adapters)) : Prop := reported_submissions calls = accepted_submissions calls

/-- A report is of the one submission that was accepted and is not reported yet. -/
def Owes (calls : List (Exchange Adapters)) (request : AdapterCall) : Prop :=
  (Squared calls ∧ ∀ submission, request ≠ .sink_send submission) ∨
    ∃ submission, accepted_submissions calls = reported_submissions calls ++ [submission] ∧
      request = .sink_send submission

theorem Squared.append {calls : List (Exchange Adapters)} (hsquared : Squared calls) {exchange : Exchange Adapters}
    (haccepted : accepted_submission exchange = none) (hreported : reported_submission exchange = none) :
    Squared (calls ++ [exchange]) := by
  rw [Squared, reported_submissions_append, accepted_submissions_append, haccepted, hreported, hsquared]

/-- A flush reports its batch after it was accepted, and before it ends. -/
theorem flush_batch_owes (config : BatchConfig) (batch : List Pair) {calls : List (Exchange Adapters)}
    (hsquared : Squared calls) :
    Async.Ensures (Async.recording Adapters) Owes (fun later _ => Squared later) (flush_batch config batch) calls := by
  have hcall : ∀ before, Squared before → Async.Ensures (Async.recording Adapters) Owes
      (OnResult (fun later _ => Squared later) fun later entries => accepted_submissions later =
        reported_submissions later ++ [{ batch_size := batch.length, anchored := entries.length }])
      (Async.call (I := Adapters) (.anchor_batch batch)) before := by
    intro before hbefore
    refine .call ?_ ?_
    · rintro _ rfl
      exact .inl ⟨hbefore, by rintro _ ⟨⟩⟩
    · rintro _ (e | entries) _ _ rfl rfl rfl
      · exact hbefore.append rfl rfl
      · change accepted_submissions _ = _
        rw [reported_submissions_append, accepted_submissions_append, hbefore]
        simp [accepted_submission, reported_submission]
  refine Async.Ensures.bind (with_retry_records (V := Squared) (fun _ _ => id)
    (fun _ _ _ hbefore => hbefore.append rfl rfl) (fun _ _ hbefore => .inl ⟨hbefore, by rintro _ ⟨⟩⟩)
    (fun _ _ hbefore => .inl ⟨hbefore, by rintro _ ⟨⟩⟩) hcall calls hsquared) ?_
  intro later result hresult
  cases result with
  | error e =>
    refine .ret ?_
    rintro _ rfl
    exact hresult later rfl
  | ok entries =>
    have howed : accepted_submissions later =
        reported_submissions later ++ [{ batch_size := batch.length, anchored := entries.length }] := hresult later rfl
    have hsend : Async.Ensures (Async.recording Adapters) Owes (fun last (_ : Unit) => Squared last)
        (Async.call (I := Adapters) (.sink_send { batch_size := batch.length, anchored := entries.length }))
        later := by
      refine .call ?_ ?_
      · rintro _ rfl
        exact .inr ⟨_, howed, rfl⟩
      · rintro _ response _ _ rfl rfl rfl
        rw [Squared, reported_submissions_append, accepted_submissions_append, howed]
        simp [accepted_submission, reported_submission]
    exact hsend.bind fun last _ hlast => .ret fun final hfinal => hlast final hfinal

/-- What is reported at each place of the anchorer. -/
def Tallies (calls : List (Exchange Adapters)) : Anchorer → Prop
  | .flushing pending _ => Async.Ensures (Async.recording Adapters) Owes (fun later _ => Squared later) pending calls
  | .panicked _ => reported_submissions calls <+: accepted_submissions calls
  | _ => Squared calls

theorem Tallies.in_order {calls : List (Exchange Adapters)} {anchorer : Anchorer} (htallies : Tallies calls anchorer) :
    reported_submissions calls <+: accepted_submissions calls := by
  cases anchorer with
  | flushing pending after =>
    cases pending with
    | ret result => exact (show Squared calls from htallies calls rfl) ▸ List.prefix_refl _
    | ask request resume =>
      obtain ⟨howes, _⟩ := htallies calls rfl
      obtain ⟨hsquared, _⟩ | ⟨submission, howed, _⟩ := howes
      · exact hsquared ▸ List.prefix_refl _
      · exact ⟨[submission], howed.symm⟩
  | panicked message => exact htallies
  | _ => exact (show Squared calls from htallies) ▸ List.prefix_refl _

/-- A report is of an accepted batch, with as many entries as the registry returned for it. -/
theorem Tallies.told {calls : List (Exchange Adapters)} {anchorer : Anchorer} (htallies : Tallies calls anchorer)
    {submission : BatchSubmission} (hreport : reported_call submission ∈ calls) :
    ∃ batch entries, anchored_call batch entries ∈ calls ∧
      submission = { batch_size := batch.length, anchored := entries.length } :=
  mem_accepted_submissions (htallies.in_order.subset (List.mem_filterMap.mpr ⟨_, hreport, rfl⟩))

namespace Loop

theorem tallies_after_flush {calls : List (Exchange Adapters)} {pending : Async Adapters (Except BatchError Unit)}
    (hpending : Async.Ensures (Async.recording Adapters) Owes (fun later _ => Squared later) pending calls)
    (after : After) : Tallies calls (after_flush pending after) := by
  cases pending with
  | ask request resume => exact hpending
  | ret result =>
    have hsquared : Squared calls := hpending calls rfl
    cases result with
    | error e => exact hsquared
    | ok value => cases after <;> exact hsquared

theorem tallies_flush {loop : Loop} (hsquared : Squared loop.calls) (after : After) :
    Tallies (loop.flush after).calls (loop.flush after).anchorer :=
  tallies_after_flush (flush_batch_owes _ _ hsquared) after

theorem tallies_leave {loop : Loop} (hsquared : Squared loop.calls) : Tallies loop.leave.calls loop.leave.anchorer := by
  obtain ⟨_, hleave⟩ | ⟨_, hleave⟩ := loop.leave_cases
  · rw [hleave]
    exact hsquared
  · rw [hleave]
    exact tallies_flush hsquared .leave

theorem tallies_started (config : BatchConfig) (dedupe : DurableDedupeStore) (ledger : File)
    (stream : List (Except AdapterError ReceivedEnvelope)) (shutdown : Watch) (seen : Nat) :
    Tallies (started config dedupe ledger stream shutdown seen).calls
      (started config dedupe ledger stream shutdown seen).anchorer := by
  obtain hprepared | ⟨message, hprepared⟩ := prepared_eq config <;>
    simp [Loop.started, hprepared, Tallies, Squared] <;> rfl

/-- Every step keeps the reports in order. -/
theorem tallies_step [Sha256] {loop next : Loop} {action : Action} (htallies : Tallies loop.calls loop.anchorer)
    (hstep : loop.step action = some next) : Tallies next.calls next.anchorer := by
  have hselecting : loop.anchorer = .selecting → Squared loop.calls := by
    intro hanchorer
    rwa [hanchorer] at htallies
  cases step_cases hstep with
  | anchorer_stopped hanchorer =>
    exact @tallies_leave { loop with anchorer_seen := loop.shutdown.version } (hselecting hanchorer)
  | filled pair rest hanchorer =>
    exact @tallies_flush { loop with channel := rest, buffer := loop.buffer ++ [pair] } (hselecting hanchorer) .continue
  | channel_closed _ hanchorer => exact tallies_leave (hselecting hanchorer)
  | tick hanchorer => exact tallies_flush (hselecting hanchorer) .continue
  | replied exchange pending rest after hanchorer hresume =>
    rw [hanchorer] at htallies
    exact tallies_after_flush (Async.Ensures.resume htallies hresume rfl).2 after
  | unwound => exact htallies.in_order
  | joined unsent hanchorer =>
    rw [hanchorer] at htallies
    exact htallies
  | _ => exact htallies

end Loop

end document_indexing.batch
