import Whistleblower.Indexing.Batch.Conservation

open whistleblower_core

namespace document_indexing.batch

/-- With these items not yet delivered, the subscriber ingests nothing more, once it finds no
    receiver: it has ended, has a pair to send, or selects among receive errors. -/
def Subscriber.Spent (stream : List (Except AdapterError ReceivedEnvelope)) : Subscriber → Prop
  | .selecting => ∀ item ∈ stream, item.isOk = false
  | .ingesting _ => False
  | .sending _ => True
  | .finished _ => True

instance (stream : List (Except AdapterError ReceivedEnvelope)) :
    (subscriber : Subscriber) → Decidable (subscriber.Spent stream)
  | .selecting => inferInstanceAs (Decidable (∀ item ∈ stream, item.isOk = false))
  | .ingesting _ => .isFalse id
  | .sending _ => .isTrue trivial
  | .finished _ => .isTrue trivial

namespace Loop

section

variable [Sha256]

/-- If the answer makes a flush fail, the subscriber ingests nothing more. -/
def FailsSpent (loop : Loop) : Action → Prop
  | .anchorer_reply exchange =>
    match loop.anchorer with
    | .flushing pending _ =>
      match pending.resume? exchange with
      | some (.ret (.error _)) => loop.subscriber.Spent loop.stream
      | _ => True
    | _ => True
  | _ => True

instance (loop : Loop) : (action : Action) → Decidable (loop.FailsSpent action)
  | .anchorer_reply exchange => by
    unfold FailsSpent
    dsimp only
    split
    · split <;> infer_instance
    · infer_instance
  | .shutdown_send _ | .shutdown_drop | .subscriber_changed | .subscriber_next | .subscriber_ingest _
  | .subscriber_send | .anchorer_changed | .anchorer_recv | .anchorer_tick | .anchorer_unwind | .anchorer_join =>
    .isTrue trivial

/-- Whatever happens from here on, nothing is ingested. -/
def Quiet (loop : Loop) : Prop :=
  ∀ actions last, transition.run step loop actions = some last →
    last.ingested = loop.ingested ∧ last.ledger = loop.ledger

/-- After the return nobody is left to change what the subscriber still does. -/
structure Done (loop : Loop) : Prop where
  returned : loop.returned ≠ none
  spent : loop.subscriber.Spent loop.stream

theorem Done.step {loop next : Loop} {action : Action} (hdone : loop.Done) (hstep : loop.step action = some next) :
    next.Done ∧ next.ingested = loop.ingested ∧ next.ledger = loop.ledger := by
  obtain ⟨hreturned, hspent⟩ := hdone
  obtain ⟨result, hresult⟩ := Option.ne_none_iff_exists'.mp hreturned
  have hanchorer := anchorer_of_returned hresult
  have hbusy : ∀ {place : Anchorer}, loop.anchorer = place → place = .returned result :=
    fun hplace => hplace.symm.trans hanchorer
  cases step_cases hstep with
  | shutdown_send => exact ⟨⟨hreturned, hspent⟩, rfl, rfl⟩
  | shutdown_drop => exact ⟨⟨hreturned, hspent⟩, rfl, rfl⟩
  | subscriber_woken hsubscriber =>
    refine ⟨⟨hreturned, ?_⟩, rfl, rfl⟩
    rw [hsubscriber] at hspent
    cases loop.shutdown.value with
    | true => trivial
    | false => exact hspent
  | stream_closed => exact ⟨⟨hreturned, trivial⟩, rfl, rfl⟩
  | receive_error e rest hsubscriber hstream =>
    refine ⟨⟨hreturned, ?_⟩, rfl, rfl⟩
    rw [hsubscriber, hstream] at hspent
    rw [hsubscriber]
    exact fun item hmem => hspent item (List.mem_cons_of_mem _ hmem)
  | received envelope rest hsubscriber hstream =>
    rw [hsubscriber, hstream] at hspent
    cases hspent _ List.mem_cons_self
  | ingested fault envelope hsubscriber =>
    rw [hsubscriber] at hspent
    exact hspent.elim
  | sent pair _ hreceiver =>
    rw [receiver_dropped, hanchorer] at hreceiver
    cases hreceiver
  | unsent => exact ⟨⟨hreturned, trivial⟩, rfl, rfl⟩
  | anchorer_woken hselecting => cases hbusy hselecting
  | anchorer_stopped hselecting => cases hbusy hselecting
  | buffered _ _ hselecting => cases hbusy hselecting
  | filled _ _ hselecting => cases hbusy hselecting
  | channel_closed _ hselecting => cases hbusy hselecting
  | idle_tick hselecting => cases hbusy hselecting
  | tick hselecting => cases hbusy hselecting
  | replied _ _ _ _ hflushing => cases hbusy hflushing
  | unwound _ _ _ hflushing => cases hbusy hflushing
  | joined _ hjoining => cases hbusy hjoining

theorem Done.quiet {loop : Loop} (hdone : loop.Done) : loop.Quiet := by
  intro actions last hrun
  exact (transition.run_preserves
    (P := fun current => current.Done ∧ current.ingested = loop.ingested ∧ current.ledger = loop.ledger)
    (fun _ _ _ hcurrent hstep => by
      obtain ⟨hnext, hingested, hledger⟩ := hcurrent.1.step hstep
      exact ⟨hnext, hingested.trans hcurrent.2.1, hledger.trans hcurrent.2.2⟩)
    ⟨hdone, rfl, rfl⟩ hrun).2

/-- An envelope in the subscriber's hands can be ingested. -/
theorem not_quiet_of_ingesting {loop : Loop} {envelope : ReceivedEnvelope}
    (hsubscriber : loop.subscriber = .ingesting envelope) : ¬ loop.Quiet := by
  intro hquiet
  have hstep : ∃ next, loop.subscriber_ingest none = some next ∧ next.ingested ≠ loop.ingested := by
    rw [subscriber_ingest, hsubscriber]
    exact ⟨_, rfl, by simp⟩
  obtain ⟨next, hnext, hingested⟩ := hstep
  exact hingested (hquiet [.subscriber_ingest none] next (transition.run_cons_eq_some.mpr ⟨next, hnext, rfl⟩)).1

theorem Quiet.step {loop next : Loop} {action : Action} (hquiet : loop.Quiet) (hstep : loop.step action = some next) :
    next.Quiet := by
  intro actions last hrun
  obtain ⟨hingested, hledger⟩ := hquiet [action] next (transition.run_cons_eq_some.mpr ⟨next, hstep, rfl⟩)
  obtain ⟨hlast, hfile⟩ := hquiet (action :: actions) last (transition.run_cons_eq_some.mpr ⟨next, hstep, hrun⟩)
  exact ⟨hlast.trans hingested.symm, hfile.trans hledger.symm⟩

/-- The subscriber takes its stream item by item, if nothing stops it. -/
theorem Quiet.spent {loop : Loop} (hquiet : loop.Quiet) : loop.subscriber.Spent loop.stream := by
  cases hsubscriber : loop.subscriber with
  | ingesting envelope => exact not_quiet_of_ingesting hsubscriber hquiet
  | sending pair => trivial
  | finished unsent => trivial
  | selecting =>
    generalize hstream : loop.stream = stream
    induction stream generalizing loop with
    | nil => exact fun item hmem => (nomatch hmem)
    | cons item rest ih =>
      cases item with
      | error e =>
        have hstep : loop.step .subscriber_next = some { loop with stream := rest } := by
          rw [Loop.step, subscriber_next, hsubscriber, hstream]
        have hrest := ih (hquiet.step hstep) hsubscriber rfl
        exact List.forall_mem_cons.mpr ⟨rfl, hrest⟩
      | ok envelope =>
        have hstep : loop.step .subscriber_next =
            some { loop with stream := rest, subscriber := .ingesting envelope } := by
          rw [Loop.step, subscriber_next, hsubscriber, hstream]
        exact (not_quiet_of_ingesting rfl (hquiet.step hstep)).elim

omit [Sha256] in
/-- A flush returns from the loop only by failing. -/
theorem after_flush_eq_returned {pending : Async Adapters (Except BatchError Unit)} {after : After}
    {result : Except BatchError Unit} (hreturned : after_flush pending after = .returned result) :
    ∃ e, pending = .ret (.error e) := by
  cases pending with
  | ask request resume => cases hreturned
  | ret value =>
    cases value with
    | error e => exact ⟨e, rfl⟩
    | ok value => cases after <;> cases hreturned

omit [Sha256] in
/-- A flush does not fail before it has asked for anything. -/
theorem returned_flush (loop : Loop) (after : After) : (loop.flush after).returned = none := by
  have hasks : ∃ request resume, flush_batch loop.config loop.buffer = .ask request resume := by
    unfold flush_batch with_retry
    cases loop.config.retry_policy.max_attempts.toNat with
    | zero => exact ⟨_, _, rfl⟩
    | succ left => exact ⟨_, _, rfl⟩
  obtain ⟨request, resume, hask⟩ := hasks
  rw [returned, flush, hask]
  rfl

omit [Sha256] in
theorem returned_leave (loop : Loop) : loop.leave.returned = none := by
  obtain ⟨_, hleave⟩ | ⟨_, hleave⟩ := loop.leave_cases
  · rw [hleave]
    rfl
  · rw [hleave, returned_flush]

/-- The step that returns joins a subscriber that has ended, or is an answer that makes a
    flush fail and finds the subscriber where it leaves it. -/
theorem return_cases {loop next : Loop} {action : Action} (hrunning : loop.returned = none)
    (hstep : loop.step action = some next) (hreturned : next.returned ≠ none) :
    (action = .anchorer_join ∧ ∃ unsent, next.subscriber = .finished unsent) ∨
      ∃ exchange pending after e, action = .anchorer_reply exchange ∧ loop.anchorer = .flushing pending after ∧
        pending.resume? exchange = some (.ret (.error e)) ∧ next.subscriber = loop.subscriber ∧
        next.stream = loop.stream := by
  cases step_cases hstep with
  | anchorer_stopped => exact absurd (returned_leave _) hreturned
  | filled => exact absurd (returned_flush _ _) hreturned
  | channel_closed => exact absurd (returned_leave _) hreturned
  | tick => exact absurd (returned_flush _ _) hreturned
  | replied exchange pending rest after hanchorer hresume =>
    obtain ⟨result, hresult⟩ := Option.ne_none_iff_exists'.mp hreturned
    obtain ⟨e, rfl⟩ := after_flush_eq_returned (anchorer_of_returned hresult)
    exact .inr ⟨exchange, pending, after, e, rfl, hanchorer, hresume, rfl, rfl⟩
  | unwound => exact absurd rfl hreturned
  | joined unsent _ hsubscriber => exact .inl ⟨rfl, unsent, hsubscriber⟩
  | _ => exact absurd hrunning hreturned

/-- What the subscriber can still do after the return is what it could do before it. -/
theorem FailsSpent.done {loop next : Loop} {action : Action} (hfails : loop.FailsSpent action)
    (hstep : loop.step action = some next) (hbefore : loop.returned ≠ none → loop.Done)
    (hreturned : next.returned ≠ none) : next.Done := by
  by_cases hrunning : loop.returned = none
  · refine ⟨hreturned, ?_⟩
    obtain ⟨_, unsent, hsubscriber⟩ | ⟨exchange, pending, after, e, rfl, hanchorer, hresume, hsubscriber, hstream⟩ :=
      return_cases hrunning hstep hreturned
    · rw [hsubscriber]
      trivial
    · rw [hsubscriber, hstream]
      simpa only [FailsSpent, hanchorer, hresume] using hfails
  · exact ((hbefore hrunning).step hstep).1

/-- In a state that an answer leaves by returning, the answer finds the subscriber as the
    return does. -/
theorem failsSpent_of_next {loop : Loop} {action : Action}
    (hnext : ∀ next, loop.step action = some next → next.returned ≠ none → next.subscriber.Spent next.stream) :
    loop.FailsSpent action := by
  cases action with
  | anchorer_reply exchange =>
    unfold FailsSpent
    dsimp only
    split
    · rename_i pending after hanchorer
      split
      · rename_i e hresume
        have hstep : loop.step (.anchorer_reply exchange) =
            some { loop with calls := loop.calls ++ [exchange], anchorer := .returned (.error e) } := by
          rw [step, anchorer_reply, hanchorer]
          simp only [hresume]
          rfl
        have hspent := hnext _ hstep (by rintro ⟨⟩)
        exact hspent
      · trivial
    · trivial
  | _ => trivial

end

end Loop

/-- Nothing is ingested after the return in a run exactly if each answer that makes a flush
    fail finds the subscriber with nothing left to ingest. -/
theorem returned_quiet_iff [Sha256] {config : BatchConfig} {file : Except IoFault File}
    {subscription : Except AdapterError (List (Except AdapterError ReceivedEnvelope))} {shutdown : Watch}
    {seen : Nat} {initial : Loop} (hstart : Loop.start config file subscription shutdown seen = .ok initial)
    (actions : List Action) :
    (∀ front back current, actions = front ++ back → transition.run Loop.step initial front = some current →
        current.returned ≠ none → current.Quiet) ↔
      transition.Along Loop.step Loop.FailsSpent initial actions := by
  constructor
  · intro hquiet
    rw [transition.along_iff_forall]
    rintro front action back middle rfl hfront
    refine Loop.failsSpent_of_next fun next hstep hreturned => ?_
    refine (hquiet (front ++ [action]) back next (by simp) ?_ hreturned).spent
    exact transition.run_append_eq_some.mpr ⟨middle, hfront, transition.run_cons_eq_some.mpr ⟨next, hstep, rfl⟩⟩
  · rintro halong front back current rfl hfront hreturned
    have hinitial : initial.returned ≠ none → initial.Done := by
      obtain ⟨_, ledger, dedupe, stream, _, _, _, rfl⟩ := Loop.start_cases hstart
      intro hreturned
      refine absurd ?_ hreturned
      obtain hprepared | ⟨message, hprepared⟩ := Loop.prepared_eq config
      · rw [Loop.returned, Loop.started, hprepared]
      · rw [Loop.returned, Loop.started, hprepared]
    have hprefix : transition.Along Loop.step Loop.FailsSpent initial front := by
      rw [transition.along_iff_forall] at halong ⊢
      rintro earlier action later middle rfl hmiddle
      exact halong earlier action (later ++ back) middle (by simp) hmiddle
    have hdone := transition.run_preserves_along (P := fun loop => loop.returned ≠ none → loop.Done)
      (fun _ _ _ hfails hbefore hstep => hfails.done hstep hbefore) hprefix hinitial hfront
    exact (hdone hreturned).quiet

/-- The only batch is refused when the stream has only a receive error left. -/
theorem returned_quiet_iff_spent :
    let batch := [samplePair "bafy-a" "first", samplePair "bafy-b" "second"]
    let stream := [
      .ok (announcement sampleConfig.topic (sampleEnvelope "bafy-a" "first")),
      .ok (announcement sampleConfig.topic (sampleEnvelope "bafy-b" "second")),
      .error (.retryable "receive")]
    let actions := deliver ++ deliver ++ [.anchorer_reply (failed_call batch (.non_retryable "refused"))]
    ∃ last, sampleRun stream actions = some last ∧
      last.returned = some (.error (.Anchor (.non_retryable "refused"))) ∧ last.Quiet := by
  intro batch stream actions
  have hevaluated : (sampleRun stream actions).map Loop.returned =
      some (some (.error (.Anchor (.non_retryable "refused")))) := by
    decide +kernel
  have hspent : transition.Along Loop.step Loop.FailsSpent
      (Loop.started sampleConfig { seen := ∅ } none stream ⟨false, 0, false⟩ 0) actions := by
    decide +kernel
  obtain ⟨last, hrun, hreturned⟩ := Option.map_eq_some_iff.mp hevaluated
  refine ⟨last, hrun, hreturned, ?_⟩
  refine (returned_quiet_iff (sampleStart stream) actions).mpr hspent actions [] last (List.append_nil _).symm hrun ?_
  rw [hreturned]
  rintro ⟨⟩

/-- The only batch is refused and the loop returns, and the subscriber appends the line of a
    third envelope to the ledger. -/
theorem returned_not_quiet :
    ¬∀ (config : BatchConfig) (file : Except IoFault File)
      (subscription : Except AdapterError (List (Except AdapterError ReceivedEnvelope))) (shutdown : Watch)
      (seen : Nat) (initial last later : Loop) (actions more : List Action),
      Loop.start config file subscription shutdown seen = .ok initial →
      transition.run Loop.step initial actions = some last → last.returned ≠ none →
      transition.run Loop.step last more = some later → later.ledger = last.ledger := by
  intro hclaim
  let batch := [samplePair "bafy-a" "first", samplePair "bafy-b" "second"]
  let stream : List (Except AdapterError ReceivedEnvelope) := [
    .ok (announcement sampleConfig.topic (sampleEnvelope "bafy-a" "first")),
    .ok (announcement sampleConfig.topic (sampleEnvelope "bafy-b" "second")),
    .ok (announcement sampleConfig.topic (sampleEnvelope "bafy-c" "third"))]
  let actions := deliver ++ deliver ++ [.anchorer_reply (failed_call batch (.non_retryable "refused"))]
  let more : List Action := [.subscriber_next, .subscriber_ingest none]
  have hlast : (sampleRun stream actions).map (fun last => (last.returned.isSome, last.ledger.map List.length)) =
      some (true, some 130) := by
    decide +kernel
  have hlater : (sampleRun stream (actions ++ more)).map (fun later => later.ledger.map List.length) =
      some (some 195) := by
    decide +kernel
  obtain ⟨later, hrun, hlength⟩ := Option.map_eq_some_iff.mp hlater
  obtain ⟨last, hfront, hmore⟩ := transition.run_append_eq_some.mp hrun
  obtain ⟨hreturned, hbefore⟩ : last.returned.isSome = true ∧ last.ledger.map List.length = some 130 := by
    have hvalues : some (last.returned.isSome, last.ledger.map List.length) = some (true, some 130) := by
      rw [← hlast, sampleRun, hfront, Option.map_some]
    exact Prod.mk.inj (Option.some.inj hvalues)
  have hsame := hclaim sampleConfig (.ok none) (.ok stream) ⟨false, 0, false⟩ 0 _ last later actions more
    (sampleStart stream) hfront (Option.isSome_iff_ne_none.mp hreturned) hmore
  rw [hsame, hbefore] at hlength
  cases hlength

end document_indexing.batch
