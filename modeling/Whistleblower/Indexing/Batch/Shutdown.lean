import Whistleblower.Indexing.Batch.Conservation

open whistleblower_core

namespace document_indexing.batch

/-- The anchorer receives no more: it makes its last flush, waits for the
    subscriber, or has returned successfully. -/
def Anchorer.left : Anchorer → Bool
  | .flushing _ .leave => true
  | .joining => true
  | .returned (.ok ()) => true
  | _ => false

namespace Loop

section

variable [Sha256]

/-- The pair that ingesting the envelope in the subscriber's hands would give. -/
def next_accepted (loop : Loop) (fault : Option IoFault) : Option Pair :=
  match loop.subscriber with
  | .ingesting envelope =>
    accept loop.config.topic envelope (loop.dedupe.ingest loop.ledger fault envelope).1
  | _ => none

/-- Shutdown stops the anchorer only when nothing is on its way to it, and nothing
    that would be accepted is ingested after that. -/
def Drained (loop : Loop) : Action → Prop
  | .anchorer_changed => loop.shutdown.value = true → loop.channel = [] ∧ loop.subscriber.held = none
  | .subscriber_ingest fault => loop.anchorer.left = true → loop.next_accepted fault = none
  | _ => True

instance (loop : Loop) (action : Action) : Decidable (loop.Drained action) := by
  cases action <;> unfold Drained <;> infer_instance

end

/-- Once the anchorer has left, nothing waits for it. -/
def Emptied (loop : Loop) : Prop :=
  loop.anchorer.left = true → loop.buffer = [] ∧ loop.channel = [] ∧ loop.subscriber.held = none

theorem left_after_flush (pending : Async Adapters (Except BatchError Unit)) :
    (after_flush pending .continue).left = false := by
  cases pending with
  | ask request resume => rfl
  | ret result => cases result <;> rfl

theorem Emptied.leave {loop : Loop} (hchannel : loop.channel = []) (hheld : loop.subscriber.held = none) :
    loop.leave.Emptied := by
  intro _
  rcases loop.leave_cases with ⟨hbuffer, hleave⟩ | ⟨_, hleave⟩ <;> rw [hleave]
  · exact ⟨hbuffer, hchannel, hheld⟩
  · exact ⟨rfl, hchannel, hheld⟩

theorem Emptied.step [Sha256] {loop next : Loop} {action : Action} (hdrained : loop.Drained action)
    (hunsent : loop.UnsentAfterEnd) (hemptied : loop.Emptied) (hstep : loop.step action = some next) :
    next.Emptied := by
  cases step_cases hstep with
  | subscriber_woken hsubscriber =>
    intro hleft
    obtain ⟨hbuffer, hchannel, _⟩ := hemptied hleft
    refine ⟨hbuffer, hchannel, ?_⟩
    cases loop.shutdown.value <;> rfl
  | stream_closed =>
    intro hleft
    obtain ⟨hbuffer, hchannel, _⟩ := hemptied hleft
    exact ⟨hbuffer, hchannel, rfl⟩
  | received =>
    intro hleft
    obtain ⟨hbuffer, hchannel, _⟩ := hemptied hleft
    exact ⟨hbuffer, hchannel, rfl⟩
  | ingested fault envelope hsubscriber outcome dedupe ledger hingest =>
    intro hleft
    obtain ⟨hbuffer, hchannel, _⟩ := hemptied hleft
    have hrefused := hdrained hleft
    simp only [next_accepted, hsubscriber, hingest] at hrefused
    refine ⟨hbuffer, hchannel, ?_⟩
    simp only [hrefused]
    rfl
  | sent pair hsubscriber =>
    intro hleft
    have hheld := (hemptied hleft).2.2
    rw [hsubscriber] at hheld
    cases hheld
  | unsent pair hsubscriber =>
    intro hleft
    have hheld := (hemptied hleft).2.2
    rw [hsubscriber] at hheld
    cases hheld
  | anchorer_stopped _ _ hvalue =>
    obtain ⟨hchannel, hheld⟩ := hdrained hvalue
    exact .leave hchannel hheld
  | buffered _ _ hanchorer =>
    intro hleft
    rw [hanchorer] at hleft
    cases hleft
  | filled =>
    intro hleft
    cases (left_after_flush _).symm.trans hleft
  | channel_closed unsent hanchorer hchannel hsubscriber =>
    apply Emptied.leave hchannel
    cases unsent with
    | none => rw [hsubscriber]; rfl
    | some pair =>
      have hdropped := hunsent pair hsubscriber
      rw [receiver_dropped, hanchorer] at hdropped
      cases hdropped
  | tick =>
    intro hleft
    cases (left_after_flush _).symm.trans hleft
  | replied exchange pending rest after hanchorer =>
    intro hleft
    cases after with
    | «continue» => cases (left_after_flush rest).symm.trans hleft
    | leave => exact hemptied (by rw [hanchorer]; rfl)
  | unwound => intro hleft; cases hleft
  | joined unsent hanchorer => exact fun _ => hemptied (by rw [hanchorer]; rfl)
  | _ => exact hemptied

end Loop

/-- A run whose shutdown finds nothing on its way, and after it nothing new, loses
    nothing: what it accepted is in batches the registry accepted. -/
theorem drained_shutdown_loses_nothing [Sha256] {config : BatchConfig} {file : Except IoFault File}
    {stream : List (Except AdapterError ReceivedEnvelope)} {shutdown : Watch} {seen : Nat}
    {initial last : Loop} {actions : List Action}
    (hstart : Loop.start config file (.ok stream) shutdown seen = .ok initial)
    (hdrained : transition.Along Loop.step Loop.Drained initial actions)
    (hrun : transition.run Loop.step initial actions = some last)
    (hreturned : last.returned = some (.ok ())) :
    ∀ pair ∈ last.accepted, ∃ batch, pair ∈ batch ∧ Anchored last.calls batch := by
  obtain ⟨hsize, ledger, dedupe, _, _, _, hstream, rfl⟩ := Loop.start_cases hstart
  cases hstream
  have hstarted := Loop.Sound.started hsize dedupe ledger stream shutdown seen
  have hsound := hstarted.run hrun
  have hemptied := (transition.run_preserves_along
    (P := fun loop => Loop.Sound stream _ loop ∧ loop.Emptied)
    (fun _ _ _ hallowed hcurrent hstep =>
      ⟨hcurrent.1.step hstep, hcurrent.2.step hallowed hcurrent.1.unsent hstep⟩)
    hdrained ⟨hstarted, fun _ => ⟨rfl, rfl, rfl⟩⟩ hrun).2
  have hanchorer := Loop.anchorer_of_returned hreturned
  obtain ⟨hbuffer, hchannel, hheld⟩ := hemptied (by rw [hanchorer]; rfl)
  have hflushed : last.batches.flatten = last.accepted := by
    rw [← hsound.conserves, Loop.pipeline, hbuffer, hchannel, hheld]
    simp
  intro pair hpair
  rw [← hflushed] at hpair
  obtain ⟨batch, hbatch, hmem⟩ := List.mem_flatten.mp hpair
  exact ⟨batch, hmem, hsound.flushes.anchored hreturned hbatch⟩

/-- Shutdown after the only pair has been buffered. -/
theorem drained_shutdown_loses_nothing_buffered :
    let envelope := sampleEnvelope "bafy-a" "first"
    let pair : Pair := (envelope.cid, ⟨Sha256.digest envelope.serialize.render⟩)
    let stream := [.ok (announcement sampleConfig.topic envelope)]
    let actions := deliver ++ [.shutdown_send true, .anchorer_changed] ++ replies [pair] ++
      [.subscriber_changed, .anchorer_join]
    ∃ last, sampleRun stream actions = some last ∧ last.accepted = [pair] ∧
      ∃ batch, pair ∈ batch ∧ Anchored last.calls batch := by
  intro envelope pair stream actions
  have hevaluated : (sampleRun stream actions).map (fun last => (last.returned, last.accepted)) =
      some (some (.ok ()), [pair]) := by
    decide +kernel
  have hdrained : transition.Along Loop.step Loop.Drained
      (Loop.started sampleConfig { seen := ∅ } none stream ⟨false, 0, false⟩ 0) actions := by
    decide +kernel
  obtain ⟨last, hrun, hlast⟩ := Option.map_eq_some_iff.mp hevaluated
  obtain ⟨hreturned, haccepted⟩ := Prod.mk.inj hlast
  refine ⟨last, hrun, haccepted, ?_⟩
  exact drained_shutdown_loses_nothing (sampleStart stream) hdrained hrun hreturned pair
    (haccepted ▸ List.mem_singleton_self pair)

/-- Shutdown while the only pair is in the channel: the run returns successfully
    and has called the registry for nothing. -/
theorem shutdown_loses_channel :
    let envelope := sampleEnvelope "bafy-a" "first"
    let pair : Pair := (envelope.cid, ⟨Sha256.digest envelope.serialize.render⟩)
    let stream := [.ok (announcement sampleConfig.topic envelope)]
    let actions := [.subscriber_next, .subscriber_ingest none, .subscriber_send, .shutdown_send true,
      .anchorer_changed, .subscriber_changed, .anchorer_join]
    ∃ last, sampleRun stream actions = some last ∧ last.returned = some (.ok ()) ∧
      pair ∈ last.accepted ∧ ¬∃ batch, pair ∈ batch ∧ Anchored last.calls batch := by
  intro envelope pair stream actions
  have hevaluated : (sampleRun stream actions).map
      (fun last => (last.returned, last.accepted, last.calls.length)) = some (some (.ok ()), [pair], 0) := by
    decide +kernel
  obtain ⟨last, hrun, hlast⟩ := Option.map_eq_some_iff.mp hevaluated
  simp only [Prod.mk.injEq] at hlast
  obtain ⟨hreturned, haccepted, hcalls⟩ := hlast
  refine ⟨last, hrun, hreturned, by rw [haccepted]; exact List.mem_singleton_self pair, ?_⟩
  rintro ⟨batch, _, entries, hcall⟩
  rw [List.length_eq_zero_iff.mp hcalls] at hcall
  cases hcall

end document_indexing.batch
