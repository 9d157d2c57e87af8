import Mathlib.Data.Set.Function
import Whistleblower.Indexing.Batch.Conservation
import Whistleblower.Lez.Client

open whistleblower_core whistleblower_registry whistleblower_lez_adapter

namespace document_indexing.batch

namespace Loop

/-- The pairs an action moves from the channel into the buffer. -/
def received (loop : Loop) : Action → List Pair
  | .anchorer_recv => loop.channel.head?.toList
  | _ => []

/-- All buffered pairs and all flushed batches have the property. -/
structure Batched (P : List Pair → Prop) (loop : Loop) : Prop where
  buffer : P loop.buffer
  batches : ∀ batch ∈ loop.batches, P batch

theorem leave_batched (loop : Loop) :
    (loop.leave.buffer = loop.buffer ∧ loop.leave.batches = loop.batches) ∨
      (loop.leave.buffer = [] ∧ loop.leave.batches = loop.batches ++ [loop.buffer]) := by
  rcases loop.leave_cases with ⟨_, hleave⟩ | ⟨_, hleave⟩ <;> rw [hleave]
  · exact .inl ⟨rfl, rfl⟩
  · exact .inr ⟨rfl, rfl⟩

section

variable [Sha256]

/-- A step adds what it receives to the buffer, and may then flush it. -/
theorem batched_step {loop next : Loop} {action : Action} (hstep : loop.step action = some next) :
    (next.buffer = loop.buffer ++ loop.received action ∧ next.batches = loop.batches) ∨
      (next.buffer = [] ∧ next.batches = loop.batches ++ [loop.buffer ++ loop.received action]) := by
  cases step_cases hstep with
  | buffered pair rest _ hchannel => exact .inl ⟨by simp [received, hchannel], rfl⟩
  | filled pair rest _ hchannel => exact .inr ⟨rfl, by simp [received, hchannel, flush]⟩
  | anchorer_stopped =>
    have hreceived : loop.received .anchorer_changed = [] := rfl
    rw [hreceived, List.append_nil]
    exact leave_batched { loop with anchorer_seen := loop.shutdown.version }
  | channel_closed unsent _ hchannel =>
    have hreceived : loop.received .anchorer_recv = [] := by rw [received, hchannel]; rfl
    rw [hreceived, List.append_nil]
    exact leave_batched loop
  | tick => exact .inr ⟨rfl, by simp [received, flush]⟩
  | _ => exact .inl ⟨by simp [received], rfl⟩

omit [Sha256] in
theorem batched_started {P : List Pair → Prop} (hnil : P []) (config : BatchConfig) (dedupe : DurableDedupeStore)
    (ledger : File) (stream : List (Except AdapterError ReceivedEnvelope)) (shutdown : Watch) (seen : Nat) :
    (started config dedupe ledger stream shutdown seen).Batched P :=
  ⟨hnil, fun _ hbatch => nomatch hbatch⟩

/-- A property of batches that every part of a batch inherits holds of all batches of
    a run exactly if it held of the buffer with what each step received. -/
theorem batched_iff {P : List Pair → Prop} (hnil : P []) (hpart : ∀ part rest, P (part ++ rest) → P part)
    {C : Loop → Action → Prop}
    (hreceives : ∀ loop action, P loop.buffer → (C loop action ↔ P (loop.buffer ++ loop.received action)))
    {initial last : Loop} {actions : List Action} (hinitial : initial.Batched P)
    (hrun : transition.run step initial actions = some last) :
    transition.Along step C initial actions ↔ last.Batched P := by
  refine transition.along_iff ?_ ?_ hinitial hrun
  · intro loop action next hstep hnext
    rcases batched_step hstep with ⟨hbuffer, hbatches⟩ | ⟨_, hbatches⟩
    · have hwhole := hnext.buffer
      rw [hbuffer] at hwhole
      exact ⟨hpart _ _ hwhole, hbatches ▸ hnext.batches⟩
    · have hwhole := hnext.batches
      rw [hbatches, List.forall_mem_append] at hwhole
      exact ⟨hpart _ _ (hwhole.2 _ List.mem_cons_self), hwhole.1⟩
  · intro loop action next hstep hcurrent
    rw [hreceives loop action hcurrent.buffer]
    rcases batched_step hstep with ⟨hbuffer, hbatches⟩ | ⟨hbuffer, hbatches⟩
    · refine ⟨fun hwhole => ⟨hbuffer ▸ hwhole, hbatches ▸ hcurrent.batches⟩, fun hnext => hbuffer ▸ hnext.buffer⟩
    · constructor
      · intro hwhole
        refine ⟨hbuffer ▸ hnil, ?_⟩
        rw [hbatches, List.forall_mem_append]
        exact ⟨hcurrent.batches, fun batch hbatch => List.mem_singleton.mp hbatch ▸ hwhole⟩
      · intro hnext
        have hwhole := hnext.batches
        rw [hbatches] at hwhole
        exact hwhole _ (List.mem_append_right _ List.mem_cons_self)

/-- The CID received is not that of a pair in the buffer. -/
def Fresh (loop : Loop) (action : Action) : Prop :=
  ∀ pair ∈ loop.received action, pair.1 ∉ loop.buffer.map Prod.fst

instance (loop : Loop) (action : Action) : Decidable (loop.Fresh action) := by
  unfold Fresh
  infer_instance

/-- No CID is named twice. -/
def Distinct (batch : List Pair) : Prop := (batch.map Prod.fst).Nodup

omit [Sha256] in
theorem Distinct.of_append_left {batch rest : List Pair} (hdistinct : Distinct (batch ++ rest)) : Distinct batch := by
  rw [Distinct, List.map_append] at hdistinct
  exact hdistinct.of_append_left

/-- Pairs of different CIDs have different accounts. -/
theorem Distinct.accounts [Nssa] {program_id : nssa_core.ProgramId} (hinjective : PdaInjective program_id)
    {entries : List Pair} (hdistinct : Distinct entries)
    (hcollision : Set.InjOn cid_hash {cid | cid ∈ entries.map Prod.fst}) :
    (entries.map fun pair => entry_pda program_id (cid_hash pair.1)).Nodup := by
  have haccounts : (entries.map fun pair => entry_pda program_id (cid_hash pair.1)) =
      (entries.map Prod.fst).map fun cid => entry_pda program_id (cid_hash cid) := by
    rw [List.map_map]
    rfl
  rw [haccounts]
  apply List.Nodup.map_on _ hdistinct
  intro first hfirst second hsecond haccount
  exact hcollision hfirst hsecond (hinjective haccount)

omit [Sha256] in
theorem fresh_iff {loop : Loop} (hbuffer : Distinct loop.buffer) (action : Action) :
    loop.Fresh action ↔ Distinct (loop.buffer ++ loop.received action) := by
  have hreceived : Distinct (loop.received action) := by
    cases action with
    | anchorer_recv => cases hchannel : loop.channel <;> simp [Distinct, received, hchannel]
    | _ => exact List.nodup_nil
  rw [Fresh, Distinct, List.map_append, List.nodup_append]
  constructor
  · intro hfresh
    refine ⟨hbuffer, hreceived, ?_⟩
    rintro cid hcid other hother rfl
    obtain ⟨pair, hpair, rfl⟩ := List.mem_map.mp hother
    exact hfresh pair hpair hcid
  · rintro ⟨_, _, hdisjoint⟩ pair hpair hcid
    exact hdisjoint _ hcid _ (List.mem_map_of_mem hpair) rfl

/-- The batches and the buffer of a run name no CID twice exactly if no step received
    a CID that was in the buffer. -/
theorem distinct_iff {initial last : Loop} {actions : List Action} (hinitial : initial.Batched Distinct)
    (hrun : transition.run step initial actions = some last) :
    transition.Along step Fresh initial actions ↔ last.Batched Distinct := by
  exact batched_iff (P := Distinct) List.nodup_nil (fun _ _ hwhole => hwhole.of_append_left)
    (fun loop action hbuffer => fresh_iff hbuffer action) hinitial hrun

end

end Loop

/-- In a run that never receives a CID which is in its buffer, every batch the registry
    is asked for names no CID twice, and its account list no account. -/
theorem asked_batches_distinct [Sha256] [Nssa] {config : BatchConfig} {file : Except IoFault File}
    {stream : List (Except AdapterError ReceivedEnvelope)} {shutdown : Watch} {seen : Nat}
    {initial last : Loop} {actions : List Action}
    (hstart : Loop.start config file (.ok stream) shutdown seen = .ok initial)
    (hfresh : transition.Along Loop.step Loop.Fresh initial actions)
    (hrun : transition.run Loop.step initial actions = some last)
    {entries : List Pair} (hasked : last.Asked entries) :
    (entries.map Prod.fst).Nodup ∧
      ∀ client : LezRegistryClient, PdaInjective client.program_id →
        Set.InjOn cid_hash {cid | cid ∈ entries.map Prod.fst} →
        (entries.map fun pair => client.entry_pda_for pair.1).Nodup := by
  obtain ⟨hsize, ledger, dedupe, _, _, _, hstream, rfl⟩ := Loop.start_cases hstart
  cases hstream
  have hinitial := Loop.batched_started (P := Loop.Distinct) List.nodup_nil config dedupe ledger stream shutdown seen
  have hbatched := (Loop.distinct_iff hinitial hrun).mp hfresh
  have hsound := (Loop.Sound.started hsize dedupe ledger stream shutdown seen).run hrun
  have hdistinct : (entries.map Prod.fst).Nodup := hbatched.batches entries (hsound.flushes.asked hasked)
  exact ⟨hdistinct, fun client hinjective hcollision => Loop.Distinct.accounts hinjective hdistinct hcollision⟩

/-- Two CIDs fill a batch, which the registry is asked to anchor. -/
theorem asked_full_batch :
    let stream := [
      .ok (announcement sampleConfig.topic (sampleEnvelope "bafy-a" "first")),
      .ok (announcement sampleConfig.topic (sampleEnvelope "bafy-b" "second"))]
    let entries := [samplePair "bafy-a" "first", samplePair "bafy-b" "second"]
    ∃ last, sampleRun stream (deliver ++ deliver ++ replies entries) = some last ∧ last.Asked entries := by
  intro stream entries
  have hevaluated : (sampleRun stream (deliver ++ deliver ++ replies entries)).map (fun last =>
      last.calls.map Exchange.request) =
        some [.anchor_batch entries, .sink_send { batch_size := 2, anchored := 2 }] := by
    decide +kernel
  obtain ⟨last, hrun, hcalls⟩ := Option.map_eq_some_iff.mp hevaluated
  exact ⟨last, hrun, .inl (List.mem_map.mp (hcalls ▸ List.mem_cons_self))⟩

/-- Two CIDs fill a batch, which the registry accepts. -/
theorem asked_batches_distinct_full_batch :
    let stream := [
      .ok (announcement sampleConfig.topic (sampleEnvelope "bafy-a" "first")),
      .ok (announcement sampleConfig.topic (sampleEnvelope "bafy-b" "second"))]
    let entries := [samplePair "bafy-a" "first", samplePair "bafy-b" "second"]
    ∃ last, sampleRun stream (deliver ++ deliver ++ replies entries) = some last ∧ last.Asked entries ∧
      (entries.map Prod.fst).Nodup := by
  intro stream entries
  have hfresh : transition.Along Loop.step Loop.Fresh
      (Loop.started sampleConfig { seen := ∅ } none stream ⟨false, 0, false⟩ 0)
      (deliver ++ deliver ++ replies entries) := by
    decide +kernel
  obtain ⟨last, hrun, hasked⟩ := asked_full_batch
  exact ⟨last, hrun, hasked, (asked_batches_distinct (sampleStart stream) hfresh hrun hasked).1⟩

/-- One CID announced under two titles fills a batch. The registry is asked for it, and
    the account list of any client repeats the account. -/
theorem batch_names_cid_twice :
    let stream := [
      .ok (announcement sampleConfig.topic (sampleEnvelope "bafy-a" "first")),
      .ok (announcement sampleConfig.topic (sampleEnvelope "bafy-a" "second"))]
    let entries := [samplePair "bafy-a" "first", samplePair "bafy-a" "second"]
    let refused : Exchange Adapters := ⟨AdapterCall.anchor_batch entries,
      (Except.error (.non_retryable "duplicate account ids") : Except AdapterError (List AnchorEntry))⟩
    ∃ last, sampleRun stream (deliver ++ deliver ++ [.anchorer_reply refused]) = some last ∧
      last.Asked entries ∧ ¬(entries.map Prod.fst).Nodup ∧
      ∀ client : LezRegistryClient, ¬(entries.map fun pair => client.entry_pda_for pair.1).Nodup := by
  intro stream entries refused
  have hevaluated : (sampleRun stream (deliver ++ deliver ++ [.anchorer_reply refused])).map (fun last =>
      last.calls.map Exchange.request) = some [.anchor_batch entries] := by
    decide +kernel
  obtain ⟨last, hrun, hcalls⟩ := Option.map_eq_some_iff.mp hevaluated
  refine ⟨last, hrun, .inl (List.mem_map.mp (hcalls ▸ List.mem_cons_self)), ?_, fun client => ?_⟩
  · simp [entries, samplePair]
  · simp [entries, samplePair]

end document_indexing.batch
