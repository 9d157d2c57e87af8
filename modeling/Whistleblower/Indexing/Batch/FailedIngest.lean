import Whistleblower.Indexing.Batch.Steps
import Whistleblower.Indexing.Ledger

open whistleblower_core

namespace document_indexing.batch

section

variable [Sha256]

/-- The hash is known to the process that has the ledger open, if one has. -/
def Known (hash : String) (ledger : Ledger) : Prop := ∀ store ∈ ledger.store, hash ∈ store.seen

/-- An ingest in the same process: the ledger is neither closed nor opened again. -/
def IngestOnly : LedgerAction → Prop
  | .ingest _ _ => True
  | _ => False

theorem Known.ingest {hash : String} {ledger next : Ledger} {action : LedgerAction} (hingest : IngestOnly action)
    (hknown : Known hash ledger) (hstep : ledger.step action = some next) : Known hash next := by
  cases action with
  | ingest envelope fault =>
    obtain ⟨store, hstore, rfl⟩ := Option.map_eq_some_iff.mp hstep
    intro after hafter
    have hsame : (store.ingest ledger.file fault envelope).2.1 = after := Option.some.inj hafter
    rw [← hsame, store.ingest_seen]
    exact Finset.mem_insert_of_mem (hknown store hstore)
  | _ => exact absurd hingest id

namespace Loop

omit [Sha256] in
@[simp] theorem dedupe_leave (loop : Loop) : loop.leave.dedupe = loop.dedupe := by
  obtain ⟨_, hleave⟩ | ⟨_, hleave⟩ := loop.leave_cases
  · rw [hleave]
  · rw [hleave, flush]

/-- What the subscriber's store knows it does not forget. -/
theorem seen_step {loop next : Loop} {action : Action} (hstep : loop.step action = some next) :
    loop.dedupe.seen ⊆ next.dedupe.seen := by
  cases step_cases hstep with
  | ingested fault envelope _ outcome dedupe ledger hingest =>
    have hseen := loop.dedupe.ingest_seen loop.ledger fault envelope
    rw [hingest] at hseen
    intro hash hhash
    rw [hseen]
    exact Finset.mem_insert_of_mem hhash
  | anchorer_stopped => rw [dedupe_leave]
  | channel_closed => rw [dedupe_leave]
  | _ => exact fun _ hhash => hhash

theorem seen_run {loop last : Loop} {actions : List Action} (hrun : transition.run step loop actions = some last) :
    loop.dedupe.seen ⊆ last.dedupe.seen :=
  transition.run_preserves (P := fun current => loop.dedupe.seen ⊆ current.dedupe.seen)
    (fun _ _ _ hseen hstep => hseen.trans (seen_step hstep)) (Finset.Subset.refl _) hrun

theorem subscriber_ingest_eq {loop next : Loop} {fault : Option IoFault} {envelope : ReceivedEnvelope}
    (hsubscriber : loop.subscriber = .ingesting envelope)
    (hstep : loop.step (.subscriber_ingest fault) = some next) :
    next.dedupe = (loop.dedupe.ingest loop.ledger fault envelope).2.1 ∧
      next.ingested = loop.ingested ++ [(envelope, (loop.dedupe.ingest loop.ledger fault envelope).1)] ∧
      (accept loop.config.topic envelope (loop.dedupe.ingest loop.ledger fault envelope).1 = none →
        next.subscriber = .selecting) := by
  rw [step, subscriber_ingest, hsubscriber] at hstep
  dsimp only at hstep
  obtain rfl := Option.some.inj hstep
  refine ⟨rfl, rfl, fun hdropped => ?_⟩
  dsimp only
  rw [hdropped]

end Loop

/-- After a failure at any point, no later ingest of the same envelope by the same
    store returns `New`, however the file system behaves from then on: it is a
    duplicate. In a run of the loop it is not parsed and not forwarded. -/
theorem failed_ingest_is_remembered {self : DurableDedupeStore} {envelope : ReceivedEnvelope}
    (hunseen : envelope_hash envelope ∉ self.seen) (file : File) (fault : IoFault) :
    ∃ after left, self.ingest file (some fault) envelope = (.error fault, after, left) ∧
      (∀ (actions : List LedgerAction) (current : File) (accepted : List ReceivedEnvelope) (last : Ledger)
        (store : DurableDedupeStore) (later : ReceivedEnvelope) (again : Option IoFault),
        (∀ action ∈ actions, IngestOnly action) →
        transition.run Ledger.step { store := some after, file := current, accepted } actions = some last →
        last.store = some store → later.topic = envelope.topic → later.payload = envelope.payload →
        (store.ingest last.file again later).1 = .ok (.Duplicate (envelope_hash later))) ∧
      ∀ (loop next current last : Loop) (actions : List Action) (later : ReceivedEnvelope) (again : Option IoFault),
        loop.subscriber = .ingesting envelope → loop.dedupe = self →
        loop.step (.subscriber_ingest (some fault)) = some next →
        transition.run Loop.step next actions = some current →
        current.subscriber = .ingesting later → later.topic = envelope.topic → later.payload = envelope.payload →
        current.step (.subscriber_ingest again) = some last →
        last.subscriber = .selecting ∧
          last.ingested = current.ingested ++ [(later, .ok (.Duplicate (envelope_hash later)))] := by
  have hseen := self.ingest_seen file (some fault) envelope
  have hfails : (self.ingest file (some fault) envelope).1 = .error fault := by
    rw [DurableDedupeStore.ingest, if_neg hunseen]
    cases fault <;> rfl
  obtain ⟨after, left, hingest⟩ :
      ∃ after left, self.ingest file (some fault) envelope = (.error fault, after, left) :=
    ⟨_, _, Prod.ext hfails rfl⟩
  rw [hingest] at hseen
  have hmem : envelope_hash envelope ∈ after.seen := by
    rw [hseen]
    exact Finset.mem_insert_self _ _
  refine ⟨after, left, hingest, ?store, ?loop⟩
  case store =>
    intro actions current accepted last store later again hactions hrun hstore htopic hpayload
    have hknown : Known (envelope_hash envelope) last := transition.run_preserves_along
      (fun _ _ _ hallowed hknown hstep => Known.ingest hallowed hknown hstep)
      (.of_forall (fun action haction _ => hactions action haction) _)
      (by rintro _ ⟨⟩; exact hmem) hrun
    have hlater : envelope_hash later ∈ store.seen := by
      rw [envelope_hash_congr htopic hpayload]
      exact hknown store hstore
    rw [DurableDedupeStore.ingest_of_mem hlater]
  case loop =>
    rintro loop next current last actions later again hsubscriber rfl hstep hrun hlater htopic hpayload hagain
    obtain ⟨hnext, _, _⟩ := Loop.subscriber_ingest_eq hsubscriber hstep
    have hfirst : envelope_hash envelope ∈ next.dedupe.seen := by
      rw [hnext, DurableDedupeStore.ingest_seen]
      exact Finset.mem_insert_self _ _
    have hcurrent : envelope_hash later ∈ current.dedupe.seen := by
      rw [envelope_hash_congr htopic hpayload]
      exact Loop.seen_run hrun hfirst
    obtain ⟨_, hingested, hselecting⟩ := Loop.subscriber_ingest_eq hlater hagain
    rw [DurableDedupeStore.ingest_of_mem hcurrent] at hingested hselecting
    exact ⟨hselecting rfl, hingested⟩

end

/-- The directory of the ledger cannot be created, and later it can. -/
theorem failed_ingest_is_remembered_create_dir :
    ∃ after left, DurableDedupeStore.ingest { seen := ∅ } none (some .create_dir) firstLeak =
        (.error .create_dir, after, left) ∧
      (after.ingest left none firstLeak).1 = .ok (.Duplicate (envelope_hash firstLeak)) := by
  obtain ⟨after, left, hingest, hstore, _⟩ := failed_ingest_is_remembered
    (Finset.notMem_empty (envelope_hash firstLeak)) none .create_dir
  refine ⟨after, left, hingest, ?_⟩
  exact hstore [] left [] _ after firstLeak none (by rintro _ ⟨⟩) rfl rfl rfl rfl

theorem failed_ingest_not_new :
    ¬∀ (self : DurableDedupeStore) (file : File) (fault : IoFault) (envelope : ReceivedEnvelope),
      envelope_hash envelope ∉ self.seen →
      ∃ hash, ((self.ingest file (some fault) envelope).2.1.ingest
        (self.ingest file (some fault) envelope).2.2 none envelope).1 = .ok (.New hash) := by
  intro hclaim
  obtain ⟨hash, hnew⟩ := hclaim { seen := ∅ } none .create_dir firstLeak (Finset.notMem_empty _)
  have hknown : envelope_hash firstLeak ∈
      (DurableDedupeStore.ingest { seen := ∅ } none (some .create_dir) firstLeak).2.1.seen := by
    rw [DurableDedupeStore.ingest_seen]
    exact Finset.mem_insert_self _ _
  rw [DurableDedupeStore.ingest_of_mem hknown] at hnew
  cases hnew

end document_indexing.batch
