import Mathlib.Data.List.Find
import Whistleblower.Indexing.Batch.FileReplay
import Whistleblower.Tool.Deployment

open nssa_core whistleblower_core whistleblower_registry whistleblower_lez_adapter document_indexing
  document_indexing.batch first_writer

namespace whistleblower_batch

section

variable [Sha256] [Nssa] {program_id : ProgramId} {Allowed : Nat → batch.Action → Prop}
  {initial deployment last : Deployment}

/-- A tool's transaction writes pairs of one of its batches, each under a hash of its own. -/
theorem Invariant.own_entry (hinvariant : Invariant program_id Allowed initial deployment) {i : Nat} {tx : Transaction}
    (hexecuted : (some i, tx) ∈ deployment.world.executed) {entry : AnchorEntry} (hentry : entry ∈ new_entries tx) :
    ∃ tool, deployment.tools[i]? = some tool ∧ ∃ batch ∈ tool.loop.batches,
      (batch.map fun pair => cid_hash pair.1).Nodup ∧ pair_of entry ∈ batch := by
  obtain ⟨tool, htool, batch, hbatch, timestamp, instruction, payload, hinstruction, hpayload, rfl⟩ :=
    hinvariant.attempts i tx (hinvariant.chained.submitted _ hexecuted)
  have hdistinct := hinvariant.chained.distinct _ hexecuted
  cases hinstruction
  refine ⟨tool, htool, batch, hbatch, ?_, ?_⟩
  · rw [document_indexing.batch.account_ids_transaction] at hdistinct
    refine List.Nodup.of_map (Nssa.for_public_pda tool.registry.program_id ∘ fun hash => ⟨hash.digest⟩) ?_
    rw [List.map_map]
    exact hdistinct
  · rw [new_entries, LezRegistryClient.transaction, RegistryInstruction.try_from_slice_eq_ok.mpr hpayload] at hentry
    obtain ⟨pair, hpair, rfl⟩ := List.mem_map.mp hentry
    exact hpair

/-- The registry holds an answered batch in order. -/
theorem isSome_of_anchored {world : World} {batch : List Pair} {reply : List AnchorEntry}
    (hread : reply.map some = batch.map fun pair => entries_of program_id world (cid_hash pair.1)) {pair : Pair}
    (hpair : pair ∈ batch) : (entries_of program_id world (cid_hash pair.1)).isSome = true := by
  have hmem : entries_of program_id world (cid_hash pair.1) ∈ reply.map some := by
    rw [hread]
    exact List.mem_map_of_mem hpair
  obtain ⟨entry, _, hentry⟩ := List.mem_map.mp hmem
  rw [← hentry]
  rfl

theorem Tool.Kept.tallies {Permitted : batch.Action → Prop} {world : World} {tool first : Tool}
    (hkept : tool.Kept program_id Permitted world first) (hfresh : first.Fresh) :
    Tallies tool.loop.calls tool.loop.anchorer := by
  obtain ⟨actions, hrun, _⟩ := hkept.ran
  obtain ⟨config, dedupe, ledger, stream, shutdown, seen, _, hfirst⟩ := hfresh
  rw [hfirst] at hrun
  refine transition.run_preserves (P := fun loop : Loop => Tallies loop.calls loop.anchorer) ?_
    (Loop.tallies_started config dedupe ledger stream shutdown seen) hrun
  exact fun _ _ _ htallies hstep => Loop.tallies_step htallies hstep

/-- Whatever any number of tools and other parties do, and however their transactions execute:
    what a tool was told of a batch stands in the registry from then on, its reports count every
    pair as anchored, and after a successful return each flushed pair has an entry. -/
theorem deployed_batches_stand (hinjective : PdaInjective program_id) (hinitial : Initial program_id initial)
    (hreached : Relation.ReflTransGen (Step program_id Allowed) initial deployment)
    (hlater : Relation.ReflTransGen (Step program_id Allowed) deployment last) {i : Nat} {tool : Tool}
    (htool : deployment.tools[i]? = some tool) :
    (∀ batch reply, anchored_call batch reply ∈ tool.loop.calls →
        reply.map some = batch.map fun pair => (registry program_id last.world.chain).entries (cid_hash pair.1)) ∧
      (∀ submission, reported_call submission ∈ tool.loop.calls → submission.anchored = submission.batch_size) ∧
      (tool.loop.returned = some (.ok ()) → ∀ batch ∈ tool.loop.batches, ∀ pair ∈ batch,
        ((registry program_id last.world.chain).entries (cid_hash pair.1)).isSome = true) := by
  obtain ⟨hinvariant, _⟩ := (Invariant.of_initial hinitial).run hinjective hinitial hreached
  obtain ⟨_, hextends⟩ := hinvariant.run hinjective hinitial hlater
  obtain ⟨first, hfirst, _, hkept⟩ := hinvariant.tools i tool htool
  have hfresh := (hinitial.tools first (List.mem_of_getElem? hfirst)).2.2
  have hstands := (hkept.moves hextends).anchored
  refine ⟨hstands, ?reports, ?returned⟩
  case reports =>
    intro submission hreport
    obtain ⟨batch, reply, hcall, rfl⟩ := (hkept.tallies hfresh).told hreport
    have hlength := congrArg List.length (hstands batch reply hcall)
    simpa using hlength
  case returned =>
    intro hreturned batch hbatch pair hpair
    obtain ⟨reply, hcall⟩ := (hkept.flushes hfresh).anchored hreturned hbatch
    exact isSome_of_anchored (hstands batch reply hcall) hpair

/-- A tool about to replay a text, alone with an unused registry. -/
def replaying (program_id : ProgramId) (contents : String) : Deployment where
  world := { chain := unusedChain, pool := [], executed := [] }
  tools := [{
    registry := { program_id, confirm_secs := 60, timestamp_source := .Fixed 1725000000 }
    loop := (Replay.started sampleConfig none contents ⟨false, 0, false⟩ 0).loop
    call := none }]

omit [Sha256] in
theorem initial_replaying (program_id : ProgramId) (contents : String) :
    Initial program_id (replaying program_id contents) where
  unused := unused_unusedChain
  pool := rfl
  executed := rfl
  tools := by
    intro tool htool
    cases List.mem_singleton.mp htool
    exact ⟨rfl, rfl, _, _, _, _, _, _, by decide, rfl⟩

end

/-- One record is read, anchored by a call of four requests, and reported. -/
def sampleTurns : List Turn :=
  [.act 0 .subscriber_next, .act 0 (.subscriber_ingest none), .act 0 .subscriber_send, .act 0 .anchorer_recv,
    .act 0 .subscriber_next, .act 0 .anchorer_recv, .call 0, .serve 0, .serve 0, .execute 0, .serve 0, .serve 0,
    .resume 0, .act 0 (.anchorer_reply ⟨.sink_send { batch_size := 1, anchored := 1 }, ()⟩), .act 0 .anchorer_join]

theorem run_sampleTurns :
    let program_id : ProgramId := Vector.replicate 8 1
    ∃ last tool, transition.run (Deployment.act program_id) (replaying program_id sampleText) sampleTurns = some last ∧
      last.tools[0]? = some tool ∧ tool.loop.returned = some (.ok ()) ∧
      tool.loop.batches.map List.length = [1] ∧ last.world.executed.map Prod.fst = [some 0] := by
  intro program_id
  have hrun : (transition.run (Deployment.act program_id) (replaying program_id sampleText) sampleTurns).any
      (fun last => last.tools.head?.any (fun tool => tool.loop.returned = some (.ok ()) ∧
        tool.loop.batches.map List.length = [1] ∧ last.world.executed.map Prod.fst = [some 0])) = true := by
    decide +kernel
  obtain ⟨last, hlast, htools⟩ := (Option.any_eq_true _ _).mp hrun
  obtain ⟨tool, htool, hchecked⟩ := (Option.any_eq_true _ _).mp htools
  rw [List.head?_eq_getElem?] at htool
  exact ⟨last, tool, hlast, htool, of_decide_eq_true hchecked⟩

theorem deployed_batches_stand_replayed :
    let program_id : ProgramId := Vector.replicate 8 1
    ∃ last tool, transition.run (Deployment.act program_id) (replaying program_id sampleText) sampleTurns = some last ∧
      last.tools[0]? = some tool ∧ tool.loop.batches.map List.length = [1] ∧
      ∀ batch ∈ tool.loop.batches, ∀ pair ∈ batch,
        ((registry program_id last.world.chain).entries (cid_hash pair.1)).isSome = true := by
  intro program_id
  obtain ⟨last, tool, hlast, htool, hreturned, hbatches, _⟩ := run_sampleTurns
  have hstand := deployed_batches_stand (pdaInjective_seedAddressed program_id) (initial_replaying program_id sampleText)
    (Deployment.steps_of_run hlast) .refl htool
  exact ⟨last, tool, hlast, htool, hbatches, hstand.2.2 hreturned⟩

section

variable [Sha256] [Nssa] {program_id : ProgramId} {Allowed : Nat → batch.Action → Prop}
  {initial deployment : Deployment}

/-- Every entry of the registry is from a transaction of somebody else, or commits to an envelope
    that was delivered to one of the tools on its topic. -/
theorem stored_entries_were_announced (hinjective : PdaInjective program_id) (hinitial : Initial program_id initial)
    (hreached : Relation.ReflTransGen (Step program_id Allowed) initial deployment) {hash : CidHash}
    {entry : AnchorEntry} (hentry : (registry program_id deployment.world.chain).entries hash = some entry) :
    (∃ tx, (none, tx) ∈ deployment.world.executed ∧ entry ∈ new_entries tx) ∨
      ∃ first ∈ initial.tools, ∃ received, .ok received ∈ first.loop.stream ∧
        Announces first.loop.config.topic received (entry.cid, entry.metadata_hash) := by
  obtain ⟨hinvariant, _⟩ := (Invariant.of_initial hinitial).run hinjective hinitial hreached
  obtain ⟨_, origin, tx, hexecuted, hnew⟩ := hinvariant.chained.stored hentry
  cases origin with
  | none => exact .inl ⟨tx, hexecuted, hnew⟩
  | some i =>
    obtain ⟨tool, htool, batch, hbatch, _, hpair⟩ := hinvariant.own_entry hexecuted hnew
    obtain ⟨first, hfirst, _, hkept⟩ := hinvariant.tools i tool htool
    have hmem := List.mem_of_getElem? hfirst
    obtain ⟨config, dedupe, ledger, stream, shutdown, seen, hsize, hloop⟩ := (hinitial.tools first hmem).2.2
    obtain ⟨actions, hrun, _⟩ := hkept.ran
    rw [hloop] at hrun
    have hsound := (Loop.Sound.started hsize dedupe ledger stream shutdown seen).run hrun
    have hpipeline : pair_of entry ∈ tool.loop.pipeline := by
      simp only [Loop.pipeline, List.mem_append]
      exact .inl (.inl (.inl (List.mem_flatten_of_mem hbatch hpair)))
    obtain ⟨received, hreceived, hannounces⟩ := hsound.announced hpipeline
    refine .inr ⟨first, hmem, received, ?_, ?_⟩
    · rw [hloop]
      exact hreceived
    · rw [hloop]
      exact hannounces

end

theorem stored_entries_were_announced_replayed :
    let program_id : ProgramId := Vector.replicate 8 1
    ∃ last entry, transition.run (Deployment.act program_id) (replaying program_id sampleText) sampleTurns = some last ∧
      (registry program_id last.world.chain).entries (cid_hash ⟨"bafy-a"⟩) = some entry ∧
      ((∃ tx, (none, tx) ∈ last.world.executed ∧ entry ∈ new_entries tx) ∨
        ∃ first ∈ (replaying program_id sampleText).tools, ∃ received, .ok received ∈ first.loop.stream ∧
          Announces first.loop.config.topic received (entry.cid, entry.metadata_hash)) := by
  intro program_id
  have hrun : (transition.run (Deployment.act program_id) (replaying program_id sampleText) sampleTurns).any
      (fun last => ((registry program_id last.world.chain).entries (cid_hash ⟨"bafy-a"⟩)).isSome) = true := by
    decide +kernel
  obtain ⟨last, hlast, hsome⟩ := (Option.any_eq_true _ _).mp hrun
  obtain ⟨entry, hentry⟩ := Option.isSome_iff_exists.mp hsome
  exact ⟨last, entry, hlast, hentry, stored_entries_were_announced (pdaInjective_seedAddressed program_id)
    (initial_replaying program_id sampleText) (Deployment.steps_of_run hlast) hentry⟩

section

variable [Sha256] [Nssa] {program_id : ProgramId} {Allowed : Nat → batch.Action → Prop}
  {initial deployment : Deployment}

omit [Nssa] in
/-- The first pair of a list whose CID has this hash. -/
def first_hashed (pairs : List Pair) (hash : CidHash) : Option Pair := pairs.find? fun pair => cid_hash pair.1 = hash

omit [Nssa] in
theorem first_hashed_append (front back : List Pair) (hash : CidHash) :
    first_hashed (front ++ back) hash = (first_hashed front hash).or (first_hashed back hash) := List.find?_append

omit [Nssa] in
theorem first_hashed_eq_none {pairs : List Pair} {hash : CidHash} :
    first_hashed pairs hash = none ↔ ∀ pair ∈ pairs, cid_hash pair.1 ≠ hash := by
  simp [first_hashed, List.find?_eq_none]

omit [Nssa] in
theorem first_hashed_eq_some {pairs : List Pair} {hash : CidHash} {pair : Pair}
    (hfirst : first_hashed pairs hash = some pair) : pair ∈ pairs ∧ cid_hash pair.1 = hash := by
  have hfound := List.find?_some hfirst
  exact ⟨List.mem_of_find?_eq_some hfirst, of_decide_eq_true hfound⟩

omit [Nssa] in
/-- Under different hashes a pair is the first with its own. -/
theorem first_hashed_of_nodup {pairs : List Pair} (hnodup : (pairs.map fun pair => cid_hash pair.1).Nodup) {pair : Pair}
    (hpair : pair ∈ pairs) : first_hashed pairs (cid_hash pair.1) = some pair := by
  cases hfirst : first_hashed pairs (cid_hash pair.1) with
  | none => exact absurd rfl (first_hashed_eq_none.mp hfirst pair hpair)
  | some other =>
    obtain ⟨hother, hhash⟩ := first_hashed_eq_some hfirst
    exact congrArg some (List.inj_on_of_nodup_map hnodup hother hpair hhash)

omit [Nssa] in
/-- Without collisions the first pair with a CID's hash is the first with the CID. -/
theorem first_hashed_cid_hash {pairs : List Pair} {cid : CanonicalCid}
    (hcollision : ∀ pair ∈ pairs, cid_hash pair.1 = cid_hash cid → pair.1 = cid) :
    first_hashed pairs (cid_hash cid) = first_pair pairs cid := by
  apply List.find?_congr
  intro pair hpair
  rw [decide_eq_decide]
  exact ⟨hcollision pair hpair, congrArg cid_hash⟩

/-- Only transactions of this tool have executed. -/
def Alone (world : World) (i : Nat) : Prop := ∀ entry ∈ world.executed, entry.1 = some i

/-- A tool that is alone finds each accepted pair in the registry, unless an earlier one has its
    hash. -/
def Tool.Orders (program_id : ProgramId) (i : Nat) (world : World) (tool : Tool) : Prop :=
  Alone world i → ∀ hash pair, first_hashed (anchored_batches tool.loop.calls).flatten hash = some pair →
    (entries_of program_id world hash).map pair_of = some pair

/-- What has executed stays on record. -/
theorem executed_grows {next : Deployment} (hstep : Step program_id Allowed deployment next)
    {entry : Option Nat × Transaction} (hentry : entry ∈ deployment.world.executed) : entry ∈ next.world.executed := by
  cases hstep with
  | others after hstep =>
    cases hstep with
    | executed => exact List.mem_append_left _ hentry
    | replied _ session hsession => cases hsession
    | _ => exact hentry
  | replied i tool htool request resume hcall response after hreplied =>
    rw [(hreplied.spec program_id).2.1]
    exact hentry
  | _ => exact hentry

omit [Nssa] in
/-- A loop that acts by itself is told of no accepted batch. -/
theorem anchored_batches_of_own {loop after : Loop} {action : batch.Action} (hown : Own action)
    (hstep : loop.step action = some after) : anchored_batches after.calls = anchored_batches loop.calls := by
  rw [Loop.calls_step hstep]
  cases action with
  | anchorer_reply exchange =>
    have hnone : anchored_batch exchange = none := by
      rw [Option.eq_none_iff_forall_ne_some]
      intro entries hentries
      obtain ⟨reply, rfl⟩ := anchored_batch_eq_some.mp hentries
      exact hown entries rfl
    rw [Loop.reply, Option.toList_some, anchored_batches_append, hnone, Option.toList_none, List.append_nil]
  | _ => exact congrArg anchored_batches (List.append_nil _)

/-- The accepted batches of a tool change only when its registry accepts what its loop asks for. -/
theorem accepted_step (hinvariant : Invariant program_id Allowed initial deployment) {next : Deployment}
    (hstep : Step program_id Allowed deployment next) {i : Nat} {after : Tool} (hafter : next.tools[i]? = some after) :
    ∃ tool, deployment.tools[i]? = some tool ∧
      (anchored_batches after.loop.calls = anchored_batches tool.loop.calls ∨
        next.world = deployment.world ∧ ∃ entries reply resume place,
          tool.loop.anchorer = .flushing (.ask (AdapterCall.anchor_batch entries) resume) place ∧
          after.loop.calls = tool.loop.calls ++ [anchored_call entries reply]) := by
  cases hstep with
  | others => exact ⟨after, hafter, .inl rfl⟩
  | acted j tool htool action hown hallowed loop hstep =>
    obtain ⟨rfl, rfl⟩ | hafter := getElem?_set_cases hafter
    · exact ⟨tool, htool, .inl (anchored_batches_of_own hown hstep)⟩
    · exact ⟨after, hafter, .inl rfl⟩
  | called j tool htool =>
    obtain ⟨rfl, rfl⟩ | hafter := getElem?_set_cases hafter
    · exact ⟨tool, htool, .inl rfl⟩
    · exact ⟨after, hafter, .inl rfl⟩
  | replied j tool htool =>
    obtain ⟨rfl, rfl⟩ | hafter := getElem?_set_cases hafter
    · exact ⟨tool, htool, .inl rfl⟩
    · exact ⟨after, hafter, .inl rfl⟩
  | returned j tool htool entries result hcall hallowed loop hstep =>
    obtain ⟨rfl, rfl⟩ | hafter := getElem?_set_cases hafter
    · refine ⟨tool, htool, ?_⟩
      have hcalls := Loop.calls_step hstep
      cases result with
      | error e =>
        refine .inl ?_
        have hnone : anchored_batch ⟨.anchor_batch entries, (Except.error e : Except AdapterError (List AnchorEntry))⟩ =
            none := rfl
        rw [hcalls, Loop.reply, Option.toList_some, anchored_batches_append, hnone, Option.toList_none,
          List.append_nil]
      | ok reply =>
        obtain ⟨first, _, _, hkept⟩ := hinvariant.tools i tool htool
        obtain ⟨asked, resume, place, hanchorer, _⟩ := hkept.call _ hcall
        refine .inr ⟨rfl, entries, reply, ?_⟩
        cases Loop.step_cases hstep with
        | replied _ pending rest later hflushing hresume =>
          rw [hanchorer] at hflushing
          cases hflushing
          obtain ⟨_, hask, _⟩ := Async.resume?_eq_some hresume
          cases hask
          exact ⟨_, _, hanchorer, hcalls⟩
    · exact ⟨after, hafter, .inl rfl⟩

/-- The entry under a hash of a new batch, of which no accepted pair has it, is from that batch. -/
theorem Invariant.new_pair (hinvariant : Invariant program_id Allowed initial deployment)
    (hinitial : Initial program_id initial) {i : Nat} {tool : Tool} (htool : deployment.tools[i]? = some tool)
    (halone : Alone deployment.world i) {entries : List Pair}
    {resume : Except AdapterError (List AnchorEntry) → Async Adapters (Except BatchError Unit)} {place : After}
    (hanchorer : tool.loop.anchorer = .flushing (.ask (AdapterCall.anchor_batch entries) resume) place)
    {hash : CidHash} (hnew : first_hashed (anchored_batches tool.loop.calls).flatten hash = none) {entry : AnchorEntry}
    (hentry : entries_of program_id deployment.world hash = some entry) :
    first_hashed entries hash = some (pair_of entry) := by
  obtain ⟨hhash, origin, tx, hexecuted, hwritten⟩ := hinvariant.chained.stored hentry
  obtain rfl : origin = some i := halone _ hexecuted
  obtain ⟨other, hother, batch, hbatch, hnodup, hpair⟩ := hinvariant.own_entry hexecuted hwritten
  rw [htool] at hother
  cases hother
  obtain ⟨first, hfirst, _, hkept⟩ := hinvariant.tools i tool htool
  have hflushes := hkept.flushes (hinitial.tools first (List.mem_of_getElem? hfirst)).2.2
  obtain ⟨earlier, flushed, hbatches, hsubmits⟩ := hflushes.of_pending hanchorer
  obtain ⟨hearlier, hsame⟩ | ⟨_, _, hsink⟩ := hsubmits
  · rw [hbatches, ← hearlier] at hbatch
    obtain hbatch | hbatch := List.mem_append.mp hbatch
    · have habsent := first_hashed_eq_none.mp hnew (pair_of entry) (List.mem_flatten_of_mem hbatch hpair)
      exact absurd hhash habsent
    · rw [List.mem_singleton.mp hbatch, ← hsame entries rfl] at hnodup hpair
      have hcid : (pair_of entry).1 = entry.cid := rfl
      rw [← hhash, ← hcid]
      exact first_hashed_of_nodup hnodup hpair
  · cases hsink

theorem Tool.Orders.step (hinjective : PdaInjective program_id) (hinitial : Initial program_id initial)
    (hinvariant : Invariant program_id Allowed initial deployment) {next : Deployment} {i : Nat}
    (horders : ∀ tool, deployment.tools[i]? = some tool → tool.Orders program_id i deployment.world)
    (hstep : Step program_id Allowed deployment next) {after : Tool} (hafter : next.tools[i]? = some after) :
    after.Orders program_id i next.world := by
  intro halone hash pair hfirst
  have hbefore : Alone deployment.world i := fun entry hentry => halone entry (executed_grows hstep hentry)
  obtain ⟨hnext, hextends⟩ := hinvariant.step hinjective hinitial hstep
  have hstays : ∀ tool, deployment.tools[i]? = some tool →
      first_hashed (anchored_batches tool.loop.calls).flatten hash = some pair →
      (entries_of program_id next.world hash).map pair_of = some pair := by
    intro tool htool hold
    obtain ⟨entry, hentry, hpair⟩ := Option.map_eq_some_iff.mp (horders tool htool hbefore hash pair hold)
    rw [hextends hash entry hentry, Option.map_some, hpair]
  obtain ⟨tool, htool, hsame | ⟨hworld, entries, reply, resume, place, hanchorer, hcalls⟩⟩ :=
    accepted_step hinvariant hstep hafter
  · exact hstays tool htool (hsame ▸ hfirst)
  · have haccepted : anchored_batches after.loop.calls = anchored_batches tool.loop.calls ++ [entries] := by
      rw [hcalls, anchored_batches_append]
      rfl
    rw [haccepted, List.flatten_append, List.flatten_singleton, first_hashed_append] at hfirst
    cases hold : first_hashed (anchored_batches tool.loop.calls).flatten hash with
    | some other =>
      rw [hold, Option.some_or] at hfirst
      exact hstays tool htool (hold.trans hfirst)
    | none =>
      rw [hold, Option.none_or] at hfirst
      obtain ⟨hpair, hhash⟩ := first_hashed_eq_some hfirst
      obtain ⟨first, _, _, hkept⟩ := hnext.tools i after hafter
      have hread := hkept.anchored entries reply (hcalls ▸ List.mem_append_right _ List.mem_cons_self)
      obtain ⟨entry, hentry⟩ := Option.isSome_iff_exists.mp (isSome_of_anchored hread hpair)
      rw [hhash] at hentry
      rw [hentry, Option.map_some, ← hfirst]
      rw [hworld] at hentry
      exact (hinvariant.new_pair hinitial htool hbefore hanchorer hold hentry).symm

theorem Tool.Orders.run (hinjective : PdaInjective program_id) (hinitial : Initial program_id initial)
    (hreached : Relation.ReflTransGen (Step program_id Allowed) initial deployment) (i : Nat) {tool : Tool}
    (htool : deployment.tools[i]? = some tool) : tool.Orders program_id i deployment.world := by
  induction hreached generalizing tool with
  | refl =>
    intro _ hash pair hfirst
    obtain ⟨_, _, _, _, _, _, _, _, _, hloop⟩ := hinitial.tools tool (List.mem_of_getElem? htool)
    rw [hloop] at hfirst
    cases hfirst
  | tail hearlier hstep ih =>
    obtain ⟨hinvariant, _⟩ := (Invariant.of_initial hinitial).run hinjective hinitial hearlier
    exact Tool.Orders.step hinjective hinitial hinvariant (fun _ => ih) hstep htool

/-- A tool that was alone and has returned leaves the first flushed pair of each hash. -/
theorem lone_registry (hinjective : PdaInjective program_id) (hinitial : Initial program_id initial)
    (hreached : Relation.ReflTransGen (Step program_id Allowed) initial deployment) {i : Nat} {tool : Tool}
    (htool : deployment.tools[i]? = some tool) (hreturned : tool.loop.returned = some (.ok ()))
    (halone : Alone deployment.world i) (hash : CidHash) :
    ((registry program_id deployment.world.chain).entries hash).map pair_of =
      first_hashed tool.loop.batches.flatten hash := by
  obtain ⟨hinvariant, _⟩ := (Invariant.of_initial hinitial).run hinjective hinitial hreached
  obtain ⟨first, hfirst, _, hkept⟩ := hinvariant.tools i tool htool
  have hbatches := (hkept.flushes (hinitial.tools first (List.mem_of_getElem? hfirst)).2.2).of_returned hreturned
  have horders := Tool.Orders.run hinjective hinitial hreached i htool halone hash
  rw [hbatches] at horders
  cases hflushed : first_hashed tool.loop.batches.flatten hash with
  | some pair => exact horders pair hflushed
  | none =>
    rw [Option.map_eq_none_iff, Option.eq_none_iff_forall_ne_some]
    intro entry hentry
    obtain ⟨hhash, origin, tx, hexecuted, hwritten⟩ := hinvariant.chained.stored hentry
    obtain rfl : origin = some i := halone _ hexecuted
    obtain ⟨other, hother, batch, hbatch, _, hpair⟩ := hinvariant.own_entry hexecuted hwritten
    rw [htool] at hother
    cases hother
    have habsent := first_hashed_eq_none.mp hflushed (pair_of entry) (List.mem_flatten_of_mem hbatch hpair)
    exact habsent hhash

/-- A tool that replays a text from an empty dedupe set, without a shutdown or a failing ledger, and
    returns successfully, has anchored every CID that a line of the text names, among any other
    parties. If only its own transactions executed, the registry holds these CIDs alone, each with
    the hash of the first line that names it. -/
theorem replayed_text_stands (hinjective : PdaInjective program_id) (hinitial : Initial program_id initial)
    {i : Nat} {first tool : Tool} (hfirst : initial.tools[i]? = some first) {config : BatchConfig} {ledger : File}
    {contents : String} {shutdown : Watch} {seen : Nat} (hsize : 1 ≤ config.batch_size)
    (hloop : first.loop = (Replay.started config ledger contents shutdown seen).loop)
    (hsignal : shutdown.value = false) (htold : ToldApart config.topic contents)
    (hundisturbed : ∀ action, Allowed i action → Undisturbed action)
    (hreached : Relation.ReflTransGen (Step program_id Allowed) initial deployment)
    (htool : deployment.tools[i]? = some tool) (hreturned : tool.loop.returned = some (.ok ())) :
    (∀ line ∈ text.lines contents, ∀ envelope, FileDeliveryClient.Reads line envelope →
        ((registry program_id deployment.world.chain).entries (cid_hash envelope.cid)).isSome = true) ∧
      (Alone deployment.world i → ∀ cid, Unmistaken contents cid →
        (((registry program_id deployment.world.chain).entries (cid_hash cid)).isSome = true ↔
          ∃ line ∈ text.lines contents, ∃ envelope, FileDeliveryClient.Reads line envelope ∧ envelope.cid = cid) ∧
        ∀ entry, (registry program_id deployment.world.chain).entries (cid_hash cid) = some entry →
          entry.cid = cid ∧ FirstNaming contents cid entry.metadata_hash) := by
  obtain ⟨hinvariant, _⟩ := (Invariant.of_initial hinitial).run hinjective hinitial hreached
  obtain ⟨other, hother, _, hkept⟩ := hinvariant.tools i tool htool
  rw [hfirst] at hother
  cases hother
  obtain ⟨actions, hrun, hallowed⟩ := hkept.ran
  rw [hloop] at hrun
  have hfinished := Finished.of_run hsize hsignal htold hrun
    (fun action haction => hundisturbed action (hallowed action haction)) hreturned
  refine ⟨?named, ?alone⟩
  case named =>
    intro line hline envelope hreads
    have hsome := isSome_first_pair_lines.mpr ⟨line, hline, envelope, hreads, rfl⟩
    rw [← hfinished.first] at hsome
    obtain ⟨pair, hpair⟩ := Option.isSome_iff_exists.mp hsome
    have hfound := List.find?_some hpair
    have hcid : pair.1 = envelope.cid := of_decide_eq_true hfound
    have hmem : pair ∈ tool.loop.batches.flatten := hfinished.flushed ▸ List.mem_of_find?_eq_some hpair
    obtain ⟨batch, hbatch, hflushed⟩ := List.mem_flatten.mp hmem
    have hfresh := (hinitial.tools first (List.mem_of_getElem? hfirst)).2.2
    obtain ⟨reply, hcall⟩ := (hkept.flushes hfresh).anchored hreturned hbatch
    rw [← hcid]
    exact isSome_of_anchored (hkept.anchored batch reply hcall) hflushed
  case alone =>
    intro halone cid hunmistaken
    have hstands := lone_registry hinjective hinitial hreached htool hreturned halone (cid_hash cid)
    have hcollision : ∀ pair ∈ tool.loop.batches.flatten, cid_hash pair.1 = cid_hash cid → pair.1 = cid := by
      intro pair hpair hhash
      obtain ⟨line, hline, hread⟩ := hfinished.announced pair (hfinished.flushed ▸ hpair)
      obtain ⟨envelope, hreads, hcid, _⟩ := line_pair_eq_some.mp hread
      rw [← hcid] at hhash ⊢
      exact hunmistaken line hline envelope hreads hhash
    rw [first_hashed_cid_hash hcollision, hfinished.flushed, hfinished.first] at hstands
    refine ⟨?_, ?_⟩
    · rw [← isSome_first_pair_lines, ← hstands, Option.isSome_map]
    · intro entry hentry
      rw [hentry, Option.map_some] at hstands
      exact FirstNaming.of_first_pair hstands.symm

end

/-- Each of the two new payloads is flushed by itself, and anchored by a call of four requests. -/
def repeatedTurns : List Turn :=
  let ingested : List Turn := [.act 0 .subscriber_next, .act 0 (.subscriber_ingest none)]
  let anchored : List Turn := [.call 0, .serve 0, .serve 0, .execute 0, .serve 0, .serve 0, .resume 0,
    .act 0 (.anchorer_reply ⟨.sink_send { batch_size := 1, anchored := 1 }, ()⟩)]
  let buffered : List Turn := [.act 0 .subscriber_send, .act 0 .anchorer_recv]
  ingested ++ buffered ++ .act 0 .anchorer_tick :: anchored ++ ingested ++ ingested ++ buffered ++
    .act 0 .subscriber_next :: .act 0 .anchorer_recv :: anchored ++ [.act 0 .anchorer_join]

/-- A tool about to replay the payload of one record twice, and that of another, alone with an
    unused registry. -/
def replayingRepeated (program_id : ProgramId) : Deployment where
  world := { chain := unusedChain, pool := [], executed := [] }
  tools := [{
    registry := { program_id, confirm_secs := 60, timestamp_source := .Fixed 1725000000 }
    loop := Loop.started sampleConfig { seen := ∅ } none (items sampleConfig.topic [
      (sampleEnvelope "bafy-a" "first").serialize.render, (sampleEnvelope "bafy-a" "first").serialize.render,
      (sampleEnvelope "bafy-a" "second").serialize.render]) ⟨false, 0, false⟩ 0
    call := none }]

theorem replaying_repeated (program_id : ProgramId) {contents : String} (hrepeated : Repeated contents) :
    replaying program_id contents = replayingRepeated program_id := by
  rw [replaying, Replay.started, hrepeated, replayingRepeated]

theorem run_repeatedTurns {contents : String} (hrepeated : Repeated contents) :
    let program_id : ProgramId := Vector.replicate 8 1
    ∃ last tool, transition.run (Deployment.act program_id) (replaying program_id contents) repeatedTurns = some last ∧
      last.tools[0]? = some tool ∧ tool.loop.returned = some (.ok ()) ∧
      last.world.executed.map Prod.fst = [some 0, some 0] := by
  intro program_id
  have hrun : (transition.run (Deployment.act program_id) (replayingRepeated program_id) repeatedTurns).any
      (fun last => last.tools.head?.any (fun tool => tool.loop.returned = some (.ok ()) ∧
        last.world.executed.map Prod.fst = [some 0, some 0])) = true := by
    decide +kernel
  rw [replaying_repeated program_id hrepeated]
  obtain ⟨last, hlast, htools⟩ := (Option.any_eq_true _ _).mp hrun
  obtain ⟨tool, htool, hchecked⟩ := (Option.any_eq_true _ _).mp htools
  rw [List.head?_eq_getElem?] at htool
  exact ⟨last, tool, hlast, htool, of_decide_eq_true hchecked⟩

theorem replayed_text_stands_repeated :
    let program_id : ProgramId := Vector.replicate 8 1
    ∃ contents last, Repeated contents ∧
      transition.run (Deployment.act program_id) (replaying program_id contents) repeatedTurns = some last ∧
      ((registry program_id last.world.chain).entries (cid_hash ⟨"bafy-a"⟩)).isSome = true ∧
      ∀ entry, (registry program_id last.world.chain).entries (cid_hash ⟨"bafy-a"⟩) = some entry →
        entry.cid = ⟨"bafy-a"⟩ ∧ FirstNaming contents ⟨"bafy-a"⟩ entry.metadata_hash := by
  intro program_id
  obtain ⟨contents, hrepeated⟩ := exists_repeated
  obtain ⟨last, tool, hlast, htool, hreturned, hexecuted⟩ := run_repeatedTurns hrepeated
  have halone : Alone last.world 0 := by
    intro entry hentry
    have horigin := List.mem_map_of_mem (f := Prod.fst) hentry
    rw [hexecuted] at horigin
    simpa using horigin
  obtain ⟨_, hstands⟩ := replayed_text_stands (pdaInjective_seedAddressed program_id)
    (initial_replaying program_id contents) rfl (by decide) rfl rfl hrepeated.toldApart (fun _ hallowed => hallowed)
    (Deployment.steps_of_run hlast) htool hreturned
  obtain ⟨hnamed, hfirst⟩ := hstands halone _ hrepeated.unmistaken
  exact ⟨contents, last, hrepeated, hlast, hnamed.mpr hrepeated.named, hfirst⟩

end whistleblower_batch
