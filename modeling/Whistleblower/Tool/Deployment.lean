import Whistleblower.Indexing.Batch.Distinct
import Whistleblower.Indexing.Batch.Recovery
import Whistleblower.Indexing.Batch.Tally
import Whistleblower.Lez.Chained

open nssa_core whistleblower_core whistleblower_registry whistleblower_lez_adapter document_indexing
  document_indexing.batch first_writer

namespace whistleblower_batch

/-- A batch tool that runs: its client, its loop, and how far the call of the registry is that
    the loop waits for. -/
structure Tool [Nssa] where
  registry : LezRegistryClient
  loop : Loop
  call : Option (Async LezIo (Except AdapterError (List AnchorEntry)))

/-- The chain with all the tools that run on it. -/
structure Deployment [Nssa] where
  world : World
  tools : List Tool

/-- An action that a loop takes without its registry. -/
def Own : batch.Action → Prop
  | .anchorer_reply exchange => ∀ entries, exchange.request ≠ AdapterCall.anchor_batch entries
  | _ => True

section

variable [Sha256] [Nssa]

/-- One step. Others submit transactions and the chain executes them; a loop acts by itself,
    calls its registry, and continues with the answer. The requests of a call are answered as
    those of any client. -/
inductive Step (program_id : ProgramId) (Allowed : Nat → batch.Action → Prop) (deployment : Deployment) :
    Deployment → Prop where
  | others (next : System)
      (hstep : whistleblower_lez_adapter.Step program_id { world := deployment.world, sessions := [] } next) :
      Step program_id Allowed deployment { deployment with world := next.world }
  | acted (i : Nat) (tool : Tool) (htool : deployment.tools[i]? = some tool) (action : batch.Action)
      (hown : Own action) (hallowed : Allowed i action) (next : Loop) (hstep : tool.loop.step action = some next) :
      Step program_id Allowed deployment
        { deployment with tools := deployment.tools.set i { tool with loop := next } }
  | called (i : Nat) (tool : Tool) (htool : deployment.tools[i]? = some tool) (entries : List Pair)
      (resume : Except AdapterError (List AnchorEntry) → Async Adapters (Except BatchError Unit)) (after : After)
      (hanchorer : tool.loop.anchorer = .flushing (.ask (AdapterCall.anchor_batch entries) resume) after)
      (hcall : tool.call = none) :
      Step program_id Allowed deployment { deployment with
        tools := deployment.tools.set i { tool with call := some (tool.registry.anchor_batch entries) } }
  | replied (i : Nat) (tool : Tool) (htool : deployment.tools[i]? = some tool) (request : LezCall)
      (resume : request.Response → Async LezIo (Except AdapterError (List AnchorEntry)))
      (hcall : tool.call = some (.ask request resume)) (response : request.Response) (after : World)
      (hreplied : Replied i deployment.world request response after) :
      Step program_id Allowed deployment {
        world := after
        tools := deployment.tools.set i { tool with call := some (resume response) } }
  | returned (i : Nat) (tool : Tool) (htool : deployment.tools[i]? = some tool) (entries : List Pair)
      (result : Except AdapterError (List AnchorEntry)) (hcall : tool.call = some (.ret result))
      (hallowed : Allowed i (.anchorer_reply ⟨.anchor_batch entries, result⟩)) (next : Loop)
      (hstep : tool.loop.step (.anchorer_reply ⟨.anchor_batch entries, result⟩) = some next) :
      Step program_id Allowed deployment
        { deployment with tools := deployment.tools.set i { tool with loop := next, call := none } }

/-- The loop of the tool has just started. -/
def Tool.Fresh (tool : Tool) : Prop :=
  ∃ config dedupe ledger stream shutdown seen, 1 ≤ config.batch_size ∧
    tool.loop = Loop.started config dedupe ledger stream shutdown seen

/-- Every tool is about to begin, on a registry that is unused and to which nothing has been
    submitted. -/
structure Initial (program_id : ProgramId) (deployment : Deployment) : Prop where
  unused : Unused program_id deployment.world.chain
  pool : deployment.world.pool = []
  executed : deployment.world.executed = []
  tools : ∀ tool ∈ deployment.tools, tool.registry.program_id = program_id ∧ tool.call = none ∧ tool.Fresh

/-- What the tool has done since it was as given: its loop ran, the registry holds all that it was
    told, and its call will tell the truth. -/
structure Tool.Kept (program_id : ProgramId) (Allowed : batch.Action → Prop) (world : World) (tool first : Tool) :
    Prop where
  registry : tool.registry = first.registry
  ran : ∃ actions, transition.run Loop.step first.loop actions = some tool.loop ∧ ∀ action ∈ actions, Allowed action
  anchored : ∀ batch entries, anchored_call batch entries ∈ tool.loop.calls →
    entries.map some = batch.map fun pair => entries_of program_id world (cid_hash pair.1)
  call : ∀ program, tool.call = some program → ∃ entries resume after,
    tool.loop.anchorer = .flushing (.ask (AdapterCall.anchor_batch entries) resume) after ∧
    Async.Ensures (rely program_id) (Guarantees tool.registry (.anchor_batch entries))
      (OnResult (fun _ _ => True) fun w reply =>
        (Call.anchor_batch entries).Answered (entries_of program_id w) reply) program world

/-- What a tool keeps, it keeps while the registry grows. -/
theorem Tool.Kept.moves {program_id : ProgramId} {Allowed : batch.Action → Prop} {world later : World}
    {first tool : Tool} (hkept : tool.Kept program_id Allowed world first)
    (hextends : Extends (entries_of program_id world) (entries_of program_id later)) :
    tool.Kept program_id Allowed later first where
  registry := hkept.registry
  ran := hkept.ran
  anchored := by
    intro batch entries hcall
    have hstands := hkept.anchored batch entries hcall
    rw [← Function.comp_def (entries_of program_id _) fun pair : Pair => cid_hash pair.1, ← List.map_map] at hstands ⊢
    exact hextends.map_some hstands
  call := by
    intro program hcall
    obtain ⟨entries, resume, after, hanchorer, hensures⟩ := hkept.call program hcall
    exact ⟨entries, resume, after, hanchorer, hensures.moves hextends⟩

/-- What holds at every point of a deployment. -/
structure Invariant (program_id : ProgramId) (Allowed : Nat → batch.Action → Prop)
    (initial deployment : Deployment) : Prop where
  chained : Chained program_id deployment.world
  attempts : ∀ (i : Nat) (tx : Transaction), (some i, tx) ∈ deployment.world.pool →
    ∃ tool, deployment.tools[i]? = some tool ∧
      ∃ batch ∈ tool.loop.batches, (Call.anchor_batch batch).Attempt tool.registry tx
  tools : ∀ (i : Nat) (tool : Tool), deployment.tools[i]? = some tool → ∃ first, initial.tools[i]? = some first ∧
    first.registry.program_id = program_id ∧ tool.Kept program_id (Allowed i) deployment.world first

variable {program_id : ProgramId} {Allowed : Nat → batch.Action → Prop} {initial deployment next : Deployment}

/-- One tool goes on, and with it the world. -/
theorem Invariant.replace (hinvariant : Invariant program_id Allowed initial deployment) {i : Nat} {tool replaced : Tool}
    (htool : deployment.tools[i]? = some tool) {after : World} (hchained : Chained program_id after)
    (hextends : Extends (entries_of program_id deployment.world) (entries_of program_id after))
    (hpool : ∀ (j : Nat) (tx : Transaction), (some j, tx) ∈ after.pool → (some j, tx) ∈ deployment.world.pool ∨
      j = i ∧ ∃ batch ∈ tool.loop.batches, (Call.anchor_batch batch).Attempt tool.registry tx)
    (hregistry : replaced.registry = tool.registry)
    (hbatches : ∀ batch ∈ tool.loop.batches, batch ∈ replaced.loop.batches)
    (hkept : ∀ first, first.registry.program_id = program_id → tool.Kept program_id (Allowed i) deployment.world first →
      replaced.Kept program_id (Allowed i) after first) :
    Invariant program_id Allowed initial { world := after, tools := deployment.tools.set i replaced } := by
  have hreplaced : (deployment.tools.set i replaced)[i]? = some replaced := by
    rw [List.getElem?_set, if_pos rfl, if_pos (List.getElem?_eq_some_iff.mp htool).1]
  refine ⟨hchained, ?attempts, ?tools⟩
  case attempts =>
    intro j tx hentry
    have hof : ∀ batch ∈ tool.loop.batches, (Call.anchor_batch batch).Attempt tool.registry tx →
        ∃ other, (deployment.tools.set i replaced)[i]? = some other ∧
          ∃ batch ∈ other.loop.batches, (Call.anchor_batch batch).Attempt other.registry tx :=
      fun batch hbatch hattempt => ⟨replaced, hreplaced, batch, hbatches batch hbatch, hregistry ▸ hattempt⟩
    obtain hentry | ⟨rfl, batch, hbatch, hattempt⟩ := hpool j tx hentry
    · obtain ⟨other, hother, batch, hbatch, hattempt⟩ := hinvariant.attempts j tx hentry
      by_cases hsame : j = i
      · subst hsame
        rw [htool] at hother
        cases hother
        exact hof batch hbatch hattempt
      · refine ⟨other, ?_, batch, hbatch, hattempt⟩
        rw [List.getElem?_set, if_neg (Ne.symm hsame)]
        exact hother
    · exact hof batch hbatch hattempt
  case tools =>
    intro j other hother
    obtain ⟨rfl, rfl⟩ | hother := getElem?_set_cases hother
    · obtain ⟨first, hfirst, hprogram, hfirst_kept⟩ := hinvariant.tools j tool htool
      exact ⟨first, hfirst, hprogram, hkept first hprogram hfirst_kept⟩
    · obtain ⟨first, hfirst, hprogram, hother_kept⟩ := hinvariant.tools j other hother
      exact ⟨first, hfirst, hprogram, hother_kept.moves hextends⟩

theorem Tool.Kept.flushes {Allowed : batch.Action → Prop} {world : World} {first tool : Tool}
    (hkept : tool.Kept program_id Allowed world first) (hfresh : first.Fresh) : tool.loop.Flushes := by
  obtain ⟨actions, hrun, _⟩ := hkept.ran
  obtain ⟨config, dedupe, ledger, stream, shutdown, seen, _, hfirst⟩ := hfresh
  rw [hfirst] at hrun
  exact transition.run_preserves (fun _ _ _ hflushes hstep => hflushes.step hstep)
    (.started config dedupe ledger stream shutdown seen) hrun

omit [Nssa] in
/-- While a loop waits for its registry, nothing that it does by itself moves its anchorer. -/
theorem anchorer_of_own {loop after : Loop} {entries : List Pair}
    {resume : Except AdapterError (List AnchorEntry) → Async Adapters (Except BatchError Unit)} {later : After}
    (hanchorer : loop.anchorer = .flushing (.ask (AdapterCall.anchor_batch entries) resume) later)
    {action : batch.Action} (hown : Own action) (hstep : loop.step action = some after) :
    after.anchorer = loop.anchorer := by
  have hbusy : ∀ {place : Anchorer}, loop.anchorer = place →
      place = .flushing (.ask (AdapterCall.anchor_batch entries) resume) later :=
    fun hplace => hplace.symm.trans hanchorer
  cases Loop.step_cases hstep with
  | anchorer_woken hselecting => cases hbusy hselecting
  | anchorer_stopped hselecting => cases hbusy hselecting
  | buffered _ _ hselecting => cases hbusy hselecting
  | filled _ _ hselecting => cases hbusy hselecting
  | channel_closed _ hselecting => cases hbusy hselecting
  | idle_tick hselecting => cases hbusy hselecting
  | tick hselecting => cases hbusy hselecting
  | replied exchange pending rest after hflushing hresume =>
    cases hbusy hflushing
    obtain ⟨next, hask, _⟩ := Async.resume?_eq_some hresume
    cases exchange with
    | mk request response =>
      cases hask
      exact absurd rfl (hown entries)
  | unwound _ _ _ hflushing => cases hbusy hflushing
  | joined _ hjoining => cases hbusy hjoining
  | _ => rfl

omit [Nssa] in
theorem batches_grow {loop after : Loop} {action : batch.Action} (hstep : loop.step action = some after)
    {batch : List Pair} (hbatch : batch ∈ loop.batches) : batch ∈ after.batches := by
  obtain ⟨_, hbatches⟩ | ⟨_, hbatches⟩ := Loop.batched_step hstep
  · rw [hbatches]
    exact hbatch
  · rw [hbatches]
    exact List.mem_append_left _ hbatch

theorem Tool.Kept.ran_step {Allowed : batch.Action → Prop} {world : World} {first tool : Tool}
    (hkept : tool.Kept program_id Allowed world first) {action : batch.Action} (hallowed : Allowed action) {after : Loop}
    (hstep : tool.loop.step action = some after) :
    ∃ actions, transition.run Loop.step first.loop actions = some after ∧ ∀ action ∈ actions, Allowed action := by
  obtain ⟨actions, hrun, hall⟩ := hkept.ran
  refine ⟨actions ++ [action], ?_, ?_⟩
  · exact transition.run_append_eq_some.mpr ⟨_, hrun, transition.run_cons_eq_some.mpr ⟨after, hstep, rfl⟩⟩
  · intro other hother
    obtain hother | hother := List.mem_append.mp hother
    · exact hall other hother
    · rw [List.mem_singleton.mp hother]
      exact hallowed

/-- A loop that acts by itself learns nothing from its registry. -/
theorem Tool.Kept.acted {Allowed : batch.Action → Prop} {world : World} {first tool : Tool}
    (hkept : tool.Kept program_id Allowed world first) {action : batch.Action} (hown : Own action)
    (hallowed : Allowed action) {after : Loop} (hstep : tool.loop.step action = some after) :
    Tool.Kept program_id Allowed world { tool with loop := after } first where
  registry := hkept.registry
  ran := hkept.ran_step hallowed hstep
  anchored := by
    intro batch entries hcall
    dsimp only at hcall
    rw [Loop.calls_step hstep] at hcall
    obtain hcall | hcall := List.mem_append.mp hcall
    · exact hkept.anchored batch entries hcall
    · cases action with
      | anchorer_reply exchange =>
        rw [← List.mem_singleton.mp hcall] at hown
        exact absurd rfl (hown batch)
      | _ => cases hcall
  call := by
    intro program hcall
    obtain ⟨entries, resume, later, hanchorer, hensures⟩ := hkept.call program hcall
    exact ⟨entries, resume, later, (anchorer_of_own hanchorer hown hstep).trans hanchorer, hensures⟩

/-- The answer that a loop continues with stands in the registry. -/
theorem Tool.Kept.returned {Allowed : batch.Action → Prop} {world : World} {first tool : Tool}
    (hkept : tool.Kept program_id Allowed world first) {entries : List Pair}
    {result : Except AdapterError (List AnchorEntry)} (hcall : tool.call = some (.ret result))
    (hallowed : Allowed (.anchorer_reply ⟨.anchor_batch entries, result⟩)) {after : Loop}
    (hstep : tool.loop.step (.anchorer_reply ⟨.anchor_batch entries, result⟩) = some after) :
    Tool.Kept program_id Allowed world { tool with loop := after, call := none } first where
  registry := hkept.registry
  ran := hkept.ran_step hallowed hstep
  anchored := by
    intro batch reply hreply
    dsimp only at hreply
    rw [Loop.calls_step hstep] at hreply
    obtain hreply | hreply := List.mem_append.mp hreply
    · exact hkept.anchored batch reply hreply
    · obtain ⟨asked, resume, later, hanchorer, hensures⟩ := hkept.call _ hcall
      have hentries : asked = entries := by
        cases Loop.step_cases hstep with
        | replied _ pending rest place hflushing hresume =>
          rw [hanchorer] at hflushing
          cases hflushing
          obtain ⟨_, hask, _⟩ := Async.resume?_eq_some hresume
          cases hask
          rfl
      subst hentries
      cases List.mem_singleton.mp hreply
      obtain hread | ⟨_, _, hquery⟩ := hensures world (.refl _)
      · rw [hread, Call.hashes, List.map_map]
        rfl
      · cases hquery
  call := fun _ hnone => nomatch hnone

theorem Invariant.of_initial (hinitial : Initial program_id initial) :
    Invariant program_id Allowed initial initial := by
  obtain ⟨hunused, hpool, hexecuted, htools⟩ := hinitial
  refine ⟨.of_unused hunused hexecuted, ?attempts, ?tools⟩
  case attempts =>
    rw [hpool]
    exact fun i tx hentry => nomatch hentry
  case tools =>
    intro i tool htool
    obtain ⟨hprogram, hcall, config, dedupe, ledger, stream, shutdown, seen, _, hloop⟩ :=
      htools tool (List.mem_of_getElem? htool)
    refine ⟨tool, htool, hprogram, rfl, ⟨[], rfl, fun _ hnone => nomatch hnone⟩, ?_, ?_⟩
    · rw [hloop]
      exact fun batch entries hnone => nomatch hnone
    · rw [hcall]
      exact fun program hnone => nomatch hnone

theorem Invariant.step (hinjective : PdaInjective program_id) (hinitial : Initial program_id initial)
    (hinvariant : Invariant program_id Allowed initial deployment)
    (hstep : Step program_id Allowed deployment next) :
    Invariant program_id Allowed initial next ∧
      Extends (entries_of program_id deployment.world) (entries_of program_id next.world) := by
  have hsame : ∀ (j : Nat) (tx : Transaction) (P : Prop), (some j, tx) ∈ deployment.world.pool →
      (some j, tx) ∈ deployment.world.pool ∨ P := fun _ _ _ hentry => .inl hentry
  cases hstep with
  | others after hstep =>
    obtain ⟨hchained, hextends, hpool⟩ := hinvariant.chained.others hinjective hstep
    refine ⟨⟨hchained, ?_, ?_⟩, hextends⟩
    · exact fun i tx hentry => hinvariant.attempts i tx (hpool i tx hentry)
    · intro i tool htool
      obtain ⟨first, hfirst, hprogram, hkept⟩ := hinvariant.tools i tool htool
      exact ⟨first, hfirst, hprogram, hkept.moves hextends⟩
  | acted i tool htool action hown hallowed loop hstep =>
    refine ⟨hinvariant.replace htool hinvariant.chained (.refl _) (fun j tx => hsame j tx _) rfl ?_ ?_, .refl _⟩
    · exact fun batch hbatch => batches_grow hstep hbatch
    · exact fun first _ hkept => hkept.acted hown hallowed hstep
  | called i tool htool entries resume after hanchorer hcall =>
    refine ⟨hinvariant.replace htool hinvariant.chained (.refl _) (fun j tx => hsame j tx _) rfl
      (fun _ hbatch => hbatch) ?_, .refl _⟩
    intro first hprogram hkept
    refine ⟨hkept.registry, hkept.ran, hkept.anchored, ?_⟩
    intro program hprogram_called
    cases hprogram_called
    have hclient : tool.registry.program_id = program_id := hkept.registry ▸ hprogram
    subst hclient
    exact ⟨entries, resume, after, hanchorer, @program_ensures _ _ tool.registry (.anchor_batch entries) deployment.world⟩
  | replied i tool htool request resume hcall response after hreplied =>
    obtain ⟨hchained, hentries⟩ := hinvariant.chained.replied hreplied
    obtain ⟨_, _, _, hpool, hanswers⟩ := hreplied.spec program_id
    have hextends : Extends (entries_of program_id deployment.world) (entries_of program_id after) := hentries ▸ .refl _
    obtain ⟨first, hfirst, hprogram, hkept⟩ := hinvariant.tools i tool htool
    obtain ⟨entries, pending, later, hanchorer, hensures⟩ := hkept.call _ hcall
    obtain ⟨hasks, hresume⟩ := hensures deployment.world (.refl _)
    have hflushes := hkept.flushes (hinitial.tools first (List.mem_of_getElem? hfirst)).2.2
    refine ⟨hinvariant.replace htool hchained hextends ?_ rfl (fun _ hbatch => hbatch) ?_, hextends⟩
    · intro j tx hentry
      obtain hentry | ⟨sent, hrequest, hsent⟩ := hpool _ hentry
      · exact .inl hentry
      · cases hsent
        exact .inr ⟨rfl, entries, hflushes.asked (.inr ⟨pending, later, hanchorer⟩), hasks tx hrequest⟩
    · intro other _ hother
      obtain ⟨hregistry, hran, hanchored, _⟩ := hother.moves hextends
      refine ⟨hregistry, hran, hanchored, ?_⟩
      intro program hresumed
      cases hresumed
      exact ⟨entries, pending, later, hanchorer, hresume response after hanswers⟩
  | returned i tool htool entries result hcall hallowed loop hstep =>
    refine ⟨hinvariant.replace htool hinvariant.chained (.refl _) (fun j tx => hsame j tx _) rfl ?_ ?_, .refl _⟩
    · exact fun batch hbatch => batches_grow hstep hbatch
    · exact fun first _ hkept => hkept.returned hcall hallowed hstep

/-- The invariant holds at every point, and the registry only grows. -/
theorem Invariant.run (hinjective : PdaInjective program_id) (hinitial : Initial program_id initial)
    (hinvariant : Invariant program_id Allowed initial deployment)
    (hsteps : Relation.ReflTransGen (Step program_id Allowed) deployment next) :
    Invariant program_id Allowed initial next ∧
      Extends (entries_of program_id deployment.world) (entries_of program_id next.world) := by
  induction hsteps with
  | refl => exact ⟨hinvariant, .refl _⟩
  | tail _ hstep ih =>
    obtain ⟨hnext, hextends⟩ := ih.1.step hinjective hinitial hstep
    exact ⟨hnext, ih.2.trans hextends⟩

omit [Sha256] [Nssa] in
instance : (action : batch.Action) → Decidable (Own action)
  | .anchorer_reply ⟨.anchor_batch entries, _⟩ => .isFalse fun hown => hown entries rfl
  | .anchorer_reply ⟨.upload_file _, _⟩ | .anchorer_reply ⟨.publish _ _, _⟩ | .anchorer_reply ⟨.anchor_one _ _, _⟩
  | .anchorer_reply ⟨.query_by_cid_hash _, _⟩ | .anchorer_reply ⟨.sink_send _, _⟩ | .anchorer_reply ⟨.sleep _, _⟩
  | .anchorer_reply ⟨.panic _, _⟩ => .isTrue fun _ => nofun
  | .shutdown_send _ | .shutdown_drop | .subscriber_changed | .subscriber_next | .subscriber_ingest _
  | .subscriber_send | .anchorer_changed | .anchorer_recv | .anchorer_tick | .anchorer_unwind | .anchorer_join =>
    .isTrue trivial

/-- A step chosen by its numbers, among undisturbed tools and a sequencer that accepts
    everything. -/
inductive Turn where
  | act (index : Nat) (action : batch.Action)
  | call (index : Nat)
  | serve (index : Nat)
  | resume (index : Nat)
  | execute (position : Nat)

/-- What the loop of the tool asks its registry for. -/
def Tool.asked (self : Tool) : Option (List Pair) :=
  match self.loop.anchorer with
  | .flushing (.ask (.anchor_batch entries) _) _ => some entries
  | _ => none

omit [Sha256] in
theorem Tool.asked_eq_some {tool : Tool} {entries : List Pair} (hasked : tool.asked = some entries) :
    ∃ resume after, tool.loop.anchorer = .flushing (.ask (AdapterCall.anchor_batch entries) resume) after := by
  unfold asked at hasked
  split at hasked
  · rename_i hanchorer
    cases hasked
    exact ⟨_, _, hanchorer⟩
  · cases hasked

def Deployment.act (program_id : ProgramId) (self : Deployment) : Turn → Option Deployment
  | .act index action => do
    let tool ← self.tools[index]?
    if Own action ∧ Undisturbed action then
      let next ← tool.loop.step action
      some { self with tools := self.tools.set index { tool with loop := next } }
    else none
  | .call index => do
    let tool ← self.tools[index]?
    let entries ← tool.asked
    match tool.call with
    | none =>
      some { self with tools := self.tools.set index { tool with call := some (tool.registry.anchor_batch entries) } }
    | some _ => none
  | .serve index => do
    let tool ← self.tools[index]?
    match tool.call with
    | some (.ask request resume) =>
      let (response, after) ← self.world.serve index request
      some { world := after, tools := self.tools.set index { tool with call := some (resume response) } }
    | _ => none
  | .resume index => do
    let tool ← self.tools[index]?
    let entries ← tool.asked
    match tool.call with
    | some (.ret result) =>
      let next ← tool.loop.step (.anchorer_reply ⟨.anchor_batch entries, result⟩)
      some { self with tools := self.tools.set index { tool with loop := next, call := none } }
    | _ => none
  | .execute position => do
    let next ← System.act program_id { world := self.world, sessions := [] } (.execute position)
    some { self with world := next.world }

theorem Deployment.step_of_act {turn : Turn} (hact : deployment.act program_id turn = some next) :
    Step program_id (fun _ => Undisturbed) deployment next := by
  cases turn with
  | act index action =>
    simp only [act, Option.bind_eq_bind, Option.bind_eq_some_iff] at hact
    obtain ⟨tool, htool, hact⟩ := hact
    split at hact
    · rename_i hallowed
      obtain ⟨loop, hstep, hnext⟩ := Option.bind_eq_some_iff.mp hact
      cases hnext
      exact .acted index tool htool action hallowed.1 hallowed.2 loop hstep
    · cases hact
  | call index =>
    simp only [act, Option.bind_eq_bind, Option.bind_eq_some_iff] at hact
    obtain ⟨tool, htool, entries, hasked, hact⟩ := hact
    obtain ⟨resume, after, hanchorer⟩ := Tool.asked_eq_some hasked
    split at hact
    · rename_i hcall
      cases hact
      exact .called index tool htool entries resume after hanchorer hcall
    · cases hact
  | serve index =>
    simp only [act, Option.bind_eq_bind, Option.bind_eq_some_iff] at hact
    obtain ⟨tool, htool, hact⟩ := hact
    split at hact
    · rename_i request resume hcall
      obtain ⟨⟨response, after⟩, hserve, hnext⟩ := Option.bind_eq_some_iff.mp hact
      cases hnext
      exact .replied index tool htool request resume hcall response after (replied_of_serve hserve)
    · cases hact
  | resume index =>
    simp only [act, Option.bind_eq_bind, Option.bind_eq_some_iff] at hact
    obtain ⟨tool, htool, entries, hasked, hact⟩ := hact
    split at hact
    · rename_i result hcall
      obtain ⟨loop, hstep, hnext⟩ := Option.bind_eq_some_iff.mp hact
      cases hnext
      exact .returned index tool htool entries result hcall trivial loop hstep
    · cases hact
  | execute position =>
    simp only [act, Option.bind_eq_bind, Option.bind_eq_some_iff] at hact
    obtain ⟨after, hafter, hnext⟩ := hact
    cases hnext
    exact .others after (System.step_of_act hafter)

theorem Deployment.steps_of_run {turns : List Turn}
    (hrun : transition.run (Deployment.act program_id) deployment turns = some next) :
    Relation.ReflTransGen (Step program_id fun _ => Undisturbed) deployment next :=
  transition.run_relates (fun _ => .refl) (fun _ _ _ => .trans)
    (fun _ _ _ hact => .single (Deployment.step_of_act hact)) hrun

end

end whistleblower_batch
