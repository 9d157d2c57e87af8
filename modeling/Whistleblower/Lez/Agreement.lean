import Mathlib.Data.Set.Function
import Whistleblower.Lib.Transition
import Whistleblower.Lez.Calls

open nssa_core whistleblower_core document_indexing whistleblower_registry first_writer

namespace whistleblower_lez_adapter

/-- One call in progress: whose it is, whether it is retried, and how far it is. -/
structure Session [Nssa] where
  client : LezRegistryClient
  call : Call
  retry : Option RetryPolicy
  pending : Async LezIo (Except AdapterError (List AnchorEntry))

/-- The chain with every call made on it. -/
structure System [Nssa] where
  world : World
  sessions : List Session

section

variable [Sha256] [Nssa]

def Session.program (client : LezRegistryClient) (call : Call) (retry : Option RetryPolicy) :
    Async LezIo (Except AdapterError (List AnchorEntry)) :=
  match retry with
  | none => call.program client
  | some policy => with_retry policy (call.program client)

omit [Sha256] in
def World.submitted (self : World) (origin : Option Nat) (tx : Transaction) : World :=
  { self with pool := self.pool ++ [(origin, tx)] }

/-- How a request of a session is answered. A sent transaction may be lost only if
    an error says so, and an error does not say that it is lost. -/
def Replied (index : Nat) (world : World) : (request : LezCall) → request.Response → World → Prop
  | .send_transaction tx, response, after =>
    after = world.submitted (some index) tx ∨ (∃ e, response = .error e) ∧ after = world
  | .get_account_public id, response, after =>
    after = world ∧ ∀ account, response = .ok account → account = world.chain id
  | _, _, after => after = world

/-- One step of the system. A transaction may execute at any time after it was
    submitted, and need never do so; one on which the program panics changes nothing. -/
inductive Step (program_id : ProgramId) (system : System) : System → Prop where
  | submitted (tx : Transaction) :
      Step program_id system { system with world := system.world.submitted none tx }
  | executed (origin : Option Nat) (tx : Transaction) (hpool : (origin, tx) ∈ system.world.pool)
      (hdistinct : tx.account_ids.Nodup) (output : ProgramOutput)
      (hrun : run_guest program_id system.world.chain tx = .ok output) :
      Step program_id system { system with world := { system.world with
        chain := submit program_id system.world.chain tx
        executed := system.world.executed ++ [(origin, tx)] } }
  | elsewhere (chain : Chain)
      (hkept : ∀ hash, entry_data program_id chain hash = entry_data program_id system.world.chain hash) :
      Step program_id system { system with world := { system.world with chain } }
  | replied (index : Nat) (session : Session) (hsession : system.sessions[index]? = some session)
      (request : LezCall) (resume : request.Response → Async LezIo (Except AdapterError (List AnchorEntry)))
      (hpending : session.pending = .ask request resume) (response : request.Response) (after : World)
      (hreplied : Replied index system.world request response after) :
      Step program_id system {
        world := after
        sessions := system.sessions.set index { session with pending := resume response } }

/-- Nothing has been submitted to an unused registry, and every call is about to begin. -/
structure Initial (program_id : ProgramId) (system : System) : Prop where
  unused : Unused program_id system.world.chain
  pool : system.world.pool = []
  executed : system.world.executed = []
  sessions : ∀ session ∈ system.sessions, session.client.program_id = program_id ∧
    session.pending = Session.program session.client session.call session.retry

/-- The entries a transaction writes to an empty registry. -/
def new_entries (tx : Transaction) : List AnchorEntry :=
  match RegistryInstruction.try_from_slice tx.instruction with
  | .ok instruction => instruction.new_entries
  | .error _ => []

/-- The entries of the executed transactions, in the order of execution. -/
def executed_entries (executed : List (Option Nat × Transaction)) : List AnchorEntry :=
  executed.flatMap fun entry => new_entries entry.2

/-- The entry of the first executed transaction that names a CID. -/
def first_naming (executed : List (Option Nat × Transaction)) (cid : CanonicalCid) : Option AnchorEntry :=
  (executed_entries executed).find? fun entry => entry.cid = cid

/-- The registry that results when the transactions execute on an empty one. -/
def replay (executed : List (Option Nat × Transaction)) : CidHash → Option AnchorEntry :=
  claim_all (fun _ => none) ((executed_entries executed).map fun entry => (entry.cid_hash, entry))

theorem session_ensures (client : LezRegistryClient) (call : Call) (retry : Option RetryPolicy) (world : World) :
    Async.Ensures (rely client.program_id) (Guarantees client call)
      (OnResult (fun _ _ => True) fun w reply => call.Answered (entries_of client.program_id w) reply)
      (Session.program client call retry) world := by
  cases retry with
  | none => exact program_ensures world
  | some policy =>
    refine with_retry_ensures (V := fun _ => True) (fun _ _ _ => trivial) (fun _ _ _ _ _ => trivial)
      (fun w _ => program_ensures w) (fun w duration _ _ => sleep_ensures duration w) ?_ world trivial
    intro w message _
    exact fun later _ => ⟨fun tx htx => (nomatch htx), fun response => Empty.elim response⟩

omit [Nssa] in
theorem cid_hash_of_mem_new_entries {tx : Transaction} {entry : AnchorEntry} (hentry : entry ∈ new_entries tx) :
    cid_hash entry.cid = entry.cid_hash := by
  unfold new_entries at hentry
  split at hentry
  · exact RegistryInstruction.cid_hash_of_mem_new_entries hentry
  · cases hentry

/-- All attempts of a call write under the same hashes. -/
theorem Call.Attempt.hashes {client : LezRegistryClient} {call : Call} {tx : Transaction}
    (hattempt : call.Attempt client tx) :
    (new_entries tx).map AnchorEntry.cid_hash = call.pairs.map fun pair => cid_hash pair.1 := by
  obtain ⟨anchor_timestamp, instruction, payload, hinstruction, hpayload, rfl⟩ := hattempt
  have hdecode := RegistryInstruction.try_from_slice_eq_ok.mpr hpayload
  rw [new_entries, LezRegistryClient.transaction, hdecode]
  cases call with
  | anchor_one cid metadata_hash =>
    cases hinstruction
    rfl
  | anchor_batch entries =>
    cases hinstruction
    simp [RegistryInstruction.new_entries, new_entry, Call.pairs, Function.comp_def]
  | query_by_cid_hash hash => cases hinstruction

/-- What holds at every point of the system. -/
structure Invariant (program_id : ProgramId) (system : System) : Prop where
  formed : WellFormed program_id system.world.chain
  replayed : entries_of program_id system.world = replay system.world.executed
  submitted : ∀ entry ∈ system.world.executed, entry ∈ system.world.pool
  attempts : ∀ index tx, (some index, tx) ∈ system.world.pool →
    ∃ session, system.sessions[index]? = some session ∧ session.call.Attempt session.client tx
  sessions : ∀ session ∈ system.sessions, session.client.program_id = program_id ∧
    Async.Ensures (rely program_id) (Guarantees session.client session.call)
      (OnResult (fun _ _ => True) fun w reply => session.call.Answered (entries_of program_id w) reply)
      session.pending system.world

omit [Sha256] in
/-- An answer leaves the chain as it is, adds at most the session's own transaction
    to the pool, and is one that the session relies on. -/
theorem Replied.spec {index : Nat} {world after : World} {request : LezCall} {response : request.Response}
    (hreplied : Replied index world request response after) (program_id : ProgramId) :
    after.chain = world.chain ∧ after.executed = world.executed ∧ (∀ entry ∈ world.pool, entry ∈ after.pool) ∧
      (∀ entry ∈ after.pool, entry ∈ world.pool ∨ ∃ tx, request = .send_transaction tx ∧ entry = (some index, tx)) ∧
      (rely program_id).answers world request response after := by
  have hsame : ∀ {request : LezCall} {response : request.Response}, after = world →
      (∀ id, request ≠ .get_account_public id) →
      after.chain = world.chain ∧ after.executed = world.executed ∧ (∀ entry ∈ world.pool, entry ∈ after.pool) ∧
      (∀ entry ∈ after.pool, entry ∈ world.pool ∨ ∃ tx, request = .send_transaction tx ∧ entry = (some index, tx)) ∧
      (rely program_id).answers world request response after := by
    rintro request response rfl hrequest
    refine ⟨rfl, rfl, fun _ h => h, fun _ h => .inl h, .refl _, ?_⟩
    cases request <;> first | trivial | exact absurd rfl (hrequest _)
  cases request with
  | send_transaction tx =>
    rcases hreplied with rfl | ⟨_, rfl⟩
    · refine ⟨rfl, rfl, fun _ h => List.mem_append_left _ h, ?_, .refl _, trivial⟩
      intro entry hentry
      rcases List.mem_append.mp hentry with hentry | hentry
      · exact .inl hentry
      · exact .inr ⟨tx, rfl, List.mem_singleton.mp hentry⟩
    · exact hsame rfl (by rintro _ ⟨⟩)
  | get_account_public id =>
    obtain ⟨rfl, haccount⟩ := hreplied
    exact ⟨rfl, rfl, fun _ h => h, fun _ h => .inl h, .refl _, haccount⟩
  | now => exact hsame hreplied (by rintro _ ⟨⟩)
  | try_new_message => exact hsame hreplied (by rintro _ ⟨⟩)
  | get_transaction => exact hsame hreplied (by rintro _ ⟨⟩)
  | sleep => exact hsame hreplied (by rintro _ ⟨⟩)
  | panic => exact hsame hreplied (by rintro _ ⟨⟩)

theorem Invariant.of_initial {program_id : ProgramId} {system : System} (hinitial : Initial program_id system) :
    Invariant program_id system := by
  obtain ⟨hunused, hpool, hexecuted, hsessions⟩ := hinitial
  refine ⟨hunused.wellFormed, ?_, ?_, ?_, ?_⟩
  · funext hash
    rw [hexecuted]
    exact registry_eq_none (hunused hash)
  · rw [hexecuted]
    intro entry hentry
    cases hentry
  · rw [hpool]
    intro index tx hentry
    cases hentry
  · intro session hsession
    obtain ⟨rfl, hpending⟩ := hsessions session hsession
    refine ⟨rfl, ?_⟩
    rw [hpending]
    exact session_ensures session.client session.call session.retry system.world

omit [Nssa] in
theorem replay_append (executed : List (Option Nat × Transaction)) (entry : Option Nat × Transaction) :
    replay (executed ++ [entry]) =
      claim_all (replay executed) ((new_entries entry.2).map fun entry => (entry.cid_hash, entry)) := by
  simp only [replay, executed_entries, List.flatMap_append, List.flatMap_cons, List.flatMap_nil,
    List.append_nil, List.map_append, claim_all_append]

/-- An execution claims its transaction's entries. -/
theorem Invariant.executed {program_id : ProgramId} (hinjective : PdaInjective program_id) {system : System}
    (hinvariant : Invariant program_id system) {tx : Transaction} (hdistinct : tx.account_ids.Nodup)
    {output : ProgramOutput} (hrun : run_guest program_id system.world.chain tx = .ok output) :
    (registry program_id (submit program_id system.world.chain tx)).entries =
        claim_all (entries_of program_id system.world) ((new_entries tx).map fun entry => (entry.cid_hash, entry)) ∧
      WellFormed program_id (submit program_id system.world.chain tx) := by
  obtain ⟨instruction, hdecode, _, hafter, hformed⟩ :=
    submit_registry hinjective hinvariant.formed hdistinct hrun
  refine ⟨?_, hformed⟩
  rw [new_entries, hdecode]
  exact hafter

/-- Entries stay, whatever happens next. -/
theorem Invariant.extends {program_id : ProgramId} (hinjective : PdaInjective program_id) {system next : System}
    (hinvariant : Invariant program_id system) (hstep : Step program_id system next) :
    Extends (entries_of program_id system.world) (entries_of program_id next.world) := by
  cases hstep with
  | submitted => exact .refl _
  | executed origin tx hpool hdistinct output hrun =>
    have hclaims := (hinvariant.executed hinjective hdistinct hrun).1
    change Extends _ (registry program_id (submit program_id system.world.chain tx)).entries
    rw [hclaims]
    exact extends_claim_all _ _
  | elsewhere chain hkept =>
    intro hash entry hentry
    change decode_entry (entry_data program_id chain hash) = some entry
    rw [hkept]
    exact hentry
  | replied index session hsession request resume hpending response after hreplied =>
    rw [entries_of, entries_of, (hreplied.spec program_id).1]
    exact .refl _

theorem Invariant.step {program_id : ProgramId} (hinjective : PdaInjective program_id) {system next : System}
    (hinvariant : Invariant program_id system) (hstep : Step program_id system next) :
    Invariant program_id next := by
  have hextends := hinvariant.extends hinjective hstep
  have hsessions : ∀ session ∈ system.sessions, session.client.program_id = program_id ∧
      Async.Ensures (rely program_id) (Guarantees session.client session.call)
        (OnResult (fun _ _ => True) fun w reply => session.call.Answered (entries_of program_id w) reply)
        session.pending next.world := by
    intro session hsession
    obtain ⟨hclient, hensures⟩ := hinvariant.sessions session hsession
    exact ⟨hclient, hensures.moves hextends⟩
  cases hstep with
  | submitted tx =>
    refine ⟨hinvariant.formed, hinvariant.replayed, ?_, ?_, hsessions⟩
    · exact fun entry hentry => List.mem_append_left _ (hinvariant.submitted entry hentry)
    · intro index other hentry
      rcases List.mem_append.mp hentry with hentry | hentry
      · exact hinvariant.attempts index other hentry
      · cases List.mem_singleton.mp hentry
  | executed origin tx hpool hdistinct output hrun =>
    obtain ⟨hclaims, hformed⟩ := hinvariant.executed hinjective hdistinct hrun
    refine ⟨hformed, ?_, ?_, hinvariant.attempts, hsessions⟩
    · rw [replay_append, ← hinvariant.replayed]
      exact hclaims
    · intro entry hentry
      rcases List.mem_append.mp hentry with hentry | hentry
      · exact hinvariant.submitted entry hentry
      · rw [List.mem_singleton.mp hentry]
        exact hpool
  | elsewhere chain hkept =>
    have hsame : entries_of program_id { system.world with chain } = entries_of program_id system.world := by
      funext hash
      exact congrArg decode_entry (hkept hash)
    refine ⟨hinvariant.formed.step hinjective (.elsewhere chain hkept), ?_, hinvariant.submitted,
      hinvariant.attempts, hsessions⟩
    rw [hsame]
    exact hinvariant.replayed
  | replied index session hsession request resume hpending response after hreplied =>
    obtain ⟨hchain, hexecuted, hkept, hpool, hanswers⟩ := hreplied.spec program_id
    have hcalled := List.mem_of_getElem? hsession
    obtain ⟨hclient, hensures⟩ := hinvariant.sessions session hcalled
    rw [hpending] at hensures
    obtain ⟨hasks, hresume⟩ := hensures system.world (.refl _)
    have hlookup : ∀ other : Nat, ∀ found, system.sessions[other]? = some found →
        ∃ found', (system.sessions.set index { session with pending := resume response })[other]? = some found' ∧
          found'.call = found.call ∧ found'.client = found.client := by
      intro other found hfound
      rw [List.getElem?_set]
      split
      · rename_i heq
        subst heq
        rw [hsession] at hfound
        cases hfound
        rw [if_pos (List.getElem?_eq_some_iff.mp hsession).1]
        exact ⟨_, rfl, rfl, rfl⟩
      · exact ⟨found, hfound, rfl, rfl⟩
    refine ⟨?_, ?_, ?_, ?_, ?_⟩
    · rw [hchain]
      exact hinvariant.formed
    · rw [entries_of, hchain, hexecuted]
      exact hinvariant.replayed
    · rw [hexecuted]
      exact fun entry hentry => hkept entry (hinvariant.submitted entry hentry)
    · intro other tx hentry
      rcases hpool _ hentry with hentry | ⟨sent, hrequest, hsent⟩
      · obtain ⟨found, hfound, hattempt⟩ := hinvariant.attempts other tx hentry
        obtain ⟨found', hfound', hcall, hclient⟩ := hlookup other found hfound
        exact ⟨found', hfound', by rw [hcall, hclient]; exact hattempt⟩
      · cases hsent
        obtain ⟨found', hfound', hcall, hclient⟩ := hlookup index session hsession
        exact ⟨found', hfound', by rw [hcall, hclient]; exact hasks tx hrequest⟩
    · intro other hother
      rcases List.mem_or_eq_of_mem_set hother with hother | rfl
      · exact hsessions other hother
      · exact ⟨hclient, hresume response after hanswers⟩

/-- The invariant holds of every reachable system, and entries stay along the way. -/
theorem Invariant.run {program_id : ProgramId} (hinjective : PdaInjective program_id) {system last : System}
    (hinvariant : Invariant program_id system) (hsteps : Relation.ReflTransGen (Step program_id) system last) :
    Invariant program_id last ∧
      Extends (entries_of program_id system.world) (entries_of program_id last.world) := by
  induction hsteps with
  | refl => exact ⟨hinvariant, .refl _⟩
  | tail _ hstep ih => exact ⟨ih.1.step hinjective hstep, ih.2.trans (ih.1.extends hinjective hstep)⟩

/-- The CIDs that calls ask to anchor or executed transactions name. -/
def System.named (self : System) : Set CanonicalCid := fun cid =>
  (∃ session ∈ self.sessions, cid ∈ session.call.pairs.map Prod.fst) ∨
    ∃ entry ∈ executed_entries self.world.executed, entry.cid = cid

omit [Nssa] in
/-- Under its hash the replayed registry holds the entry that named the CID first. -/
theorem replay_cid_hash {executed : List (Option Nat × Transaction)} {cid : CanonicalCid}
    (hcollision : ∀ entry ∈ executed_entries executed, cid_hash entry.cid = cid_hash cid → entry.cid = cid) :
    replay executed (cid_hash cid) = first_naming executed cid := by
  have hhashes : ∀ entry ∈ executed_entries executed, cid_hash entry.cid = entry.cid_hash := by
    intro entry hentry
    obtain ⟨_, _, hwritten⟩ := List.mem_flatMap.mp hentry
    exact cid_hash_of_mem_new_entries hwritten
  rw [replay, claim_all_apply, Option.none_or, first_write, first_naming]
  generalize executed_entries executed = entries at hcollision hhashes
  induction entries with
  | nil => rfl
  | cons entry rest ih =>
    have hrest := ih (fun other hother => hcollision other (List.mem_cons_of_mem entry hother))
      (fun other hother => hhashes other (List.mem_cons_of_mem entry hother))
    by_cases hcid : entry.cid = cid
    · have hhash : entry.cid_hash = cid_hash cid := by rw [← hhashes entry List.mem_cons_self, hcid]
      simp [hcid, hhash]
    · have hhash : entry.cid_hash ≠ cid_hash cid := by
        intro h
        rw [← hhashes entry List.mem_cons_self] at h
        exact hcid (hcollision entry List.mem_cons_self h)
      simpa [hcid, hhash] using hrest

/-- A call's reply is what the first executed transactions wrote: for each CID of an
    anchoring call in order, and for a query if it found anything. -/
def Call.First (executed : List (Option Nat × Transaction)) (reply : List AnchorEntry) : Call → Prop
  | .anchor_one cid _ => reply.map some = [first_naming executed cid]
  | .anchor_batch entries => reply.map some = entries.map fun pair => first_naming executed pair.1
  | .query_by_cid_hash hash => ∀ entry ∈ reply, entry.cid_hash = hash ∧ first_naming executed entry.cid = some entry

omit [Nssa] in
theorem mem_of_replay {executed : List (Option Nat × Transaction)} {hash : CidHash} {entry : AnchorEntry}
    (hreplay : replay executed hash = some entry) :
    entry ∈ executed_entries executed ∧ cid_hash entry.cid = hash := by
  rw [replay, claim_all_apply, Option.none_or] at hreplay
  obtain ⟨written, hwritten, heq⟩ := List.mem_map.mp (first_write_mem hreplay)
  cases heq
  obtain ⟨_, _, hentry⟩ := List.mem_flatMap.mp hwritten
  exact ⟨hwritten, cid_hash_of_mem_new_entries hentry⟩

/-- Without collisions, an answer from the registry is one by the first executed
    transactions. -/
theorem Call.Answered.first {program_id : ProgramId} {system : System} (hinvariant : Invariant program_id system)
    (hcollision : Set.InjOn cid_hash system.named) {session : Session} (hsession : session ∈ system.sessions)
    {reply : List AnchorEntry}
    (hanswered : session.call.Answered (entries_of program_id system.world) reply) :
    session.call.First system.world.executed reply := by
  rw [hinvariant.replayed] at hanswered
  have hnamed : ∀ cid ∈ system.named,
      replay system.world.executed (cid_hash cid) = first_naming system.world.executed cid := by
    intro cid hcid
    exact replay_cid_hash fun entry hentry hhash => hcollision (.inr ⟨entry, hentry, rfl⟩) hcid hhash
  have hpairs : ∀ pair ∈ session.call.pairs, pair.1 ∈ system.named :=
    fun pair hpair => .inl ⟨session, hsession, List.mem_map_of_mem hpair⟩
  cases hcall : session.call with
  | anchor_one cid metadata_hash =>
    rw [hcall] at hanswered hpairs
    rcases hanswered with hanswered | ⟨_, _, hquery⟩
    · rw [First, hanswered]
      exact congrArg (fun found => [found]) (hnamed cid (hpairs _ List.mem_cons_self))
    · cases hquery
  | anchor_batch entries =>
    rw [hcall] at hanswered hpairs
    rcases hanswered with hanswered | ⟨_, _, hquery⟩
    · rw [First, hanswered, hashes, List.map_map]
      exact List.map_congr_left fun pair hpair => hnamed pair.1 (hpairs pair hpair)
    · cases hquery
  | query_by_cid_hash hash =>
    rw [hcall] at hanswered
    intro entry hentry
    rcases hanswered with hanswered | ⟨rfl, _⟩
    · have hreplay : replay system.world.executed hash = some entry := by
        have hmem := List.mem_map_of_mem (f := some) hentry
        rw [hanswered] at hmem
        exact (List.mem_singleton.mp hmem).symm
      obtain ⟨hmem, rfl⟩ := mem_of_replay hreplay
      have hcid : cid_hash entry.cid = entry.cid_hash := by
        obtain ⟨_, _, hwritten⟩ := List.mem_flatMap.mp hmem
        exact cid_hash_of_mem_new_entries hwritten
      exact ⟨hcid.symm, (hnamed entry.cid (.inr ⟨entry, hmem, rfl⟩)).symm.trans hreplay⟩
    · cases hentry

omit [Nssa] in
theorem cid_of_first_naming {executed : List (Option Nat × Transaction)} {cid : CanonicalCid} {entry : AnchorEntry}
    (hfirst : first_naming executed cid = some entry) : entry.cid = cid := by
  simpa using List.find?_some hfirst

omit [Nssa] in
/-- Every returned entry is the first that names its CID. -/
theorem Call.First.entry {executed : List (Option Nat × Transaction)} {call : Call} {reply : List AnchorEntry}
    (hfirst : call.First executed reply) {entry : AnchorEntry} (hentry : entry ∈ reply) :
    first_naming executed entry.cid = some entry := by
  have hmem := List.mem_map_of_mem (f := some) hentry
  cases call with
  | anchor_one cid metadata_hash =>
    rw [hfirst] at hmem
    have hfound := (List.mem_singleton.mp hmem).symm
    rw [cid_of_first_naming hfound, hfound]
  | anchor_batch entries =>
    rw [hfirst] at hmem
    obtain ⟨pair, _, hfound⟩ := List.mem_map.mp hmem
    rw [cid_of_first_naming hfound, hfound]
  | query_by_cid_hash hash => exact (hfirst entry hentry).2

/-- What a session has returned, once it has. -/
def Session.returned (self : Session) : Option (Except AdapterError (List AnchorEntry)) :=
  match self.pending with
  | .ret result => some result
  | _ => none

omit [Sha256] in
/-- An answer of a sequencer that accepts everything. Nothing answers a panic. -/
def World.serve (self : World) (index : Nat) : (request : LezCall) → Option (request.Response × World)
  | .now => some (some 0, self)
  | .try_new_message _ _ => some (.ok (), self)
  | .send_transaction tx => some (.ok (Vector.replicate 32 0), self.submitted (some index) tx)
  | .get_transaction _ => some (.ok (self.pool.getLast?.map Prod.snd), self)
  | .get_account_public id => some (.ok (self.chain id), self)
  | .sleep _ => some ((), self)
  | .panic _ => none

/-- A step chosen by its number: a session whose request is served, or a submitted
    transaction that executes. -/
inductive Action where
  | serve (index : Nat)
  | execute (position : Nat)

def System.act (program_id : ProgramId) (self : System) : Action → Option System
  | .serve index => do
    let session ← self.sessions[index]?
    match session.pending with
    | .ret _ => none
    | .ask request resume =>
      let (response, after) ← self.world.serve index request
      some {
        world := after
        sessions := self.sessions.set index { session with pending := resume response } }
  | .execute position => do
    let (origin, tx) ← self.world.pool[position]?
    if tx.account_ids.Nodup then
      match run_guest program_id self.world.chain tx with
      | .error _ => none
      | .ok _ =>
        some { self with world := { self.world with
          chain := submit program_id self.world.chain tx
          executed := self.world.executed ++ [(origin, tx)] } }
    else none

omit [Sha256] in
theorem replied_of_serve {index : Nat} {world after : World} {request : LezCall} {response : request.Response}
    (hserve : world.serve index request = some (response, after)) : Replied index world request response after := by
  cases request with
  | send_transaction tx =>
    cases hserve
    exact .inl rfl
  | get_account_public id =>
    cases hserve
    refine ⟨rfl, fun account haccount => ?_⟩
    cases haccount
    rfl
  | panic message => cases hserve
  | now | try_new_message | get_transaction | sleep =>
    cases hserve
    rfl

theorem System.step_of_act {program_id : ProgramId} {system next : System} {action : Action}
    (hact : system.act program_id action = some next) : Step program_id system next := by
  cases action with
  | serve index =>
    simp only [act, Option.bind_eq_bind, Option.bind_eq_some_iff] at hact
    obtain ⟨session, hsession, hact⟩ := hact
    split at hact
    · cases hact
    · rename_i request resume hpending
      obtain ⟨⟨response, after⟩, hserve, hnext⟩ := Option.bind_eq_some_iff.mp hact
      cases hnext
      exact .replied index session hsession request resume hpending response after (replied_of_serve hserve)
  | execute position =>
    simp only [act, Option.bind_eq_bind, Option.bind_eq_some_iff] at hact
    obtain ⟨⟨origin, tx⟩, hpool, hact⟩ := hact
    split at hact
    · rename_i hdistinct
      split at hact
      · cases hact
      · rename_i output hrun
        cases hact
        exact .executed origin tx (List.mem_of_getElem? hpool) hdistinct output hrun
    · cases hact

theorem System.steps_of_run {program_id : ProgramId} {system last : System} {actions : List Action}
    (hrun : transition.run (System.act program_id) system actions = some last) :
    Relation.ReflTransGen (Step program_id) system last :=
  transition.run_relates (fun _ => .refl) (fun _ _ _ => .trans)
    (fun _ _ _ hact => .single (System.step_of_act hact)) hrun

end

end whistleblower_lez_adapter
