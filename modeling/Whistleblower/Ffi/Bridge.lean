import Whistleblower.Ffi.Anchor
import Whistleblower.Ffi.Canonical
import Whistleblower.Lez.Chained

open nssa_core whistleblower_core whistleblower_registry document_indexing whistleblower_lez_adapter first_writer

namespace whistleblower_ffi

/-- A call of a function, and how far it is. -/
structure FfiCall [Nssa] where
  host : Host
  function : FfiFunction
  args_json : Option (List UInt8)
  pending : Async LezIo (List UInt8)

/-- The answer of a call that is over. -/
def FfiCall.answered [Nssa] (self : FfiCall) : Option (List UInt8) :=
  match self.pending with
  | .ret answer => some answer
  | _ => none

/-- The chain with all the calls that are made on it, in the order in which they begin. -/
structure Bridge [Nssa] where
  world : World
  calls : List FfiCall

section

variable [Sha256] [Nssa]

/-- What happens while calls are in progress. Others submit transactions and the chain executes
    them, a request of a call is answered, or what it asks unwinds and is caught. -/
inductive Moves (program_id : ProgramId) (bridge : Bridge) : Bridge → Prop where
  | others (next : System) (hstep : Step program_id { world := bridge.world, sessions := [] } next) :
      Moves program_id bridge { bridge with world := next.world }
  | replied (i : Nat) (call : FfiCall) (hcall : bridge.calls[i]? = some call) (request : LezCall)
      (resume : request.Response → Async LezIo (List UInt8)) (hpending : call.pending = .ask request resume)
      (response : request.Response) (after : World) (hreplied : Replied i bridge.world request response after) :
      Moves program_id bridge {
        world := after
        calls := bridge.calls.set i { call with pending := resume response } }
  | unwound (i : Nat) (call : FfiCall) (hcall : bridge.calls[i]? = some call) (request : LezCall)
      (resume : request.Response → Async LezIo (List UInt8)) (hpending : call.pending = .ask request resume)
      (message : String) :
      Moves program_id bridge { bridge with
        calls := bridge.calls.set i { call with pending := .ret (error_json ("panic: " ++ message)) } }

/-- A call that begins. -/
def FfiCall.begun (host : Host) (function : FfiFunction) (args_json : Option (List UInt8)) : FfiCall where
  host := host
  function := function
  args_json := args_json
  pending := function.call host args_json

def Bridge.began (self : Bridge) (call : FfiCall) : Bridge := { self with calls := self.calls ++ [call] }

/-- One step: something happens, or a call of one of the program's hosts begins. -/
inductive BridgeStep (program_id : ProgramId) (bridge : Bridge) : Bridge → Prop where
  | moved (next : Bridge) (hmoves : Moves program_id bridge next) : BridgeStep program_id bridge next
  | called (host : Host) (hbuilds : host.Builds program_id) (function : FfiFunction)
      (args_json : Option (List UInt8)) :
      BridgeStep program_id bridge (bridge.began (.begun host function args_json))

/-- The registry is unused, nothing has been submitted, and no call has been made. -/
structure Bridge.Initial (program_id : ProgramId) (bridge : Bridge) : Prop where
  unused : Unused program_id bridge.world.chain
  pool : bridge.world.pool = []
  executed : bridge.world.executed = []
  calls : bridge.calls = []

/-- What holds at every point. -/
structure Bridge.Invariant (program_id : ProgramId) (bridge : Bridge) : Prop where
  chained : Chained program_id bridge.world
  attempts : ∀ (i : Nat) (tx : Transaction), (some i, tx) ∈ bridge.world.pool →
    ∃ call, bridge.calls[i]? = some call ∧
      Submits call.host call.args_json call.function bridge.world (.send_transaction tx)
  calls : ∀ (i : Nat) (call : FfiCall), bridge.calls[i]? = some call → call.host.Builds program_id ∧
    Async.Ensures (rely program_id) (Submits call.host call.args_json call.function)
      (Answers program_id call.host call.args_json call.function) call.pending bridge.world

variable {program_id : ProgramId} {initial bridge next last : Bridge}

theorem Bridge.Invariant.of_initial (hinitial : bridge.Initial program_id) : bridge.Invariant program_id := by
  obtain ⟨hunused, hpool, hexecuted, hcalls⟩ := hinitial
  refine ⟨.of_unused hunused hexecuted, ?_, ?_⟩
  · rw [hpool]
    exact fun i tx hentry => nomatch hentry
  · rw [hcalls]
    exact fun i call hcall => nomatch hcall

/-- A call goes on, and with it the world. -/
theorem Bridge.Invariant.replace (hinvariant : bridge.Invariant program_id) {i : Nat} {call : FfiCall}
    (hcall : bridge.calls[i]? = some call) {after : World} (hchained : Chained program_id after)
    (hextends : Extends (entries_of program_id bridge.world) (entries_of program_id after))
    (hpool : ∀ entry ∈ after.pool, entry ∈ bridge.world.pool ∨ ∃ tx, entry = (some i, tx) ∧
      Submits call.host call.args_json call.function bridge.world (.send_transaction tx))
    {pending : Async LezIo (List UInt8)}
    (hpending : Async.Ensures (rely program_id) (Submits call.host call.args_json call.function)
      (Answers program_id call.host call.args_json call.function) pending after) :
    Bridge.Invariant program_id { world := after, calls := bridge.calls.set i { call with pending } } := by
  have hreplaced : (bridge.calls.set i { call with pending })[i]? = some { call with pending } := by
    rw [List.getElem?_set, if_pos rfl, if_pos (List.getElem?_eq_some_iff.mp hcall).1]
  refine ⟨hchained, ?attempts, ?calls⟩
  case attempts =>
    intro j tx hentry
    obtain hentry | ⟨other, hsame, hsubmits⟩ := hpool _ hentry
    · obtain ⟨other, hother, hsubmits⟩ := hinvariant.attempts j tx hentry
      by_cases hij : j = i
      · subst hij
        rw [hcall] at hother
        cases hother
        exact ⟨_, hreplaced, hsubmits⟩
      · refine ⟨other, ?_, hsubmits⟩
        rw [List.getElem?_set, if_neg (Ne.symm hij)]
        exact hother
    · cases hsame
      exact ⟨_, hreplaced, hsubmits⟩
  case calls =>
    intro j other hother
    obtain ⟨rfl, rfl⟩ | hother := getElem?_set_cases hother
    · exact ⟨(hinvariant.calls j call hcall).1, hpending⟩
    · obtain ⟨hbuilds, hensures⟩ := hinvariant.calls j other hother
      exact ⟨hbuilds, hensures.moves hextends⟩

theorem Bridge.Invariant.moves (hinjective : PdaInjective program_id) (hinvariant : bridge.Invariant program_id)
    (hmoves : Moves program_id bridge next) :
    next.Invariant program_id ∧ Extends (entries_of program_id bridge.world) (entries_of program_id next.world) := by
  cases hmoves with
  | others after hstep =>
    obtain ⟨hchained, hextends, hpool⟩ := hinvariant.chained.others hinjective hstep
    refine ⟨⟨hchained, fun i tx hentry => hinvariant.attempts i tx (hpool i tx hentry), ?_⟩, hextends⟩
    intro i call hcall
    obtain ⟨hbuilds, hensures⟩ := hinvariant.calls i call hcall
    exact ⟨hbuilds, hensures.moves hextends⟩
  | replied i call hcall request resume hpending response after hreplied =>
    obtain ⟨hchained, hentries⟩ := hinvariant.chained.replied hreplied
    obtain ⟨_, _, _, hpool, hanswers⟩ := hreplied.spec program_id
    have hextends : Extends (entries_of program_id bridge.world) (entries_of program_id after) := hentries ▸ .refl _
    obtain ⟨_, hensures⟩ := hinvariant.calls i call hcall
    rw [hpending] at hensures
    obtain ⟨hasks, hresume⟩ := hensures bridge.world (.refl _)
    refine ⟨hinvariant.replace hcall hchained hextends ?_ (hresume response after hanswers), hextends⟩
    intro entry hentry
    obtain hentry | ⟨tx, hrequest, hsent⟩ := hpool entry hentry
    · exact .inl hentry
    · exact .inr ⟨tx, hsent, hrequest ▸ hasks⟩
  | unwound i call hcall request resume hpending message =>
    refine ⟨hinvariant.replace hcall hinvariant.chained (.refl _) (fun entry hentry => .inl hentry) ?_, .refl _⟩
    exact .ret fun _ _ => .inl ⟨_, error_json_eq _⟩

theorem Bridge.Invariant.step (hinjective : PdaInjective program_id) (hinvariant : bridge.Invariant program_id)
    (hstep : BridgeStep program_id bridge next) :
    next.Invariant program_id ∧ Extends (entries_of program_id bridge.world) (entries_of program_id next.world) := by
  cases hstep with
  | moved _ hmoves => exact hinvariant.moves hinjective hmoves
  | called host hbuilds function args_json =>
    refine ⟨⟨hinvariant.chained, ?attempts, ?calls⟩, .refl _⟩
    case attempts =>
      intro i tx hentry
      obtain ⟨call, hcall, hsubmits⟩ := hinvariant.attempts i tx hentry
      refine ⟨call, ?_, hsubmits⟩
      rw [Bridge.began, List.getElem?_append_left (List.getElem?_eq_some_iff.mp hcall).1]
      exact hcall
    case calls =>
      intro i call hcall
      rw [Bridge.began, List.getElem?_append] at hcall
      split at hcall
      · exact hinvariant.calls i call hcall
      · obtain rfl := List.mem_singleton.mp (List.mem_of_getElem? hcall)
        exact ⟨hbuilds, FfiFunction.call_ensures hbuilds function bridge.world⟩

theorem Bridge.Invariant.run (hinjective : PdaInjective program_id) (hinvariant : bridge.Invariant program_id)
    (hsteps : Relation.ReflTransGen (BridgeStep program_id) bridge next) :
    next.Invariant program_id ∧ Extends (entries_of program_id bridge.world) (entries_of program_id next.world) := by
  induction hsteps with
  | refl => exact ⟨hinvariant, .refl _⟩
  | tail _ hstep ih =>
    obtain ⟨hnext, hextends⟩ := ih.1.step hinjective hstep
    exact ⟨hnext, ih.2.trans hextends⟩

omit [Sha256] in
/-- The answer of a call that is over is what was ensured of it. -/
theorem answered_ensures {asks : World → LezCall → Prop} {post : World → List UInt8 → Prop} {call : FfiCall}
    {answer : List UInt8} (hanswered : call.answered = some answer) {world : World}
    (hensures : Async.Ensures (rely program_id) asks post call.pending world) : post world answer := by
  unfold FfiCall.answered at hanswered
  split at hanswered
  · rename_i result hpending
    cases hanswered
    rw [hpending] at hensures
    exact hensures world (.refl _)
  · cases hanswered

theorem Answers.valid {host : Host} {args_json : Option (List UInt8)} {function : FfiFunction} {world : World}
    {answer : List UInt8} (hanswers : Answers program_id host args_json function world answer) : text.Valid answer := by
  obtain ⟨msg, rfl⟩ | ⟨_, _, _, _, ⟨entry, _, rfl⟩ | ⟨_, rfl⟩⟩ := hanswers
  · exact valid_error_value msg
  · exact function.valid_answer entry
  · exact valid_query_json none

theorem Answers.no_zero {host : Host} {args_json : Option (List UInt8)} {function : FfiFunction} {world : World}
    {answer : List UInt8} (hanswers : Answers program_id host args_json function world answer) : 0 ∉ answer := by
  obtain ⟨msg, rfl⟩ | ⟨_, _, _, _, ⟨entry, _, rfl⟩ | ⟨_, rfl⟩⟩ := hanswers
  · exact json.Value.zero_notMem_render _ (written_error_value msg)
  · cases function with
    | anchor_one => exact json.Value.zero_notMem_render _ (written_anchor_json entry)
    | query_by_cid => exact json.Value.zero_notMem_render _ (written_query_json (some entry))
    | query_by_cid_hash => exact json.Value.zero_notMem_render _ (written_query_json (some entry))
  · exact json.Value.zero_notMem_render _ (written_query_json none)

/-- An entry that was handed over is the registry's. -/
theorem Bridge.Invariant.handed_over (hinvariant : bridge.Invariant program_id) {i : Nat} {call : FfiCall}
    (hcall : bridge.calls[i]? = some call) {entry : AnchorEntry}
    (hgiven : call.answered = some (call.function.answer entry)) {v : json.Value}
    (hreads : Reads call.host call.args_json v) {hash : CidHash} (hhash : call.function.hash_of v = some hash) :
    entries_of program_id bridge.world hash = some entry := by
  obtain ⟨_, hensures⟩ := hinvariant.calls i call hcall
  obtain hfails | ⟨w, found, hother, hfound, ⟨stored, hstored, hanswer⟩ | ⟨hquery, hnone⟩⟩ :=
    answered_ensures hgiven hensures
  · exact absurd hfails (call.function.not_fails entry)
  · obtain rfl := hother.unique hreads
    rw [hhash] at hfound
    cases hfound
    rw [FfiFunction.answer_injective hanswer]
    exact hstored
  · exact absurd hnone (FfiFunction.answer_ne_none hquery)

/-- A call of which this is ensured, whatever it asks. -/
def Contract (program_id : ProgramId) (post : World → List UInt8 → Prop) (i : Nat) (bridge : Bridge) : Prop :=
  ∃ call, bridge.calls[i]? = some call ∧
    Async.Ensures (rely program_id) (fun (_ : World) (_ : LezCall) => True) post call.pending bridge.world

/-- What is ensured of a call stays so, if it allows for a panic. -/
theorem Contract.step (hinjective : PdaInjective program_id) {post : World → List UInt8 → Prop}
    (hpanics : ∀ world message, post world (error_json ("panic: " ++ message)))
    (hinvariant : bridge.Invariant program_id) {i : Nat} (hcontract : Contract program_id post i bridge)
    (hstep : BridgeStep program_id bridge next) : Contract program_id post i next := by
  obtain ⟨_, hextends⟩ := hinvariant.step hinjective hstep
  obtain ⟨call, hcall, hensures⟩ := hcontract
  have hmoved := hensures.moves hextends
  have hlength := (List.getElem?_eq_some_iff.mp hcall).1
  cases hstep with
  | called =>
    refine ⟨call, ?_, hmoved⟩
    rw [Bridge.began, List.getElem?_append_left hlength]
    exact hcall
  | moved _ hmoves =>
    cases hmoves with
    | others => exact ⟨call, hcall, hmoved⟩
    | replied j other hother request resume hpending response after hreplied =>
      by_cases hij : j = i
      · subst hij
        rw [hcall] at hother
        cases hother
        rw [hpending] at hensures
        obtain ⟨_, hresume⟩ := hensures bridge.world (.refl _)
        refine ⟨{ call with pending := resume response }, ?_,
          hresume response after (hreplied.spec program_id).2.2.2.2⟩
        rw [List.getElem?_set, if_pos rfl, if_pos hlength]
      · refine ⟨call, ?_, hmoved⟩
        rw [List.getElem?_set, if_neg hij]
        exact hcall
    | unwound j other hother request resume hpending message =>
      by_cases hij : j = i
      · subst hij
        refine ⟨{ other with pending := .ret (error_json ("panic: " ++ message)) }, ?_,
          .ret fun _ _ => hpanics _ message⟩
        rw [List.getElem?_set, if_pos rfl, if_pos hlength]
      · refine ⟨call, ?_, hmoved⟩
        rw [List.getElem?_set, if_neg hij]
        exact hcall

theorem Contract.run (hinjective : PdaInjective program_id) {post : World → List UInt8 → Prop}
    (hpanics : ∀ world message, post world (error_json ("panic: " ++ message))) {i : Nat}
    (hcontract : Contract program_id post i bridge) (hinvariant : bridge.Invariant program_id)
    (hsteps : Relation.ReflTransGen (BridgeStep program_id) bridge last) : Contract program_id post i last := by
  induction hsteps with
  | refl => exact hcontract
  | tail hearlier hstep ih =>
    obtain ⟨hreached, _⟩ := hinvariant.run hinjective hearlier
    exact ih.step hinjective hpanics hreached hstep

/-- What an `AnchorOne` writes is what it was made of. -/
theorem Bridge.Invariant.given (hinvariant : bridge.Invariant program_id) {hash : CidHash} {entry : AnchorEntry}
    (hentry : entries_of program_id bridge.world hash = some entry) :
    (∃ tx, (none, tx) ∈ bridge.world.executed ∧ entry ∈ new_entries tx) ∨
      ∃ call ∈ bridge.calls, call.function = .anchor_one ∧ ∃ v, Reads call.host call.args_json v ∧
        FfiFunction.cid_of v = some entry.cid ∧ FfiFunction.metadata_hash_of v = some entry.metadata_hash := by
  obtain ⟨_, origin, tx, hexecuted, hnew⟩ := hinvariant.chained.stored hentry
  cases origin with
  | none => exact .inl ⟨tx, hexecuted, hnew⟩
  | some i =>
    obtain ⟨call, hcall, hsubmits⟩ := hinvariant.attempts i tx (hinvariant.chained.submitted _ hexecuted)
    obtain ⟨hfunction, v, client, cid, metadata_hash, hreads, hcid, hhash, _, hattempt⟩ := hsubmits tx rfl
    obtain ⟨timestamp, instruction, payload, hinstruction, hpayload, rfl⟩ := hattempt
    cases hinstruction
    rw [new_entries, LezRegistryClient.transaction, RegistryInstruction.try_from_slice_eq_ok.mpr hpayload] at hnew
    obtain rfl := List.mem_singleton.mp hnew
    exact .inr ⟨call, List.mem_of_getElem? hcall, hfunction, v, hreads, hcid, hhash⟩

/-- A step chosen by its numbers, on one host and with a sequencer that accepts everything. -/
inductive BridgeTurn where
  | call (function : FfiFunction) (args : json.Value)
  | serve (index : Nat)
  | execute (position : Nat)

def Bridge.act (program_id : ProgramId) (host : Host) (self : Bridge) : BridgeTurn → Option Bridge
  | .call function args => some (self.began (.begun host function (some args.render)))
  | .serve index => do
    let call ← self.calls[index]?
    match call.pending with
    | .ask request resume =>
      let (response, after) ← self.world.serve index request
      some { world := after, calls := self.calls.set index { call with pending := resume response } }
    | _ => none
  | .execute position => do
    let next ← System.act program_id { world := self.world, sessions := [] } (.execute position)
    some { self with world := next.world }

theorem Bridge.moves_of_serve {host : Host} {index : Nat} (hact : bridge.act program_id host (.serve index) = some next) :
    Moves program_id bridge next ∧
      ((∀ call ∈ bridge.calls, call.host = host) → ∀ call ∈ next.calls, call.host = host) := by
  simp only [act, Option.bind_eq_bind, Option.bind_eq_some_iff] at hact
  obtain ⟨call, hcall, hact⟩ := hact
  split at hact
  · rename_i request resume hpending
    obtain ⟨⟨response, after⟩, hserve, hnext⟩ := Option.bind_eq_some_iff.mp hact
    cases hnext
    refine ⟨.replied index call hcall request resume hpending response after (replied_of_serve hserve), ?_⟩
    intro hhosts other hother
    obtain hother | rfl := List.mem_or_eq_of_mem_set hother
    · exact hhosts other hother
    · exact hhosts call (List.mem_of_getElem? hcall)
  · cases hact

theorem Bridge.moves_of_execute {host : Host} {position : Nat}
    (hact : bridge.act program_id host (.execute position) = some next) :
    Moves program_id bridge next ∧ next.calls = bridge.calls := by
  simp only [act, Option.bind_eq_bind, Option.bind_eq_some_iff] at hact
  obtain ⟨after, hafter, hnext⟩ := hact
  cases hnext
  exact ⟨.others after (System.step_of_act hafter), rfl⟩

theorem Bridge.step_of_act {host : Host} (hbuilds : host.Builds program_id) {turn : BridgeTurn}
    (hact : bridge.act program_id host turn = some next) :
    BridgeStep program_id bridge next ∧
      ((∀ call ∈ bridge.calls, call.host = host) → ∀ call ∈ next.calls, call.host = host) := by
  cases turn with
  | call function args =>
    obtain rfl := Option.some.inj hact
    refine ⟨.called host hbuilds function (some args.render), fun hhosts call hcall => ?_⟩
    obtain hcall | hcall := List.mem_append.mp hcall
    · exact hhosts call hcall
    · rw [List.mem_singleton.mp hcall]
      rfl
  | serve index =>
    obtain ⟨hmoves, hkept⟩ := Bridge.moves_of_serve hact
    exact ⟨.moved _ hmoves, hkept⟩
  | execute position =>
    obtain ⟨hmoves, hcalls⟩ := Bridge.moves_of_execute hact
    exact ⟨.moved _ hmoves, fun hhosts => hcalls ▸ hhosts⟩

theorem Bridge.steps_of_run {host : Host} (hbuilds : host.Builds program_id) {turns : List BridgeTurn}
    (hrun : transition.run (Bridge.act program_id host) bridge turns = some next) :
    Relation.ReflTransGen (BridgeStep program_id) bridge next :=
  transition.run_relates (fun _ => .refl) (fun _ _ _ => .trans)
    (fun _ _ _ hact => .single (Bridge.step_of_act hbuilds hact).1) hrun

theorem Bridge.hosts_of_run {host : Host} (hbuilds : host.Builds program_id) {turns : List BridgeTurn}
    (hhosts : ∀ call ∈ bridge.calls, call.host = host)
    (hrun : transition.run (Bridge.act program_id host) bridge turns = some next) :
    ∀ call ∈ next.calls, call.host = host :=
  transition.run_preserves (fun _ _ _ hkept hact => (Bridge.step_of_act hbuilds hact).2 hkept) hhosts hrun

omit [Sha256] in
/-- A bridge that has not been used, on an unused registry. -/
def unusedBridge : Bridge where
  world := { chain := unusedChain, pool := [], executed := [] }
  calls := []

omit [Sha256] in
theorem initial_unusedBridge (program_id : ProgramId) : unusedBridge.Initial program_id :=
  ⟨unused_unusedChain, rfl, rfl, rfl⟩

omit [Sha256] [Nssa] in
theorem builds_sampleHost (program_id : ProgramId) : (sampleHost program_id).Builds program_id := by
  intro v client hclient
  cases hclient
  rfl

end

section

variable [Sha256] [Nssa] {program_id : ProgramId} {initial bridge next last : Bridge}

/-- Whatever any number of calls and other parties do: the answer of a call that is over is a C
    string, and tells an error, or of a query that it found nothing, or an entry that the registry
    has from then on under the hash that the arguments of the call give. -/
theorem answers_stand (hinjective : PdaInjective program_id) (hinitial : initial.Initial program_id)
    (hreached : Relation.ReflTransGen (BridgeStep program_id) initial bridge)
    (hlater : Relation.ReflTransGen (BridgeStep program_id) bridge last) {i : Nat} {call : FfiCall}
    (hcall : bridge.calls[i]? = some call) {answer : List UInt8} (hanswered : call.answered = some answer) :
    text.Valid answer ∧ 0 ∉ answer ∧
      (Fails answer ∨ ∃ v hash, Reads call.host call.args_json v ∧ call.function.hash_of v = some hash ∧
        ((∃ entry, (registry program_id last.world.chain).entries hash = some entry ∧
            answer = call.function.answer entry) ∨
          call.function ≠ .anchor_one ∧ answer = (query_json none).render)) := by
  obtain ⟨hinvariant, _⟩ := (Bridge.Invariant.of_initial hinitial).run hinjective hreached
  obtain ⟨_, hextends⟩ := hinvariant.run hinjective hlater
  obtain ⟨_, hensures⟩ := hinvariant.calls i call hcall
  have hanswers := answered_ensures hanswered (hensures.moves hextends)
  exact ⟨hanswers.valid, hanswers.no_zero, hanswers⟩

end

/-- The arguments that anchor one CID. -/
def anchor_args (cid : String) : json.Value := json.record [
  ("cid", .of_string cid),
  ("metadata_hash_hex", .of_string (text.hex_encode (List.replicate 32 7)))]

/-- One CID is anchored, by a call of four requests. -/
def anchorOnce : List BridgeTurn := [
  .call .anchor_one (anchor_args "bafy-a"), .serve 0, .serve 0, .execute 0, .serve 0, .serve 0]

/-- Arguments are read as they were written. -/
theorem reads_render {host : Host} {v : json.Value} (hwritten : v.Written) (hvalid : text.Valid v.render)
    (hreadable : json.readable host.number_fits json.max_nesting v = true) : Reads host (some v.render) v := by
  refine ⟨v.render, ?_, json.from_slice_any_render hwritten hreadable⟩
  have hwhole : v.render.takeWhile (· ≠ 0) = v.render := by
    rw [List.takeWhile_eq_self_iff]
    intro byte hbyte
    exact decide_eq_true fun hzero => json.Value.zero_notMem_render v hwritten (hzero ▸ hbyte)
  obtain ⟨s, hs⟩ := hvalid
  rw [arg_to_str, cstr_to_str, hwhole, ← hs, text.from_utf8_bytes]
  rfl

theorem answers_stand_anchored :
    let program_id : ProgramId := Vector.replicate 8 1
    ∃ last call, transition.run (Bridge.act program_id (sampleHost program_id)) unusedBridge anchorOnce = some last ∧
      last.calls[0]? = some call ∧
      ∃ answer, call.answered = some answer ∧ text.Valid answer ∧ 0 ∉ answer := by
  intro program_id
  have hrun : (transition.run (Bridge.act program_id (sampleHost program_id)) unusedBridge anchorOnce).any
      (fun last => last.calls.head?.any fun call => call.answered.isSome) = true := by
    decide +kernel
  obtain ⟨last, hlast, hcalls⟩ := (Option.any_eq_true _ _).mp hrun
  obtain ⟨call, hcall, hsome⟩ := (Option.any_eq_true _ _).mp hcalls
  obtain ⟨answer, hanswer⟩ := Option.isSome_iff_exists.mp hsome
  rw [List.head?_eq_getElem?] at hcall
  obtain ⟨hvalid, hzero, _⟩ := answers_stand (pdaInjective_seedAddressed program_id) (initial_unusedBridge program_id)
    (Bridge.steps_of_run (builds_sampleHost program_id) hlast) .refl hcall hanswer
  exact ⟨last, call, hlast, hcall, answer, hanswer, hvalid, hzero⟩

section

variable [Sha256] [Nssa] {program_id : ProgramId} {initial bridge next last : Bridge}

/-- What one call has handed over, every call that begins afterwards and is asked for the same
    hash hands over as well, unless it fails. -/
theorem later_calls_agree (hinjective : PdaInjective program_id) (hinitial : initial.Initial program_id)
    (hreached : Relation.ReflTransGen (BridgeStep program_id) initial bridge) {i : Nat} {first : FfiCall}
    (hfirst : bridge.calls[i]? = some first) {entry : AnchorEntry}
    (hgiven : first.answered = some (first.function.answer entry)) {v : json.Value}
    (hreads : Reads first.host first.args_json v) {hash : CidHash} (hhash : first.function.hash_of v = some hash)
    {host : Host} (hbuilds : host.Builds program_id) {function : FfiFunction} {args_json : Option (List UInt8)}
    {w : json.Value} (hargs : Reads host args_json w) (hasked : function.hash_of w = some hash)
    (hlater : Relation.ReflTransGen (BridgeStep program_id) (bridge.began (.begun host function args_json)) last)
    {call : FfiCall} (hcall : last.calls[bridge.calls.length]? = some call) {answer : List UInt8}
    (hanswered : call.answered = some answer) : Fails answer ∨ answer = function.answer entry := by
  obtain ⟨hinvariant, _⟩ := (Bridge.Invariant.of_initial hinitial).run hinjective hreached
  have hentry := hinvariant.handed_over hfirst hgiven hreads hhash
  obtain ⟨hbegun, _⟩ := hinvariant.step hinjective (.called host hbuilds function args_json)
  have hcontract : Contract program_id (fun _ answer => Fails answer ∨ answer = function.answer entry)
      bridge.calls.length last := by
    refine Contract.run hinjective ?_ ?_ hbegun hlater
    · exact fun _ message => .inl ⟨_, error_json_eq _⟩
    · exact ⟨_, List.getElem?_concat_length, FfiFunction.call_finds hbuilds hargs hasked hentry⟩
  obtain ⟨other, hother, hensures⟩ := hcontract
  rw [hcall] at hother
  cases hother
  exact answered_ensures hanswered hensures

end

theorem later_calls_agree_anchored :
    let program_id : ProgramId := Vector.replicate 8 1
    let entry := new_entry ⟨"bafy-a"⟩ ⟨Vector.replicate 32 7⟩ 0
    let act := Bridge.act program_id (sampleHost program_id)
    let asking := FfiCall.begun (sampleHost program_id) .query_by_cid (some (query_args "bafy-a").render)
    ∃ bridge last call answer, transition.run act unusedBridge anchorOnce = some bridge ∧
      transition.run act (bridge.began asking) [.serve 1] = some last ∧ last.calls[1]? = some call ∧
      call.answered = some answer ∧ (Fails answer ∨ answer = FfiFunction.query_by_cid.answer entry) := by
  intro program_id entry act asking
  have hrun : (transition.run act unusedBridge anchorOnce).any (fun bridge =>
      bridge.calls.length = 1 ∧ (bridge.calls[0]?.any fun first =>
          first.function = .anchor_one ∧ first.args_json = some (anchor_args "bafy-a").render ∧
            first.answered = some (FfiFunction.anchor_one.answer entry)) ∧
        (transition.run act (bridge.began asking) [.serve 1]).any fun last =>
          last.calls[1]?.any fun call => call.answered.isSome) = true := by
    decide +kernel
  obtain ⟨bridge, hbridge, hcalls⟩ := (Option.any_eq_true _ _).mp hrun
  obtain ⟨hlength, hfirst, hlast⟩ := of_decide_eq_true hcalls
  obtain ⟨first, hfirst, hgiven⟩ := (Option.any_eq_true _ _).mp hfirst
  obtain ⟨hfunction, hargs, hgiven⟩ := of_decide_eq_true hgiven
  obtain ⟨last, hlast, hcall⟩ := (Option.any_eq_true _ _).mp hlast
  obtain ⟨call, hcall, hanswered⟩ := (Option.any_eq_true _ _).mp hcall
  obtain ⟨answer, hanswer⟩ := Option.isSome_iff_exists.mp hanswered
  have hbuilds := builds_sampleHost program_id
  have hnone : ∀ call ∈ unusedBridge.calls, call.host = sampleHost program_id := List.forall_mem_nil _
  have hhost := Bridge.hosts_of_run hbuilds hnone hbridge first (List.mem_of_getElem? hfirst)
  have hreads : Reads first.host first.args_json (anchor_args "bafy-a") := by
    rw [hhost, hargs]
    exact reads_render (json.written_record (by simp)) (json.valid_record (by simp)) (by decide +kernel)
  have hasking : Reads (sampleHost program_id) (some (query_args "bafy-a").render) (query_args "bafy-a") :=
    reads_render (json.written_record (by simp)) (json.valid_record (by simp)) (by decide +kernel)
  have hhash : first.function.hash_of (anchor_args "bafy-a") = some entry.cid_hash := by
    rw [hfunction]
    decide +kernel
  refine ⟨bridge, last, call, answer, hbridge, hlast, hcall, hanswer, ?_⟩
  exact later_calls_agree (pdaInjective_seedAddressed program_id) (initial_unusedBridge program_id)
    (Bridge.steps_of_run hbuilds hbridge) hfirst (hfunction ▸ hgiven) hreads hhash hbuilds hasking (by decide +kernel)
    (Bridge.steps_of_run hbuilds hlast) (hlength ▸ hcall) hanswer

section

variable [Sha256] [Nssa] {program_id : ProgramId} {initial bridge : Bridge}

/-- Every entry of the registry is from a transaction of somebody else, or has the CID and the
    hash that some call of `anchor_one` was given. Queries write nothing. -/
theorem stored_entries_were_given (hinjective : PdaInjective program_id) (hinitial : initial.Initial program_id)
    (hreached : Relation.ReflTransGen (BridgeStep program_id) initial bridge) {hash : CidHash} {entry : AnchorEntry}
    (hentry : (registry program_id bridge.world.chain).entries hash = some entry) :
    (∃ tx, (none, tx) ∈ bridge.world.executed ∧ entry ∈ new_entries tx) ∨
      ∃ call ∈ bridge.calls, call.function = .anchor_one ∧ ∃ v, Reads call.host call.args_json v ∧
        FfiFunction.cid_of v = some entry.cid ∧ FfiFunction.metadata_hash_of v = some entry.metadata_hash := by
  obtain ⟨hinvariant, _⟩ := (Bridge.Invariant.of_initial hinitial).run hinjective hreached
  exact hinvariant.given hentry

end

theorem stored_entries_were_given_anchored :
    let program_id : ProgramId := Vector.replicate 8 1
    let entry := new_entry ⟨"bafy-a"⟩ ⟨Vector.replicate 32 7⟩ 0
    ∃ last, transition.run (Bridge.act program_id (sampleHost program_id)) unusedBridge anchorOnce = some last ∧
      ((∃ tx, (none, tx) ∈ last.world.executed ∧ entry ∈ new_entries tx) ∨
        ∃ call ∈ last.calls, call.function = .anchor_one ∧ ∃ v, Reads call.host call.args_json v ∧
          FfiFunction.cid_of v = some entry.cid ∧ FfiFunction.metadata_hash_of v = some entry.metadata_hash) := by
  intro program_id entry
  have hrun : (transition.run (Bridge.act program_id (sampleHost program_id)) unusedBridge anchorOnce).any
      (fun last => (registry program_id last.world.chain).entries entry.cid_hash = some entry) = true := by
    decide +kernel
  obtain ⟨last, hlast, hentry⟩ := (Option.any_eq_true _ _).mp hrun
  exact ⟨last, hlast, stored_entries_were_given (pdaInjective_seedAddressed program_id)
    (initial_unusedBridge program_id) (Bridge.steps_of_run (builds_sampleHost program_id) hlast)
    (of_decide_eq_true hentry)⟩

end whistleblower_ffi
