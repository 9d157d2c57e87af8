import Whistleblower.Indexing.Batch.Steps
import Whistleblower.Indexing.FileDelivery
import Whistleblower.Lez.Setup

open whistleblower_core whistleblower_lez_adapter document_indexing document_indexing.batch

namespace whistleblower_batch

structure Cli where
  topic : String := DEFAULT_CONTENT_TOPIC
  batch_size : Nat := 10
  batch_interval_secs : Nat := 30
  dedupe_store_path : String := "queue.db"
  envelopes_from : Option String := none
  program_bin : Option String := none
  mock_delivery : Bool := false

/-- Where the envelopes come from. Nothing is published to the client in memory, whose stream
    stays open. -/
inductive Delivery where
  | file (client : FileDeliveryClient)
  | mock

def Delivery.subscribe (topic : String) :
    Delivery → Except AdapterError (List (Except AdapterError ReceivedEnvelope))
  | .file client => client.subscribe topic
  | .mock => .ok []

/-- An error with the contexts it was given, the last one first. -/
abbrev Contexts := List String

/-- The client of the deployed program, or of the one that is built in. -/
def Cli.registry (self : Cli) (build : Build) : Async HostIo (Except Contexts LezRegistryClient) :=
  match self.program_bin with
  | some path => do
    match ← Async.call (I := HostIo) (.read path) with
    | .error e => pure (.error ["read program bin " ++ path, e])
    | .ok elf => do
      let client ← LezRegistryClient.with_program_bytes build elf
      pure (client.mapError fun e => ["LezRegistryClient::with_program_bytes", e.to_string])
  | none => do
    let client ← LezRegistryClient.new build
    pure (client.mapError fun e => ["LezRegistryClient::new", e.to_string])

/-- What `read_to_string` makes of a file. -/
def read_to_string : Except String (List UInt8) → Except String String
  | .error e => .error e
  | .ok contents =>
    match text.from_utf8 contents with
    | some s => .ok s
    | none => .error "stream did not contain valid UTF-8"

/-- The selected source, with what is told of it. -/
def Cli.delivery (self : Cli) : Async HostIo (Except Contexts (Delivery × String)) :=
  match self.envelopes_from with
  | some path => do
    match read_to_string (← Async.call (I := HostIo) (.read path)) with
    | .error e => pure (.error ["read envelopes file " ++ path, e])
    | .ok contents =>
      let client := FileDeliveryClient.from_jsonl contents
      pure (.ok (.file client,
        "FILE replay (" ++ toString client.envelopes.length ++ " envelope(s) from " ++ path ++ ")"))
  | none =>
    if self.mock_delivery then pure (.ok (.mock, "MOCK (in-memory, dev-only — no real messages)"))
    else pure (.error ["No delivery source selected. Choose one:\n  " ++
      "--envelopes-from <file>  replay broadcast MetadataEnvelopeV1 JSONL through the " ++
      "real dedupe+batch+anchor pipeline (headless, no mock)\n  " ++
      "--mock-delivery          in-memory dev client (no real messages)\n\n" ++
      "A live Logos Delivery (Waku) subscription is provided by the Basecamp UI plugin " ++
      "or a QtRemoteObjects logos_host adapter — see adapters/logos/README.md."])

/-- What `main` does before it starts anything. -/
def Cli.setup (self : Cli) (build : Build) :
    Async HostIo (Except Contexts (LezRegistryClient × Delivery × String)) := do
  match ← Async.call (I := HostIo) .from_env with
  | .error e =>
    pure (.error ["WalletCore::from_env failed — set NSSA_WALLET_HOME_DIR to a seeded wallet dir", e])
  | .ok () =>
    match ← self.registry build with
    | .error e => pure (.error e)
    | .ok registry => do
      let delivery ← self.delivery
      pure (delivery.map fun selected => (registry, selected))

def Cli.config (self : Cli) : BatchConfig where
  topic := self.topic
  batch_size := self.batch_size
  batch_interval := self.batch_interval_secs * 10 ^ 9
  retry_policy := RetryPolicy.default

/-- What the program prints. -/
inductive Line where
  | starting (topic : String) (batch_size batch_interval_secs : Nat) (delivery_desc : String)
  | interrupted
  | handler_error (e : String)
  | anchored (submission : BatchSubmission)
  | clean_exit
  deriving DecidableEq, Repr

def Line.text : Line → String
  | .starting topic batch_size batch_interval_secs delivery_desc =>
    "whistleblower-batch starting:\n  topic = " ++ topic ++ "\n  batch_size = " ++ toString batch_size ++
      "\n  batch_interval = " ++ toString batch_interval_secs ++ "s\n  delivery = " ++ delivery_desc
  | .interrupted => "\n[whistleblower-batch] SIGINT received — flushing pending and stopping."
  | .handler_error e => "[whistleblower-batch] signal handler error: " ++ e
  | .anchored s =>
    "[whistleblower-batch] anchored batch: " ++ toString s.anchored ++ "/" ++ toString s.batch_size ++ " entries"
  | .clean_exit => "[whistleblower-batch] clean exit."

/-- Where `main` stands: it awaits the loop, then the logger, and ends. An error is given the
    context `batch loop`. -/
inductive Main where
  | batching
  | logging (result : Except BatchError Unit)
  | exited (result : Except BatchError Unit)
  | panicked (message : String)
  deriving DecidableEq

def Main.ended : Main → Bool
  | .batching => false
  | .logging _ => false
  | .exited _ => true
  | .panicked _ => true

/-- What surrounds the program, and decides how appends to the ledger and submissions end. -/
structure Surroundings (W : Type) where
  append : W → Option IoFault × W
  anchor_batch : W → List Pair → Except AdapterError (List AnchorEntry) × W

/-- What is answered to a call of the loop. -/
def Surroundings.serve {W : Type} (self : Surroundings W) (world : W) :
    (request : AdapterCall) → Option (request.Response × W)
  | .anchor_batch entries => some (self.anchor_batch world entries)
  | .sink_send _ => some ((), world)
  | .sleep _ => some ((), world)
  | .upload_file _ | .publish _ _ | .anchor_one _ _ | .query_by_cid_hash _ | .panic _ => none

/-- The running program: the loop, the task that waits for an interrupt, the channel to the
    logger and whether the logger still runs, and `main`. -/
structure Process (W : Type) where
  delivery : Delivery
  loop : Loop
  handler_waits : Bool
  submissions : List BatchSubmission
  logger_runs : Bool
  main : Main
  stderr : List Line
  world : W

/-- A turn of one of the tasks. The first is an arm of the loop that needs nothing from outside. -/
inductive Process.Turn where
  | arm (action : batch.Action)
  | ingest
  | answer
  | signal (outcome : Except String Unit)
  | log
  | proceed

/-- What a call of the loop sends to the logger. -/
def sent : AdapterCall → List BatchSubmission
  | .sink_send submission => [submission]
  | _ => []

namespace Process

variable {W : Type}

/-- The arms that the loop can take by itself. An open stream without items is never ready. -/
def arms (self : Process W) : batch.Action → Bool
  | .subscriber_next =>
    match self.delivery with
    | .file _ => true
    | .mock => false
  | .subscriber_changed | .subscriber_send | .anchorer_changed | .anchorer_recv | .anchorer_tick
  | .anchorer_unwind | .anchorer_join => true
  | .shutdown_send _ | .shutdown_drop | .subscriber_ingest _ | .anchorer_reply _ => false

/-- The program as its tasks start, unless the loop ends before that. -/
def start (cli : Cli) (delivery : Delivery) (delivery_desc : String) (ledger : Except IoFault File) (world : W) :
    Except StartFailure (Process W) :=
  (Loop.start cli.config ledger (delivery.subscribe cli.topic) ⟨false, 0, false⟩ 0).map fun loop =>
    { delivery, loop, world
      handler_waits := true
      submissions := []
      logger_runs := true
      main := .batching
      stderr := [.starting cli.topic cli.batch_size cli.batch_interval_secs delivery_desc] }

/-- The logger prints what it receives, and ends once the loop has dropped its sender. -/
def log (self : Process W) : Option (Process W) :=
  if self.logger_runs then
    match self.submissions with
    | submission :: rest =>
      some { self with submissions := rest, stderr := self.stderr ++ [.anchored submission] }
    | [] =>
      match self.main with
      | .batching => none
      | _ => some { self with logger_runs := false }
  else none

def proceed (self : Process W) : Option (Process W) :=
  match self.main with
  | .batching =>
    match self.loop.anchorer with
    | .returned result => some { self with main := .logging result }
    | .panicked message => some { self with main := .panicked message }
    | _ => none
  | .logging result =>
    if self.logger_runs then none
    else
      match result with
      | .ok () => some { self with main := .exited (.ok ()), stderr := self.stderr ++ [.clean_exit] }
      | .error e => some { self with main := .exited (.error e) }
  | .exited _ => none
  | .panicked _ => none

section

variable [Sha256]

/-- What comes of waiting for an interrupt. -/
def signal (self : Process W) (outcome : Except String Unit) : Option (Process W) :=
  if self.handler_waits then
    match outcome with
    | .ok () =>
      (self.loop.step (.shutdown_send true)).map fun loop =>
        { self with loop, handler_waits := false, stderr := self.stderr ++ [.interrupted] }
    | .error e => some { self with handler_waits := false, stderr := self.stderr ++ [.handler_error e] }
  else none

variable (surroundings : Surroundings W)

def ingest (self : Process W) : Option (Process W) :=
  let (fault, world) := surroundings.append self.world
  (self.loop.subscriber_ingest fault).map fun loop => { self with loop, world }

def answer (self : Process W) : Option (Process W) :=
  match self.loop.anchorer with
  | .flushing (.ask request _) _ =>
    (surroundings.serve self.world request).bind fun (response, world) =>
      (self.loop.anchorer_reply ⟨request, response⟩).map fun loop =>
        { self with loop, world, submissions := self.submissions ++ sent request }
  | _ => none

/-- Take one turn, if it is enabled. With `main` all tasks end. -/
def step (self : Process W) (turn : Turn) : Option (Process W) :=
  if self.main.ended then none
  else
    match turn with
    | .arm action => if self.arms action then (self.loop.step action).map fun loop => { self with loop } else none
    | .ingest => self.ingest surroundings
    | .answer => self.answer surroundings
    | .signal outcome => self.signal outcome
    | .log => self.log
    | .proceed => self.proceed

end

/-- Everything a turn can do, with what enables it. -/
inductive Stepped [Sha256] (surroundings : Surroundings W) (process : Process W) : Turn → Process W → Prop where
  | armed {action : batch.Action} {loop : Loop} (harms : process.arms action = true)
      (hstep : process.loop.step action = some loop) : Stepped surroundings process (.arm action) { process with loop }
  | ingested {fault : Option IoFault} {loop : Loop} {world : W}
      (hstep : process.loop.step (.subscriber_ingest fault) = some loop) :
      Stepped surroundings process .ingest { process with loop, world }
  | answered {request : AdapterCall} {resume : Adapters.Response request → Async Adapters (Except BatchError Unit)}
      {after : After} {response : request.Response} {world : W}
      (hanchorer : process.loop.anchorer = .flushing (.ask request resume) after)
      (hserve : surroundings.serve process.world request = some (response, world)) :
      Stepped surroundings process .answer { process with
        loop := { process.loop with
          calls := process.loop.calls ++ [⟨request, response⟩]
          anchorer := Loop.after_flush (resume response) after }
        world
        submissions := process.submissions ++ sent request }
  | interrupted (hwaits : process.handler_waits = true) (hopen : process.loop.shutdown.closed = false) :
      Stepped surroundings process (.signal (.ok ())) { process with
        loop := { process.loop with shutdown :=
          { process.loop.shutdown with value := true, version := process.loop.shutdown.version + 1 } }
        handler_waits := false
        stderr := process.stderr ++ [.interrupted] }
  | deaf (e : String) (hwaits : process.handler_waits = true) :
      Stepped surroundings process (.signal (.error e))
        { process with handler_waits := false, stderr := process.stderr ++ [.handler_error e] }
  | logged (submission : BatchSubmission) (rest : List BatchSubmission) (hruns : process.logger_runs = true)
      (hsubmissions : process.submissions = submission :: rest) :
      Stepped surroundings process .log
        { process with submissions := rest, stderr := process.stderr ++ [.anchored submission] }
  | logger_ended (hruns : process.logger_runs = true) (hsubmissions : process.submissions = [])
      (result : Except BatchError Unit) (hmain : process.main = .logging result) :
      Stepped surroundings process .log { process with logger_runs := false }
  | returned (result : Except BatchError Unit) (hmain : process.main = .batching)
      (hanchorer : process.loop.anchorer = .returned result) :
      Stepped surroundings process .proceed { process with main := .logging result }
  | panicked (message : String) (hmain : process.main = .batching)
      (hanchorer : process.loop.anchorer = .panicked message) :
      Stepped surroundings process .proceed { process with main := .panicked message }
  | exited (hmain : process.main = .logging (.ok ())) (hruns : process.logger_runs = false) :
      Stepped surroundings process .proceed
        { process with main := .exited (.ok ()), stderr := process.stderr ++ [.clean_exit] }
  | failed (e : BatchError) (hmain : process.main = .logging (.error e)) (hruns : process.logger_runs = false) :
      Stepped surroundings process .proceed { process with main := .exited (.error e) }

section

variable [Sha256] {surroundings : Surroundings W} {process next : Process W}

theorem ingest_cases (hstep : process.ingest surroundings = some next) :
    Stepped surroundings process .ingest next := by
  obtain ⟨loop, hloop, rfl⟩ := Option.map_eq_some_iff.mp hstep
  exact .ingested hloop

theorem answer_cases (hstep : process.answer surroundings = some next) :
    Stepped surroundings process .answer next := by
  rw [answer] at hstep
  split at hstep
  · rename_i request resume after hanchorer
    obtain ⟨⟨response, world⟩, hserve, hstep⟩ := Option.bind_eq_some_iff.mp hstep
    obtain ⟨loop, hloop, rfl⟩ := Option.map_eq_some_iff.mp hstep
    have hresume := Async.resume?_ask (I := Adapters) resume response
    unfold Loop.anchorer_reply at hloop
    simp only [hanchorer, hresume] at hloop
    cases hloop
    exact .answered hanchorer hserve
  · cases hstep

theorem signal_cases {outcome : Except String Unit} (hstep : process.signal outcome = some next) :
    Stepped surroundings process (.signal outcome) next := by
  unfold signal at hstep
  split at hstep
  · rename_i hwaits
    cases outcome with
    | ok done =>
      obtain ⟨loop, hloop, rfl⟩ := Option.map_eq_some_iff.mp hstep
      cases Loop.step_cases hloop with
      | shutdown_send _ hopen => exact .interrupted hwaits hopen
    | error e =>
      cases hstep
      exact .deaf e hwaits
  · cases hstep

theorem log_cases (hended : process.main.ended = false) (hstep : process.log = some next) :
    Stepped surroundings process .log next := by
  rw [log] at hstep
  split at hstep
  · rename_i hruns
    split at hstep
    · rename_i submission rest hsubmissions
      cases hstep
      exact .logged submission rest hruns hsubmissions
    · rename_i hsubmissions
      split at hstep
      · cases hstep
      · rename_i hbatching
        cases hstep
        obtain ⟨result, hmain⟩ : ∃ result, process.main = .logging result := by
          cases hmain : process.main with
          | batching => exact absurd hmain hbatching
          | logging result => exact ⟨result, rfl⟩
          | _ =>
            rw [hmain] at hended
            cases hended
        exact .logger_ended hruns hsubmissions result hmain
  · cases hstep

theorem proceed_cases (hstep : process.proceed = some next) : Stepped surroundings process .proceed next := by
  rw [proceed] at hstep
  split at hstep
  · rename_i hmain
    split at hstep
    · rename_i result hanchorer
      cases hstep
      exact .returned result hmain hanchorer
    · rename_i message hanchorer
      cases hstep
      exact .panicked message hmain hanchorer
    · cases hstep
  · rename_i result hmain
    split at hstep
    · cases hstep
    · rename_i hruns
      cases result with
      | ok done =>
        cases hstep
        exact .exited hmain (Bool.eq_false_iff.mpr hruns)
      | error e =>
        cases hstep
        exact .failed e hmain (Bool.eq_false_iff.mpr hruns)
  · cases hstep
  · cases hstep

/-- A turn is taken while `main` runs, and does one of the things listed. -/
theorem step_cases {turn : Turn} (hstep : process.step surroundings turn = some next) :
    process.main.ended = false ∧ Stepped surroundings process turn next := by
  unfold step at hstep
  split at hstep
  · cases hstep
  · rename_i hended
    refine ⟨Bool.eq_false_iff.mpr hended, ?_⟩
    cases turn with
    | arm action =>
      dsimp only at hstep
      split at hstep
      · rename_i harms
        obtain ⟨loop, hloop, rfl⟩ := Option.map_eq_some_iff.mp hstep
        exact .armed harms hloop
      · cases hstep
    | ingest => exact ingest_cases hstep
    | answer => exact answer_cases hstep
    | signal outcome => exact signal_cases hstep
    | log => exact log_cases (Bool.eq_false_iff.mpr hended) hstep
    | proceed => exact proceed_cases hstep

/-- An answer is a step of the loop. -/
theorem step_reply {loop : Loop} {request : AdapterCall}
    {resume : Adapters.Response request → Async Adapters (Except BatchError Unit)} {after : After}
    (hanchorer : loop.anchorer = .flushing (.ask request resume) after) (response : request.Response) :
    loop.step (.anchorer_reply ⟨request, response⟩) = some { loop with
      calls := loop.calls ++ [⟨request, response⟩]
      anchorer := Loop.after_flush (resume response) after } := by
  have hresume := Async.resume?_ask (I := Adapters) resume response
  change Loop.anchorer_reply _ _ = _
  unfold Loop.anchorer_reply
  simp only [hanchorer, hresume]

theorem step_interrupt {loop : Loop} (hopen : loop.shutdown.closed = false) :
    loop.step (.shutdown_send true) = some { loop with
      shutdown := { loop.shutdown with value := true, version := loop.shutdown.version + 1 } } := by
  rw [Loop.step, if_neg (by simp [hopen])]

end

end Process

/-- The set-up has succeeded, and the tasks are about to run. -/
def Started (build : Build) (cli : Cli) {W : Type} (process : Process W) : Prop :=
  ∃ trace registry delivery delivery_desc ledger world,
    (cli.setup build).Returns trace (.ok (registry, delivery, delivery_desc)) ∧
      Process.start cli delivery delivery_desc ledger world = .ok process

theorem Started.eq {build : Build} {cli : Cli} {W : Type} {process : Process W} (hstarted : Started build cli process) :
    1 ≤ cli.batch_size ∧ ∃ delivery_desc dedupe ledger stream,
      process = {
        delivery := process.delivery
        loop := Loop.started cli.config dedupe ledger stream ⟨false, 0, false⟩ 0
        handler_waits := true
        submissions := []
        logger_runs := true
        main := .batching
        stderr := [.starting cli.topic cli.batch_size cli.batch_interval_secs delivery_desc]
        world := process.world } := by
  obtain ⟨_, _, delivery, delivery_desc, ledger, world, _, hstart⟩ := hstarted
  rw [Process.start] at hstart
  cases hloop : Loop.start cli.config ledger (delivery.subscribe cli.topic) ⟨false, 0, false⟩ 0 with
  | error failure =>
    rw [hloop] at hstart
    cases hstart
  | ok loop =>
    rw [hloop] at hstart
    obtain ⟨hsize, found, dedupe, stream, _, _, _, rfl⟩ := Loop.start_cases hloop
    cases hstart
    exact ⟨hsize, delivery_desc, dedupe, found, stream, rfl⟩

end whistleblower_batch
