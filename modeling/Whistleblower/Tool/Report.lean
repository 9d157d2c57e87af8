import Whistleblower.Indexing.Batch.FileReplay
import Whistleblower.Indexing.Batch.Tally
import Whistleblower.Tool.Main

open whistleblower_core whistleblower_lez_adapter document_indexing document_indexing.batch

namespace document_indexing.batch.Loop

/-- A loop that has returned changes neither its result nor its calls. -/
theorem returned_step [Sha256] {loop next : Loop} {action : Action} {result : Except BatchError Unit}
    (hreturned : loop.returned = some result) (hstep : loop.step action = some next) :
    next.returned = some result ∧ next.calls = loop.calls := by
  have hanchorer := anchorer_of_returned hreturned
  have hbusy : ∀ {place : Anchorer}, loop.anchorer = place → place = .returned result :=
    fun hplace => hplace.symm.trans hanchorer
  cases step_cases hstep with
  | anchorer_woken hplace => cases hbusy hplace
  | anchorer_stopped hplace => cases hbusy hplace
  | buffered _ _ hplace => cases hbusy hplace
  | filled _ _ hplace => cases hbusy hplace
  | channel_closed _ hplace => cases hbusy hplace
  | idle_tick hplace => cases hbusy hplace
  | tick hplace => cases hbusy hplace
  | replied _ _ _ _ hplace => cases hbusy hplace
  | unwound _ _ _ hplace => cases hbusy hplace
  | joined _ hplace => cases hbusy hplace
  | _ => exact ⟨hreturned, rfl⟩

end document_indexing.batch.Loop

namespace whistleblower_batch

/-- The submission that a line is about. -/
def Line.submission : Line → Option BatchSubmission
  | .anchored submission => some submission
  | _ => none

/-- The submissions that were printed, oldest first. -/
def printed (stderr : List Line) : List BatchSubmission := stderr.filterMap Line.submission

@[simp] theorem printed_append (stderr : List Line) (line : Line) :
    printed (stderr ++ [line]) = printed stderr ++ line.submission.toList := by
  rw [printed, List.filterMap_append]
  cases line <;> rfl

theorem reported_submission_eq (request : AdapterCall) (response : request.Response) :
    (reported_submission ⟨request, response⟩).toList = sent request := by
  cases request <;> rfl

namespace Process

variable [Sha256] {W : Type} {surroundings : Surroundings W} {process next : Process W}

/-- What has been printed, and where the tasks of the program stand. -/
structure Tells (process : Process W) : Prop where
  tallies : Tallies process.loop.calls process.loop.anchorer
  flushes : process.loop.Flushes
  told : printed process.stderr ++ process.submissions = reported_submissions process.loop.calls
  logging : ∀ result, process.main = .logging result → process.loop.returned = some result
  drained : process.logger_runs = false → process.main ≠ .batching ∧ process.submissions = []
  exited : ∀ result, process.main = .exited result →
    process.loop.returned = some result ∧ process.submissions = []
  clean : .clean_exit ∈ process.stderr ↔ process.main = .exited (.ok ())

omit [Sha256] in
theorem Tells.of_started {build : Build} {cli : Cli} (hstarted : Started build cli process) : process.Tells := by
  obtain ⟨_, delivery_desc, dedupe, ledger, stream, hprocess⟩ := hstarted.eq
  rw [hprocess]
  constructor
  case tallies => exact Loop.tallies_started _ _ _ _ _ _
  case flushes => exact .started _ _ _ _ _ _
  case told => rfl
  case logging => rintro _ ⟨⟩
  case drained => rintro ⟨⟩
  case exited => rintro _ ⟨⟩
  case clean => simp

/-- The loop takes a step, and what it reports goes to the logger. -/
theorem Tells.loop_step (htells : process.Tells) (hended : process.main.ended = false) {action : batch.Action}
    {loop : Loop} (hstep : process.loop.step action = some loop) {reports : List BatchSubmission} {world : W}
    (hreports : reported_submissions loop.calls = reported_submissions process.loop.calls ++ reports) :
    { process with loop, world, submissions := process.submissions ++ reports }.Tells where
  tallies := Loop.tallies_step htells.tallies hstep
  flushes := htells.flushes.step hstep
  told := by
    rw [hreports, ← htells.told, List.append_assoc]
  logging := fun result hmain => (Loop.returned_step (htells.logging result hmain) hstep).1
  drained := by
    intro hruns
    obtain ⟨hbatching, hsubmissions⟩ := htells.drained hruns
    refine ⟨hbatching, ?_⟩
    -- the loop has returned, and reports nothing more
    obtain ⟨result, hmain⟩ : ∃ result, process.main = .logging result := by
      cases hmain : process.main with
      | batching => exact absurd hmain hbatching
      | logging result => exact ⟨result, rfl⟩
      | _ =>
        rw [hmain] at hended
        cases hended
    have hcalls := (Loop.returned_step (htells.logging result hmain) hstep).2
    rw [hcalls, List.self_eq_append_right] at hreports
    change process.submissions ++ reports = []
    rw [hreports, hsubmissions]
    rfl
  exited := by
    intro result hmain
    change process.main = _ at hmain
    rw [hmain] at hended
    cases hended
  clean := htells.clean

theorem Tells.silent_step (htells : process.Tells) (hended : process.main.ended = false) {action : batch.Action}
    {loop : Loop} (hstep : process.loop.step action = some loop) {world : W}
    (hreports : reported_submissions loop.calls = reported_submissions process.loop.calls) :
    { process with loop, world }.Tells := by
  have hnext : { process with loop, world, submissions := process.submissions ++ [] }.Tells :=
    htells.loop_step hended hstep (by rw [hreports, List.append_nil])
  rwa [List.append_nil] at hnext

omit [Sha256] in
/-- Something else is printed while `main` runs. -/
theorem Tells.say (htells : process.Tells) {line : Line} (hsubmission : line.submission = none)
    (hline : line ≠ .clean_exit) {handler_waits : Bool} :
    { process with handler_waits, stderr := process.stderr ++ [line] }.Tells where
  tallies := htells.tallies
  flushes := htells.flushes
  told := by
    rw [← htells.told, printed_append, hsubmission, Option.toList_none, List.append_nil]
  logging := htells.logging
  drained := htells.drained
  exited := htells.exited
  clean := by
    rw [← htells.clean, List.mem_append, List.mem_singleton]
    exact ⟨fun hmem => hmem.resolve_right hline.symm, .inl⟩

omit [Sha256] in
/-- `main` goes on, and prints nothing. -/
theorem Tells.move (htells : process.Tells) (hunclean : Line.clean_exit ∉ process.stderr) {main : Main}
    (hleft : main ≠ .batching) (hlogging : ∀ result, main = .logging result → process.loop.returned = some result)
    (hexited : ∀ result, main = .exited result →
      result ≠ .ok () ∧ process.loop.returned = some result ∧ process.submissions = []) :
    { process with main }.Tells where
  tallies := htells.tallies
  flushes := htells.flushes
  told := htells.told
  logging := hlogging
  drained := fun hruns => ⟨hleft, (htells.drained hruns).2⟩
  exited := fun result hmain => (hexited result hmain).2
  clean := by
    refine ⟨fun hclean => absurd hclean hunclean, fun hmain => ?_⟩
    obtain ⟨hfailed, _⟩ := hexited _ hmain
    exact absurd rfl hfailed

theorem Tells.step {turn : Turn} (htells : process.Tells) (hstep : process.step surroundings turn = some next) :
    next.Tells := by
  obtain ⟨hended, hstepped⟩ := step_cases hstep
  have hunended : ∀ result, process.main ≠ .exited result := by
    intro result hmain
    rw [hmain] at hended
    cases hended
  have hunclean : Line.clean_exit ∉ process.stderr := fun hclean => hunended _ (htells.clean.mp hclean)
  cases hstepped with
  | @armed action loop harms hloop =>
    have hcalls := Loop.calls_step hloop
    have hreply : Loop.reply action = none := by cases action <;> first | rfl | cases harms
    rw [hreply, Option.toList_none, List.append_nil] at hcalls
    exact htells.silent_step hended hloop (by rw [hcalls])
  | @ingested fault loop world hloop =>
    have hcalls : loop.calls = process.loop.calls := (Loop.calls_step hloop).trans (List.append_nil _)
    exact htells.silent_step hended hloop (by rw [hcalls])
  | @answered request resume after response world hanchorer hserve =>
    refine htells.loop_step hended (step_reply hanchorer response) ?_
    rw [reported_submissions_append, reported_submission_eq]
  | interrupted _ hopen =>
    exact (htells.silent_step hended (step_interrupt hopen) rfl).say rfl (by rintro ⟨⟩)
  | deaf e => exact htells.say rfl (by rintro ⟨⟩)
  | logged submission rest hruns hsubmissions =>
    refine ⟨htells.tallies, htells.flushes, ?told, htells.logging, ?drained, ?result, ?clean⟩
    case told =>
      rw [← htells.told, printed_append, hsubmissions, List.append_assoc]
      rfl
    case drained =>
      intro hended
      rw [show process.logger_runs = false from hended] at hruns
      cases hruns
    case result => exact fun result hmain => absurd hmain (hunended result)
    case clean => simp [hunclean, hunended]
  | logger_ended hruns hsubmissions result hmain =>
    refine { htells with drained := fun _ => ⟨?_, hsubmissions⟩ }
    rw [hmain]
    rintro ⟨⟩
  | returned result hmain hanchorer =>
    refine htells.move hunclean (by rintro ⟨⟩) ?_ (by rintro _ ⟨⟩)
    rintro _ ⟨⟩
    rw [Loop.returned, hanchorer]
  | panicked message => exact htells.move hunclean (by rintro ⟨⟩) (by rintro _ ⟨⟩) (by rintro _ ⟨⟩)
  | exited hmain hruns =>
    obtain ⟨_, hsubmissions⟩ := htells.drained hruns
    refine ⟨htells.tallies, htells.flushes, ?told, ?logging, ?drained, ?result, ?clean⟩
    case told =>
      rw [← htells.told, printed_append]
      simp [Line.submission]
    case logging => rintro _ ⟨⟩
    case drained =>
      refine fun _ => ⟨?_, hsubmissions⟩
      rintro ⟨⟩
    case result =>
      rintro _ ⟨⟩
      exact ⟨htells.logging _ hmain, hsubmissions⟩
    case clean => simp
  | failed e hmain hruns =>
    obtain ⟨_, hsubmissions⟩ := htells.drained hruns
    refine htells.move hunclean (by rintro ⟨⟩) (by rintro _ ⟨⟩) ?_
    rintro _ ⟨⟩
    exact ⟨by rintro ⟨⟩, htells.logging _ hmain, hsubmissions⟩

omit [Sha256] in
/-- When the program has ended, nothing that was accepted is left to print. -/
theorem Tells.printed_of_exited (htells : process.Tells) {result : Except BatchError Unit}
    (hmain : process.main = .exited result) : printed process.stderr = accepted_submissions process.loop.calls := by
  obtain ⟨hreturned, hsubmissions⟩ := htells.exited result hmain
  have htallies := htells.tallies
  rw [Loop.anchorer_of_returned hreturned] at htallies
  have hsquared : Squared process.loop.calls := htallies
  rw [← hsquared, ← htells.told, hsubmissions, List.append_nil]

end Process

section

variable [Sha256] {W : Type} {surroundings : Surroundings W} {build : Build} {cli : Cli} {initial last : Process W}

/-- The program prints a line for each accepted batch, with its counts, in order, and never two.
    When it ends no line is missing, also if the loop has failed. It says that its exit is clean
    exactly if the loop has succeeded, and then there is a line for each batch that was taken. -/
theorem printed_as_accepted (hstarted : Started build cli initial) {turns : List Process.Turn}
    (hrun : transition.run (Process.step surroundings) initial turns = some last) :
    printed last.stderr <+: accepted_submissions last.loop.calls ∧
      ∀ result, last.main = .exited result → last.loop.returned = some result ∧
        printed last.stderr = accepted_submissions last.loop.calls ∧
        (.clean_exit ∈ last.stderr ↔ result = .ok ()) ∧
        (result = .ok () →
          (printed last.stderr).map BatchSubmission.batch_size = last.loop.batches.map List.length) := by
  have htells : last.Tells :=
    transition.run_preserves (fun _ _ _ htells hstep => htells.step hstep) (.of_started hstarted) hrun
  refine ⟨?_, ?_⟩
  · exact (htells.told ▸ List.prefix_append _ _).trans htells.tallies.in_order
  · intro result hmain
    have hreturned := (htells.exited result hmain).1
    have hprinted := htells.printed_of_exited hmain
    refine ⟨hreturned, hprinted, ?_, ?_⟩
    · rw [htells.clean, hmain, Main.exited.injEq]
    · rintro rfl
      rw [hprinted, batch_size_accepted_submissions, htells.flushes.of_returned hreturned]

end

/-- A program that is built in. -/
def sampleBuild : Build where
  WHISTLEBLOWER_REGISTRY_ELF := [1]
  WHISTLEBLOWER_REGISTRY_PATH := "registry.bin"
  parse_program _ := .ok (Vector.replicate 8 1)

/-- Replay a file, in batches of one. -/
def replayCli : Cli := { envelopes_from := some "envelopes.jsonl", batch_size := 1 }

/-- A registry that accepts all, and a file system without faults. -/
def accepting : Surroundings Unit where
  append world := (none, world)
  anchor_batch world entries := (.ok (entries.map fun entry => new_entry entry.1 entry.2 7), world)

/-- The file that was read is what is told of it. -/
def replayDesc : String :=
  "FILE replay (" ++ toString (FileDeliveryClient.from_jsonl sampleText).envelopes.length ++ " envelope(s) from " ++
    "envelopes.jsonl" ++ ")"

/-- The program about to replay the text. -/
def replayProcess : Process Unit where
  delivery := .file (FileDeliveryClient.from_jsonl sampleText)
  loop := (Replay.started replayCli.config none sampleText ⟨false, 0, false⟩ 0).loop
  handler_waits := true
  submissions := []
  logger_runs := true
  main := .batching
  stderr := [.starting DEFAULT_CONTENT_TOPIC 1 30 replayDesc]
  world := ()

theorem setup_replayCli : ∃ registry, (replayCli.setup sampleBuild).Returns
    [⟨HostCall.from_env, Except.ok ()⟩, ⟨HostCall.var "WHISTLEBLOWER_ANCHOR_CONFIRM_SECS", none⟩,
      ⟨HostCall.read "envelopes.jsonl", Except.ok (text.bytes sampleText)⟩]
    (.ok (registry, .file (FileDeliveryClient.from_jsonl sampleText), replayDesc)) := by
  have hread : read_to_string (.ok (text.bytes sampleText)) = .ok sampleText := by simp [read_to_string]
  refine ⟨⟨Vector.replicate 8 1, given_confirm_secs none, .SystemTimeMs⟩, .step _ (.step _ (.step _ ?_))⟩
  dsimp only [Async.bind]
  rw [hread]
  exact .refl _

theorem started_replayProcess : Started sampleBuild replayCli replayProcess := by
  obtain ⟨registry, hsetup⟩ := setup_replayCli
  exact ⟨_, registry, _, replayDesc, .ok none, (), hsetup, rfl⟩

/-- The record is anchored, the file ends, and the logger prints one line. -/
def replayTurns : List Process.Turn := [
  .arm .subscriber_next, .ingest, .arm .subscriber_send, .arm .anchorer_recv, .answer, .answer,
  .arm .subscriber_next, .arm .anchorer_recv, .arm .anchorer_join, .proceed, .log, .log, .proceed]

theorem printed_as_accepted_replayed :
    ∃ initial last, Started sampleBuild replayCli initial ∧
      transition.run (Process.step accepting) initial replayTurns = some last ∧
      last.main = .exited (.ok ()) ∧ printed last.stderr = [⟨1, 1⟩] ∧ Line.clean_exit ∈ last.stderr ∧
        last.loop.batches.map List.length = [1] := by
  have hrun : (transition.run (Process.step accepting) replayProcess replayTurns).any (fun last =>
      last.main = .exited (.ok ()) ∧ accepted_submissions last.loop.calls = [⟨1, 1⟩]) = true := by
    decide +kernel
  obtain ⟨last, hlast, hchecked⟩ := (Option.any_eq_true _ _).mp hrun
  obtain ⟨hmain, haccepted⟩ := of_decide_eq_true hchecked
  obtain ⟨_, hended⟩ := printed_as_accepted started_replayProcess hlast
  obtain ⟨_, hprinted, hclean, hbatches⟩ := hended _ hmain
  rw [haccepted] at hprinted
  refine ⟨_, last, started_replayProcess, hlast, hmain, hprinted, hclean.mpr rfl, ?_⟩
  rw [← hbatches rfl, hprinted]
  rfl

end whistleblower_batch
