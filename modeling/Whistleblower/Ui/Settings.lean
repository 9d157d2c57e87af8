import Whistleblower.Ffi.Settings
import Whistleblower.Ui.Calls

open nssa_core whistleblower_core whistleblower_lez_adapter whistleblower_ffi

namespace whistleblower_ui

/-- Where the program's file is looked for if no variable names it. The directory of the
    library is empty if it is not known. -/
structure ProgramFiles where
  ffiLibraryDir : String
  sourceTreeProgramBinPath : String
  fileExists : String → Bool

/-- `qEnvironmentVariable`. -/
def qEnvironmentVariable (env : Env) (name default : String) : String := (env name).getD default

/-- `QDir::filePath`. -/
def filePath (dir name : String) : String := if dir.endsWith "/" then dir ++ name else dir ++ "/" ++ name

def resolveProgramBinPath (files : ProgramFiles) (env : Env) : String :=
  let explicitProgramBin := qEnvironmentVariable env "WHISTLEBLOWER_PROGRAM_BIN" ""
  let batchProgramBin := qEnvironmentVariable env "WL_PROGRAM_BIN" ""
  let colocated := filePath files.ffiLibraryDir "whistleblower_registry.bin"
  if explicitProgramBin ≠ "" then explicitProgramBin
  else if batchProgramBin ≠ "" then batchProgramBin
  else if files.ffiLibraryDir ≠ "" ∧ files.fileExists colocated = true then colocated
  else if files.fileExists files.sourceTreeProgramBinPath = true then files.sourceTreeProgramBinPath
  else ""

/-- What a backend reads of the variables when it is constructed. -/
structure WalletSettings where
  m_walletPath : String
  m_sequencerUrl : String
  deriving DecidableEq, Repr

def WalletSettings.constructed (env : Env) : WalletSettings where
  m_walletPath := qEnvironmentVariable env "NSSA_WALLET_HOME_DIR" ".scaffold/wallet"
  m_sequencerUrl := qEnvironmentVariable env "NSSA_SEQUENCER_URL" "http://127.0.0.1:3040"

/-- The settings of a call, for which the program's file is looked for anew. -/
def WalletSettings.forCall (self : WalletSettings) (files : ProgramFiles) (env : Env) : FfiSettings where
  m_walletPath := self.m_walletPath
  m_sequencerUrl := self.m_sequencerUrl
  programBin := resolveProgramBinPath files env

/-- A call of `whistleblower_anchor_one`, and how far it is with its client. -/
structure Opening where
  settings : FfiSettings
  pending : Async HostIo (Except FfiError LezRegistryClient)

/-- A process with the backends that were constructed in it and the calls that they have made. -/
structure PluginProcess where
  env : Env
  backends : List WalletSettings
  openings : List Opening

section

variable [Qt]

def Opening.begun (build : Build) (number_fits : List UInt8 → Bool) (settings : FfiSettings)
    (cid metadataHashHex : String) : Opening where
  settings := settings
  pending := anchor_one_opening build number_fits (some (Qt.toJson (anchorOneArgs settings cid metadataHashHex)))

/-- A backend is constructed, one of them makes a call, or a request of a call is answered. The
    calls run on threads of their own. -/
inductive PluginStep (build : Build) (number_fits : List UInt8 → Bool) (process : PluginProcess) :
    PluginProcess → Prop where
  | constructed :
      PluginStep build number_fits process { process with
        backends := process.backends ++ [.constructed process.env] }
  | called (backend : WalletSettings) (hbackend : backend ∈ process.backends) (files : ProgramFiles)
      (cid metadataHashHex : String) :
      PluginStep build number_fits process { process with
        openings := process.openings ++
          [.begun build number_fits (backend.forCall files process.env) cid metadataHashHex] }
  | answered (i : Nat) (opening : Opening) (hopening : process.openings[i]? = some opening) (request : HostCall)
      (resume : request.Response → Async HostIo (Except FfiError LezRegistryClient))
      (hpending : opening.pending = .ask (I := HostIo) request resume) (response : request.Response) (after : Env)
      (hanswered : request.Answered process.env response after) :
      PluginStep build number_fits process {
        env := after
        backends := process.backends
        openings := process.openings.set i { opening with pending := resume response } }

/-- What Qt documents besides: an object's text has no member that the object has not. -/
structure Qt.WritesOnly : Prop where
  absent {args : QJsonObject} {key : String} (hkey : key ∉ args.map Prod.fst) {value : json.Value}
    (hparse : json.parse (Qt.toJson args) = some value) : json.str_at value key = none

end

theorem str_at_record_absent {entries : List (String × json.Value)} {key : String} (hkey : key ∉ entries.map Prod.fst) :
    json.str_at (json.record entries) key = none := by
  have hnone : (entries.map fun entry => (json.escape entry.1, entry.2)).findRev?
      (fun member => (json.string_contents member.1).toOption = some key) = none := by
    rw [List.findRev?_eq_find?_reverse, List.find?_eq_none]
    intro member hmember
    obtain ⟨entry, hentry, rfl⟩ := List.mem_map.mp (List.mem_reverse.mp hmember)
    rw [json.string_contents_escape, decide_eq_true_eq]
    rintro hname
    exact hkey (Option.some.inj hname ▸ List.mem_map_of_mem hentry)
  simp only [json.record, json.str_at, hnone]

theorem Qt.writesOnly_standard : Qt.WritesOnly := by
  refine ⟨fun {args key} hkey value hparse => ?_⟩
  obtain rfl := Option.some.inj ((json.parse_render args.written_members).symm.trans hparse)
  apply str_at_record_absent
  rwa [args.names_members.mem_iff]

/-- No variable names the program's file where the path that is looked up is empty. -/
theorem unnamed_resolveProgramBinPath (files : ProgramFiles) (env : Env) :
    Unnamed (resolveProgramBinPath files env) env := by
  intro hempty name hname path hpath
  rw [resolveProgramBinPath] at hempty
  split at hempty
  · rename_i hexplicit
    exact absurd hempty hexplicit
  · rename_i hexplicit
    split at hempty
    · rename_i hbatch
      exact absurd hempty hbatch
    · rename_i hbatch
      rw [not_not, qEnvironmentVariable] at hexplicit hbatch
      simp only [List.mem_cons, List.not_mem_nil, or_false] at hname
      obtain rfl | rfl := hname
      · rwa [hpath] at hexplicit
      · rwa [hpath] at hbatch

section

variable [Qt] {build : Build} {number_fits : List UInt8 → Bool}

/-- The FFI reads the settings that a call is made with. -/
theorem gives_anchorOneArgs (hwrites : Qt.Writes) (honly : Qt.WritesOnly) {settings : FfiSettings}
    {cid metadataHashHex : String} {v : json.Value}
    (hread : json.from_slice_any number_fits (Qt.toJson (anchorOneArgs settings cid metadataHashHex)) = .ok v) :
    Gives v settings.m_walletPath settings.m_sequencerUrl settings.programBin := by
  let host : Host := {
    number_fits := number_fits
    init_wallet := fun _ => .ok ()
    registry_client := fun _ => .error ""
    runtime := .ok () }
  have hnodup := nodup_anchorOneArgs settings cid metadataHashHex
  have hreads : Reads host (some (Qt.toJson (anchorOneArgs settings cid metadataHashHex))) v :=
    ⟨_, cstr_to_str_toJson hwrites _, hread⟩
  refine ⟨?wallet, ?sequencer, ?program⟩
  case wallet => exact str_at_of_reads hwrites hnodup hreads (by simp [anchorOneArgs, baseFfiArgs])
  case sequencer => exact str_at_of_reads hwrites hnodup hreads (by simp [anchorOneArgs, baseFfiArgs])
  case program =>
    split
    · rename_i hempty
      have habsent : "program_bin" ∉ (anchorOneArgs settings cid metadataHashHex).map Prod.fst := by
        simp [anchorOneArgs, baseFfiArgs, hempty]
      rw [json.from_slice_any] at hread
      split at hread
      · rename_i value hparse
        split at hread
        · obtain rfl := Except.ok.inj hread
          exact honly.absent habsent hparse
        · cases hread
      · cases hread
    · rename_i hprogram
      exact str_at_of_reads hwrites hnodup hreads (by simp [anchorOneArgs, baseFfiArgs, hprogram])

/-- What holds at every point of a process that began with these variables. -/
structure PluginProcess.Invariant (build : Build) (first : Env) (process : PluginProcess) : Prop where
  moves : (sharing (WalletSettings.constructed first).m_walletPath
    (WalletSettings.constructed first).m_sequencerUrl).moves first process.env
  backends : ∀ backend ∈ process.backends, backend = .constructed first
  openings : ∀ opening ∈ process.openings,
    opening.settings.m_walletPath = (WalletSettings.constructed first).m_walletPath ∧
      opening.settings.m_sequencerUrl = (WalletSettings.constructed first).m_sequencerUrl ∧
      Async.Ensures (sharing opening.settings.m_walletPath opening.settings.m_sequencerUrl)
        (AsksFor build opening.settings.m_walletPath opening.settings.m_sequencerUrl opening.settings.programBin)
        Patient opening.pending process.env

omit [Qt] in
/-- A backend that is constructed later reads what the first one read. -/
theorem WalletSettings.constructed_of_moves {first later : Env}
    (hmoves : (sharing (WalletSettings.constructed first).m_walletPath
      (WalletSettings.constructed first).m_sequencerUrl).moves first later) :
    WalletSettings.constructed later = .constructed first := by
  have hwallet : qEnvironmentVariable later "NSSA_WALLET_HOME_DIR" ".scaffold/wallet" =
      (WalletSettings.constructed first).m_walletPath := by
    obtain hsame | ⟨_, hset⟩ | ⟨hname, _⟩ := hmoves "NSSA_WALLET_HOME_DIR"
    · rw [qEnvironmentVariable, hsame]
      rfl
    · rw [qEnvironmentVariable, hset, Option.getD_some]
    · exact absurd hname (by decide)
  have hsequencer : qEnvironmentVariable later "NSSA_SEQUENCER_URL" "http://127.0.0.1:3040" =
      (WalletSettings.constructed first).m_sequencerUrl := by
    obtain hsame | ⟨hname, _⟩ | ⟨_, hset⟩ := hmoves "NSSA_SEQUENCER_URL"
    · rw [qEnvironmentVariable, hsame]
      rfl
    · exact absurd hname (by decide)
    · rw [qEnvironmentVariable, hset, Option.getD_some]
  rw [WalletSettings.constructed, hwallet, hsequencer]

namespace PluginProcess.Invariant

variable {first : Env} {process next : PluginProcess}

theorem step (hwrites : Qt.Writes) (honly : Qt.WritesOnly) (hinvariant : process.Invariant build first)
    (hstep : PluginStep build number_fits process next) : next.Invariant build first := by
  obtain ⟨hmoves, hbackends, hopenings⟩ := hinvariant
  cases hstep with
  | constructed =>
    refine ⟨hmoves, ?_, hopenings⟩
    intro backend hbackend
    obtain hearlier | hnew := List.mem_append.mp hbackend
    · exact hbackends backend hearlier
    · rw [List.mem_singleton.mp hnew]
      exact WalletSettings.constructed_of_moves hmoves
  | called backend hbackend files cid metadataHashHex =>
    refine ⟨hmoves, hbackends, ?_⟩
    intro opening hopening
    obtain hearlier | hnew := List.mem_append.mp hopening
    · exact hopenings opening hearlier
    · obtain rfl := List.mem_singleton.mp hnew
      obtain rfl := hbackends backend hbackend
      refine ⟨rfl, rfl, ?_⟩
      rw [Opening.begun, anchor_one_opening, arg_to_str, cstr_to_str_toJson hwrites]
      exact anchor_one_client_ensures (fun v hread => gives_anchorOneArgs hwrites honly hread)
        (unnamed_resolveProgramBinPath files process.env)
  | answered i opening hopening request resume hpending response after hanswered =>
    obtain ⟨hwallet, hsequencer, hensures⟩ := hopenings opening (List.mem_of_getElem? hopening)
    rw [hpending] at hensures
    obtain ⟨hasks, hresume⟩ := hensures process.env ((sharing _ _).moves_refl _)
    have hafter := moves_of_answered hasks hanswered
    rw [hwallet, hsequencer] at hafter
    refine ⟨(sharing _ _).moves_trans _ _ _ hmoves hafter, hbackends, ?_⟩
    intro other hother
    obtain hother | rfl := List.mem_or_eq_of_mem_set hother
    · obtain ⟨hwallet', hsequencer', hensures'⟩ := hopenings other hother
      refine ⟨hwallet', hsequencer', hensures'.moves ?_⟩
      rw [hwallet', hsequencer']
      exact hafter
    · exact ⟨hwallet, hsequencer, hresume response after hanswered⟩

theorem run (hwrites : Qt.Writes) (honly : Qt.WritesOnly) (hinvariant : process.Invariant build first)
    (hreached : Relation.ReflTransGen (PluginStep build number_fits) process next) : next.Invariant build first := by
  induction hreached with
  | refl => exact hinvariant
  | tail _ hstep ih => exact ih.step hwrites honly hstep

end PluginProcess.Invariant

/-- A step chosen by its numbers, on a machine on which every file holds a program. -/
inductive PluginTurn where
  | constructed
  | called (backend : Nat) (cid metadataHashHex : String)
  | answered (i : Nat)
  deriving DecidableEq, Repr

omit [Qt] in
/-- What such a machine answers. -/
def answerOf (env : Env) : (request : HostCall) → Option (request.Response × Env)
  | .var name => some (env name, env)
  | .set_var name value =>
    if '\x00' ∈ value.toList then none else some ((), Function.update env name (some value))
  | .read _ => some ((Except.ok [1] : Except String (List UInt8)), env)
  | .from_env => some ((Except.ok () : Except String Unit), env)

omit [Qt] in
theorem answered_of_answerOf {env after : Env} {request : HostCall} {response : request.Response}
    (hanswer : answerOf env request = some (response, after)) : request.Answered env response after := by
  cases request with
  | set_var name value =>
    rw [answerOf] at hanswer
    split at hanswer
    · cases hanswer
    · rename_i hvalue
      cases hanswer
      exact ⟨hvalue, rfl⟩
  | var name =>
    cases hanswer
    exact ⟨rfl, rfl⟩
  | read path =>
    cases hanswer
    rfl
  | from_env =>
    cases hanswer
    rfl

def PluginProcess.act (build : Build) (files : ProgramFiles) (self : PluginProcess) :
    PluginTurn → Option PluginProcess
  | .constructed => some { self with backends := self.backends ++ [.constructed self.env] }
  | .called backend cid metadataHashHex => do
    let backend ← self.backends[backend]?
    let opening := .begun build (fun _ => true) (backend.forCall files self.env) cid metadataHashHex
    some { self with openings := self.openings ++ [opening] }
  | .answered i => do
    let opening ← self.openings[i]?
    match opening.pending with
    | .ask request resume =>
      let (response, after) ← answerOf self.env request
      some { self with env := after, openings := self.openings.set i { opening with pending := resume response } }
    | _ => none

theorem PluginProcess.step_of_act {files : ProgramFiles} {process next : PluginProcess} {turn : PluginTurn}
    (hact : process.act build files turn = some next) : PluginStep build (fun _ => true) process next := by
  cases turn with
  | constructed =>
    obtain rfl := Option.some.inj hact
    exact .constructed
  | called backend cid metadataHashHex =>
    simp only [act, Option.bind_eq_bind, Option.bind_eq_some_iff] at hact
    obtain ⟨settings, hbackend, hact⟩ := hact
    obtain rfl := Option.some.inj hact
    exact .called settings (List.mem_of_getElem? hbackend) files cid metadataHashHex
  | answered i =>
    simp only [act, Option.bind_eq_bind, Option.bind_eq_some_iff] at hact
    obtain ⟨opening, hopening, hact⟩ := hact
    split at hact
    · rename_i request resume hpending
      obtain ⟨⟨response, after⟩, hanswer, hnext⟩ := Option.bind_eq_some_iff.mp hact
      cases hnext
      exact .answered i opening hopening request resume hpending response after (answered_of_answerOf hanswer)
    · cases hact

theorem PluginProcess.steps_of_run {files : ProgramFiles} {process next : PluginProcess} {turns : List PluginTurn}
    (hrun : transition.run (PluginProcess.act build files) process turns = some next) :
    Relation.ReflTransGen (PluginStep build fun _ => true) process next :=
  transition.run_relates (fun _ => .refl) (fun _ _ _ => .trans)
    (fun _ _ _ hact => .single (PluginProcess.step_of_act hact)) hrun

/-- Backends of one process open the same wallet, however many are constructed and however their
    calls interleave, though every call sets the variables of the whole process. Each call opens
    its wallet while the variables name its own wallet and sequencer, reads no file but that of
    its program, and no other variable changes. -/
theorem calls_open_their_wallet (hwrites : Qt.Writes) (honly : Qt.WritesOnly) {initial process : PluginProcess}
    (hbackends : initial.backends = []) (hopenings : initial.openings = [])
    (hreached : Relation.ReflTransGen (PluginStep build number_fits) initial process) :
    (∀ backend ∈ process.backends, backend = .constructed initial.env) ∧
      (∀ name, name ≠ "NSSA_WALLET_HOME_DIR" → name ≠ "NSSA_SEQUENCER_URL" →
        process.env name = initial.env name) ∧
      ∀ opening ∈ process.openings,
        opening.settings.m_walletPath = (WalletSettings.constructed initial.env).m_walletPath ∧
          opening.settings.m_sequencerUrl = (WalletSettings.constructed initial.env).m_sequencerUrl ∧
          (∀ (request : HostCall) (resume : request.Response → Async HostIo (Except FfiError LezRegistryClient)),
            opening.pending = .ask (I := HostIo) request resume →
              AsksFor build opening.settings.m_walletPath opening.settings.m_sequencerUrl opening.settings.programBin
                process.env request) ∧
          ∀ client, opening.pending = .ret (.ok client) → 0 < client.confirm_secs ∧
            client.confirm_secs = given_confirm_secs (initial.env "WHISTLEBLOWER_ANCHOR_CONFIRM_SECS") := by
  have hinitial : initial.Invariant build initial.env := by
    refine ⟨(sharing _ _).moves_refl _, ?_, ?_⟩
    · rw [hbackends]
      exact fun backend hbackend => nomatch hbackend
    · rw [hopenings]
      exact fun opening hopening => nomatch hopening
  have hinvariant := hinitial.run hwrites honly hreached
  have hkept : ∀ name, name ≠ "NSSA_WALLET_HOME_DIR" → name ≠ "NSSA_SEQUENCER_URL" →
      process.env name = initial.env name := by
    intro name hwallet hsequencer
    obtain hsame | ⟨hname, _⟩ | ⟨hname, _⟩ := hinvariant.moves name
    · exact hsame
    · exact absurd hname hwallet
    · exact absurd hname hsequencer
  refine ⟨hinvariant.backends, hkept, fun opening hopening => ?_⟩
  obtain ⟨hwallet, hsequencer, hensures⟩ := hinvariant.openings opening hopening
  refine ⟨hwallet, hsequencer, ?_, ?_⟩
  · intro request resume hpending
    rw [hpending] at hensures
    exact (hensures process.env ((sharing _ _).moves_refl _)).1
  · intro client hpending
    rw [hpending] at hensures
    have hpatient := hensures process.env ((sharing _ _).moves_refl _) client rfl
    rw [hkept _ (by decide) (by decide)] at hpatient
    exact ⟨hpatient ▸ given_confirm_secs_pos _, hpatient⟩

end

/-- The call is about to open its wallet. -/
def Opening.opens (self : Opening) : Bool :=
  match self.pending with
  | .ask request _ =>
    match (request : HostCall) with
    | .from_env => true
    | _ => false
  | .ret _ => false

theorem Opening.eq_ask_of_opens {opening : Opening} (hopens : opening.opens = true) :
    ∃ resume, opening.pending = .ask (I := HostIo) .from_env resume := by
  obtain ⟨settings, pending⟩ := opening
  cases pending with
  | ret result => cases hopens
  | ask request resume =>
    cases request with
    | from_env => exact ⟨resume, rfl⟩
    | var | set_var | read => cases hopens

/-- A build with a program of its own. -/
def sampleBuild : Build where
  WHISTLEBLOWER_REGISTRY_ELF := [1]
  WHISTLEBLOWER_REGISTRY_PATH := "whistleblower_registry.bin"
  parse_program := fun _ => .ok (Vector.replicate 8 1)

/-- A process in which the sequencer is set, and nothing else. -/
def sampleProcess : PluginProcess where
  env := Function.update (fun _ => none) "NSSA_SEQUENCER_URL" (some "http://127.0.0.1:3040")
  backends := []
  openings := []

/-- A machine without any of the files. -/
def noFiles : ProgramFiles where
  ffiLibraryDir := ""
  sourceTreeProgramBinPath := ""
  fileExists := fun _ => false

/-- Two calls of two backends, the second of which is constructed while the first call runs. -/
def twoBackends : List PluginTurn :=
  let hash := String.ofList (List.replicate 64 'a')
  [.constructed, .called 0 "zFirst" hash, .answered 0, .constructed, .called 1 "zSecond" hash, .answered 1, .answered 0,
    .answered 1]

theorem calls_open_their_wallet_interleaved :
    ∃ last opening, transition.run (PluginProcess.act sampleBuild noFiles) sampleProcess twoBackends = some last ∧
      last.openings[1]? = some opening ∧ (∃ resume, opening.pending = .ask (I := HostIo) .from_env resume) ∧
        last.env "NSSA_WALLET_HOME_DIR" = some opening.settings.m_walletPath ∧
        last.env "NSSA_SEQUENCER_URL" = some opening.settings.m_sequencerUrl := by
  have hrun : (transition.run (PluginProcess.act sampleBuild noFiles) sampleProcess twoBackends).any (fun last =>
      last.openings[1]?.any Opening.opens) = true := by
    decide +kernel
  obtain ⟨last, hlast, hopened⟩ := (Option.any_eq_true _ _).mp hrun
  obtain ⟨opening, hopening, hopens⟩ := (Option.any_eq_true _ _).mp hopened
  obtain ⟨resume, hpending⟩ := Opening.eq_ask_of_opens hopens
  obtain ⟨_, _, hcalls⟩ := calls_open_their_wallet Qt.writes_standard Qt.writesOnly_standard rfl rfl
    (PluginProcess.steps_of_run hlast)
  obtain ⟨_, _, hasks, _⟩ := hcalls opening (List.mem_of_getElem? hopening)
  exact ⟨last, opening, hlast, hopening, ⟨resume, hpending⟩, hasks .from_env resume hpending⟩

end whistleblower_ui
