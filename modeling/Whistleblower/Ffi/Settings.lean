import Whistleblower.Ffi.Anchor
import Whistleblower.Lez.Setup

open nssa_core whistleblower_core whistleblower_lez_adapter

namespace whistleblower_ffi

/-- Set a variable, if there is a value for it. -/
def set_var (name : String) : Option String → Async HostIo Unit
  | some value => Async.call (I := HostIo) (.set_var name value)
  | none => pure ()

def init_wallet (v : json.Value) : Async HostIo (Except FfiError Unit) := do
  set_var "NSSA_WALLET_HOME_DIR" (json.str_at v "wallet_path")
  set_var "NSSA_SEQUENCER_URL" (json.str_at v "sequencer_url")
  match ← Async.call (I := HostIo) .from_env with
  | .error e => pure (.error (.failed ("wallet init: " ++ e)))
  | .ok () => pure (.ok ())

/-- The file of the program, by the arguments or else by the variables. -/
def program_bin (v : json.Value) : Async HostIo (Option String) :=
  match json.str_at v "program_bin" with
  | some path => pure (some path)
  | none => do
    match ← Async.call (I := HostIo) (.var "WHISTLEBLOWER_PROGRAM_BIN") with
    | some path => pure (some path)
    | none => Async.call (I := HostIo) (.var "WL_PROGRAM_BIN")

/-- A client of the program in a file. -/
def client_of_file (build : Build) (path : String) : Async HostIo (Except FfiError LezRegistryClient) := do
  match ← Async.call (I := HostIo) (.read path) with
  | .error e => pure (.error (.failed ("read program_bin " ++ path ++ ": " ++ e)))
  | .ok elf =>
    if elf = [] then pure (.error (.failed ("program_bin " ++ path ++ " is empty")))
    else do
      let client ← LezRegistryClient.with_program_bytes build elf
      pure (client.mapError fun e =>
        .failed ("LezRegistryClient::with_program_bytes(" ++ path ++ "): " ++ e.message))

/-- A client of the program that is built in. -/
def embedded_client (build : Build) : Async HostIo (Except FfiError LezRegistryClient) := do
  let client ← LezRegistryClient.new build
  pure (client.mapError fun e => .failed ("LezRegistryClient::new: " ++ e.message))

def registry_client (build : Build) (v : json.Value) : Async HostIo (Except FfiError LezRegistryClient) := do
  match ← program_bin v with
  | some path => if text.trim path ≠ "" then client_of_file build path else embedded_client build
  | none => embedded_client build

/-- What `anchor_one_impl` asks of its machine, up to the client. -/
def anchor_one_client (build : Build) (number_fits : List UInt8 → Bool) (args : List UInt8) :
    Async HostIo (Except FfiError LezRegistryClient) :=
  match json.from_slice_any number_fits args with
  | .error e => pure (.error (.invalid_json e))
  | .ok v => do
    match ← init_wallet v with
    | .error e => pure (.error e)
    | .ok () =>
      match (json.str_at v "cid").map CanonicalCid.new with
      | none => pure (.error (.missing "cid"))
      | some (.error e) => pure (.error (.invalid_cid e))
      | some (.ok _) =>
        match (json.str_at v "metadata_hash_hex").map parse_metadata_hash with
        | none => pure (.error (.missing "metadata_hash_hex"))
        | some (.error e) => pure (.error e)
        | some (.ok _) => registry_client build v

/-- The same, around the text of the argument. -/
def anchor_one_opening (build : Build) (number_fits : List UInt8 → Bool) (args_json : Option (List UInt8)) :
    Async HostIo (Except FfiError LezRegistryClient) :=
  match arg_to_str args_json with
  | .error e => pure (.error e)
  | .ok args => anchor_one_client build number_fits args

/-- A variable has the text that calls set it to. -/
def IsSet (wallet_path sequencer_url : String) (env : Env) (name : String) : Prop :=
  name = "NSSA_WALLET_HOME_DIR" ∧ env name = some wallet_path ∨
    name = "NSSA_SEQUENCER_URL" ∧ env name = some sequencer_url

/-- Calls run at the same time, and set these two variables to the same texts. -/
def sharing (wallet_path sequencer_url : String) : Async.Environment HostIo Env where
  moves before after := ∀ name, after name = before name ∨ IsSet wallet_path sequencer_url after name
  answers := HostCall.Answered
  moves_refl _ _ := .inl rfl
  moves_trans := by
    intro first second third hfirst hsecond name
    obtain hsame | hset := hsecond name
    · exact (hfirst name).imp hsame.trans (by rw [IsSet, IsSet, hsame]; exact id)
    · exact .inr hset

/-- What a call may ask, whose arguments give the wallet, the sequencer and the program's file. -/
def AsksFor (build : Build) (wallet_path sequencer_url program_bin : String) (env : Env) : HostCall → Prop
  | .var _ => True
  | .set_var name value =>
    name = "NSSA_WALLET_HOME_DIR" ∧ value = wallet_path ∨ name = "NSSA_SEQUENCER_URL" ∧ value = sequencer_url
  | .read path => path = if text.trim program_bin = "" then build.WHISTLEBLOWER_REGISTRY_PATH else program_bin
  | .from_env =>
    env "NSSA_WALLET_HOME_DIR" = some wallet_path ∧ env "NSSA_SEQUENCER_URL" = some sequencer_url

/-- The arguments that a call is made with, which leave the program's file out if there is none. -/
structure Gives (v : json.Value) (wallet_path sequencer_url program_bin : String) : Prop where
  wallet_path : json.str_at v "wallet_path" = some wallet_path
  sequencer_url : json.str_at v "sequencer_url" = some sequencer_url
  program_bin : json.str_at v "program_bin" = if program_bin = "" then none else some program_bin

/-- A file that is left out is not named by the variables either. -/
def Unnamed (program_bin : String) (env : Env) : Prop :=
  program_bin = "" → ∀ name ∈ ["WHISTLEBLOWER_PROGRAM_BIN", "WL_PROGRAM_BIN"], ∀ path, env name = some path → path = ""

section

variable {build : Build} {wallet_path sequencer_url program_bin : String} {env later : Env}

theorem Unnamed.moves (hunnamed : Unnamed program_bin env)
    (hmoves : (sharing wallet_path sequencer_url).moves env later) : Unnamed program_bin later := by
  intro hempty name hname path hpath
  obtain hsame | ⟨rfl, _⟩ | ⟨rfl, _⟩ := hmoves name
  · exact hunnamed hempty name hname path (hsame ▸ hpath)
  · simp at hname
  · simp at hname

/-- What a call sets is what every call sets. -/
theorem moves_of_answered {request : HostCall} {response : request.Response}
    (hasks : AsksFor build wallet_path sequencer_url program_bin env request)
    (hanswered : request.Answered env response later) : (sharing wallet_path sequencer_url).moves env later := by
  intro other
  cases request with
  | var name => exact .inl (congrFun hanswered.2 other)
  | read path => exact .inl (congrFun hanswered other)
  | from_env => exact .inl (congrFun hanswered other)
  | set_var name value =>
    obtain ⟨_, rfl⟩ := hanswered
    by_cases hother : other = name
    · subst hother
      rw [IsSet, Function.update_self]
      obtain ⟨hname, hvalue⟩ | ⟨hname, hvalue⟩ := hasks
      · exact .inr (.inl ⟨hname, congrArg some hvalue⟩)
      · exact .inr (.inr ⟨hname, congrArg some hvalue⟩)
    · exact .inl (Function.update_of_ne hother _ _)

/-- A variable that is set stays so. -/
theorem IsSet.moves {name : String} (hset : IsSet wallet_path sequencer_url env name)
    (hmoves : (sharing wallet_path sequencer_url).moves env later) : IsSet wallet_path sequencer_url later name := by
  obtain hsame | hlater := hmoves name
  · rw [IsSet, hsame]
    exact hset
  · exact hlater

/-- A client is built with the confirmation time that the variable for it gives. -/
def Patient {E : Type} (env : Env) (result : Except E LezRegistryClient) : Prop :=
  ∀ client, result = .ok client →
    client.confirm_secs = given_confirm_secs (env "WHISTLEBLOWER_ANCHOR_CONFIRM_SECS")

theorem Patient.of_error {E : Type} (env : Env) (e : E) : Patient env (.error e) := fun _ hnone => nomatch hnone

theorem Patient.moves {E : Type} {result : Except E LezRegistryClient} (hpatient : Patient env result)
    (hmoves : (sharing wallet_path sequencer_url).moves env later) : Patient later result := by
  intro client hclient
  obtain hsame | ⟨hname, _⟩ | ⟨hname, _⟩ := hmoves "WHISTLEBLOWER_ANCHOR_CONFIRM_SECS"
  · rw [hsame]
    exact hpatient client hclient
  · exact absurd hname (by decide)
  · exact absurd hname (by decide)

theorem Patient.mapError {E F : Type} {result : Except E LezRegistryClient} (hpatient : Patient env result)
    (tell : E → F) : Patient env (result.mapError tell) := by
  intro client hclient
  cases result with
  | error e => cases hclient
  | ok found => exact hpatient client (congrArg Except.ok (Except.ok.inj hclient))

/-- A request, after which the rest may rely on its answer. -/
theorem asked_ensures {A : Type} {request : HostCall} {next : request.Response → Async HostIo A}
    {post : Env → A → Prop}
    (hasks : ∀ later, (sharing wallet_path sequencer_url).moves env later →
      AsksFor build wallet_path sequencer_url program_bin later request)
    (hnext : ∀ asked response after, (sharing wallet_path sequencer_url).moves env asked →
      request.Answered asked response after → (sharing wallet_path sequencer_url).moves env after →
      Async.Ensures (sharing wallet_path sequencer_url) (AsksFor build wallet_path sequencer_url program_bin) post
        (next response) after) :
    Async.Ensures (sharing wallet_path sequencer_url) (AsksFor build wallet_path sequencer_url program_bin) post
      (Async.call (I := HostIo) request >>= next) env := by
  intro asked hasked
  refine ⟨hasks asked hasked, fun response after hanswered => ?_⟩
  have hafter := moves_of_answered (hasks asked hasked) hanswered
  exact hnext asked response after hasked hanswered ((sharing _ _).moves_trans _ _ _ hasked hafter)

theorem with_program_bytes_ensures (elf : List UInt8) :
    Async.Ensures (sharing wallet_path sequencer_url) (AsksFor build wallet_path sequencer_url program_bin) Patient
      (LezRegistryClient.with_program_bytes build elf) env := by
  rw [LezRegistryClient.with_program_bytes]
  split
  · exact .ret fun later _ => Patient.of_error later _
  · refine asked_ensures (fun _ _ => trivial) ?_
    intro asked given after _ hanswered _
    refine .ret fun last hlast => Patient.moves ?_ hlast
    intro client hclient
    obtain rfl := Except.ok.inj hclient
    rw [hanswered.2]
    exact congrArg given_confirm_secs hanswered.1

theorem client_of_file_ensures (hfile : text.trim program_bin ≠ "") :
    Async.Ensures (sharing wallet_path sequencer_url) (AsksFor build wallet_path sequencer_url program_bin) Patient
      (client_of_file build program_bin) env := by
  refine asked_ensures (fun _ _ => (if_neg hfile).symm) ?_
  intro _ read after _ _ _
  cases read with
  | error e => exact .ret fun last _ => Patient.of_error last _
  | ok elf =>
    change Async.Ensures _ _ _ (if elf = [] then _ else _) after
    split
    · exact .ret fun last _ => Patient.of_error last _
    · refine (with_program_bytes_ensures elf).bind fun after client hclient => ?_
      exact .ret fun last hlast => (hclient last hlast).mapError _

theorem embedded_client_ensures (hnone : text.trim program_bin = "") :
    Async.Ensures (sharing wallet_path sequencer_url) (AsksFor build wallet_path sequencer_url program_bin) Patient
      (embedded_client build) env := by
  have hnew : Async.Ensures (sharing wallet_path sequencer_url) (AsksFor build wallet_path sequencer_url program_bin)
      Patient (LezRegistryClient.new build) env := by
    rw [LezRegistryClient.new]
    split
    · refine asked_ensures (fun _ _ => (if_pos hnone).symm) ?_
      intro _ read _ _ _ _
      cases read with
      | error e => exact .ret fun last _ => Patient.of_error last _
      | ok elf => exact with_program_bytes_ensures elf
    · exact with_program_bytes_ensures _
  refine hnew.bind fun after client hclient => ?_
  exact .ret fun last hlast => (hclient last hlast).mapError _

/-- The file that is found is the one that is given, or a blank one. -/
theorem program_bin_ensures {v : json.Value} (hgives : Gives v wallet_path sequencer_url program_bin)
    (hunnamed : Unnamed program_bin env) :
    Async.Ensures (sharing wallet_path sequencer_url) (AsksFor build wallet_path sequencer_url program_bin)
      (fun _ path => if program_bin = "" then ∀ found ∈ path, found = "" else path = some program_bin)
      (whistleblower_ffi.program_bin v) env := by
  rw [whistleblower_ffi.program_bin, hgives.program_bin]
  by_cases hempty : program_bin = ""
  · simp only [if_pos hempty]
    refine asked_ensures (fun _ _ => trivial) ?_
    intro asked response after hasked hanswered hafter
    cases hresponse : (response : Option String) with
    | some path =>
      refine .ret fun last _ found hfound => ?_
      obtain rfl := Option.some.inj hfound
      exact (hunnamed.moves hasked) hempty _ (by simp) _ (hanswered.1.symm.trans hresponse)
    | none =>
      refine .call (fun _ _ => trivial) ?_
      intro before response after last hbefore hanswered _ found hfound
      have hmoves := (sharing wallet_path sequencer_url).moves_trans _ _ _ hafter hbefore
      exact (hunnamed.moves hmoves) hempty _ (by simp) _ (hanswered.1.symm.trans hfound)
  · simp only [if_neg hempty]
    exact .ret fun _ _ => rfl

theorem registry_client_ensures {v : json.Value} (hgives : Gives v wallet_path sequencer_url program_bin)
    (hunnamed : Unnamed program_bin env) :
    Async.Ensures (sharing wallet_path sequencer_url) (AsksFor build wallet_path sequencer_url program_bin) Patient
      (registry_client build v) env := by
  refine (program_bin_ensures hgives hunnamed).bind fun later path hpath => ?_
  have hfound := hpath later ((sharing _ _).moves_refl later)
  by_cases hempty : program_bin = ""
  · have hblank : text.trim program_bin = "" := by
      rw [hempty]
      decide
    rw [if_pos hempty] at hfound
    cases path with
    | none => exact embedded_client_ensures hblank
    | some path =>
      obtain rfl := hfound path rfl
      exact embedded_client_ensures hblank
  · rw [if_neg hempty] at hfound
    subst hfound
    by_cases hblank : text.trim program_bin = ""
    · simp only [hblank, ne_eq, not_true_eq_false, if_false]
      exact embedded_client_ensures hblank
    · simp only [ne_eq, hblank, not_false_eq_true, if_true]
      exact client_of_file_ensures hblank

/-- A call opens the wallet that its arguments name. -/
theorem init_wallet_ensures {v : json.Value} (hgives : Gives v wallet_path sequencer_url program_bin) :
    Async.Ensures (sharing wallet_path sequencer_url) (AsksFor build wallet_path sequencer_url program_bin)
      (fun later _ => (sharing wallet_path sequencer_url).moves env later) (init_wallet v) env := by
  have htrans := (sharing wallet_path sequencer_url).moves_trans
  rw [init_wallet, hgives.wallet_path, hgives.sequencer_url]
  refine asked_ensures (fun _ _ => .inl ⟨rfl, rfl⟩) ?_
  intro asked _ first _ hanswered hfirst
  have hwallet : IsSet wallet_path sequencer_url first "NSSA_WALLET_HOME_DIR" := by
    rw [IsSet, hanswered.2, Function.update_self]
    exact .inl ⟨rfl, rfl⟩
  refine asked_ensures (fun _ _ => .inr ⟨rfl, rfl⟩) ?_
  intro asked _ second _ hanswered hsecond
  have hsequencer : IsSet wallet_path sequencer_url second "NSSA_SEQUENCER_URL" := by
    rw [IsSet, hanswered.2, Function.update_self]
    exact .inr ⟨rfl, rfl⟩
  refine asked_ensures ?_ ?_
  · intro later hlater
    obtain ⟨_, hpath⟩ | ⟨hname, _⟩ := (hwallet.moves hsecond).moves hlater
    · obtain ⟨hname, _⟩ | ⟨_, hurl⟩ := hsequencer.moves hlater
      · exact absurd hname (by decide)
      · exact ⟨hpath, hurl⟩
    · exact absurd hname (by decide)
  · intro _ opened after _ _ hafter
    have hmoves := htrans _ _ _ hfirst (htrans _ _ _ hsecond hafter)
    cases opened with
    | error e => exact .ret fun last hlast => htrans _ _ _ hmoves hlast
    | ok opened => exact .ret fun last hlast => htrans _ _ _ hmoves hlast

/-- Whatever runs at the same time and sets the same, a call opens its own wallet, and reads
    no file but that of its program. -/
theorem anchor_one_client_ensures {number_fits : List UInt8 → Bool} {args : List UInt8}
    (hgives : ∀ v, json.from_slice_any number_fits args = .ok v → Gives v wallet_path sequencer_url program_bin)
    (hunnamed : Unnamed program_bin env) :
    Async.Ensures (sharing wallet_path sequencer_url) (AsksFor build wallet_path sequencer_url program_bin) Patient
      (anchor_one_client build number_fits args) env := by
  rw [anchor_one_client]
  cases hread : json.from_slice_any number_fits args with
  | error e => exact .ret fun later _ => Patient.of_error later _
  | ok v =>
    refine (init_wallet_ensures (hgives v hread)).bind fun later opened hopened => ?_
    have hlater := hopened later ((sharing _ _).moves_refl later)
    cases opened with
    | error e => exact .ret fun last _ => Patient.of_error last _
    | ok opened =>
      cases opened
      dsimp only
      split
      · exact .ret fun last _ => Patient.of_error last _
      · exact .ret fun last _ => Patient.of_error last _
      · split
        · exact .ret fun last _ => Patient.of_error last _
        · exact .ret fun last _ => Patient.of_error last _
        · exact registry_client_ensures (hgives v hread) (hunnamed.moves hlater)

end

end whistleblower_ffi
