import Whistleblower.Lez.Client

open nssa_core whistleblower_core document_indexing

namespace whistleblower_lez_adapter

/-- The variables of a process. One that is no text is as good as not set. -/
abbrev Env := String → Option String

/-- What is asked of the machine while a client is set up. A wallet opens with the variables
    as they are then. -/
inductive HostCall where
  | var (name : String)
  | set_var (name value : String)
  | read (path : String)
  | from_env
  deriving DecidableEq, Repr

/-- Errors arrive as the text they are reported with. -/
def HostCall.Response : HostCall → Type
  | .var _ => Option String
  | .set_var _ _ => Unit
  | .read _ => Except String (List UInt8)
  | .from_env => Except String Unit

def HostIo : Interface where
  Request := HostCall
  Response := HostCall.Response

/-- What the answer to a request may be, and the variables after it. Setting a variable to a
    text with a null character panics. -/
def HostCall.Answered (env : Env) : (request : HostCall) → request.Response → Env → Prop
  | .var name, response, after => response = env name ∧ after = env
  | .set_var name value, _, after => '\x00' ∉ value.toList ∧ after = Function.update env name (some value)
  | .read _, _, after => after = env
  | .from_env, _, after => after = env

/-- The program that is built in, or the path that stands for it, and the program in an ELF. -/
structure Build where
  WHISTLEBLOWER_REGISTRY_ELF : List UInt8
  WHISTLEBLOWER_REGISTRY_PATH : String
  parse_program : List UInt8 → Except String ProgramId

/-- `str::parse::<u64>`: digits, after at most one plus sign. -/
def parse_u64 (s : String) : Option UInt64 :=
  let digits := match s.toList with
    | '+' :: rest => rest
    | chars => chars
  if digits = [] then none
  else if digits.all Char.isDigit then
    let n := digits.foldl (fun n c => 10 * n + (c.toNat - '0'.toNat)) 0
    if n < 2 ^ 64 then some (UInt64.ofNat n) else none
  else none

/-- The confirmation time that a client is built with, by the variable for it. -/
def given_confirm_secs (given : Option String) : UInt64 := ((given.bind parse_u64).filter fun s => 0 < s).getD 180

theorem given_confirm_secs_pos (given : Option String) : 0 < given_confirm_secs given := by
  rw [given_confirm_secs]
  cases hsecs : (given.bind parse_u64).filter fun s => 0 < s with
  | none => decide
  | some secs => exact of_decide_eq_true (Option.filter_eq_some_iff.mp hsecs).2

namespace LezRegistryClient

def with_program_bytes (build : Build) (elf : List UInt8) : Async HostIo (Except AdapterError LezRegistryClient) :=
  match build.parse_program elf with
  | .error e => pure (.error (.non_retryable ("parse program ELF: " ++ e)))
  | .ok program_id => do
    let given ← Async.call (I := HostIo) (.var "WHISTLEBLOWER_ANCHOR_CONFIRM_SECS")
    pure (.ok { program_id, confirm_secs := given_confirm_secs given, timestamp_source := .SystemTimeMs })

def new (build : Build) : Async HostIo (Except AdapterError LezRegistryClient) :=
  if build.WHISTLEBLOWER_REGISTRY_ELF = [] then do
    match ← Async.call (I := HostIo) (.read build.WHISTLEBLOWER_REGISTRY_PATH) with
    | .error e => pure (.error (.non_retryable ("embedded registry ELF is empty and fallback path " ++
        build.WHISTLEBLOWER_REGISTRY_PATH ++ " could not be read: " ++ e)))
    | .ok elf => with_program_bytes build elf
  else with_program_bytes build build.WHISTLEBLOWER_REGISTRY_ELF

end LezRegistryClient

end whistleblower_lez_adapter
