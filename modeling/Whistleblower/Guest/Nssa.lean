import Mathlib.Tactic.Common

namespace nssa_core

abbrev ProgramId := Vector UInt32 8

structure AccountId where
  value : Vector UInt8 32
  deriving DecidableEq

structure PdaSeed where
  value : Vector UInt8 32
  deriving DecidableEq

end nssa_core

/-- What the execution zone fixes and the registry does not: the address of a
    program-derived account, the owner of an unclaimed account, the number of
    bytes an account holds at most, and the words an instruction travels in. -/
class Nssa where
  for_public_pda : nssa_core.ProgramId → nssa_core.PdaSeed → nssa_core.AccountId
  DEFAULT_PROGRAM_ID : nssa_core.ProgramId
  DATA_MAX_LENGTH : Nat
  serialize_instruction : List UInt8 → List UInt32

namespace nssa_core

variable [Nssa]

/-- Account data, within the limit. -/
structure Data where
  bytes : List UInt8
  fits : bytes.length ≤ Nssa.DATA_MAX_LENGTH
  deriving DecidableEq

def Data.try_from (bytes : List UInt8) : Option Data :=
  if h : bytes.length ≤ Nssa.DATA_MAX_LENGTH then some ⟨bytes, h⟩ else none

theorem Data.bytes_of_try_from {bytes : List UInt8} {data : Data} (htry : Data.try_from bytes = some data) :
    data.bytes = bytes := by
  unfold Data.try_from at htry
  split at htry
  · cases htry
    rfl
  · cases htry

structure Account where
  program_owner : ProgramId
  balance : Nat
  data : Data
  nonce : Nat
  deriving DecidableEq

structure AccountWithMetadata where
  account : Account
  is_authorized : Bool
  account_id : AccountId
  deriving DecidableEq

inductive Claim where
  | Authorized
  | Pda (seed : PdaSeed)
  deriving DecidableEq

structure AccountPostState where
  account : Account
  claim : Option Claim
  deriving DecidableEq

namespace AccountPostState

def new (account : Account) : AccountPostState := { account, claim := none }

/-- Claims the account only if no program owns it. -/
def new_claimed_if_default (account : Account) (claim : Claim) : AccountPostState :=
  { account, claim := if account.program_owner = Nssa.DEFAULT_PROGRAM_ID then some claim else none }

end AccountPostState

structure ProgramInput where
  self_program_id : ProgramId
  caller_program_id : Option ProgramId
  pre_states : List AccountWithMetadata
  instruction : List UInt8

structure ProgramOutput where
  self_program_id : ProgramId
  caller_program_id : Option ProgramId
  instruction_data : List UInt32
  pre_states : List AccountWithMetadata
  post_states : List AccountPostState

/-- A zone that addresses an account by its seed, on which the program is run;
    results hold for every instance. An instruction travels as its length, and a word for
    each byte. -/
instance seedAddressed : Nssa where
  for_public_pda := fun _ seed => ⟨seed.value⟩
  DEFAULT_PROGRAM_ID := Vector.replicate 8 0
  DATA_MAX_LENGTH := 100 * 1024
  serialize_instruction := fun instruction =>
    UInt32.ofNat instruction.length :: instruction.map UInt8.toUInt32

end nssa_core
