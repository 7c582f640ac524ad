/-
The incentives contract's queries (`contract.rs`, `query`).

`ProgramFunding` lists a program's fundings through the
`pay_from_epoch` multi-index: the fundings under the program, in the
order of (`pay_from_epoch`, funding id). `EpochInfo` loads the record of
one epoch of a program, and fails with `StdError::NotFound` of its type
where none is stored. The JSON encoding of the answer is left out.
-/
import NibiruWasm.Incentives.Contract

namespace NibiruWasm.Incentives

open Cosmwasm Chain

/-- `QueryMsg`. -/
inductive QueryMsg
  | programFunding (programId : ℕ)
  | epochInfo (programId epochNumber : ℕ)
  deriving DecidableEq, Repr

/-- What `query` answers. -/
inductive QueryResponse
  | fundings (fundings : List Funding)
  | epochInfo (info : EpochInfo)
  deriving DecidableEq, Repr

variable (s : State)

/-- The `ProgramFunding` arm: the program's fundings by the
`pay_from_epoch` index. -/
def queryProgramFunding (programId : ℕ) : List Funding :=
  (subPrefixRange Funding.payFromEpochKey programId none none s.funding).map (·.2)

/-- The `EpochInfo` arm: `EPOCH_INFO.load`. -/
def queryEpochInfo (programId epochNumber : ℕ) : Except StdError EpochInfo :=
  match s.epochInfo.lookup (programId, epochNumber) with
  | some info => .ok info
  | none => .error (.notFound "incentives::state::EpochInfo")

/-- `query`. -/
def query : QueryMsg → Except StdError QueryResponse
  | .programFunding programId => .ok (.fundings (queryProgramFunding s programId))
  | .epochInfo programId epochNumber => .epochInfo <$> queryEpochInfo s programId epochNumber

end NibiruWasm.Incentives
