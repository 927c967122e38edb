import CredMesh.Shared.IxIntrospection
import CredMesh.Spl.Token

/-!
# Errors

The error codes of the two programs and the ways in which an instruction can fail outside their
handlers.
-/

namespace CredMesh

inductive CredmeshError
  | insufficientIdleLiquidity
  | receivableExpired
  | receivableStale
  | advanceExceedsCap
  | advanceExceedsCredit
  | ed25519Missing
  | ed25519SignerUnknown
  | ed25519OffsetMismatch
  | ed25519MessageMismatch
  | memoNonceMismatch
  | memoMissing
  | invalidPayer
  | notSettleable
  | notLiquidatable
  | mathOverflow
  | governanceRequired
  | pendingParamsNotReady
  | noPendingParams
  | replayDetected
  | invalidAdvanceState
  | waterfallSumMismatch
  | lateDaysExceeded
  | invalidFeeCurve
  | invalidChainId
  | agentWindowCapExceeded
  deriving DecidableEq

inductive AttestorRegistryError
  | governanceRequired
  | invalidKind
  deriving DecidableEq

/-- The account constraints that Anchor checks before a handler runs. -/
inductive AnchorError
  | accountNotSigner
  | accountNotInitialized
  | accountAlreadyInUse
  | constraintSeeds
  | constraintAddress
  | constraintTokenMint
  | constraintTokenOwner
  | constraintAssociated
  deriving DecidableEq

/-- Why an instruction was refused. `panic` is an arithmetic overflow of an unchecked operator,
which the release profile traps. -/
inductive Error
  | credmesh (error : CredmeshError)
  | registry (error : AttestorRegistryError)
  | anchor (error : AnchorError)
  | token (error : Spl.TokenError)
  | panic
  deriving DecidableEq

end CredMesh
