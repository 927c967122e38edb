import Mathlib.Data.List.Induction
import CredMesh.Chain.Dispatch
import CredMesh.Foundation.BaseEncoding
import CredMesh.Keeper.AdvanceDecoder

/-!
# A tick of the keeper

The keeper asks for the accounts of the escrow that begin like an advance, selects those that are
issued and past their grace period, and builds an instruction for each of them. Its integers are
unbounded. The addresses in an instruction, the advance's own apart, belong to the pool of the one
mint that the keeper is configured with.
-/

namespace CredMesh.Keeper

open Outcome Escrow ByteString

/-- The default of `LIQUIDATION_GRACE_SECONDS`. -/
def defaultGraceSeconds : ℤ := 14 * 24 * 60 * 60

structure Config where
  poolAssetMint : Pubkey
  signer : Pubkey
  liquidationGraceSeconds : ℤ

/-! ## The instruction -/

inductive AccountRole
  | readonly
  | writable
  | readonlySigner
  | writableSigner
  deriving DecidableEq

namespace AccountRole

def isSigner : AccountRole → Bool
  | readonlySigner => true
  | writableSigner => true
  | _ => false

def isWritable : AccountRole → Bool
  | writable => true
  | writableSigner => true
  | _ => false

end AccountRole

structure LiquidateAccounts where
  cranker : Address
  advance : Address
  consumed : Address
  issuanceLedger : Address
  tombstone : Address
  pool : Address
  systemProgram : Address

structure LiquidateIx where
  programAddress : Pubkey
  accounts : List (Address × AccountRole)
  data : List UInt8
  deriving DecidableEq

def liquidateDiscriminator : List UInt8 := EscrowMethod.liquidate.sighash.toList

def buildLiquidateIx (programId : Pubkey) (accounts : LiquidateAccounts)
    (liquidateDiscriminator : List UInt8) : LiquidateIx where
  programAddress := programId
  accounts := [
    (accounts.cranker, .writableSigner),
    (accounts.advance, .writable),
    (accounts.consumed, .readonly),
    (accounts.issuanceLedger, .writable),
    (accounts.tombstone, .writable),
    (accounts.pool, .writable),
    (accounts.systemProgram, .readonly)]
  data := liquidateDiscriminator

/-- The seeds that two slices of 32 bytes stand for. -/
def seedsOf (pool : Pubkey) (agent receivableId : List UInt8) : AdvanceSeeds :=
  ⟨pool, arrayAt 32 agent 0, arrayAt 32 receivableId 0⟩

def deriveConsumedPda (pool : Pubkey) (agent receivableId : List UInt8) : Address :=
  .consumed (seedsOf pool agent receivableId)

def deriveTombstonePda (pool : Pubkey) (agent receivableId : List UInt8) : Address :=
  .tombstone (seedsOf pool agent receivableId)

def deriveIssuanceLedgerPda (pool : Pubkey) (agent : List UInt8) : Address :=
  .issuanceLedger ⟨pool, arrayAt 32 agent 0⟩

def derivePoolPda (rt : Runtime) (cfg : Config) : Pubkey := (rt.poolPda cfg.poolAssetMint).1

/-- The address `11111111111111111111111111111111`. -/
def systemProgram : Pubkey := defaultPubkey

def liquidateIx (pool signer : Pubkey) (adv : DecodedAdvance) : LiquidateIx :=
  buildLiquidateIx ProgramIds.escrow {
    cranker := .key signer
    advance := adv.pubkey
    consumed := deriveConsumedPda pool adv.agent adv.receivableId
    issuanceLedger := deriveIssuanceLedgerPda pool adv.agent
    tombstone := deriveTombstonePda pool adv.agent adv.receivableId
    pool := .key pool
    systemProgram := .key systemProgram } liquidateDiscriminator

/-! ## The loop -/

/-- An account as the node returns it, with its data in base64. -/
structure KeyedAccount where
  pubkey : Address
  data : List Char

/-- The filter of the request for accounts. -/
def advanceDiscriminator : List UInt8 := AccountKind.advance.discriminator.toList

/-- The grace period of an issued advance is over. -/
def isLiquidatable (graceSeconds nowSec : ℤ) (decoded : DecodedAdvance) : Bool :=
  decoded.state = advanceStateIssued ∧ decoded.expiresAt + graceSeconds ≤ nowSec

def selectNext (graceSeconds nowSec : ℤ) (liquidatable : List DecodedAdvance)
    (acc : KeyedAccount) : Except DecodeError (List DecodedAdvance) := do
  match ← decodeAdvance acc.pubkey (Base64.decode acc.data) with
  | none => pure liquidatable
  | some decoded =>
      if isLiquidatable graceSeconds nowSec decoded then pure (liquidatable ++ [decoded])
      else pure liquidatable

/-- The loop over the accounts that the node returned. -/
def select (graceSeconds nowSec : ℤ) (result : List KeyedAccount) :
    Except DecodeError (List DecodedAdvance) :=
  result.foldlM (selectNext graceSeconds nowSec) []

/-- The instructions that a tick sends. -/
def tick (rt : Runtime) (cfg : Config) (nowSec : ℤ) (result : List KeyedAccount) :
    Except DecodeError (List LiquidateIx) := do
  let liquidatable ← select cfg.liquidationGraceSeconds nowSec result
  pure (liquidatable.map (liquidateIx (derivePoolPda rt cfg) cfg.signer))

/-! ## What is selected -/

/-- What the decoder makes of an account. -/
def KeyedAccount.decoded (acc : KeyedAccount) : Option DecodedAdvance :=
  (decodeAdvance acc.pubkey (Base64.decode acc.data)).toOption.join

theorem KeyedAccount.decodeAdvance_eq (acc : KeyedAccount) :
    decodeAdvance acc.pubkey (Base64.decode acc.data) = .ok acc.decoded := by
  obtain ⟨found, hdecoded⟩ := exists_decodeAdvance acc.pubkey (Base64.decode acc.data)
  rw [decoded, hdecoded]
  rfl

theorem selectNext_eq (graceSeconds nowSec : ℤ) (liquidatable : List DecodedAdvance)
    (acc : KeyedAccount) :
    selectNext graceSeconds nowSec liquidatable acc =
      .ok (liquidatable ++ acc.decoded.toList.filter (isLiquidatable graceSeconds nowSec)) := by
  rw [selectNext, acc.decodeAdvance_eq, ok_bind]
  cases acc.decoded with
  | none => simp [pure, Except.pure]
  | some decoded =>
      by_cases h : isLiquidatable graceSeconds nowSec decoded
      · simp [h, pure, Except.pure]
      · simp [h, pure, Except.pure]

/-- The loop never throws, and keeps what can be decoded and liquidated, in the order of the
node's answer. -/
theorem select_eq (graceSeconds nowSec : ℤ) (result : List KeyedAccount) :
    select graceSeconds nowSec result =
      .ok ((result.filterMap KeyedAccount.decoded).filter
        (isLiquidatable graceSeconds nowSec)) := by
  induction result using List.reverseRecOn with
  | nil => rfl
  | append_singleton result acc ih =>
      rw [select, List.foldlM_append, ← select, ih, ok_bind, List.foldlM_cons, selectNext_eq,
        ok_bind, List.filterMap_append, List.filter_append]
      cases hdecoded : acc.decoded <;> simp [hdecoded, pure, Except.pure]

end CredMesh.Keeper
