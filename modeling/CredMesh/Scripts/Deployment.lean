import CredMesh.Bridge.Attestation
import CredMesh.Chain.Dispatch
import CredMesh.Foundation.EcmaScript

/-!
# The deployment scripts

Three scripts set a deployment up: they create a pool, create the registry and prepare the addition
of a bridge signer. Each encodes its instruction by hand, at offsets of its own. The arguments are
those of the command line after `parseInt`, `BigInt` and `new PublicKey`; whether an account exists
already is the answer of the node.
-/

namespace CredMesh.Scripts

open Outcome EcmaScript ByteString Escrow

inductive ScriptError
  | governanceIsDeployer
  | alreadyInitialised
  | chainId
  | maxAdvancePctBps
  | zeroKey
  | kind
  | rangeError
  deriving DecidableEq

/-- The texts that the scripts give; the others are the runtime's or name an address. -/
def ScriptError.message : ScriptError → Option String
  | chainId => some ("--chain-id must equal 1 (mainnet) or 2 (devnet) — see " ++
      "crates/credmesh-shared::ed25519_credit_message::CHAIN_ID_*")
  | maxAdvancePctBps => some "--max-advance-pct-bps cannot exceed 10000 (100%)"
  | _ => none

/-! ## Buffers -/

/-- What `writeUInt16LE` stores of a number: its integral part, and 0 for NaN. -/
def toUInt16 : Number → Option UInt16
  | .nan => some 0
  | .finite value => if 0 ≤ value ∧ value ≤ 65535 then some (UInt16.ofNat ⌊value⌋.toNat) else none
  | _ => none

def writeUInt16LE (buf : List UInt8) (value : Number) (offset : ℕ) :
    Except ScriptError (List UInt8) := do
  let stored ← okOr (toUInt16 value) .rangeError
  pure (writeAt buf offset (leBytes 2 stored.toNat))

def writeBigUInt64LE (buf : List UInt8) (value : ℤ) (offset : ℕ) :
    Except ScriptError (List UInt8) :=
  (Bridge.writeU64LE buf offset value).mapError fun _ ↦ .rangeError

def writeBigInt64LE (buf : List UInt8) (value : ℤ) (offset : ℕ) :
    Except ScriptError (List UInt8) :=
  (Bridge.writeI64LE buf offset value).mapError fun _ ↦ .rangeError

/-! ## `init_pool.ts` -/

structure FeeCurve where
  utilizationKinkBps : Number
  baseRateBps : Number
  kinkRateBps : Number
  maxRateBps : Number
  durationPerDayBps : Number
  riskPremiumBps : Number
  poolLossSurchargeBps : Number

def defaultFeeCurve : FeeCurve where
  utilizationKinkBps := .finite 8000
  baseRateBps := .finite 200
  kinkRateBps := .finite 1000
  maxRateBps := .finite 5000
  durationPerDayBps := .finite 5
  riskPremiumBps := .finite 100
  poolLossSurchargeBps := .finite 0

def encodeFeeCurve (fc : FeeCurve) : Except ScriptError (List UInt8) := do
  let buf := List.replicate 14 0
  let buf ← writeUInt16LE buf fc.utilizationKinkBps 0
  let buf ← writeUInt16LE buf fc.baseRateBps 2
  let buf ← writeUInt16LE buf fc.kinkRateBps 4
  let buf ← writeUInt16LE buf fc.maxRateBps 6
  let buf ← writeUInt16LE buf fc.durationPerDayBps 8
  let buf ← writeUInt16LE buf fc.riskPremiumBps 10
  writeUInt16LE buf fc.poolLossSurchargeBps 12

structure InitPoolParams where
  feeCurve : FeeCurve
  maxAdvancePctBps : Number
  maxAdvanceAbs : ℤ
  timelockSeconds : ℤ
  governance : Pubkey
  treasuryAta : Pubkey
  chainId : ℤ
  agentWindowCap : ℤ

def encodeInitPoolParams (p : InitPoolParams) : Except ScriptError (List UInt8) := do
  let fc ← encodeFeeCurve p.feeCurve
  let buf := List.replicate (2 + 8 + 8 + 32 + 32 + 8 + 8) 0
  let buf ← writeUInt16LE buf p.maxAdvancePctBps 0
  let buf ← writeBigUInt64LE buf p.maxAdvanceAbs 2
  let buf ← writeBigInt64LE buf p.timelockSeconds 10
  let buf := writeAt buf 18 p.governance.toList
  let buf := writeAt buf 50 p.treasuryAta.toList
  let buf ← writeBigUInt64LE buf p.chainId 82
  let buf ← writeBigUInt64LE buf p.agentWindowCap 90
  pure (fc ++ buf)

structure InitPoolArgs where
  assetMint : Pubkey
  governance : Pubkey
  treasuryAta : Pubkey
  maxAdvancePctBps : Number
  maxAdvanceAbs : ℤ
  timelockSeconds : ℤ
  chainId : ℤ
  agentWindowCap : ℤ

/-- The operator `>` on a number, which no NaN satisfies. -/
def exceeds (value : Number) (bound : ℚ) : Bool :=
  match value with
  | .posInfinity => true
  | .finite value => bound < value
  | _ => false

/-- The parameters of a run of `init_pool.ts`. -/
def InitPoolArgs.params (args : InitPoolArgs) : InitPoolParams where
  feeCurve := defaultFeeCurve
  maxAdvancePctBps := args.maxAdvancePctBps
  maxAdvanceAbs := args.maxAdvanceAbs
  timelockSeconds := args.timelockSeconds
  governance := args.governance
  treasuryAta := args.treasuryAta
  chainId := args.chainId
  agentWindowCap := args.agentWindowCap

/-- The instruction that `init_pool.ts` sends; the keys of share mint and vault are fresh. -/
def initPool (rt : Runtime) (deployer shareMint usdcVault : Pubkey) (existing : Bool)
    (args : InitPoolArgs) : Except ScriptError Instruction := do
  require (args.governance ≠ deployer) .governanceIsDeployer
  let (poolPda, _) := rt.poolPda args.assetMint
  require (existing = false) .alreadyInitialised
  require (args.chainId = 1 ∨ args.chainId = 2) .chainId
  require (exceeds args.maxAdvancePctBps 10000 = false) .maxAdvancePctBps
  let params ← encodeInitPoolParams args.params
  pure {
    programId := ProgramIds.escrow
    accounts := [
      ⟨deployer, true, true⟩,
      ⟨poolPda, false, true⟩,
      ⟨args.assetMint, false, false⟩,
      ⟨shareMint, true, true⟩,
      ⟨usdcVault, true, true⟩,
      ⟨ProgramIds.token, false, false⟩,
      ⟨ProgramIds.system, false, false⟩,
      ⟨ProgramIds.rent, false, false⟩]
    data := [116, 233, 199, 204, 115, 159, 171, 36] ++ params }

/-! ## `init_registry.ts` -/

def initRegistry (rt : Runtime) (deployer : Pubkey) (existing : Bool) (governance : Pubkey) :
    Except ScriptError Instruction := do
  require (governance ≠ defaultPubkey) .zeroKey
  require (governance ≠ deployer) .governanceIsDeployer
  let (configPda, _) := rt.attestorConfigPda
  require (existing = false) .alreadyInitialised
  pure {
    programId := ProgramIds.attestorRegistry
    accounts := [
      ⟨deployer, true, true⟩,
      ⟨configPda, false, true⟩,
      ⟨ProgramIds.system, false, false⟩]
    data := [131, 22, 4, 103, 24, 94, 163, 239] ++ governance.toList }

/-! ## `add_allowed_signer.ts` -/

/-- The inner instruction for the governance vault. Without a cranker the system program stands in
for it. -/
def addAllowedSigner (rt : Runtime) (signer : Pubkey) (kind : Number) (cranker : Option Pubkey) :
    Except ScriptError Instruction := do
  require (kind = .finite 0) .kind
  require (signer ≠ defaultPubkey) .zeroKey
  let (configPda, _) := rt.attestorConfigPda
  let (allowedSignerPda, _) := rt.allowedSignerPda signer
  pure {
    programId := ProgramIds.attestorRegistry
    accounts := [
      ⟨cranker.getD ProgramIds.system, true, true⟩,
      ⟨configPda, false, false⟩,
      ⟨allowedSignerPda, false, true⟩,
      ⟨ProgramIds.instructionsSysvar, false, false⟩,
      ⟨ProgramIds.system, false, false⟩]
    data := [161, 49, 31, 187, 122, 45, 33, 245] ++ signer.toList ++ [0] }

/-! ## What is encoded -/

theorem writeUInt16LE_eq_ok {buf written : List UInt8} {value : Number} {offset : ℕ} :
    writeUInt16LE buf value offset = .ok written ↔
      ∃ stored, toUInt16 value = some stored ∧
        written = writeAt buf offset (leBytes 2 stored.toNat) := by
  simp only [writeUInt16LE, bind_eq_ok, okOr_eq_ok, pure_eq_ok, @eq_comm _ written]

theorem writeBigUInt64LE_eq_ok {buf written : List UInt8} {value : ℤ} {offset : ℕ} :
    writeBigUInt64LE buf value offset = .ok written ↔
      ∃ stored : UInt64, value = stored.toNat ∧
        written = writeAt buf offset (leBytes 8 stored.toNat) := by
  rw [writeBigUInt64LE, mapError_eq_ok]
  constructor
  · intro h
    have hrange := h
    simp only [Bridge.writeU64LE, bind_eq_ok, require_eq_ok] at hrange
    obtain ⟨stored, hstored⟩ := UInt64.exists_toNat_eq (show value.toNat < 2 ^ 64 by omega)
    obtain rfl : value = stored.toNat := by omega
    rw [Bridge.writeU64LE_toNat] at h
    exact ⟨stored, rfl, (Except.ok.inj h).symm⟩
  · rintro ⟨stored, rfl, rfl⟩
    exact Bridge.writeU64LE_toNat buf offset stored

theorem writeBigInt64LE_eq_ok {buf written : List UInt8} {value : ℤ} {offset : ℕ} :
    writeBigInt64LE buf value offset = .ok written ↔
      ∃ stored : Int64, value = stored.toInt ∧
        written = writeAt buf offset (leBytes 8 stored.toUInt64.toNat) := by
  rw [writeBigInt64LE, mapError_eq_ok]
  constructor
  · intro h
    have hrange := h
    simp only [Bridge.writeI64LE, bind_eq_ok, require_eq_ok] at hrange
    obtain ⟨stored, hstored⟩ := Int64.exists_toInt_eq (show -2 ^ 63 ≤ value by omega) (by omega)
    obtain rfl : value = stored.toInt := hstored.symm
    rw [Bridge.writeI64LE_toInt] at h
    exact ⟨stored, rfl, (Except.ok.inj h).symm⟩
  · rintro ⟨stored, rfl, rfl⟩
    exact Bridge.writeI64LE_toInt buf offset stored

/-- The curve that the numbers of a script stand for. -/
structure FeeCurve.Denotes (fc : FeeCurve) (curve : Escrow.FeeCurve) : Prop where
  utilizationKinkBps : toUInt16 fc.utilizationKinkBps = some curve.utilizationKinkBps
  baseRateBps : toUInt16 fc.baseRateBps = some curve.baseRateBps
  kinkRateBps : toUInt16 fc.kinkRateBps = some curve.kinkRateBps
  maxRateBps : toUInt16 fc.maxRateBps = some curve.maxRateBps
  durationPerDayBps : toUInt16 fc.durationPerDayBps = some curve.durationPerDayBps
  riskPremiumBps : toUInt16 fc.riskPremiumBps = some curve.riskPremiumBps
  poolLossSurchargeBps : toUInt16 fc.poolLossSurchargeBps = some curve.poolLossSurchargeBps

/-- The parameters that those of a script stand for. -/
structure InitPoolParams.Denotes (p : InitPoolParams) (params : Escrow.InitPoolParams) : Prop where
  feeCurve : p.feeCurve.Denotes params.feeCurve
  maxAdvancePctBps : toUInt16 p.maxAdvancePctBps = some params.maxAdvancePctBps
  maxAdvanceAbs : p.maxAdvanceAbs = params.maxAdvanceAbs.toNat
  timelockSeconds : p.timelockSeconds = params.timelockSeconds.toInt
  governance : p.governance = params.governance
  treasuryAta : p.treasuryAta = params.treasuryAta
  chainId : p.chainId = params.chainId.toNat
  agentWindowCap : p.agentWindowCap = params.agentWindowCap.toNat

/-- A curve is encoded as Borsh encodes the curve that it stands for. -/
theorem encodeFeeCurve_eq_ok {fc : FeeCurve} {buf : List UInt8} (h : encodeFeeCurve fc = .ok buf) :
    ∃ curve, fc.Denotes curve ∧ buf = Escrow.FeeCurve.codec.encode curve := by
  simp only [encodeFeeCurve, bind_eq_ok, writeUInt16LE_eq_ok] at h
  obtain ⟨_, ⟨kinkBps, hkinkBps, rfl⟩, _, ⟨base, hbase, rfl⟩, _, ⟨kink, hkink, rfl⟩, _,
    ⟨max, hmax, rfl⟩, _, ⟨perDay, hperDay, rfl⟩, _, ⟨premium, hpremium, rfl⟩, surcharge,
    hsurcharge, rfl⟩ := h
  refine ⟨⟨kinkBps, base, kink, max, perDay, premium, surcharge⟩,
    ⟨hkinkBps, hbase, hkink, hmax, hperDay, hpremium, hsurcharge⟩, ?_⟩
  rw [← List.nil_append (List.replicate 14 (0 : UInt8)), writeAt_zeros, writeAt_zeros,
    writeAt_zeros, writeAt_zeros, writeAt_zeros, writeAt_zeros, writeAt_zeros]
  all_goals simp [Escrow.FeeCurve.codec]

/-- Parameters are encoded as Borsh encodes those that they stand for. -/
theorem encodeInitPoolParams_eq_ok {p : InitPoolParams} {buf : List UInt8}
    (h : encodeInitPoolParams p = .ok buf) :
    ∃ params, p.Denotes params ∧ buf = Escrow.InitPoolParams.codec.encode params := by
  simp only [encodeInitPoolParams, bind_eq_ok, writeUInt16LE_eq_ok, writeBigUInt64LE_eq_ok,
    writeBigInt64LE_eq_ok, pure_eq_ok] at h
  obtain ⟨_, hcurve, _, ⟨pct, hpct, rfl⟩, _, ⟨abs, habs, rfl⟩, _, ⟨timelock, htimelock, rfl⟩, _,
    ⟨chain, hchain, rfl⟩, _, ⟨cap, hcap, rfl⟩, rfl⟩ := h
  obtain ⟨curve, hdenotes, rfl⟩ := encodeFeeCurve_eq_ok hcurve
  refine ⟨⟨curve, pct, abs, timelock, p.governance, p.treasuryAta, chain, cap⟩,
    ⟨hdenotes, hpct, habs, htimelock, rfl, rfl, hchain, hcap⟩, ?_⟩
  rw [← List.nil_append (List.replicate (2 + 8 + 8 + 32 + 32 + 8 + 8) (0 : UInt8)), writeAt_zeros,
    writeAt_zeros, writeAt_zeros, writeAt_zeros, writeAt_zeros, writeAt_zeros, writeAt_zeros]
  all_goals simp [Escrow.InitPoolParams.codec, keyCodec_encode]

end CredMesh.Scripts
