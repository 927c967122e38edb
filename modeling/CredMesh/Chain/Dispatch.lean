import CredMesh.Chain.System
import CredMesh.Escrow.AccountCodec

/-!
# Dispatch

A call of a program is eight bytes that tell the method, followed by its arguments in Borsh. Behind
them there may be more; nobody reads it. The accounts of a call stand in the order of the struct of
its method, and Anchor checks who signed, what is writable and which programs and sysvars are named.
-/

namespace CredMesh

open Escrow Registry

def Escrow.InitPoolParams.codec : Codec InitPoolParams :=
  (FeeCurve.codec.pair <| Codec.u16.pair <| Codec.u64.pair <| Codec.i64.pair <| keyCodec.pair <|
    keyCodec.pair <| Codec.u64.pair Codec.u64).ofEquiv {
      toFun := fun (feeCurve, maxAdvancePctBps, maxAdvanceAbs, timelockSeconds, governance,
        treasuryAta, chainId, agentWindowCap) ↦ {
          feeCurve, maxAdvancePctBps, maxAdvanceAbs, timelockSeconds, governance, treasuryAta,
          chainId, agentWindowCap }
      invFun params := (params.feeCurve, params.maxAdvancePctBps, params.maxAdvanceAbs,
        params.timelockSeconds, params.governance, params.treasuryAta, params.chainId,
        params.agentWindowCap)
      left_inv _ := rfl
      right_inv _ := rfl }

/-! ## The escrow -/

inductive EscrowMethod
  | initPool
  | deposit
  | withdraw
  | requestAdvance
  | claimAndSettle
  | liquidate
  | proposeParams
  | executeParams
  | skimProtocolFees
  deriving DecidableEq

namespace EscrowMethod

def all : List EscrowMethod := [initPool, deposit, withdraw, requestAdvance, claimAndSettle,
  liquidate, proposeParams, executeParams, skimProtocolFees]

abbrev Args : EscrowMethod → Type
  | initPool => InitPoolParams
  | deposit => UInt64
  | withdraw => UInt64
  | requestAdvance => Bytes 32 × UInt64 × Bytes 16
  | claimAndSettle => UInt64
  | liquidate => Unit
  | proposeParams => PendingParams
  | executeParams => Unit
  | skimProtocolFees => UInt64

/-- The first eight bytes of the SHA-256 digest of `global:` and the name of the method. -/
def sighash : EscrowMethod → Bytes 8
  | initPool => ⟨[116, 233, 199, 204, 115, 159, 171, 36], rfl⟩
  | deposit => ⟨[242, 35, 198, 137, 82, 225, 242, 182], rfl⟩
  | withdraw => ⟨[183, 18, 70, 156, 148, 109, 161, 34], rfl⟩
  | requestAdvance => ⟨[30, 94, 222, 131, 223, 83, 0, 28], rfl⟩
  | claimAndSettle => ⟨[193, 47, 247, 161, 84, 171, 99, 135], rfl⟩
  | liquidate => ⟨[223, 179, 226, 125, 48, 46, 39, 74], rfl⟩
  | proposeParams => ⟨[94, 141, 220, 182, 171, 53, 52, 182], rfl⟩
  | executeParams => ⟨[211, 161, 167, 192, 235, 188, 25, 42], rfl⟩
  | skimProtocolFees => ⟨[211, 255, 209, 138, 158, 77, 53, 129], rfl⟩

def argsCodec : (method : EscrowMethod) → Codec method.Args
  | initPool => InitPoolParams.codec
  | deposit => Codec.u64
  | withdraw => Codec.u64
  | requestAdvance => (Codec.bytes 32).pair <| Codec.u64.pair (Codec.bytes 16)
  | claimAndSettle => Codec.u64
  | liquidate => Codec.unit
  | proposeParams => PendingParams.codec
  | executeParams => Codec.unit
  | skimProtocolFees => Codec.u64

theorem mem_all (method : EscrowMethod) : method ∈ all := by
  cases method <;> decide

theorem sighash_injective : Function.Injective sighash := by
  intro first second h
  cases first <;> cases second <;> first | rfl | cases h

def codec : Codec (Σ method : EscrowMethod, method.Args) :=
  Codec.sigma all mem_all (Codec.tags all sighash mem_all sighash_injective) argsCodec

/-- The method that the data of an instruction calls and its arguments, if there is one. -/
def dispatch (data : List UInt8) : Option (Σ method : EscrowMethod, method.Args) := codec.read data

/-- The data that calls a method. -/
def callData (method : EscrowMethod) (args : method.Args) : List UInt8 :=
  method.sighash.toList ++ method.argsCodec.encode args

/-- Data calls a method exactly if it begins with the call. -/
theorem dispatch_eq_some {data : List UInt8} {method : EscrowMethod} {args : method.Args} :
    dispatch data = some ⟨method, args⟩ ↔ method.callData args <+: data :=
  codec.read_eq_some

end EscrowMethod

/-! ## The registry -/

inductive RegistryMethod
  | initRegistry
  | addAllowedSigner
  | removeAllowedSigner
  | setGovernance
  deriving DecidableEq

namespace RegistryMethod

def all : List RegistryMethod := [initRegistry, addAllowedSigner, removeAllowedSigner,
  setGovernance]

abbrev Args : RegistryMethod → Type
  | initRegistry => Pubkey
  | addAllowedSigner => Pubkey × UInt8
  | removeAllowedSigner => Unit
  | setGovernance => Pubkey

/-- The first eight bytes of the SHA-256 digest of `global:` and the name of the method. -/
def sighash : RegistryMethod → Bytes 8
  | initRegistry => ⟨[131, 22, 4, 103, 24, 94, 163, 239], rfl⟩
  | addAllowedSigner => ⟨[161, 49, 31, 187, 122, 45, 33, 245], rfl⟩
  | removeAllowedSigner => ⟨[96, 54, 247, 6, 137, 234, 231, 145], rfl⟩
  | setGovernance => ⟨[34, 71, 128, 245, 179, 42, 140, 137], rfl⟩

def argsCodec : (method : RegistryMethod) → Codec method.Args
  | initRegistry => keyCodec
  | addAllowedSigner => keyCodec.pair Codec.u8
  | removeAllowedSigner => Codec.unit
  | setGovernance => keyCodec

theorem mem_all (method : RegistryMethod) : method ∈ all := by
  cases method <;> decide

theorem sighash_injective : Function.Injective sighash := by
  intro first second h
  cases first <;> cases second <;> first | rfl | cases h

def codec : Codec (Σ method : RegistryMethod, method.Args) :=
  Codec.sigma all mem_all (Codec.tags all sighash mem_all sighash_injective) argsCodec

/-- The method that the data of an instruction calls and its arguments, if there is one. -/
def dispatch (data : List UInt8) : Option (Σ method : RegistryMethod, method.Args) :=
  codec.read data

/-- The data that calls a method. -/
def callData (method : RegistryMethod) (args : method.Args) : List UInt8 :=
  method.sighash.toList ++ method.argsCodec.encode args

theorem dispatch_eq_some {data : List UInt8} {method : RegistryMethod} {args : method.Args} :
    dispatch data = some ⟨method, args⟩ ↔ method.callData args <+: data :=
  codec.read_eq_some

end RegistryMethod

/-! ## Accounts -/

namespace ProgramIds

/-- `11111111111111111111111111111111` -/
def system : Pubkey := defaultPubkey

/-- `SysvarRent111111111111111111111111111111111` -/
def rent : Pubkey :=
  ⟨[6, 167, 213, 23, 25, 44, 92, 81, 33, 140, 201, 76, 61, 74, 241, 127,
    88, 218, 238, 8, 155, 161, 253, 68, 227, 219, 217, 138, 0, 0, 0, 0], rfl⟩

/-- `Sysvar1nstructions1111111111111111111111111` -/
def instructionsSysvar : Pubkey :=
  ⟨[6, 167, 213, 23, 24, 123, 209, 102, 53, 218, 212, 4, 85, 253, 194, 192,
    193, 36, 198, 143, 33, 86, 117, 165, 219, 186, 203, 95, 8, 0, 0, 0], rfl⟩

end ProgramIds

/-- `InitPool` from the accounts of an instruction. -/
def Escrow.InitPool.ofAccounts : List AccountMeta → Option InitPool
  | deployer :: pool :: assetMint :: shareMint :: usdcVault :: tokenProgram :: systemProgram ::
      rent :: _ =>
      if deployer.isSigner ∧ deployer.isWritable ∧ pool.isWritable ∧ shareMint.isSigner ∧
          shareMint.isWritable ∧ usdcVault.isSigner ∧ usdcVault.isWritable ∧
          tokenProgram.pubkey = ProgramIds.token ∧ systemProgram.pubkey = ProgramIds.system ∧
          rent.pubkey = ProgramIds.rent
      then some ⟨deployer.pubkey, pool.pubkey, assetMint.pubkey, shareMint.pubkey,
        usdcVault.pubkey⟩
      else none
  | _ => none

/-- The deployer from the accounts of `init_registry`. -/
def Registry.initRegistryAccounts (rt : Runtime) : List AccountMeta → Option Pubkey
  | deployer :: config :: systemProgram :: _ =>
      if deployer.isSigner ∧ deployer.isWritable ∧ config.isWritable ∧
          config.pubkey = rt.attestorConfigPda.1 ∧ systemProgram.pubkey = ProgramIds.system
      then some deployer.pubkey
      else none
  | _ => none

/-- The cranker from the accounts of `add_allowed_signer` for a key. -/
def Registry.addAllowedSignerAccounts (rt : Runtime) (signer : Pubkey) :
    List AccountMeta → Option Pubkey
  | cranker :: config :: allowedSigner :: instructionsSysvar :: systemProgram :: _ =>
      if cranker.isSigner ∧ cranker.isWritable ∧ config.pubkey = rt.attestorConfigPda.1 ∧
          allowedSigner.isWritable ∧ allowedSigner.pubkey = (rt.allowedSignerPda signer).1 ∧
          instructionsSysvar.pubkey = ProgramIds.instructionsSysvar ∧
          systemProgram.pubkey = ProgramIds.system
      then some cranker.pubkey
      else none
  | _ => none

/-- What an instruction asks of the two programs, for the three methods by which a deployment is set
up. -/
def Action.ofInstruction (rt : Runtime) (ix : Instruction) : Option Action :=
  if ix.programId = ProgramIds.escrow then
    match EscrowMethod.dispatch ix.data with
    | some ⟨.initPool, params⟩ =>
        (InitPool.ofAccounts ix.accounts).map fun accounts ↦ .initPool accounts params
    | _ => none
  else if ix.programId = ProgramIds.attestorRegistry then
    match RegistryMethod.dispatch ix.data with
    | some ⟨.initRegistry, governance⟩ =>
        (initRegistryAccounts rt ix.accounts).map fun deployer ↦
          .registry (.initRegistry deployer governance)
    | some ⟨.addAllowedSigner, (signer, kind)⟩ =>
        (addAllowedSignerAccounts rt signer ix.accounts).map fun cranker ↦
          .registry (.addAllowedSigner cranker signer kind)
    | _ => none
  else none

end CredMesh
