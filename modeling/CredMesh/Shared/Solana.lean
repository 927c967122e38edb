import CredMesh.Foundation.ByteString

/-!
# Solana primitives

Keys, instructions, the instructions sysvar and the program identifiers that the CredMesh
programs pin. What the runtime supplies beyond that is a parameter: the derivation of
program-derived addresses.
-/

namespace CredMesh

abbrev Pubkey := Bytes 32

/-- The all-zero key, `Pubkey::default()`. -/
def defaultPubkey : Pubkey := List.Vector.replicate 32 0

namespace Seeds

def poolSeed : List UInt8 := "pool".toUTF8.toList
def advanceSeed : List UInt8 := "advance".toUTF8.toList
def consumedSeed : List UInt8 := "consumed".toUTF8.toList
def allowedSignerSeed : List UInt8 := "allowed_signer".toUTF8.toList
def attestorConfigSeed : List UInt8 := "attestor_config".toUTF8.toList
def issuanceLedgerSeed : List UInt8 := "issuance_ledger".toUTF8.toList
def liquidationTombstoneSeed : List UInt8 := "liq_tombstone".toUTF8.toList

end Seeds

namespace ProgramIds

/-- `DLy82HRrSnSVZfQTxze8CEZwequnGyBcJNvYZX1L9yuF` -/
def escrow : Pubkey :=
  ⟨[183, 105, 188, 26, 240, 166, 120, 46, 169, 115, 148, 45, 44, 250, 102, 12,
    188, 96, 197, 121, 29, 201, 229, 202, 132, 94, 166, 25, 185, 138, 45, 166], rfl⟩

/-- `ALVf6iyB6P5RFizRtxorJ3pAcc4731VziAn67sW6brvk` -/
def attestorRegistry : Pubkey :=
  ⟨[138, 183, 158, 193, 129, 53, 193, 205, 171, 157, 60, 11, 206, 34, 41, 134,
    205, 54, 231, 124, 19, 94, 250, 57, 76, 136, 183, 37, 147, 237, 136, 81], rfl⟩

/-- `SQDS4ep65T869zMMBKyuUq6aD6EgTu8psMjkvj52pCf` -/
def squadsV4 : Pubkey :=
  ⟨[6, 129, 196, 206, 71, 226, 35, 104, 184, 177, 85, 94, 200, 135, 175, 9,
    46, 252, 126, 251, 182, 108, 163, 245, 47, 191, 104, 212, 172, 156, 183, 168], rfl⟩

/-- `MemoSq4gqABAXKb96qnH8TysNcWxMyWCqXgDLGmfcHr` -/
def memo : Pubkey :=
  ⟨[5, 74, 83, 90, 153, 41, 33, 6, 77, 36, 232, 113, 96, 218, 56, 124,
    124, 53, 181, 221, 188, 146, 187, 129, 228, 31, 168, 64, 65, 5, 68, 141], rfl⟩

/-- `Ed25519SigVerify111111111111111111111111111` -/
def ed25519 : Pubkey :=
  ⟨[3, 125, 70, 214, 124, 147, 251, 190, 18, 249, 66, 143, 131, 141, 64, 255,
    5, 112, 116, 73, 39, 244, 138, 100, 252, 202, 112, 68, 128, 0, 0, 0], rfl⟩

/-- `TokenkegQfeZyiNwAJbNbGKPFXCWuBvf9Ss623VQ5DA` -/
def token : Pubkey :=
  ⟨[6, 221, 246, 225, 215, 101, 161, 147, 217, 203, 225, 70, 206, 235, 121, 172,
    28, 180, 133, 237, 95, 91, 55, 145, 58, 140, 245, 133, 126, 255, 0, 169], rfl⟩

/-- `ATokenGPvbdGVxr1b2hvZbsiqW5xWH25efTNsLJA8knL` -/
def associatedToken : Pubkey :=
  ⟨[140, 151, 37, 143, 78, 36, 137, 241, 187, 61, 16, 41, 20, 142, 13, 131,
    11, 90, 19, 153, 218, 255, 16, 132, 4, 142, 123, 216, 219, 233, 248, 89], rfl⟩

end ProgramIds

structure AccountMeta where
  pubkey : Pubkey
  isSigner : Bool
  isWritable : Bool
  deriving DecidableEq

structure Instruction where
  programId : Pubkey
  accounts : List AccountMeta
  data : List UInt8
  deriving DecidableEq

/-- The instructions sysvar: the top-level instructions of the running transaction and the index
of the one being executed. -/
structure InstructionsSysvar where
  instructions : List Instruction
  currentIndex : UInt16
  deriving DecidableEq

def loadCurrentIndexChecked (sysvar : InstructionsSysvar) : Option UInt16 :=
  some sysvar.currentIndex

def loadInstructionAtChecked (index : ℕ) (sysvar : InstructionsSysvar) : Option Instruction :=
  sysvar.instructions[index]?

/-- Address derivation. The search for a bump counts down from 255 and stops before 0, so a
derived address never has bump 0. -/
structure Runtime where
  findProgramAddress : List (List UInt8) → Pubkey → Pubkey × UInt8
  bump_ne_zero : ∀ seeds program, (findProgramAddress seeds program).2 ≠ 0

/-- What an instruction sees of the cluster: the clock and its own transaction. -/
structure Env where
  now : Int64
  sysvar : InstructionsSysvar
  deriving DecidableEq

namespace Runtime

variable (rt : Runtime)

def poolPda (assetMint : Pubkey) : Pubkey × UInt8 :=
  rt.findProgramAddress [Seeds.poolSeed, assetMint.toList] ProgramIds.escrow

def advancePda (pool agent : Pubkey) (receivableId : Bytes 32) : Pubkey × UInt8 :=
  rt.findProgramAddress [Seeds.advanceSeed, pool.toList, agent.toList, receivableId.toList]
    ProgramIds.escrow

def consumedPda (pool agent : Pubkey) (receivableId : Bytes 32) : Pubkey × UInt8 :=
  rt.findProgramAddress [Seeds.consumedSeed, pool.toList, agent.toList, receivableId.toList]
    ProgramIds.escrow

def tombstonePda (pool agent : Pubkey) (receivableId : Bytes 32) : Pubkey × UInt8 :=
  rt.findProgramAddress
    [Seeds.liquidationTombstoneSeed, pool.toList, agent.toList, receivableId.toList]
    ProgramIds.escrow

def issuanceLedgerPda (pool agent : Pubkey) : Pubkey × UInt8 :=
  rt.findProgramAddress [Seeds.issuanceLedgerSeed, pool.toList, agent.toList] ProgramIds.escrow

def allowedSignerPda (signer : Pubkey) : Pubkey × UInt8 :=
  rt.findProgramAddress [Seeds.allowedSignerSeed, signer.toList] ProgramIds.attestorRegistry

def attestorConfigPda : Pubkey × UInt8 :=
  rt.findProgramAddress [Seeds.attestorConfigSeed] ProgramIds.attestorRegistry

/-- The address of a wallet's associated token account. -/
def associatedTokenAddress (wallet mint : Pubkey) : Pubkey :=
  (rt.findProgramAddress [wallet.toList, ProgramIds.token.toList, mint.toList]
    ProgramIds.associatedToken).1

end Runtime

end CredMesh
