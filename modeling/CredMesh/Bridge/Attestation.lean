import CredMesh.Foundation.Outcome
import CredMesh.Shared.CreditMessage

/-!
# Encoding an attestation

The bridge's side of the 128-byte credit message. Numbers are unbounded on this side and are
refused when they do not fit their field.
-/

namespace CredMesh.Bridge

open Outcome ByteString CreditMessage

structure CreditAttestationInput where
  agentPubkey : List UInt8
  poolPubkey : List UInt8
  creditLimitAtoms : ℤ
  outstandingAtoms : ℤ
  expiresAt : ℤ
  attestedAt : ℤ
  nonce : List UInt8
  chainId : ℤ
  deriving DecidableEq

inductive EncodeError
  | agentLength
  | poolLength
  | nonceLength
  | u64OutOfRange (value : ℤ)
  | i64OutOfRange (value : ℤ)
  deriving DecidableEq

def EncodeError.message : EncodeError → String
  | agentLength => "agent must be 32 bytes"
  | poolLength => "pool must be 32 bytes"
  | nonceLength => "nonce must be 16 bytes"
  | u64OutOfRange value => s!"u64 out of range: {value}"
  | i64OutOfRange value => s!"i64 out of range: {value}"

/-! The bridge has its own table of the layout. -/

namespace Offset

def agent : ℕ := 0
def pool : ℕ := 32
def creditLimit : ℕ := 64
def outstanding : ℕ := 72
def expiresAt : ℕ := 80
def attestedAt : ℕ := 88
def nonce : ℕ := 96
def chainId : ℕ := 112
def version : ℕ := 120

end Offset

def ed25519CreditMsgLen : ℕ := 128
def ed25519CreditMsgVersion : ℤ := 1

def writeU64LE (buf : List UInt8) (offset : ℕ) (value : ℤ) : Except EncodeError (List UInt8) := do
  require (¬ (value < 0 ∨ 0xffffffffffffffff < value)) (.u64OutOfRange value)
  pure (writeAt buf offset (leBytes 8 value.toNat))

/-- Negative values are written in two's complement. -/
def writeI64LE (buf : List UInt8) (offset : ℕ) (value : ℤ) : Except EncodeError (List UInt8) := do
  require (¬ (value < -2 ^ 63 ∨ 2 ^ 63 ≤ value)) (.i64OutOfRange value)
  pure (writeAt buf offset (leBytes 8 (value % 2 ^ 64).toNat))

def encodeAttestation (input : CreditAttestationInput) : Except EncodeError (List UInt8) := do
  require (input.agentPubkey.length = 32) .agentLength
  require (input.poolPubkey.length = 32) .poolLength
  require (input.nonce.length = 16) .nonceLength
  let buf := List.replicate ed25519CreditMsgLen 0
  let buf := writeAt buf Offset.agent input.agentPubkey
  let buf := writeAt buf Offset.pool input.poolPubkey
  let buf ← writeU64LE buf Offset.creditLimit input.creditLimitAtoms
  let buf ← writeU64LE buf Offset.outstanding input.outstandingAtoms
  let buf ← writeI64LE buf Offset.expiresAt input.expiresAt
  let buf ← writeI64LE buf Offset.attestedAt input.attestedAt
  let buf := writeAt buf Offset.nonce input.nonce
  let buf ← writeU64LE buf Offset.chainId input.chainId
  writeU64LE buf Offset.version ed25519CreditMsgVersion

/-! ## The layout -/

/-- An input as the on-chain side holds it, every field in range. -/
def attestationInput (agent pool : Pubkey) (creditLimit outstanding : UInt64)
    (expiresAt attestedAt : Int64) (nonce : Bytes 16) (chainId : UInt64) :
    CreditAttestationInput where
  agentPubkey := agent.toList
  poolPubkey := pool.toList
  creditLimitAtoms := creditLimit.toNat
  outstandingAtoms := outstanding.toNat
  expiresAt := expiresAt.toInt
  attestedAt := attestedAt.toInt
  nonce := nonce.toList
  chainId := chainId.toNat

theorem writeU64LE_toNat (buf : List UInt8) (offset : ℕ) (value : UInt64) :
    writeU64LE buf offset value.toNat = .ok (writeAt buf offset (leBytes 8 value.toNat)) := by
  have hvalue := value.toNat_lt
  have hrange : ¬ ((value.toNat : ℤ) < 0 ∨ 0xffffffffffffffff < (value.toNat : ℤ)) := by omega
  simp only [writeU64LE, require, if_pos hrange, Int.toNat_natCast]
  rfl

theorem writeI64LE_toInt (buf : List UInt8) (offset : ℕ) (value : Int64) :
    writeI64LE buf offset value.toInt =
      .ok (writeAt buf offset (leBytes 8 value.toUInt64.toNat)) := by
  have hlo := value.le_toInt
  have hhi := value.toInt_lt
  have hrange : ¬ (value.toInt < -2 ^ 63 ∨ 2 ^ 63 ≤ value.toInt) := by omega
  have hbits : (value.toInt % 2 ^ 64).toNat = value.toUInt64.toNat := by
    have hbmod : value.toInt = (value.toUInt64.toNat : ℤ).bmod (2 ^ 64) :=
      BitVec.toInt_eq_toNat_bmod value.toBitVec
    have hlt := value.toUInt64.toNat_lt
    have hemod := Int.bmod_emod (x := value.toUInt64.toNat) (m := 2 ^ 64)
    rw [← hbmod] at hemod
    omega
  simp only [writeI64LE, require, if_pos hrange, hbits]
  rfl

/-- The fields lie back to back. -/
theorem encodeAttestation_attestationInput (agent pool : Pubkey)
    (creditLimit outstanding : UInt64) (expiresAt attestedAt : Int64) (nonce : Bytes 16)
    (chainId : UInt64) :
    encodeAttestation (attestationInput agent pool creditLimit outstanding expiresAt attestedAt
        nonce chainId) =
      .ok (agent.toList ++ pool.toList ++ leBytes 8 creditLimit.toNat ++
        leBytes 8 outstanding.toNat ++ leBytes 8 expiresAt.toUInt64.toNat ++
        leBytes 8 attestedAt.toUInt64.toNat ++ nonce.toList ++ leBytes 8 chainId.toNat ++
        leBytes 8 version.toNat) := by
  have hzeros : List.replicate ed25519CreditMsgLen (0 : UInt8) = [] ++ List.replicate 128 0 := rfl
  have hversion : ed25519CreditMsgVersion = version.toNat := rfl
  simp only [encodeAttestation, attestationInput, require_of, List.Vector.toList_length, ok_bind,
    writeU64LE_toNat, writeI64LE_toInt, hzeros, hversion]
  rw [writeAt_zeros, writeAt_zeros, writeAt_zeros, writeAt_zeros, writeAt_zeros, writeAt_zeros,
    writeAt_zeros, writeAt_zeros, writeAt_zeros]
  all_goals simp [Offset.agent, Offset.pool, Offset.creditLimit, Offset.outstanding,
    Offset.expiresAt, Offset.attestedAt, Offset.nonce, Offset.chainId, Offset.version]

/-- Every message of the right length and version is the encoding of the fields read from it. -/
theorem encodeAttestation_decode {msg : List UInt8} (hlength : msg.length = totalLen)
    (hversion : u64Le msg versionOffset = version) :
    encodeAttestation (attestationInput (pubkeyAt msg agentOffset) (pubkeyAt msg poolOffset)
        (u64Le msg creditLimitOffset) (u64Le msg outstandingOffset) (i64Le msg expiresAtOffset)
        (i64Le msg attestedAtOffset) (arrayAt 16 msg nonceOffset) (u64Le msg chainIdOffset)) =
      .ok msg := by
  have hfits (offset length : ℕ) (h : offset + length ≤ 128) : offset + length ≤ msg.length := by
    rw [hlength]
    exact h
  rw [encodeAttestation_attestationInput, ← hversion, leBytes_u64Le (hfits _ _ (by decide)),
    leBytes_u64Le (hfits _ _ (by decide)), leBytes_u64Le (hfits _ _ (by decide)),
    leBytes_u64Le (hfits _ _ (by decide)), leBytes_i64Le (hfits _ _ (by decide)),
    leBytes_i64Le (hfits _ _ (by decide)), pubkeyAt, pubkeyAt,
    arrayAt_toList (hfits _ _ (by decide)), arrayAt_toList (hfits _ _ (by decide)),
    arrayAt_toList (hfits _ _ (by decide))]
  rw [slice_append_slice msg _ _ (by rfl), slice_append_slice msg _ _ (by rfl),
    slice_append_slice msg _ _ (by rfl), slice_append_slice msg _ _ (by rfl),
    slice_append_slice msg _ _ (by rfl), slice_append_slice msg _ _ (by rfl),
    slice_append_slice msg _ _ (by rfl), slice_append_slice msg _ _ (by rfl)]
  exact congrArg Except.ok (slice_zero_length msg hlength)

end CredMesh.Bridge
