import CredMesh.Shared.Solana

/-!
# The signed credit attestation

Layout of the 128-byte `ed25519_credit_message` and the decoders of the on-chain side. The nine
fields lie back to back, in the order of their offsets.
-/

namespace CredMesh.CreditMessage

open ByteString

def version : UInt64 := 1
def totalLen : ℕ := 128

def agentOffset : ℕ := 0
def poolOffset : ℕ := 32
def creditLimitOffset : ℕ := 64
def outstandingOffset : ℕ := 72
def expiresAtOffset : ℕ := 80
def attestedAtOffset : ℕ := 88
def nonceOffset : ℕ := 96
def nonceLen : ℕ := 16
def chainIdOffset : ℕ := 112
def versionOffset : ℕ := 120

def maxAttestationAgeSeconds : Int64 := 15 * 60

def chainIdMainnet : UInt64 := 1
def chainIdDevnet : UInt64 := 2

def pubkeyAt (msg : List UInt8) (offset : ℕ) : Pubkey :=
  arrayAt 32 msg offset

def u64Le (msg : List UInt8) (offset : ℕ) : UInt64 :=
  UInt64.ofNat (readLE (slice msg offset 8))

def i64Le (msg : List UInt8) (offset : ℕ) : Int64 :=
  (u64Le msg offset).toInt64

/-- Eight bytes are recovered from the integer they were read as. -/
theorem leBytes_u64Le {msg : List UInt8} {offset : ℕ} (h : offset + 8 ≤ msg.length) :
    leBytes 8 (u64Le msg offset).toNat = slice msg offset 8 := by
  have hlength := length_slice h
  have hlt := readLE_lt (slice msg offset 8)
  rw [hlength] at hlt
  rw [u64Le, UInt64.toNat_ofNat_of_lt' (by simpa using hlt)]
  have hread := leBytes_readLE (slice msg offset 8)
  rwa [hlength] at hread

theorem leBytes_i64Le {msg : List UInt8} {offset : ℕ} (h : offset + 8 ≤ msg.length) :
    leBytes 8 (i64Le msg offset).toUInt64.toNat = slice msg offset 8 := by
  rw [i64Le, UInt64.toUInt64_toInt64, leBytes_u64Le h]

end CredMesh.CreditMessage

namespace CredMesh

/-- The kind tag of a whitelisted signer; version 1 has a single kind. -/
inductive AttestorKind
  | creditBridge
  deriving DecidableEq

def AttestorKind.asU8 : AttestorKind → UInt8
  | .creditBridge => 0

def AttestorKind.fromU8 (byte : UInt8) : Option AttestorKind :=
  if byte = 0 then some .creditBridge else none

end CredMesh
