import Mathlib.Data.Fintype.Basic
import CredMesh.Foundation.FixedWidth
import CredMesh.Bridge.Attestation

/-!
# The wire format

The bridge's encoder and the decoders of `request_advance` are inverse to each other between the
inputs that fit their fields and the messages of the right length and version. The nine fields
partition the message, so no two attestations share their bytes.
-/

namespace CredMesh.Bridge

open Outcome ByteString CreditMessage

/-! ## The fields -/

inductive Field
  | agent
  | pool
  | creditLimit
  | outstanding
  | expiresAt
  | attestedAt
  | nonce
  | chainId
  | version
  deriving DecidableEq

instance : Fintype Field where
  elems := {.agent, .pool, .creditLimit, .outstanding, .expiresAt, .attestedAt, .nonce, .chainId,
    .version}
  complete field := by cases field <;> decide

def Field.offset : Field → ℕ
  | agent => agentOffset
  | pool => poolOffset
  | creditLimit => creditLimitOffset
  | outstanding => outstandingOffset
  | expiresAt => expiresAtOffset
  | attestedAt => attestedAtOffset
  | nonce => nonceOffset
  | chainId => chainIdOffset
  | version => versionOffset

def Field.length : Field → ℕ
  | agent => 32
  | pool => 32
  | nonce => nonceLen
  | _ => 8

/-- The field covers the byte at the position. -/
def Field.Covers (field : Field) (position : ℕ) : Prop :=
  field.offset ≤ position ∧ position < field.offset + field.length

instance (field : Field) (position : ℕ) : Decidable (field.Covers position) :=
  inferInstanceAs (Decidable (_ ∧ _))

/-- No field reaches beyond the message. -/
theorem Field.offset_add_length_le (field : Field) : field.offset + field.length ≤ totalLen := by
  cases field <;> decide

/-- Every byte of the message belongs to exactly one field. -/
theorem Field.existsUnique_covers {position : ℕ} (h : position < totalLen) :
    ∃! field : Field, field.Covers position := by
  have hall : ∀ position < totalLen, ∃ field : Field, field.Covers position ∧
      ∀ other : Field, other.Covers position → other = field := by decide +kernel
  exact hall position h

/-! ## Encoding and decoding -/

/-- The fields of a message as `request_advance` reads them. -/
def decodeAttestation (msg : List UInt8) : CreditAttestationInput where
  agentPubkey := (pubkeyAt msg agentOffset).toList
  poolPubkey := (pubkeyAt msg poolOffset).toList
  creditLimitAtoms := (u64Le msg creditLimitOffset).toNat
  outstandingAtoms := (u64Le msg outstandingOffset).toNat
  expiresAt := (i64Le msg expiresAtOffset).toInt
  attestedAt := (i64Le msg attestedAtOffset).toInt
  nonce := slice msg nonceOffset nonceLen
  chainId := (u64Le msg chainIdOffset).toNat

def FitsU64 (value : ℤ) : Prop := 0 ≤ value ∧ value < 2 ^ 64

def FitsI64 (value : ℤ) : Prop := -2 ^ 63 ≤ value ∧ value < 2 ^ 63

instance (value : ℤ) : Decidable (FitsU64 value) := inferInstanceAs (Decidable (_ ∧ _))

instance (value : ℤ) : Decidable (FitsI64 value) := inferInstanceAs (Decidable (_ ∧ _))

/-- Byte strings of the right length and integers in range. -/
structure Encodable (input : CreditAttestationInput) : Prop where
  agent : input.agentPubkey.length = 32
  pool : input.poolPubkey.length = 32
  nonce : input.nonce.length = 16
  creditLimit : FitsU64 input.creditLimitAtoms
  outstanding : FitsU64 input.outstandingAtoms
  expiresAt : FitsI64 input.expiresAt
  attestedAt : FitsI64 input.attestedAt
  chainId : FitsU64 input.chainId

theorem writeU64LE_eq_ok {buf msg : List UInt8} {offset : ℕ} {value : ℤ}
    (h : writeU64LE buf offset value = .ok msg) : FitsU64 value := by
  simp only [writeU64LE, bind_eq_ok, require_eq_ok] at h
  obtain ⟨-, hrange, -⟩ := h
  unfold FitsU64
  omega

theorem writeI64LE_eq_ok {buf msg : List UInt8} {offset : ℕ} {value : ℤ}
    (h : writeI64LE buf offset value = .ok msg) : FitsI64 value := by
  simp only [writeI64LE, bind_eq_ok, require_eq_ok] at h
  obtain ⟨-, hrange, -⟩ := h
  unfold FitsI64
  omega

/-- The encoder refuses what does not fit. -/
theorem encodable_of_encodeAttestation {input : CreditAttestationInput} {msg : List UInt8}
    (h : encodeAttestation input = .ok msg) : Encodable input := by
  simp only [encodeAttestation, bind_eq_ok, require_eq_ok] at h
  obtain ⟨-, hagent, -, hpool, -, hnonce, _, hlimit, _, houtstanding, _, hexpires, _, hattested, _,
    hchain, -⟩ := h
  exact {
    agent := hagent
    pool := hpool
    nonce := hnonce
    creditLimit := writeU64LE_eq_ok hlimit
    outstanding := writeU64LE_eq_ok houtstanding
    expiresAt := writeI64LE_eq_ok hexpires
    attestedAt := writeI64LE_eq_ok hattested
    chainId := writeU64LE_eq_ok hchain }

theorem FitsU64.exists_eq {value : ℤ} (h : FitsU64 value) : ∃ c : UInt64, value = c.toNat := by
  obtain ⟨hlo, hhi⟩ := h
  obtain ⟨c, hc⟩ := UInt64.exists_toNat_eq (show value.toNat < 2 ^ 64 by omega)
  exact ⟨c, by omega⟩

theorem FitsI64.exists_eq {value : ℤ} (h : FitsI64 value) : ∃ c : Int64, value = c.toInt := by
  obtain ⟨c, hc⟩ := Int64.exists_toInt_eq h.1 h.2
  exact ⟨c, hc.symm⟩

/-- What fits its fields is what the on-chain side can hold. -/
theorem Encodable.exists_attestationInput {input : CreditAttestationInput} (h : Encodable input) :
    ∃ agent pool creditLimit outstanding expiresAt attestedAt nonce chainId,
      input = attestationInput agent pool creditLimit outstanding expiresAt attestedAt nonce
        chainId := by
  obtain ⟨creditLimit, hlimit⟩ := h.creditLimit.exists_eq
  obtain ⟨outstanding, houtstanding⟩ := h.outstanding.exists_eq
  obtain ⟨expiresAt, hexpires⟩ := h.expiresAt.exists_eq
  obtain ⟨attestedAt, hattested⟩ := h.attestedAt.exists_eq
  obtain ⟨chainId, hchain⟩ := h.chainId.exists_eq
  refine ⟨⟨input.agentPubkey, h.agent⟩, ⟨input.poolPubkey, h.pool⟩, creditLimit, outstanding,
    expiresAt, attestedAt, ⟨input.nonce, h.nonce⟩, chainId, ?_⟩
  cases input
  simp only [attestationInput, CreditAttestationInput.mk.injEq]
  exact ⟨rfl, rfl, hlimit, houtstanding, hexpires, hattested, rfl, hchain⟩

theorem u64Le_of_slice {msg : List UInt8} {offset : ℕ} (value : UInt64)
    (h : slice msg offset 8 = leBytes 8 value.toNat) : u64Le msg offset = value := by
  rw [u64Le, h, readLE_leBytes (by simpa using value.toNat_lt), UInt64.ofNat_toNat]

theorem i64Le_of_slice {msg : List UInt8} {offset : ℕ} (value : Int64)
    (h : slice msg offset 8 = leBytes 8 value.toUInt64.toNat) : i64Le msg offset = value := by
  rw [i64Le, u64Le_of_slice _ h, Int64.toInt64_toUInt64]

theorem pubkeyAt_of_slice {msg : List UInt8} {offset : ℕ} (key : Pubkey)
    (h : slice msg offset 32 = key.toList) : pubkeyAt msg offset = key := by
  apply List.Vector.toList_injective
  change (slice msg offset 32).takeD 32 0 = _
  rw [h, List.takeD_eq_take _ (by rw [List.Vector.toList_length])]
  exact List.take_of_length_le (by rw [List.Vector.toList_length])

/-- Each decoder finds its field where the encoder put it. -/
theorem decodeAttestation_attestationInput {agent pool : Pubkey}
    {creditLimit outstanding : UInt64} {expiresAt attestedAt : Int64} {nonce : Bytes 16}
    {chainId : UInt64} {msg : List UInt8}
    (h : encodeAttestation (attestationInput agent pool creditLimit outstanding expiresAt attestedAt
        nonce chainId) = .ok msg) :
    msg.length = totalLen ∧ u64Le msg versionOffset = version ∧
      decodeAttestation msg = attestationInput agent pool creditLimit outstanding expiresAt
        attestedAt nonce chainId := by
  rw [encodeAttestation_attestationInput] at h
  simp only [List.append_assoc] at h
  cases h
  refine ⟨by simp [totalLen], u64Le_of_slice _ ?_, ?_⟩
  · simp (disch := simp) only [slice_append_right, versionOffset, List.Vector.toList_length,
      length_leBytes]
    exact slice_zero_length _ (by simp)
  · rw [decodeAttestation, pubkeyAt_of_slice agent, pubkeyAt_of_slice pool,
      u64Le_of_slice creditLimit, u64Le_of_slice outstanding, i64Le_of_slice expiresAt,
      i64Le_of_slice attestedAt, u64Le_of_slice chainId, attestationInput,
      CreditAttestationInput.mk.injEq]
    all_goals simp (disch := simp) [slice_append_left, slice_append_right, agentOffset, poolOffset,
      creditLimitOffset, outstandingOffset, expiresAtOffset, attestedAtOffset, nonceOffset,
      nonceLen, chainIdOffset]

theorem length_of_encodeAttestation {input : CreditAttestationInput} {msg : List UInt8}
    (h : encodeAttestation input = .ok msg) : msg.length = totalLen := by
  obtain ⟨agent, pool, creditLimit, outstanding, expiresAt, attestedAt, nonce, chainId, rfl⟩ :=
    (encodable_of_encodeAttestation h).exists_attestationInput
  exact (decodeAttestation_attestationInput h).1

/-- A message of the right length and version is the encoding of what is decoded from it. -/
theorem encodeAttestation_decodeAttestation {msg : List UInt8} (hlength : msg.length = totalLen)
    (hversion : u64Le msg versionOffset = version) :
    encodeAttestation (decodeAttestation msg) = .ok msg := by
  have hnonce : slice msg nonceOffset nonceLen = (arrayAt 16 msg nonceOffset).toList :=
    (arrayAt_toList (by rw [hlength]; decide)).symm
  unfold decodeAttestation
  rw [hnonce]
  exact encodeAttestation_decode hlength hversion

/-- Encoding and decoding are inverse to each other between the inputs that fit and the messages of
128 bytes and version 1, and nothing else is encoded. Every byte of a message belongs to exactly
one of the nine fields. -/
theorem attestation_wire_format :
    (∀ input msg, encodeAttestation input = .ok msg →
      msg.length = 128 ∧ u64Le msg versionOffset = 1 ∧ decodeAttestation msg = input) ∧
    (∀ msg, msg.length = 128 → u64Le msg versionOffset = 1 →
      encodeAttestation (decodeAttestation msg) = .ok msg) ∧
    (∀ input input' msg, encodeAttestation input = .ok msg → encodeAttestation input' = .ok msg →
      input = input') ∧
    (∀ input, (∃ msg, encodeAttestation input = .ok msg) ↔ Encodable input) ∧
    (∀ field : Field, field.offset + field.length ≤ 128) ∧
    ∀ position < 128, ∃! field : Field, field.Covers position := by
  have hdecode (input msg) (h : encodeAttestation input = .ok msg) :
      msg.length = 128 ∧ u64Le msg versionOffset = 1 ∧ decodeAttestation msg = input := by
    obtain ⟨_, _, _, _, _, _, _, _, rfl⟩ :=
      (encodable_of_encodeAttestation h).exists_attestationInput
    exact decodeAttestation_attestationInput h
  refine ⟨hdecode, fun msg ↦ encodeAttestation_decodeAttestation, ?_, ?_,
    Field.offset_add_length_le, fun position ↦ Field.existsUnique_covers⟩
  · intro input input' msg h h'
    calc
      input = decodeAttestation msg := (hdecode input msg h).2.2.symm
      _ = input' := (hdecode input' msg h').2.2
  · intro input
    constructor
    · rintro ⟨msg, h⟩
      exact encodable_of_encodeAttestation h
    · intro h
      obtain ⟨_, _, _, _, _, _, _, _, rfl⟩ := h.exists_attestationInput
      exact ⟨_, encodeAttestation_attestationInput _ _ _ _ _ _ _ _⟩

/-- Terms at the ends of their ranges: the largest limit, and an expiry before 1970. -/
def extremeTerms : CreditAttestationInput where
  agentPubkey := ProgramIds.memo.toList
  poolPubkey := ProgramIds.escrow.toList
  creditLimitAtoms := 2 ^ 64 - 1
  outstandingAtoms := 0
  expiresAt := -2 ^ 63
  attestedAt := 2 ^ 63 - 1
  nonce := List.replicate 16 255
  chainId := 1

theorem attestation_wire_format_extremeTerms : ∃ msg,
    encodeAttestation extremeTerms = .ok msg ∧ msg.length = 128 ∧
      decodeAttestation msg = extremeTerms := by
  obtain ⟨hdecode, -, -, hencodable, -, -⟩ := attestation_wire_format
  have hfits : Encodable extremeTerms := by
    constructor <;> decide
  obtain ⟨msg, hmsg⟩ := (hencodable extremeTerms).mpr hfits
  obtain ⟨hlength, -, hfields⟩ := hdecode extremeTerms msg hmsg
  exact ⟨msg, hmsg, hlength, hfields⟩

end CredMesh.Bridge
