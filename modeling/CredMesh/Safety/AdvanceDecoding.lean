import CredMesh.Keeper.Tick
import CredMesh.Safety.TimeGates

/-!
# What the keeper decodes

The keeper's offsets are those of the fields of an advance, whatever bytes follow them. Its
unbounded comparison with the end of the grace period agrees with the checked one on chain: where
the chain's sum overflows, the end lies beyond every timestamp.
-/

namespace CredMesh.Keeper

open Escrow ByteString

/-- What the keeper should know of an advance. -/
def DecodedAdvance.of (pubkey : Address) (advance : Advance) : DecodedAdvance where
  pubkey
  agent := advance.agent.toList
  receivableId := advance.receivableId.toList
  expiresAt := advance.expiresAt.toInt
  state := advance.state.variant
  bump := advance.bump

/-- The fields of an advance behind its discriminator. -/
theorem advance_data (seeds : AdvanceSeeds) (advance : Advance) :
    (ProgramAccount.advance seeds advance).data =
      (ProgramAccount.advance seeds advance).discriminator ++ ([advance.bump] ++
        (advance.agent.toList ++ (advance.receivableId.toList ++
        (leBytes 8 advance.principal.toNat ++ (leBytes 8 advance.feeOwed.toNat ++
        (leBytes 8 advance.latePenaltyPerDay.toNat ++
        (leBytes 8 advance.issuedAt.toUInt64.toNat ++
        (leBytes 8 advance.expiresAt.toUInt64.toNat ++ (advance.attestor.toList ++
        [advance.state.variant]))))))))) := by
  simp [ProgramAccount.data, ProgramAccount.discriminator, ProgramAccount.kind,
    ProgramAccount.contents, AccountType.data, AccountKind.type, AccountKind.codec, Advance.codec]

theorem length_advance_data (seeds : AdvanceSeeds) (advance : Advance) :
    (ProgramAccount.advance seeds advance).data.length = 146 := by
  have hdiscriminator := (ProgramAccount.advance seeds advance).length_discriminator
  simp [advance_data, hdiscriminator]

/-- A signed number is read back from its eight bytes. -/
theorem toInt_readLE_leBytes (value : Int64) :
    (UInt64.ofNat (readLE (leBytes 8 value.toUInt64.toNat))).toInt64 = value := by
  rw [readLE_leBytes (by simpa using value.toUInt64.toNat_lt), UInt64.ofNat_toNat,
    Int64.toInt64_toUInt64]

/-- Whatever follows the fields of an advance, the advance is decoded from them. -/
theorem decodeAdvance_data (pubkey : Address) (seeds : AdvanceSeeds) (advance : Advance)
    (rest : List UInt8) :
    decodeAdvance pubkey ((ProgramAccount.advance seeds advance).data ++ rest) =
      .ok (some (.of pubkey advance)) := by
  have hlength : 146 ≤ ((ProgramAccount.advance seeds advance).data ++ rest).length := by
    rw [List.length_append, length_advance_data]
    exact Nat.le_add_right 146 _
  have hsplit : (ProgramAccount.advance seeds advance).data ++ rest =
      (ProgramAccount.advance seeds advance).discriminator ++ ([advance.bump] ++
        (advance.agent.toList ++ (advance.receivableId.toList ++
        (leBytes 8 advance.principal.toNat ++ (leBytes 8 advance.feeOwed.toNat ++
        (leBytes 8 advance.latePenaltyPerDay.toNat ++
        (leBytes 8 advance.issuedAt.toUInt64.toNat ++
        (leBytes 8 advance.expiresAt.toUInt64.toNat ++ (advance.attestor.toList ++
        ([advance.state.variant] ++ rest)))))))))) := by
    simp only [advance_data, List.append_assoc]
  have hdiscriminator := (ProgramAccount.advance seeds advance).length_discriminator
  rw [decodeAdvance_of_le pubkey hlength]
  simp only [hsplit, DecodedAdvance.of]
  congr 3
  · simp (disch := simp [hdiscriminator]) only [slice_append_right, slice_append_left,
      hdiscriminator, List.length_singleton, Nat.reduceSub]
  · simp (disch := simp [hdiscriminator]) only [slice_append_right, slice_append_left,
      hdiscriminator, List.length_singleton, Nat.reduceSub, List.Vector.toList_length]
  · simp (disch := simp [hdiscriminator]) only [slice_append_right, slice_append_left,
      hdiscriminator, List.length_singleton, Nat.reduceSub, List.Vector.toList_length,
      length_leBytes, toInt_readLE_leBytes]
  · simp [hdiscriminator]

theorem variant_eq_issued {state : AdvanceState} :
    state.variant = advanceStateIssued ↔ state = .issued := by
  cases state <;> decide

/-- The keeper's gate is the chain's. -/
theorem grace_over_iff (advance : Advance) (now : Int64) :
    advance.expiresAt.toInt + defaultGraceSeconds ≤ now.toInt ↔
      liquidationWindow advance now = .ok () := by
  have hgrace : liquidationGraceSeconds.toInt = defaultGraceSeconds := rfl
  rw [liquidationWindow_eq_ok, Advance.GraceFits, hgrace]
  constructor
  · intro h
    exact ⟨h.trans_lt now.toInt_lt, h⟩
  · exact fun h ↦ h.2

/-- From the data of an advance, with anything behind it, the keeper reads exactly its bump, agent,
receivable, expiry and state, and takes only issued advances for issued. Less data is rejected, and
no data makes it read outside. Its gate is that of `liquidate` at every time. -/
theorem advance_decoder_exact :
    (∀ pubkey seeds advance rest,
      decodeAdvance pubkey ((ProgramAccount.advance seeds advance).data ++ rest) =
        .ok (some (.of pubkey advance))) ∧
    (∀ state : AdvanceState, state.variant = advanceStateIssued ↔ state = .issued) ∧
    (∀ pubkey data seeds advance, data.length < (ProgramAccount.advance seeds advance).data.length →
      decodeAdvance pubkey data = .ok none) ∧
    (∀ pubkey data, ∃ found, decodeAdvance pubkey data = .ok found ∧
      ∀ decoded ∈ found, decoded.agent.length = 32 ∧ decoded.receivableId.length = 32) ∧
    ∀ (advance : Advance) (now : Int64),
      advance.expiresAt.toInt + defaultGraceSeconds ≤ now.toInt ↔
        liquidationWindow advance now = .ok () := by
  refine ⟨decodeAdvance_data, fun state ↦ variant_eq_issued, ?_, ?_, grace_over_iff⟩
  · intro pubkey data seeds advance h
    rw [length_advance_data] at h
    exact decodeAdvance_of_lt pubkey h
  · intro pubkey data
    obtain h | h := lt_or_ge data.length 146
    · exact ⟨none, decodeAdvance_of_lt pubkey h, by simp⟩
    · refine ⟨_, decodeAdvance_of_le pubkey h, ?_⟩
      intro decoded hdecoded
      obtain rfl := Option.mem_some_iff.mp hdecoded
      exact ⟨length_slice (by omega), length_slice (by omega)⟩

end CredMesh.Keeper
