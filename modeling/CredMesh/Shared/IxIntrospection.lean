import CredMesh.Foundation.Outcome
import CredMesh.Shared.Solana

/-!
# Instruction introspection

The three checks by which a handler reads its own transaction: the preceding ed25519
verification, the memo that carries a nonce, and the Squads instruction that names the governance
vault. The last two are one bounded scan over the top-level instructions.
-/

namespace CredMesh.IxIntrospection

open Outcome ByteString

inductive IxIntrospectionError
  | sysvarLoadFailed
  | prevIxNotFound
  | ed25519NotFound
  | ed25519MalformedData
  | ed25519OffsetMismatch
  | ed25519PubkeyMismatch
  | ed25519MessageMismatch
  | memoNotFound
  | memoMismatch
  deriving DecidableEq

def ed25519OffsetsHeader : ℕ := 2
def ed25519OffsetsLen : ℕ := 14

structure Ed25519Offsets where
  signatureOffset : UInt16
  signatureInstructionIndex : UInt16
  publicKeyOffset : UInt16
  publicKeyInstructionIndex : UInt16
  messageDataOffset : UInt16
  messageDataSize : UInt16
  messageInstructionIndex : UInt16
  deriving DecidableEq

def u16Le (bytes : List UInt8) (offset : ℕ) : UInt16 :=
  UInt16.ofNat (readLE (slice bytes offset 2))

def parseOffsets (data : List UInt8) : Option Ed25519Offsets :=
  if data.length < ed25519OffsetsHeader + ed25519OffsetsLen then none
  else
    let body := slice data ed25519OffsetsHeader ed25519OffsetsLen
    some {
      signatureOffset := u16Le body 0
      signatureInstructionIndex := u16Le body 2
      publicKeyOffset := u16Le body 4
      publicKeyInstructionIndex := u16Le body 6
      messageDataOffset := u16Le body 8
      messageDataSize := u16Le body 10
      messageInstructionIndex := u16Le body 12 }

/-- The key and message bytes that the preceding ed25519 instruction verified. -/
def verifyPrevEd25519 (sysvar : InstructionsSysvar) :
    Except IxIntrospectionError (Pubkey × List UInt8) := do
  let curIdx ← okOr (loadCurrentIndexChecked sysvar) .sysvarLoadFailed
  require (curIdx ≠ 0) .prevIxNotFound
  let prevIdx := curIdx - 1
  let prevIx ← okOr (loadInstructionAtChecked prevIdx.toNat sysvar) .prevIxNotFound
  require (prevIx.programId = ProgramIds.ed25519) .ed25519NotFound
  -- exactly one signature entry; a second one would leave open which of them was checked
  require (prevIx.data.head? = some 1) .ed25519MalformedData
  let offsets ← okOr (parseOffsets prevIx.data) .ed25519MalformedData
  require (offsets.signatureInstructionIndex = prevIdx ∧
    offsets.publicKeyInstructionIndex = prevIdx ∧
    offsets.messageInstructionIndex = prevIdx) .ed25519OffsetMismatch
  let pkOff := offsets.publicKeyOffset.toNat
  let msgOff := offsets.messageDataOffset.toNat
  let msgLen := offsets.messageDataSize.toNat
  require (pkOff + 32 ≤ prevIx.data.length) .ed25519MalformedData
  require (msgOff + msgLen ≤ prevIx.data.length) .ed25519MalformedData
  pure (arrayAt 32 prevIx.data pkOff, slice prevIx.data msgOff msgLen)

def maxIxScan : ℕ := 64

/-- Look at up to `count` instructions from `index` on and stop at the end of the transaction. -/
def scanInstructions (sysvar : InstructionsSysvar) (accepts : Instruction → Bool) :
    (count index : ℕ) → Bool
  | 0, _ => false
  | count + 1, index =>
      match loadInstructionAtChecked index sysvar with
      | some ix => if accepts ix then true else scanInstructions sysvar accepts count (index + 1)
      | none => false

def isMemoWith (expectedNonce : List UInt8) (ix : Instruction) : Bool :=
  ix.programId = ProgramIds.memo ∧ ix.data = expectedNonce

def requireMemoNonce (sysvar : InstructionsSysvar) (expectedNonce : List UInt8) :
    Except IxIntrospectionError Unit :=
  require (scanInstructions sysvar (isMemoWith expectedNonce) maxIxScan 0 = true) .memoNotFound

/-- A Squads instruction whose account list names the vault as writable. -/
def isSquadsWriting (expectedVault : Pubkey) (ix : Instruction) : Bool :=
  ix.programId = ProgramIds.squadsV4 ∧
    ix.accounts.any fun account ↦ account.pubkey = expectedVault ∧ account.isWritable

def requireSquadsGovernanceCpi (sysvar : InstructionsSysvar) (expectedVault : Pubkey) :
    Except IxIntrospectionError Unit :=
  require (scanInstructions sysvar (isSquadsWriting expectedVault) maxIxScan 0 = true)
    .prevIxNotFound

/-! ## What the checks establish -/

theorem scanInstructions_eq_any (sysvar : InstructionsSysvar) (accepts : Instruction → Bool)
    (count index : ℕ) :
    scanInstructions sysvar accepts count index =
      ((sysvar.instructions.drop index).take count).any accepts := by
  induction count generalizing index with
  | zero => simp [scanInstructions]
  | succ count ih =>
      rw [scanInstructions, loadInstructionAtChecked]
      cases hix : sysvar.instructions[index]? with
      | none =>
          rw [List.drop_eq_nil_of_le (List.getElem?_eq_none_iff.mp hix)]
          simp
      | some ix =>
          obtain ⟨hlt, rfl⟩ := List.getElem?_eq_some_iff.mp hix
          rw [List.drop_eq_getElem_cons hlt, List.take_succ_cons, List.any_cons, ← ih]
          cases haccepts : accepts sysvar.instructions[index] <;> simp [haccepts]

theorem requireMemoNonce_eq_ok {sysvar : InstructionsSysvar} {nonce : List UInt8} {u : Unit} :
    requireMemoNonce sysvar nonce = .ok u ↔
      ∃ ix ∈ sysvar.instructions.take maxIxScan, ix.programId = ProgramIds.memo ∧
        ix.data = nonce := by
  simp [requireMemoNonce, scanInstructions_eq_any, isMemoWith]

theorem requireSquadsGovernanceCpi_eq_ok {sysvar : InstructionsSysvar} {vault : Pubkey}
    {u : Unit} :
    requireSquadsGovernanceCpi sysvar vault = .ok u ↔
      ∃ ix ∈ sysvar.instructions.take maxIxScan, isSquadsWriting vault ix = true := by
  simp [requireSquadsGovernanceCpi, scanInstructions_eq_any]

/-- A successful check pins the key and the message to the data of the previous instruction, at
the places its offset table names. -/
theorem verifyPrevEd25519_eq_ok {sysvar : InstructionsSysvar} {key : Pubkey}
    {message : List UInt8} :
    verifyPrevEd25519 sysvar = .ok (key, message) ↔
      sysvar.currentIndex ≠ 0 ∧
      ∃ ix offsets, sysvar.instructions[(sysvar.currentIndex - 1).toNat]? = some ix ∧
        ix.programId = ProgramIds.ed25519 ∧ ix.data.head? = some 1 ∧
        parseOffsets ix.data = some offsets ∧
        (offsets.signatureInstructionIndex = sysvar.currentIndex - 1 ∧
          offsets.publicKeyInstructionIndex = sysvar.currentIndex - 1 ∧
          offsets.messageInstructionIndex = sysvar.currentIndex - 1) ∧
        offsets.publicKeyOffset.toNat + 32 ≤ ix.data.length ∧
        offsets.messageDataOffset.toNat + offsets.messageDataSize.toNat ≤ ix.data.length ∧
        key = arrayAt 32 ix.data offsets.publicKeyOffset.toNat ∧
        message = slice ix.data offsets.messageDataOffset.toNat offsets.messageDataSize.toNat := by
  simp only [verifyPrevEd25519, loadCurrentIndexChecked, loadInstructionAtChecked, bind_eq_ok,
    okOr_eq_ok, require_eq_ok, pure_eq_ok, Option.some_inj, exists_const, exists_eq_left',
    exists_and_left, Prod.mk.injEq, eq_comm (a := key), eq_comm (a := message)]

/-! ## Longer transactions -/

/-- All that the checks look for in the first transaction is in the second as well. -/
structure Shows (sysvar sysvar' : InstructionsSysvar) : Prop where
  index : sysvar'.currentIndex = sysvar.currentIndex
  previous : sysvar.currentIndex ≠ 0 →
    sysvar'.instructions[(sysvar.currentIndex - 1).toNat]? =
      sysvar.instructions[(sysvar.currentIndex - 1).toNat]?
  scanned : ∀ ix ∈ sysvar.instructions.take maxIxScan,
    ix.programId = ProgramIds.memo ∨ ix.programId = ProgramIds.squadsV4 →
      ix ∈ sysvar'.instructions.take maxIxScan

namespace Shows

variable {sysvar sysvar' : InstructionsSysvar}

theorem verifyPrevEd25519 {verified : Pubkey × List UInt8} (h : Shows sysvar sysvar')
    (hverified : IxIntrospection.verifyPrevEd25519 sysvar = .ok verified) :
    IxIntrospection.verifyPrevEd25519 sysvar' = .ok verified := by
  obtain ⟨hne, hrest⟩ := verifyPrevEd25519_eq_ok.mp hverified
  rw [verifyPrevEd25519_eq_ok, h.index, h.previous hne]
  exact ⟨hne, hrest⟩

theorem requireMemoNonce {nonce : List UInt8} {u : Unit} (h : Shows sysvar sysvar')
    (hmemo : IxIntrospection.requireMemoNonce sysvar nonce = .ok u) :
    IxIntrospection.requireMemoNonce sysvar' nonce = .ok u := by
  obtain ⟨ix, hix, hprogram, hdata⟩ := requireMemoNonce_eq_ok.mp hmemo
  exact requireMemoNonce_eq_ok.mpr ⟨ix, h.scanned ix hix (.inl hprogram), hprogram, hdata⟩

theorem requireSquadsGovernanceCpi {vault : Pubkey} {u : Unit} (h : Shows sysvar sysvar')
    (hgate : IxIntrospection.requireSquadsGovernanceCpi sysvar vault = .ok u) :
    IxIntrospection.requireSquadsGovernanceCpi sysvar' vault = .ok u := by
  obtain ⟨ix, hix, hwriting⟩ := requireSquadsGovernanceCpi_eq_ok.mp hgate
  have hprogram : ix.programId = ProgramIds.squadsV4 := (of_decide_eq_true hwriting).1
  exact requireSquadsGovernanceCpi_eq_ok.mpr ⟨ix, h.scanned ix hix (.inr hprogram), hwriting⟩

end Shows

end CredMesh.IxIntrospection
