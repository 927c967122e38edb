import CredMesh.Foundation.BoundedRead
import CredMesh.Shared.IxIntrospection

/-!
# Parsing the ed25519 instruction

The data of the preceding instruction is attacker-controlled, and its offset table is used to slice
it. Here every index and slice of the source panics when it leaves the data. No input makes one
panic, so the parser is the one that reads without bounds, and what it accepts is described by the
bytes of the data alone.
-/

namespace CredMesh.IxIntrospection

open Outcome ByteString BoundedRead

/-! ## The accesses of the source -/

namespace Indexed

/-- How a handler leaves early. -/
inductive Fault
  | panicked
  | refused (error : IxIntrospectionError)
  deriving DecidableEq

/-- Parse the offsets struct from raw instruction data. -/
def parseOffsets (data : List UInt8) : Except Fault (Option Ed25519Offsets) :=
  if data.length < ed25519OffsetsHeader + ed25519OffsetsLen then pure none
  else do
    let body ← range .panicked data ed25519OffsetsHeader (ed25519OffsetsHeader + ed25519OffsetsLen)
    let signatureOffset ← u16At .panicked body 0
    let signatureInstructionIndex ← u16At .panicked body 2
    let publicKeyOffset ← u16At .panicked body 4
    let publicKeyInstructionIndex ← u16At .panicked body 6
    let messageDataOffset ← u16At .panicked body 8
    let messageDataSize ← u16At .panicked body 10
    let messageInstructionIndex ← u16At .panicked body 12
    pure (some {
      signatureOffset := UInt16.ofNat signatureOffset
      signatureInstructionIndex := UInt16.ofNat signatureInstructionIndex
      publicKeyOffset := UInt16.ofNat publicKeyOffset
      publicKeyInstructionIndex := UInt16.ofNat publicKeyInstructionIndex
      messageDataOffset := UInt16.ofNat messageDataOffset
      messageDataSize := UInt16.ofNat messageDataSize
      messageInstructionIndex := UInt16.ofNat messageInstructionIndex })

/-- The test `data.is_empty() || data[0] != 1`. -/
def lacksSingleEntry (data : List UInt8) : Except Fault Bool :=
  if data.isEmpty then pure true
  else do
    let first ← byteAt .panicked data 0
    pure (first ≠ 1)

def verifyPrevEd25519 (sysvar : InstructionsSysvar) : Except Fault (Pubkey × List UInt8) := do
  let curIdx ← okOr (loadCurrentIndexChecked sysvar) (.refused .sysvarLoadFailed)
  require (curIdx ≠ 0) (.refused .prevIxNotFound)
  let prevIdx := curIdx - 1
  let prevIx ← okOr (loadInstructionAtChecked prevIdx.toNat sysvar) (.refused .prevIxNotFound)
  require (prevIx.programId = ProgramIds.ed25519) (.refused .ed25519NotFound)
  let malformed ← lacksSingleEntry prevIx.data
  require (malformed = false) (.refused .ed25519MalformedData)
  let parsed ← parseOffsets prevIx.data
  let offsets ← okOr parsed (.refused .ed25519MalformedData)
  require (offsets.signatureInstructionIndex = prevIdx ∧
    offsets.publicKeyInstructionIndex = prevIdx ∧
    offsets.messageInstructionIndex = prevIdx) (.refused .ed25519OffsetMismatch)
  let pkOff := offsets.publicKeyOffset.toNat
  let msgOff := offsets.messageDataOffset.toNat
  let msgLen := offsets.messageDataSize.toNat
  require (pkOff + 32 ≤ prevIx.data.length) (.refused .ed25519MalformedData)
  require (msgOff + msgLen ≤ prevIx.data.length) (.refused .ed25519MalformedData)
  let pkSlice ← range .panicked prevIx.data pkOff (pkOff + 32)
  let signedPubkey ← toArray .panicked pkSlice 32
  let signedMessage ← range .panicked prevIx.data msgOff (msgOff + msgLen)
  pure (signedPubkey, signedMessage)

end Indexed

/-! ## No access leaves the data -/

theorem Indexed.parseOffsets_eq (data : List UInt8) :
    Indexed.parseOffsets data = .ok (IxIntrospection.parseOffsets data) := by
  unfold Indexed.parseOffsets IxIntrospection.parseOffsets
  split
  case isTrue => rfl
  case isFalse h =>
    have hlength : ed25519OffsetsHeader + ed25519OffsetsLen ≤ data.length := Nat.not_lt.mp h
    have hbody : (slice data ed25519OffsetsHeader ed25519OffsetsLen).length = 14 :=
      length_slice hlength
    have hread (offset : ℕ) (hoffset : offset + 2 ≤ 14) :
        u16At Fault.panicked (slice data ed25519OffsetsHeader ed25519OffsetsLen) offset =
          .ok (readLE (slice (slice data ed25519OffsetsHeader ed25519OffsetsLen) offset 2)) :=
      u16At_of_le (hbody.symm ▸ hoffset)
    simp (disch := omega) only [range_of_le (Nat.le_add_right _ _) hlength,
      Nat.add_sub_cancel_left, ok_bind, hread]
    rfl

theorem Indexed.lacksSingleEntry_eq (data : List UInt8) :
    Indexed.lacksSingleEntry data = .ok (decide (data.head? ≠ some 1)) := by
  cases data with
  | nil => rfl
  | cons first rest => simp [Indexed.lacksSingleEntry, byteAt, okOr, pure, Except.pure]

/-- The parser with checked accesses is the one without: it fails in the same cases, with the same
errors, and never panics. -/
theorem Indexed.verifyPrevEd25519_eq (sysvar : InstructionsSysvar) :
    Indexed.verifyPrevEd25519 sysvar =
      (IxIntrospection.verifyPrevEd25519 sysvar).mapError Fault.refused := by
  simp only [Indexed.verifyPrevEd25519, IxIntrospection.verifyPrevEd25519, mapError_bind,
    mapError_okOr, mapError_require, mapError_pure, lacksSingleEntry_eq, parseOffsets_eq, ok_bind,
    decide_eq_false_iff_not, not_not]
  refine okOr_bind_congr fun curIdx _ ↦ require_bind_congr fun _ ↦ okOr_bind_congr fun prevIx _ ↦
    require_bind_congr fun _ ↦ require_bind_congr fun _ ↦ okOr_bind_congr fun offsets _ ↦
    require_bind_congr fun _ ↦ require_bind_congr fun hkey ↦ require_bind_congr fun hmessage ↦ ?_
  rw [range_of_le (Nat.le_add_right _ _) hkey, range_of_le (Nat.le_add_right _ _) hmessage,
    Nat.add_sub_cancel_left, Nat.add_sub_cancel_left, ok_bind, toArray_slice hkey]
  rfl

/-! ## What is accepted -/

/-- The three instruction indices and the three offsets lie at fixed places. -/
theorem parseOffsets_eq_some {data : List UInt8} {offsets : Ed25519Offsets} :
    parseOffsets data = some offsets ↔ 16 ≤ data.length ∧ offsets = {
      signatureOffset := u16Le data 2
      signatureInstructionIndex := u16Le data 4
      publicKeyOffset := u16Le data 6
      publicKeyInstructionIndex := u16Le data 8
      messageDataOffset := u16Le data 10
      messageDataSize := u16Le data 12
      messageInstructionIndex := u16Le data 14 } := by
  have hplace (offset : ℕ) (h : offset + 2 ≤ 14) :
      u16Le (slice data 2 14) offset = u16Le data (2 + offset) := by
    rw [u16Le, slice_slice data h]
    rfl
  simp (disch := omega) only [parseOffsets, ed25519OffsetsHeader, ed25519OffsetsLen,
    Nat.reduceAdd, hplace, Option.ite_none_left_eq_some, Option.some_inj, Nat.not_lt,
    eq_comm (b := offsets)]

/-- A verification instruction at the index, with its entry pointing into itself, and the key and
message at the places that the entry names. -/
structure SelfContained (index : UInt16) (ix : Instruction) (key : Pubkey)
    (message : List UInt8) : Prop where
  program : ix.programId = ProgramIds.ed25519
  long : 16 ≤ ix.data.length
  single : ix.data[0]? = some 1
  signatureIndex : u16Le ix.data 4 = index
  keyIndex : u16Le ix.data 8 = index
  messageIndex : u16Le ix.data 14 = index
  keyInside : (u16Le ix.data 6).toNat + 32 ≤ ix.data.length
  messageInside : (u16Le ix.data 10).toNat + (u16Le ix.data 12).toNat ≤ ix.data.length
  key : key.toList = slice ix.data (u16Le ix.data 6).toNat 32
  message : message = slice ix.data (u16Le ix.data 10).toNat (u16Le ix.data 12).toNat

/-- For every transaction and every index, no access leaves the data, and a key and a message are
returned exactly when the instruction before is a verification that contains them itself. -/
theorem ed25519_parsing_exact (sysvar : InstructionsSysvar) :
    Indexed.verifyPrevEd25519 sysvar ≠ .error .panicked ∧
    ∀ key message, Indexed.verifyPrevEd25519 sysvar = .ok (key, message) ↔
      0 < sysvar.currentIndex.toNat ∧
      ∃ ix, sysvar.instructions[sysvar.currentIndex.toNat - 1]? = some ix ∧
        SelfContained (sysvar.currentIndex - 1) ix key message := by
  rw [Indexed.verifyPrevEd25519_eq]
  constructor
  · cases IxIntrospection.verifyPrevEd25519 sysvar <;> simp [Except.mapError]
  · intro key message
    have hzero : sysvar.currentIndex ≠ 0 ↔ 0 < sysvar.currentIndex.toNat := by
      rw [Nat.pos_iff_ne_zero, Ne, Ne, ← UInt16.toNat_inj]
      rfl
    rw [mapError_eq_ok, verifyPrevEd25519_eq_ok, hzero]
    refine and_congr_right fun hpositive ↦ ?_
    have hindex : (sysvar.currentIndex - 1).toNat = sysvar.currentIndex.toNat - 1 :=
      UInt16.toNat_sub_of_le _ _ (UInt16.le_iff_toNat_le.mpr hpositive)
    rw [hindex]
    refine exists_congr fun ix ↦ ?_
    constructor
    · rintro ⟨offsets, hix, hprogram, hsingle, hparsed, ⟨hsignature, hkeyIndex, hmessageIndex⟩,
        hkeyInside, hmessageInside, rfl, rfl⟩
      obtain ⟨hlong, rfl⟩ := parseOffsets_eq_some.mp hparsed
      rw [List.head?_eq_getElem?] at hsingle
      exact ⟨hix, hprogram, hlong, hsingle, hsignature, hkeyIndex, hmessageIndex, hkeyInside,
        hmessageInside, arrayAt_toList hkeyInside, rfl⟩
    · rintro ⟨hix, h⟩
      refine ⟨_, hix, h.program, ?_, parseOffsets_eq_some.mpr ⟨h.long, rfl⟩,
        ⟨h.signatureIndex, h.keyIndex, h.messageIndex⟩, h.keyInside, h.messageInside, ?_, h.message⟩
      · rw [List.head?_eq_getElem?]
        exact h.single
      · apply List.Vector.toList_injective
        rw [h.key, arrayAt_toList h.keyInside]

end CredMesh.IxIntrospection
