import CredMesh.Escrow.Layout
import CredMesh.Foundation.BoundedRead

/-!
# The keeper's decoder

The keeper knows the layout of an advance as a list of offsets, and reads the raw data of an account
at them. Reading a number past the end of a buffer throws; a slice that ends past it is cut off.
-/

namespace CredMesh.Keeper

open Escrow ByteString

inductive DecodeError
  | rangeError
  deriving DecidableEq

def readUInt8 : List UInt8 → ℕ → Except DecodeError UInt8 := BoundedRead.byteAt .rangeError

def readBigInt64LE (buf : List UInt8) (off : ℕ) : Except DecodeError ℤ := do
  let bytes ← BoundedRead.range .rangeError buf off (off + 8)
  pure (UInt64.ofNat (readLE bytes)).toInt64.toInt

def advanceStateIssued : UInt8 := 0

structure DecodedAdvance where
  pubkey : Address
  agent : List UInt8
  receivableId : List UInt8
  expiresAt : ℤ
  state : UInt8
  bump : UInt8
  deriving DecidableEq

def advanceBytes : ℕ := 8 + 1 + 32 + 32 + 8 * 5 + 32 + 1

def decodeAdvance (pubkey : Address) (data : List UInt8) :
    Except DecodeError (Option DecodedAdvance) :=
  if data.length < advanceBytes then .ok none
  else do
    let off := 8
    let bump ← readUInt8 data off
    let off := off + 1
    let agent := slice data off 32
    let off := off + 32
    let receivableId := slice data off 32
    let off := off + 32
    let off := off + 8
    let off := off + 8
    let off := off + 8
    let off := off + 8
    let expiresAt ← readBigInt64LE data off
    let off := off + 8
    let off := off + 32
    let state ← readUInt8 data off
    pure (some { pubkey, agent, receivableId, expiresAt, state, bump })

theorem readUInt8_of_lt {buf : List UInt8} {off : ℕ} (h : off < buf.length) :
    readUInt8 buf off = .ok buf[off] :=
  BoundedRead.byteAt_eq_ok.mpr (List.getElem?_eq_getElem h)

theorem readBigInt64LE_of_le {buf : List UInt8} {off : ℕ} (h : off + 8 ≤ buf.length) :
    readBigInt64LE buf off = .ok (UInt64.ofNat (readLE (slice buf off 8))).toInt64.toInt := by
  rw [readBigInt64LE, BoundedRead.range_of_le (Nat.le_add_right off 8) h, Nat.add_sub_cancel_left]
  rfl

/-- From enough data everything is read inside of it. -/
theorem decodeAdvance_of_le (pubkey : Address) {data : List UInt8}
    (h : 146 ≤ data.length) :
    decodeAdvance pubkey data = .ok (some {
      pubkey
      agent := slice data 9 32
      receivableId := slice data 41 32
      expiresAt := (UInt64.ofNat (readLE (slice data 105 8))).toInt64.toInt
      state := data[145]
      bump := data[8] }) := by
  have hbytes : advanceBytes = 146 := rfl
  rw [decodeAdvance, if_neg (by omega)]
  simp only
  rw [readUInt8_of_lt (by omega), readBigInt64LE_of_le (by omega), readUInt8_of_lt (by omega)]
  rfl

theorem decodeAdvance_of_lt (pubkey : Address) {data : List UInt8} (h : data.length < 146) :
    decodeAdvance pubkey data = .ok none :=
  if_pos h

/-- The decoder never throws. -/
theorem exists_decodeAdvance (pubkey : Address) (data : List UInt8) :
    ∃ decoded, decodeAdvance pubkey data = .ok decoded := by
  obtain h | h := lt_or_ge data.length 146
  · exact ⟨none, decodeAdvance_of_lt pubkey h⟩
  · exact ⟨_, decodeAdvance_of_le pubkey h⟩

end CredMesh.Keeper
