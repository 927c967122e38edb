import CredMesh.Foundation.ByteString
import CredMesh.Foundation.Outcome

/-!
# Reads that may leave the data

An access to a byte string at an index or over a range fails with a given fault when it does not
lie inside. The rules say when an access goes through and what it returns.
-/

namespace BoundedRead

open Outcome ByteString

variable {ε : Type} (fault : ε) (bytes : List UInt8)

def byteAt (index : ℕ) : Except ε UInt8 := okOr bytes[index]? fault

def range (start stop : ℕ) : Except ε (List UInt8) := do
  require (start ≤ stop ∧ stop ≤ bytes.length) fault
  pure (slice bytes start (stop - start))

/-- Copying into an array of another length fails as well. -/
def toArray (length : ℕ) : Except ε (Bytes length) :=
  if h : bytes.length = length then .ok ⟨bytes, h⟩ else .error fault

/-- An unsigned little-endian number of two bytes, read one after the other. -/
def u16At (offset : ℕ) : Except ε ℕ := do
  let low ← byteAt fault bytes offset
  let high ← byteAt fault bytes (offset + 1)
  pure (readLE [low, high])

variable {fault bytes}

theorem byteAt_eq_ok {index : ℕ} {byte : UInt8} :
    byteAt fault bytes index = .ok byte ↔ bytes[index]? = some byte :=
  okOr_eq_ok

theorem range_of_le {start stop : ℕ} (hstart : start ≤ stop) (hstop : stop ≤ bytes.length) :
    range fault bytes start stop = .ok (slice bytes start (stop - start)) := by
  rw [range, require_of ⟨hstart, hstop⟩, ok_bind]
  rfl

theorem u16At_of_le {offset : ℕ} (h : offset + 2 ≤ bytes.length) :
    u16At fault bytes offset = .ok (readLE (slice bytes offset 2)) := by
  have hslice : slice bytes offset 2 = [bytes[offset], bytes[offset + 1]] := by
    rw [slice, List.drop_eq_getElem_cons (by omega), List.drop_eq_getElem_cons (by omega)]
    rfl
  have hlow : byteAt fault bytes offset = .ok bytes[offset] :=
    byteAt_eq_ok.mpr (List.getElem?_eq_getElem _)
  have hhigh : byteAt fault bytes (offset + 1) = .ok bytes[offset + 1] :=
    byteAt_eq_ok.mpr (List.getElem?_eq_getElem _)
  rw [u16At, hlow, ok_bind, hhigh, ok_bind, hslice]
  rfl

theorem toArray_slice {length offset : ℕ} (h : offset + length ≤ bytes.length) :
    toArray fault (slice bytes offset length) length = .ok (arrayAt length bytes offset) := by
  rw [toArray, dif_pos (length_slice h)]
  apply congrArg Except.ok
  apply List.Vector.toList_injective
  rw [arrayAt_toList h]
  rfl

end BoundedRead
