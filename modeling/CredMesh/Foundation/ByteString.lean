import Mathlib.Data.List.TakeWhile
import Mathlib.Data.Nat.Digits.Defs
import Mathlib.Data.Vector.Basic
import Mathlib.Tactic.Ring

/-!
# Byte strings and little-endian integers

Byte strings are lists of bytes; a byte array of fixed length is Mathlib's `List.Vector`. Records
are read from a byte string at fixed offsets and written into a buffer at fixed offsets. The two
little-endian conversions are inverse to each other on strings of equal width.
-/

/-- A byte array of fixed length. -/
abbrev Bytes (length : ℕ) := List.Vector UInt8 length

namespace ByteString

/-- The `length` bytes that start at `offset`, fewer if the string ends before. -/
def slice (bytes : List UInt8) (offset length : ℕ) : List UInt8 :=
  (bytes.drop offset).take length

theorem length_slice {bytes : List UInt8} {offset length : ℕ}
    (h : offset + length ≤ bytes.length) : (slice bytes offset length).length = length := by
  simp only [slice, List.length_take, List.length_drop]
  omega

/-- Adjacent slices join up. -/
theorem slice_append_slice (bytes : List UInt8) {offset next : ℕ} (first second : ℕ)
    (hnext : next = offset + first) :
    slice bytes offset first ++ slice bytes next second =
      slice bytes offset (first + second) := by
  subst hnext
  simp only [slice, List.take_add, List.drop_drop]

/-- A field of a part of the string. -/
theorem slice_slice (bytes : List UInt8) {offset length offset' length' : ℕ}
    (h : offset' + length' ≤ length) :
    slice (slice bytes offset length) offset' length' = slice bytes (offset + offset') length' := by
  simp only [slice, List.drop_take, List.take_take, List.drop_drop]
  rw [Nat.min_eq_left (by omega)]

theorem slice_zero_length (bytes : List UInt8) {length : ℕ} (h : bytes.length = length) :
    slice bytes 0 length = bytes := by
  simp [slice, ← h]

/-- The first of several fields. -/
theorem slice_append_left {first rest : List UInt8} {length : ℕ} (h : first.length = length) :
    slice (first ++ rest) 0 length = first := by
  simp [slice, ← h]

/-- A field behind the first one. -/
theorem slice_append_right {first rest : List UInt8} {offset length : ℕ}
    (h : first.length ≤ offset) :
    slice (first ++ rest) offset length = slice rest (offset - first.length) length := by
  simp only [slice, List.drop_append, List.drop_eq_nil_of_le h, List.nil_append]

/-- Overwrite the part of a buffer that starts at `offset`. -/
def writeAt (buffer : List UInt8) (offset : ℕ) (bytes : List UInt8) : List UInt8 :=
  buffer.take offset ++ bytes ++ buffer.drop (offset + bytes.length)

/-- Filling a zeroed buffer from the left, one field after the other. -/
theorem writeAt_zeros {written bytes : List UInt8} {offset rest : ℕ}
    (hoffset : written.length = offset) :
    writeAt (written ++ List.replicate rest 0) offset bytes =
      (written ++ bytes) ++ List.replicate (rest - bytes.length) 0 := by
  subst hoffset
  simp only [writeAt, List.take_left', List.drop_append, List.append_assoc]
  rw [List.drop_eq_nil_of_le (by omega), List.nil_append, Nat.add_sub_cancel_left,
    List.drop_replicate]

/-- The value of a byte string, least significant byte first. -/
def readLE : List UInt8 → ℕ
  | [] => 0
  | byte :: rest => byte.toNat + 256 * readLE rest

/-- The low `width` bytes of a value, least significant byte first. -/
def leBytes : ℕ → ℕ → List UInt8
  | 0, _ => []
  | width + 1, value => UInt8.ofNat (value % 256) :: leBytes width (value / 256)

@[simp]
theorem length_leBytes (width value : ℕ) : (leBytes width value).length = width := by
  induction width generalizing value with
  | zero => rfl
  | succ width ih => simp [leBytes, ih]

theorem readLE_eq_ofDigits (bytes : List UInt8) :
    readLE bytes = Nat.ofDigits 256 (bytes.map UInt8.toNat) := by
  induction bytes with
  | nil => rfl
  | cons byte rest ih => rw [readLE, List.map_cons, Nat.ofDigits_cons, ih]

theorem readLE_lt (bytes : List UInt8) : readLE bytes < 256 ^ bytes.length := by
  induction bytes with
  | nil => simp [readLE]
  | cons byte rest ih =>
      have hbyte := byte.toNat_lt
      simp only [readLE, List.length_cons, pow_succ]
      omega

theorem readLE_leBytes {width value : ℕ} (h : value < 256 ^ width) :
    readLE (leBytes width value) = value := by
  induction width generalizing value with
  | zero =>
      simp only [pow_zero, Nat.lt_one_iff] at h
      simp [leBytes, readLE, h]
  | succ width ih =>
      have hrest : value / 256 < 256 ^ width := by
        rw [Nat.div_lt_iff_lt_mul (by norm_num)]
        simpa [pow_succ] using h
      have hbyte : (UInt8.ofNat (value % 256)).toNat = value % 256 :=
        UInt8.toNat_ofNat_of_lt' (Nat.mod_lt _ (by norm_num))
      simp only [leBytes, readLE, ih hrest, hbyte]
      omega

theorem leBytes_readLE (bytes : List UInt8) : leBytes bytes.length (readLE bytes) = bytes := by
  induction bytes with
  | nil => rfl
  | cons byte rest ih =>
      have hbyte := byte.toNat_lt
      have hlow : (byte.toNat + 256 * readLE rest) % 256 = byte.toNat := by omega
      have hhigh : (byte.toNat + 256 * readLE rest) / 256 = readLE rest := by omega
      simp only [List.length_cons, leBytes, readLE, hlow, hhigh, ih, UInt8.ofNat_toNat]

/-- Strings of equal length with the same value are the same. -/
theorem readLE_inj {first second : List UInt8} (hlength : first.length = second.length)
    (h : readLE first = readLE second) : first = second := by
  rw [← leBytes_readLE first, ← leBytes_readLE second, hlength, h]

/-- Zeros at the significant end do not count. -/
theorem readLE_append_zeros {zeros : List UInt8} (h : ∀ byte ∈ zeros, byte = 0)
    (bytes : List UInt8) : readLE (bytes ++ zeros) = readLE bytes := by
  induction bytes with
  | nil =>
      induction zeros with
      | nil => rfl
      | cons byte zeros ih =>
          obtain ⟨rfl, hrest⟩ := List.forall_mem_cons.mp h
          have hvalue : readLE zeros = 0 := ih hrest
          simp [readLE, hvalue]
  | cons byte bytes ih => rw [List.cons_append, readLE, readLE, ih]

/-- Nor do they where the first byte is the most significant. -/
theorem readLE_reverse_dropWhile (bytes : List UInt8) :
    readLE (bytes.dropWhile (· = 0)).reverse = readLE bytes.reverse := by
  have hzeros : ∀ byte ∈ (bytes.takeWhile (· = 0)).reverse, byte = 0 := by
    intro byte hbyte
    simpa using List.mem_takeWhile_imp (List.mem_reverse.mp hbyte)
  calc
    _ = readLE ((bytes.dropWhile (· = 0)).reverse ++ (bytes.takeWhile (· = 0)).reverse) :=
      (readLE_append_zeros hzeros _).symm
    _ = readLE bytes.reverse := by
      rw [← List.reverse_append, List.takeWhile_append_dropWhile]

/-- A fixed-length array read from a string, zero-padded if the string is too short. -/
def arrayAt (length : ℕ) (bytes : List UInt8) (offset : ℕ) : Bytes length :=
  ⟨(slice bytes offset length).takeD length 0, List.takeD_length _ _ _⟩

theorem arrayAt_toList {length offset : ℕ} {bytes : List UInt8}
    (h : offset + length ≤ bytes.length) :
    (arrayAt length bytes offset).toList = slice bytes offset length := by
  change (slice bytes offset length).takeD length 0 = _
  rw [List.takeD_eq_take _ (by rw [length_slice h])]
  exact List.take_of_length_le (by rw [length_slice h])

end ByteString
