import CredMesh.Bridge.ProgramLog

/-!
# The bridge's base58 texts

The encoder keeps its digits in a list that starts as a single zero. The first byte that is not zero
replaces it, and from then on the list is the number of the bytes so far, without leading zeros.
Where no such byte comes, the zero is still there at the end and becomes a letter too many.
-/

namespace CredMesh.Bridge

open ByteString

/-- Shifting a number that has digits pushes a carry. -/
theorem shiftDigits_carry_pos {n : ℕ} (hn : 0 < n) (byte : ℕ) :
    0 < (shiftDigits (Nat.digits 58 n) byte).2 := by
  have hvalue := shiftDigits_value (Nat.digits 58 n) byte
  have hlow := Nat.ofDigits_lt_base_pow_length (by norm_num)
    (shiftDigits_lt (Nat.digits 58 n) byte)
  have hlead := Nat.base_pow_length_digits_le 58 n (by norm_num) hn.ne'
  rw [shiftDigits_length] at hlow
  rw [Nat.ofDigits_digits] at hvalue
  by_contra hcarry
  rw [Nat.eq_zero_of_not_pos hcarry, Nat.mul_zero, Nat.add_zero] at hvalue
  omega

/-- One byte more turns the digits of a number into those of the longer one. -/
theorem shiftDigits_digits {n : ℕ} (hn : 0 < n) (byte : ℕ) :
    (shiftDigits (Nat.digits 58 n) byte).1 ++
        Nat.digits 58 (shiftDigits (Nat.digits 58 n) byte).2 =
      Nat.digits 58 (byte + 256 * n) := by
  have hcarry := shiftDigits_carry_pos hn byte
  have hvalue := shiftDigits_value (Nat.digits 58 n) byte
  rw [Nat.ofDigits_digits] at hvalue
  rw [← hvalue]
  symm
  calc
    _ = Nat.digits 58 (Nat.ofDigits 58 ((shiftDigits (Nat.digits 58 n) byte).1 ++
        Nat.digits 58 (shiftDigits (Nat.digits 58 n) byte).2)) := by
      rw [Nat.ofDigits_append, Nat.ofDigits_digits, shiftDigits_length]
    _ = _ := by
      apply Nat.digits_ofDigits 58 (by norm_num)
      · rw [List.forall_mem_append]
        exact ⟨shiftDigits_lt _ _, fun digit hdigit ↦ Nat.digits_lt_base (by norm_num) hdigit⟩
      · intro hne
        rw [List.getLast_append_of_ne_nil _ (Nat.digits_ne_nil_iff_ne_zero.mpr hcarry.ne')]
        exact Nat.getLast_digit_ne_zero 58 hcarry.ne'

/-- The digits of the loop: those of the number, and a single zero for nothing. -/
theorem base58Digits_eq (bytes : List UInt8) :
    base58Digits bytes = if readLE bytes.reverse = 0 then [0]
      else Nat.digits 58 (readLE bytes.reverse) := by
  induction bytes using List.reverseRecOn with
  | nil => rfl
  | append_singleton bytes byte ih =>
      have hvalue : readLE (bytes ++ [byte]).reverse =
          byte.toNat + 256 * readLE bytes.reverse := by
        rw [List.reverse_append]
        rfl
      rw [base58Digits_snoc, hvalue, ih]
      split
      case isTrue hzero =>
        rw [hzero, Nat.mul_zero, Nat.add_zero]
        simp only [shiftDigits, Nat.zero_mul, Nat.add_zero, List.singleton_append]
        split
        case isTrue hbyte => rw [hbyte]; rfl
        case isFalse hbyte =>
          rw [Nat.digits_def' (by norm_num) (Nat.pos_of_ne_zero hbyte)]
      case isFalse hpositive =>
        rw [shiftDigits_digits (Nat.pos_of_ne_zero hpositive), if_neg (by omega)]

theorem readLE_eq_zero_iff (bytes : List UInt8) :
    readLE bytes = 0 ↔ ∀ byte ∈ bytes, byte = 0 := by
  induction bytes with
  | nil => simp [readLE]
  | cons byte rest ih =>
      have hbyte : byte.toNat = 0 ↔ byte = 0 := by
        rw [← UInt8.toNat_inj]
        rfl
      rw [List.forall_mem_cons, ← ih, ← hbyte, readLE]
      omega

theorem readLE_reverse_eq_zero_iff (bytes : List UInt8) :
    readLE bytes.reverse = 0 ↔ ∀ byte ∈ bytes, byte = 0 := by
  rw [readLE_eq_zero_iff]
  simp only [List.mem_reverse]

/-- The encoder in terms of the standard text: the number zero has a letter of its own. -/
theorem bytesToBase58_eq (bytes : List UInt8) :
    bytesToBase58 bytes = Base58.encode bytes ++
      if readLE bytes.reverse = 0 then ['1'] else [] := by
  have hdigits : readLE (bytes.dropWhile (· = 0)).reverse = readLE bytes.reverse :=
    readLE_reverse_dropWhile bytes
  rw [bytesToBase58, drop_zeros, base58Digits_eq, hdigits, Base58.encode]
  by_cases h : readLE bytes.reverse = 0
  · have hletter : [0].reverse.map Base58.letter = ['1'] := by decide +kernel
    rw [if_pos h, if_pos h, h, hletter, Nat.digits_zero, List.reverse_nil, List.map_nil,
      List.append_nil]
  · rw [if_neg h, if_neg h, List.append_nil]

/-- What a text must be to be looked up in the binding map. -/
structure IsStandardText (bytes : List UInt8) (text : List Char) : Prop where
  text_eq : text = Base58.encode bytes
  decoded : Base58.decode text = some bytes
  found : ∀ cfg : EventTailConfig, cfg.agentBindings text = cfg.agentBindings (Base58.encode bytes)

theorem bytesToBase58_injective : Function.Injective bytesToBase58 := by
  intro first second h
  have hvalue := congrArg Base58.value h
  rw [bytesToBase58_value, bytesToBase58_value] at hvalue
  rw [bytesToBase58_eq, bytesToBase58_eq, hvalue] at h
  exact Base58.encode_injective (List.append_cancel_right h)

/-- The bridge's text of a byte array is its standard base58 text, which the standard decoder reads
back and under which the array is found in every map, exactly if one of its bytes is not zero.
Different arrays have different texts in any case. -/
theorem base58_text_iff (bytes : List UInt8) :
    (IsStandardText bytes (bytesToBase58 bytes) ↔ ∃ byte ∈ bytes, byte ≠ 0) ∧
    ∀ other, bytesToBase58 other = bytesToBase58 bytes → other = bytes := by
  refine ⟨?_, fun other h ↦ bytesToBase58_injective h⟩
  have hnonzero : (∃ byte ∈ bytes, byte ≠ 0) ↔ ¬ ∀ byte ∈ bytes, byte = 0 := by
    simp
  rw [hnonzero, ← readLE_reverse_eq_zero_iff]
  constructor
  · intro h hzeros
    have htext := h.text_eq
    rw [bytesToBase58_eq, if_pos hzeros] at htext
    exact absurd (List.append_right_eq_self.mp htext) (List.cons_ne_nil _ _)
  · intro hsome
    have htext : bytesToBase58 bytes = Base58.encode bytes := by
      rw [bytesToBase58_eq, if_neg hsome, List.append_nil]
    rw [htext]
    exact ⟨rfl, Base58.decode_encode bytes, fun _ ↦ rfl⟩

/-- The text of the all-zero key has 33 letters, and it is read back as 33 bytes. -/
theorem default_key_misspelt :
    ¬ IsStandardText defaultPubkey.toList (bytesToBase58 defaultPubkey.toList) ∧
    bytesToBase58 defaultPubkey.toList = List.replicate 33 '1' ∧
    Base58.decode (bytesToBase58 defaultPubkey.toList) = some (List.replicate 33 0) := by
  have htext : bytesToBase58 defaultPubkey.toList = List.replicate 33 '1' := by decide +kernel
  have hdecoded : Base58.decode (bytesToBase58 defaultPubkey.toList) =
      some (List.replicate 33 0) := by
    rw [htext]
    decide +kernel
  refine ⟨fun h ↦ ?_, htext, hdecoded⟩
  have hlength := hdecoded.symm.trans h.decoded
  exact absurd (congrArg List.length (Option.some.inj hlength)) (by decide +kernel)

end CredMesh.Bridge
