import Mathlib.Data.Nat.Digits.Lemmas
import CredMesh.Foundation.ByteString

/-!
# Bytes as text

The two encodings in which bytes appear in logs. Base64 is written with padding; the decoder is
that of Node, which looks at the low byte of each UTF-16 code unit, takes both common alphabets,
stops at the first padding and skips everything else. It inverts the encoder. In base58 a leading
zero byte becomes the first letter, and the rest is a number. Read as a number again, a text forgets
how many first letters it starts with; the decoder counts them, and inverts the encoder.
-/

/-- Looking up a letter with a default from the same alphabet stays within it. -/
theorem BaseEncoding.getD_mem {letters : List Char} {fallback : Char} (h : fallback ∈ letters)
    (n : ℕ) : letters.getD n fallback ∈ letters := by
  rw [List.getD_eq_getElem?_getD]
  cases hfound : letters[n]? with
  | none => exact h
  | some c => exact List.mem_of_getElem? hfound

namespace Base64

def alphabet : List Char :=
  "ABCDEFGHIJKLMNOPQRSTUVWXYZabcdefghijklmnopqrstuvwxyz0123456789+/".toList

def letter (sextet : ℕ) : Char := alphabet.getD sextet 'A'

def encode : List UInt8 → List Char
  | [] => []
  | [a] => [letter (a.toNat / 4), letter (a.toNat % 4 * 16), '=', '=']
  | [a, b] => [letter (a.toNat / 4), letter (a.toNat % 4 * 16 + b.toNat / 16),
      letter (b.toNat % 16 * 4), '=']
  | a :: b :: c :: rest => letter (a.toNat / 4) :: letter (a.toNat % 4 * 16 + b.toNat / 16) ::
      letter (b.toNat % 16 * 4 + c.toNat / 64) :: letter (c.toNat % 64) :: encode rest

/-- The value of a letter of either alphabet. -/
def sextet (c : Char) : Option ℕ :=
  if c = '-' then some 62 else if c = '_' then some 63 else alphabet.idxOf? c

/-- Four letters make three bytes; bits left over at the end are dropped. -/
def bytesOfSextets : List ℕ → List UInt8
  | p :: q :: r :: s :: rest => UInt8.ofNat (p * 4 + q / 16) ::
      UInt8.ofNat (q % 16 * 16 + r / 4) :: UInt8.ofNat (r % 4 * 64 + s) :: bytesOfSextets rest
  | [p, q, r] => [UInt8.ofNat (p * 4 + q / 16), UInt8.ofNat (q % 16 * 16 + r / 4)]
  | [p, q] => [UInt8.ofNat (p * 4 + q / 16)]
  | _ => []

/-- The UTF-16 code units of a character: itself, or the two halves of a surrogate pair. -/
def codeUnits (c : Char) : List ℕ :=
  if c.toNat < 0x10000 then [c.toNat]
  else [0xD800 + (c.toNat - 0x10000) / 0x400, 0xDC00 + (c.toNat - 0x10000) % 0x400]

/-- The low bytes of the code units, read as characters again. -/
def narrow (text : List Char) : List Char :=
  text.flatMap fun c ↦ (codeUnits c).map fun unit ↦ Char.ofNat (unit % 256)

/-- The values of the letters up to the first padding. -/
def sextets (text : List Char) : List ℕ := (text.takeWhile (· ≠ '=')).filterMap sextet

def decode (text : List Char) : List UInt8 := bytesOfSextets (sextets (narrow text))

theorem letter_mem (n : ℕ) : letter n ∈ alphabet :=
  BaseEncoding.getD_mem (by decide) n

theorem mem_encode {c : Char} {bytes : List UInt8} (h : c ∈ encode bytes) :
    c ∈ alphabet ∨ c = '=' := by
  induction bytes using encode.induct with
  | case1 => simp [encode] at h
  | case2 a => grind [encode, letter_mem]
  | case3 a b => grind [encode, letter_mem]
  | case4 a b c rest ih => grind [encode, letter_mem]

theorem sextet_letter {n : ℕ} (h : n < 64) : sextet (letter n) = some n := by
  have hall : ∀ n < 64, sextet (letter n) = some n := by decide +kernel
  exact hall n h

theorem sextet_pad : sextet '=' = none := by decide

/-- A text of one-byte characters is not changed. -/
theorem narrow_of_lt {text : List Char} (h : ∀ c ∈ text, c.toNat < 256) : narrow text = text := by
  induction text with
  | nil => rfl
  | cons c text ih =>
      obtain ⟨hc, htext⟩ := List.forall_mem_cons.mp h
      have hunits : codeUnits c = [c.toNat] := if_pos (by omega)
      rw [narrow, List.flatMap_cons, hunits, List.map_singleton, Nat.mod_eq_of_lt hc,
        Char.ofNat_toNat, List.singleton_append, ← narrow, ih htext]

theorem narrow_encode (bytes : List UInt8) : narrow (encode bytes) = encode bytes := by
  have hletters : (alphabet.all fun c ↦ c.toNat < 256) = true := by decide +kernel
  apply narrow_of_lt
  intro c hc
  obtain hletter | rfl := mem_encode hc
  · exact of_decide_eq_true (List.all_eq_true.mp hletters c hletter)
  · decide

theorem sextets_cons {n : ℕ} (h : n < 64) (text : List Char) :
    sextets (letter n :: text) = n :: sextets text := by
  have hletter := sextet_letter h
  have hne : letter n ≠ '=' := by
    intro hpad
    rw [hpad, sextet_pad] at hletter
    cases hletter
  rw [sextets, List.takeWhile_cons_of_pos (by simpa using hne), List.filterMap_cons_some hletter,
    ← sextets]

theorem sextets_pad (text : List Char) : sextets ('=' :: text) = [] := rfl

/-- What follows the first padding is not read. -/
example : decode "2RdE=8pxsTnE=".toList = [217, 23, 68] := by decide +kernel

theorem decode_encode (bytes : List UInt8) : decode (encode bytes) = bytes := by
  have hbyte {n : ℕ} {a : UInt8} (h : n = a.toNat) : UInt8.ofNat n = a := by
    rw [h, UInt8.ofNat_toNat]
  rw [decode, narrow_encode]
  induction bytes using encode.induct with
  | case1 => rfl
  | case2 a =>
      have ha := a.toNat_lt
      rw [encode, sextets_cons (by omega), sextets_cons (by omega), sextets_pad, bytesOfSextets,
        hbyte (a := a) (by omega)]
  | case3 a b =>
      have ha := a.toNat_lt
      have hb := b.toNat_lt
      rw [encode, sextets_cons (by omega), sextets_cons (by omega), sextets_cons (by omega),
        sextets_pad, bytesOfSextets, hbyte (a := a) (by omega), hbyte (a := b) (by omega)]
  | case4 a b c rest ih =>
      have ha := a.toNat_lt
      have hb := b.toNat_lt
      have hc := c.toNat_lt
      rw [encode, sextets_cons (by omega), sextets_cons (by omega), sextets_cons (by omega),
        sextets_cons (by omega), bytesOfSextets, ih, hbyte (a := a) (by omega),
        hbyte (a := b) (by omega), hbyte (a := c) (by omega)]

theorem encode_injective : Function.Injective encode :=
  Function.LeftInverse.injective decode_encode

theorem encode_eq_nil {bytes : List UInt8} : encode bytes = [] ↔ bytes = [] := by
  rw [← encode_injective.eq_iff, encode]

end Base64

namespace Base58

def alphabet : List Char := "123456789ABCDEFGHJKLMNPQRSTUVWXYZabcdefghijkmnopqrstuvwxyz".toList

def letter (digit : ℕ) : Char := alphabet.getD digit '1'

def encode (bytes : List UInt8) : List Char :=
  List.replicate (bytes.takeWhile (· = 0)).length '1' ++
    ((Nat.digits 58 (ByteString.readLE bytes.reverse)).reverse.map letter)

/-- The number that a text stands for. -/
def value (text : List Char) : ℕ := Nat.ofDigits 58 (text.reverse.map fun c ↦ alphabet.idxOf c)

theorem idxOf_letter {n : ℕ} (h : n < 58) : alphabet.idxOf (letter n) = n := by
  have hall : ∀ n < 58, alphabet.idxOf (letter n) = n := by decide
  exact hall n h

/-- Letters in front that stand for zero do not count. -/
theorem value_letters {digits : List ℕ} (h : ∀ digit ∈ digits, digit < 58) (zeros : ℕ) :
    value (List.replicate zeros '1' ++ digits.reverse.map letter) = Nat.ofDigits 58 digits := by
  have hdigits : (digits.map letter).map (fun c ↦ alphabet.idxOf c) = digits := by
    rw [List.map_map]
    calc
      _ = digits.map id := List.map_congr_left fun digit hdigit ↦ idxOf_letter (h digit hdigit)
      _ = digits := List.map_id digits
  have hzero : alphabet.idxOf '1' = 0 := by decide
  rw [value, List.reverse_append, List.reverse_replicate, ← List.map_reverse, List.reverse_reverse,
    List.map_append, hdigits, List.map_replicate, hzero, Nat.ofDigits_append_replicate_zero]

theorem letter_mem (digit : ℕ) : letter digit ∈ alphabet :=
  BaseEncoding.getD_mem (by decide) digit

theorem mem_encode {c : Char} {bytes : List UInt8} (h : c ∈ encode bytes) : c ∈ alphabet := by
  obtain hzero | hdigit := List.mem_append.mp h
  · rw [(List.mem_replicate.mp hzero).2]
    decide
  · obtain ⟨digit, -, rfl⟩ := List.mem_map.mp hdigit
    exact letter_mem digit

/-- The text stands for the number of its bytes, the first of which is the most significant. -/
theorem value_encode (bytes : List UInt8) :
    value (encode bytes) = ByteString.readLE bytes.reverse := by
  rw [encode, value_letters fun digit hdigit ↦ Nat.digits_lt_base (by norm_num) hdigit]
  exact Nat.ofDigits_digits _ _

/-- The bytes of a number, the most significant first and no zeros in front. -/
def bigEndian (n : ℕ) : List UInt8 := ((Nat.digits 256 n).map UInt8.ofNat).reverse

def decode (text : List Char) : Option (List UInt8) :=
  if text.all (· ∈ alphabet) then
    some (List.replicate (text.takeWhile (· = '1')).length 0 ++ bigEndian (value text))
  else none

theorem bigEndian_readLE {bytes : List UInt8} (h : bytes.head? ≠ some 0) :
    bigEndian (ByteString.readLE bytes.reverse) = bytes := by
  have hdigits : Nat.digits 256 (ByteString.readLE bytes.reverse) =
      bytes.reverse.map UInt8.toNat := by
    rw [ByteString.readLE_eq_ofDigits]
    apply Nat.digits_ofDigits 256 (by norm_num)
    · intro digit hdigit
      obtain ⟨byte, -, rfl⟩ := List.mem_map.mp hdigit
      exact byte.toNat_lt
    · intro hne
      cases bytes with
      | nil => exact absurd rfl hne
      | cons byte rest =>
          simp only [List.reverse_cons, List.map_append, List.map_cons, List.map_nil,
            List.getLast_append_singleton]
          exact fun hzero ↦ h (congrArg some (UInt8.toNat_inj.mp hzero))
  rw [bigEndian, hdigits, List.map_map]
  calc
    _ = (bytes.reverse.map id).reverse := by
      apply congrArg List.reverse
      exact List.map_congr_left fun byte _ ↦ UInt8.ofNat_toNat
    _ = bytes := by rw [List.map_id, List.reverse_reverse]

/-- The digits of a number do not start with the letter that stands for zero. -/
theorem takeWhile_letters (n : ℕ) :
    ((Nat.digits 58 n).reverse.map letter).takeWhile (· = '1') = [] := by
  obtain rfl | hn := Nat.eq_zero_or_pos n
  · rfl
  · have hne := Nat.digits_ne_nil_iff_ne_zero (b := 58).mpr hn.ne'
    have hlast := Nat.getLast_digit_ne_zero 58 hn.ne'
    have hlt := Nat.digits_lt_base (by norm_num) (List.getLast_mem hne)
    have hletter : letter ((Nat.digits 58 n).getLast hne) ≠ '1' := by
      intro heq
      have hindex := idxOf_letter hlt
      rw [heq] at hindex
      exact hlast (hindex.symm.trans (by decide))
    rw [← List.dropLast_append_getLast hne, List.reverse_append, List.reverse_singleton,
      List.singleton_append, List.map_cons, List.takeWhile_cons_of_neg (by simpa using hletter)]

theorem decode_encode (bytes : List UInt8) : decode (encode bytes) = some bytes := by
  have hall : (encode bytes).all (· ∈ alphabet) = true :=
    List.all_eq_true.mpr fun c hc ↦ decide_eq_true (mem_encode hc)
  have hzeros : ((encode bytes).takeWhile (· = '1')).length =
      (bytes.takeWhile (· = 0)).length := by
    rw [encode, List.takeWhile_append_of_pos, takeWhile_letters, List.append_nil,
      List.length_replicate]
    intro c hc
    exact decide_eq_true (List.eq_of_mem_replicate hc)
  have hfront : List.replicate (bytes.takeWhile (· = 0)).length 0 = bytes.takeWhile (· = 0) := by
    symm
    rw [List.eq_replicate_iff]
    exact ⟨rfl, fun byte hbyte ↦ by simpa using List.mem_takeWhile_imp hbyte⟩
  have hrest : bigEndian (ByteString.readLE bytes.reverse) = bytes.dropWhile (· = 0) := by
    rw [← ByteString.readLE_reverse_dropWhile]
    apply bigEndian_readLE
    intro hhead
    have hfirst := List.head?_dropWhile_not (· = 0) bytes
    simp [hhead] at hfirst
  rw [decode, if_pos hall, hzeros, value_encode, hrest, hfront, List.takeWhile_append_dropWhile]

theorem encode_injective : Function.Injective encode := by
  intro first second h
  have hdecoded := congrArg decode h
  rw [decode_encode, decode_encode] at hdecoded
  exact Option.some.inj hdecoded

end Base58
