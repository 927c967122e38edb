import Mathlib.Data.Rat.Floor
import Mathlib.Tactic.NormNum
import CredMesh.Foundation.ByteString

/-!
# ECMAScript values

Strings are their UTF-16 code units, and numbers carry exact values: nothing here rounds. Besides
the smaller of two numbers and the conversion to an integer, this is the way from a text to bytes
by the idiom that matches pairs of characters and parses each as hexadecimal. On a text of digits
the idiom agrees with a strict decoder; it also accepts signs, blanks, and letters that are no
digits.
-/

namespace EcmaScript

abbrev JsString := List UInt16

/-- A text within the first plane. -/
def ofChars (text : List Char) : JsString := text.map fun c ↦ UInt16.ofNat c.toNat

theorem map_ofChars {text : List Char} (h : ∀ c ∈ text, c.toNat < UInt16.size) :
    (ofChars text).map (fun unit ↦ Char.ofNat unit.toNat) = text := by
  rw [ofChars, List.map_map]
  calc
    _ = text.map id := by
      apply List.map_congr_left
      intro c hc
      rw [Function.comp_apply, UInt16.toNat_ofNat_of_lt' (h c hc), Char.ofNat_toNat, id]
    _ = text := List.map_id text

/-! ## Numbers -/

inductive Number
  | nan
  | negInfinity
  | finite (value : ℚ)
  | posInfinity
  deriving DecidableEq

namespace Number

/-- `Math.min` of two numbers. -/
def min : Number → Number → Number
  | nan, _ => nan
  | _, nan => nan
  | negInfinity, _ => negInfinity
  | _, negInfinity => negInfinity
  | posInfinity, y => y
  | x, posInfinity => x
  | finite x, finite y => finite (if x ≤ y then x else y)

/-- The operator `<=`, which no NaN satisfies. -/
def le : Number → Number → Bool
  | nan, _ => false
  | _, nan => false
  | negInfinity, _ => true
  | _, posInfinity => true
  | _, negInfinity => false
  | posInfinity, _ => false
  | finite x, finite y => decide (x ≤ y)

/-- `BigInt` of a number, which has to be an integer. -/
def toBigInt : Number → Option ℤ
  | finite value => if value.den = 1 then some value.num else none
  | _ => none

theorem toBigInt_eq_some {x : Number} {n : ℤ} : x.toBigInt = some n ↔ x = finite n := by
  cases x with
  | finite value =>
      simp only [toBigInt, finite.injEq, Option.ite_none_right_eq_some, Option.some.injEq]
      constructor
      · rintro ⟨hden, rfl⟩
        exact (Rat.coe_int_num_of_den_eq_one hden).symm
      · rintro rfl
        exact ⟨Rat.den_intCast n, Rat.num_intCast n⟩
  | nan => simp [toBigInt]
  | negInfinity => simp [toBigInt]
  | posInfinity => simp [toBigInt]

/-- An integer that is the smaller of two numbers is at most a finite bound. -/
theorem le_of_min_eq {x : Number} {bound n : ℤ} (h : x.min (finite bound) = finite n) :
    n ≤ bound := by
  have hcast {y : ℚ} (hy : y ≤ bound) (hn : y = n) : n ≤ bound := by
    rw [hn] at hy
    exact_mod_cast hy
  cases x with
  | nan => cases h
  | negInfinity => cases h
  | posInfinity => exact hcast le_rfl (finite.inj h)
  | finite x =>
      have hvalue := finite.inj h
      split at hvalue
      case isTrue hle => exact hcast hle hvalue
      case isFalse => exact hcast le_rfl hvalue

theorem pos_of_not_le {n : ℤ} (h : (finite n).le (finite 0) = false) : 0 < n := by
  have hlt : ¬ (n : ℚ) ≤ 0 := of_decide_eq_false h
  exact_mod_cast not_le.mp hlt

end Number

/-- A value on its way to a number; of an object or a string only what it becomes is kept, `none`
if that throws. -/
inductive Value
  | undefined
  | null
  | number (value : Number)
  | other (coerced : Option Number)

namespace Value

/-- The operator `??`. -/
def orElse (fallback : Value) : Value → Value
  | undefined => fallback
  | null => fallback
  | value => value

def toNumber : Value → Option Number
  | undefined => some .nan
  | null => some (.finite 0)
  | number value => some value
  | other coerced => coerced

end Value

/-! ## Hexadecimal text -/

def isLineTerminator (unit : UInt16) : Bool := unit ∈ [0x0A, 0x0D, 0x2028, 0x2029]

def isWhiteSpace (unit : UInt16) : Bool :=
  isLineTerminator unit ∨ unit ∈ [0x09, 0x0B, 0x0C, 0x20, 0xA0, 0x1680, 0x202F, 0x205F, 0x3000,
    0xFEFF] ∨ (0x2000 ≤ unit ∧ unit ≤ 0x200A)

/-- The matches of `/.{1,2}/g`: two units where possible, line terminators skipped. -/
def pairs : JsString → List JsString
  | [] => []
  | [a] => if isLineTerminator a then [] else [[a]]
  | a :: b :: rest =>
      if isLineTerminator a then pairs (b :: rest)
      else if isLineTerminator b then [a] :: pairs rest
      else [a, b] :: pairs rest

/-- The number of pairs in the lines of a text, where the last unit of a line may stand alone. -/
def pairCount (text : JsString) : ℕ :=
  ((text.splitOnP isLineTerminator).map fun line ↦ (line.length + 1) / 2).sum

theorem length_pairs (text : JsString) : (pairs text).length = pairCount text := by
  have hterminator {unit : UInt16} (rest : JsString) (h : isLineTerminator unit = true) :
      pairCount (unit :: rest) = pairCount rest := by
    simp [pairCount, List.splitOnP_cons_eq_if_modifyHead, h]
  induction text using pairs.induct with
  | case1 => simp [pairs, pairCount]
  | case2 a h =>
      rw [hterminator [] h]
      simp [pairs, h, pairCount]
  | case3 a h => simp [pairs, h, pairCount, List.splitOnP_cons_eq_if_modifyHead]
  | case4 a b rest h ih => rw [pairs, if_pos h, ih, hterminator _ h]
  | case5 a b rest ha hb ih =>
      rw [pairs, if_neg ha, if_pos hb, List.length_cons, ih]
      simp [pairCount, List.splitOnP_cons_eq_if_modifyHead, ha, hb, Nat.add_comm]
  | case6 a b rest ha hb ih =>
      obtain ⟨line, lines, hlines⟩ :=
        List.exists_cons_of_ne_nil (List.splitOnP_ne_nil isLineTerminator rest)
      rw [pairs, if_neg ha, if_neg hb, List.length_cons, ih]
      simp only [pairCount, List.splitOnP_cons_eq_if_modifyHead, ha, hb, hlines,
        Bool.false_eq_true, if_false, List.modifyHead_cons, List.map_cons, List.sum_cons,
        List.length_cons]
      omega

def hexDigit (unit : UInt16) : Option ℕ :=
  if 0x30 ≤ unit ∧ unit ≤ 0x39 then some (unit.toNat - 0x30)
  else if 0x41 ≤ unit ∧ unit ≤ 0x46 then some (unit.toNat - 0x41 + 10)
  else if 0x61 ≤ unit ∧ unit ≤ 0x66 then some (unit.toNat - 0x61 + 10)
  else none

def dropSign : JsString → ℤ × JsString
  | unit :: rest =>
      if unit = 0x2D then (-1, rest) else if unit = 0x2B then (1, rest) else (1, unit :: rest)
  | [] => (1, [])

def dropHexPrefix : JsString → JsString
  | zero :: x :: rest => if zero = 0x30 ∧ (x = 0x78 ∨ x = 0x58) then rest else zero :: x :: rest
  | text => text

/-- The leading digits. -/
def hexDigits : JsString → List ℕ
  | unit :: rest =>
      match hexDigit unit with
      | some digit => digit :: hexDigits rest
      | none => []
  | [] => []

/-- `parseInt` with radix 16; `none` is NaN. -/
def parseHex (text : JsString) : Option ℤ :=
  let (sign, body) := dropSign (text.dropWhile isWhiteSpace)
  match hexDigits (dropHexPrefix body) with
  | [] => none
  | digits => some (sign * (digits.foldl (fun acc digit ↦ acc * 16 + digit) 0 : ℕ))

/-- What a typed array of bytes stores of a number: its residue, and 0 for NaN. -/
def toUint8 : Option ℤ → UInt8
  | some value => UInt8.ofNat (value % 256).toNat
  | none => 0

/-- The bytes that the pairs of a text parse to. -/
def bytesOfPairs (text : JsString) : List UInt8 :=
  (pairs text).map fun pair ↦ toUint8 (parseHex pair)

def hexUnit (digit : ℕ) : UInt16 :=
  if digit < 10 then UInt16.ofNat (0x30 + digit) else UInt16.ofNat (0x61 + (digit - 10))

/-- Two lower-case digits for each byte. -/
def hexText : List UInt8 → JsString
  | [] => []
  | byte :: rest => hexUnit (byte.toNat / 16) :: hexUnit (byte.toNat % 16) :: hexText rest

/-! ### Strict decoding -/

/-- The bytes that a text of digits denotes, two digits each. -/
def hexBytes : JsString → Option (List UInt8)
  | [] => some []
  | [_] => none
  | a :: b :: rest => do
      let high ← hexDigit a
      let low ← hexDigit b
      let bytes ← hexBytes rest
      some (UInt8.ofNat (16 * high + low) :: bytes)

def hexLetters : List UInt16 := ofChars "0123456789abcdefABCDEF".toList

/-- The lower case of an ASCII letter. -/
def foldCase (unit : UInt16) : UInt16 :=
  if 0x41 ≤ unit ∧ unit ≤ 0x5A then unit + 0x20 else unit

theorem mem_hexLetters {unit : UInt16} {digit : ℕ} (h : hexDigit unit = some digit) :
    unit ∈ hexLetters := by
  have hall (low high : ℕ) (hunit : low ≤ unit.toNat ∧ unit.toNat < high)
      (hletters : ∀ n < high, low ≤ n → UInt16.ofNat n ∈ hexLetters) : unit ∈ hexLetters := by
    have hmem := hletters unit.toNat hunit.2 hunit.1
    rwa [UInt16.ofNat_toNat] at hmem
  simp only [hexDigit, UInt16.le_iff_toNat_le] at h
  split_ifs at h with hdigit hupper hlower
  · exact hall 48 58 ⟨hdigit.1, Nat.lt_succ_of_le hdigit.2⟩ (by decide +kernel)
  · exact hall 65 71 ⟨hupper.1, Nat.lt_succ_of_le hupper.2⟩ (by decide +kernel)
  · exact hall 97 103 ⟨hlower.1, Nat.lt_succ_of_le hlower.2⟩ (by decide +kernel)

/-- What each of the letters has, every digit has. -/
theorem of_hexLetters {p : UInt16 → Prop} [DecidablePred p] {unit : UInt16} {digit : ℕ}
    (hall : hexLetters.all (fun unit ↦ p unit) = true) (h : hexDigit unit = some digit) : p unit :=
  of_decide_eq_true (List.all_eq_true.mp hall unit (mem_hexLetters h))

theorem hexDigit_lt {unit : UInt16} {digit : ℕ} (h : hexDigit unit = some digit) : digit < 16 :=
  of_hexLetters (p := fun unit ↦ ∀ digit ∈ hexDigit unit, digit < 16) (by decide +kernel) h digit h

theorem isLineTerminator_of_hexDigit {unit : UInt16} {digit : ℕ} (h : hexDigit unit = some digit) :
    isLineTerminator unit = false :=
  of_hexLetters (p := fun unit ↦ isLineTerminator unit = false) (by decide +kernel) h

/-- Digits of the same value are the same letter up to case. -/
theorem foldCase_inj {first second : UInt16} {digit : ℕ} (hfirst : hexDigit first = some digit)
    (hsecond : hexDigit second = some digit) : foldCase first = foldCase second := by
  have hall := of_hexLetters (p := fun first ↦ hexLetters.all (fun second ↦
    hexDigit first = hexDigit second → foldCase first = foldCase second) = true)
    (by decide +kernel) hfirst
  exact of_hexLetters hall hsecond (hfirst.trans hsecond.symm)

theorem toUint8_parseHex {a b : UInt16} {high low : ℕ} (ha : hexDigit a = some high)
    (hb : hexDigit b = some low) : toUint8 (parseHex [a, b]) = UInt8.ofNat (16 * high + low) := by
  have hall := of_hexLetters (p := fun a ↦ hexLetters.all (fun b ↦
    ∀ high ∈ hexDigit a, ∀ low ∈ hexDigit b,
      toUint8 (parseHex [a, b]) = UInt8.ofNat (16 * high + low)) = true) (by decide +kernel) ha
  exact of_hexLetters hall hb high ha low hb

theorem hexBytes_cons_cons {a b : UInt16} {rest : JsString} {bytes : List UInt8} :
    hexBytes (a :: b :: rest) = some bytes ↔
      ∃ high low tail, hexDigit a = some high ∧ hexDigit b = some low ∧
        hexBytes rest = some tail ∧ bytes = UInt8.ofNat (16 * high + low) :: tail := by
  simp only [hexBytes, Option.bind_eq_bind, Option.bind_eq_some_iff, Option.some.injEq]
  constructor
  · rintro ⟨high, ha, low, hb, tail, hrest, rfl⟩
    exact ⟨high, low, tail, ha, hb, hrest, rfl⟩
  · rintro ⟨high, low, tail, ha, hb, hrest, rfl⟩
    exact ⟨high, ha, low, hb, tail, hrest, rfl⟩

theorem length_of_hexBytes {text : JsString} {bytes : List UInt8} (h : hexBytes text = some bytes) :
    text.length = 2 * bytes.length := by
  induction text using hexBytes.induct generalizing bytes with
  | case1 =>
      cases h
      rfl
  | case2 a => cases h
  | case3 a b rest ih =>
      obtain ⟨high, low, tail, -, -, hrest, rfl⟩ := hexBytes_cons_cons.mp h
      have hlength := ih hrest
      simp only [List.length_cons]
      omega

/-- What is strictly decoded is read the same by the idiom. -/
theorem bytesOfPairs_of_hexBytes {text : JsString} {bytes : List UInt8}
    (h : hexBytes text = some bytes) : bytesOfPairs text = bytes := by
  induction text using hexBytes.induct generalizing bytes with
  | case1 =>
      cases h
      rfl
  | case2 a => cases h
  | case3 a b rest ih =>
      obtain ⟨high, low, tail, ha, hb, hrest, rfl⟩ := hexBytes_cons_cons.mp h
      rw [bytesOfPairs, pairs, isLineTerminator_of_hexDigit ha, isLineTerminator_of_hexDigit hb]
      simp only [Bool.false_eq_true, if_false, List.map_cons, toUint8_parseHex ha hb]
      exact congrArg _ (ih hrest)

/-- Texts that denote the same bytes are the same up to case. -/
theorem foldCase_of_hexBytes {first second : JsString} {bytes : List UInt8}
    (hfirst : hexBytes first = some bytes) (hsecond : hexBytes second = some bytes) :
    first.map foldCase = second.map foldCase := by
  induction first using hexBytes.induct generalizing second bytes with
  | case1 =>
      cases hfirst
      have hlength := length_of_hexBytes hsecond
      rw [List.length_eq_zero_iff.mp hlength]
  | case2 a => cases hfirst
  | case3 a b rest ih =>
      obtain ⟨high, low, tail, ha, hb, hrest, rfl⟩ := hexBytes_cons_cons.mp hfirst
      match second with
      | [] => cases hsecond
      | [_] => cases hsecond
      | a' :: b' :: rest' =>
          obtain ⟨high', low', tail', ha', hb', hrest', hsame⟩ := hexBytes_cons_cons.mp hsecond
          obtain ⟨hbyte, rfl⟩ := List.cons.inj hsame
          have hvalue := congrArg UInt8.toNat hbyte
          have hhigh := hexDigit_lt ha
          have hlow := hexDigit_lt hb
          have hhigh' := hexDigit_lt ha'
          have hlow' := hexDigit_lt hb'
          rw [UInt8.toNat_ofNat_of_lt' (by simp only [UInt8.size]; omega),
            UInt8.toNat_ofNat_of_lt' (by simp only [UInt8.size]; omega)] at hvalue
          obtain rfl : high = high' := by omega
          obtain rfl : low = low' := by omega
          simp only [List.map_cons, foldCase_inj ha ha', foldCase_inj hb hb', ih hrest hrest']

/-- Every byte is read back from its two digits. -/
theorem hexBytes_hexText (bytes : List UInt8) : hexBytes (hexText bytes) = some bytes := by
  have hunit : ∀ digit < 16, hexDigit (hexUnit digit) = some digit := by decide +kernel
  induction bytes with
  | nil => rfl
  | cons byte rest ih =>
      have hbyte := byte.toNat_lt
      rw [hexText, hexBytes_cons_cons]
      refine ⟨byte.toNat / 16, byte.toNat % 16, rest, hunit _ (by omega), hunit _ (by omega), ih,
        ?_⟩
      rw [Nat.div_add_mod, UInt8.ofNat_toNat]

/-! ## Text as bytes -/

/-- The character of a unit by itself; a surrogate is replaced. -/
def unitChar (unit : UInt16) : Char :=
  if 0xD800 ≤ unit ∧ unit ≤ 0xDFFF then Char.ofNat 0xFFFD else Char.ofNat unit.toNat

def characters : JsString → List Char
  | [] => []
  | [unit] => [unitChar unit]
  | high :: low :: rest =>
      if 0xD800 ≤ high ∧ high ≤ 0xDBFF ∧ 0xDC00 ≤ low ∧ low ≤ 0xDFFF then
        Char.ofNat (0x10000 + (high.toNat - 0xD800) * 0x400 + (low.toNat - 0xDC00)) ::
          characters rest
      else unitChar high :: characters (low :: rest)

/-- What `TextEncoder` makes of a text. -/
def textEncode (text : JsString) : List UInt8 :=
  (characters text).flatMap String.utf8EncodeChar

end EcmaScript
