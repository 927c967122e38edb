import Mathlib.Algebra.Order.Group.Abs
import CredMesh.Foundation.Calendar
import CredMesh.Foundation.EcmaScript

/-!
# Times as text

A time value of ECMAScript is a number of milliseconds since 1970. Its text has a year of four
digits, or of six and a sign, and two or three digits for every other field. The text is read back
field by field.
-/

namespace EcmaScript

open Calendar

/-- The largest time value. -/
def maxTime : ℤ := 8640000000000000

/-- The last digits of a number. -/
def decimal : ℕ → ℕ → JsString
  | 0, _ => []
  | width + 1, n => decimal width (n / 10) ++ [UInt16.ofNat (0x30 + n % 10)]

def yearText (year : ℤ) : JsString :=
  if 0 ≤ year ∧ year ≤ 9999 then decimal 4 year.toNat
  else if year < 0 then 0x2D :: decimal 6 (-year).toNat
  else 0x2B :: decimal 6 year.toNat

/-- What follows the year, `-MM-DDTHH:mm:ss.sssZ`. -/
def inYearText (month day ms : ℕ) : JsString :=
  [0x2D] ++ decimal 2 month ++ [0x2D] ++ decimal 2 day ++ [0x54] ++ decimal 2 (ms / 3600000) ++
    [0x3A] ++ decimal 2 (ms / 60000 % 60) ++ [0x3A] ++ decimal 2 (ms / 1000 % 60) ++ [0x2E] ++
    decimal 3 (ms % 1000) ++ [0x5A]

def isoText (time : ℤ) : JsString :=
  let date := Date.ofDay (time / 86400000)
  yearText date.year ++ inYearText date.month date.day (time % 86400000).toNat

/-- `toISOString`, which throws for an invalid time. -/
def toISOString (time : ℤ) : Option JsString :=
  if |time| ≤ maxTime then some (isoText time) else none

/-! ## Reading -/

def decimalValue (text : JsString) : ℕ :=
  text.foldl (fun n unit ↦ n * 10 + (unit.toNat - 0x30)) 0

def yearValue (text : JsString) : ℤ :=
  if text.head? = some 0x2D then -(decimalValue text.tail)
  else if text.head? = some 0x2B then decimalValue text.tail
  else decimalValue text

/-- The time in the fields of a text, if this is its text. -/
def readIso (text : JsString) : Option ℤ :=
  let rest := text.drop (text.length - 20)
  let field (offset length : ℕ) := decimalValue ((rest.drop offset).take length)
  let date : Date := ⟨yearValue (text.take (text.length - 20)), field 1 2, field 4 2⟩
  let time := date.toDay * 86400000 +
    (((field 7 2 * 60 + field 10 2) * 60 + field 13 2) * 1000 + field 16 3 : ℕ)
  if |time| ≤ maxTime ∧ isoText time = text then some time else none

@[simp]
theorem length_decimal (width n : ℕ) : (decimal width n).length = width := by
  induction width generalizing n with
  | zero => rfl
  | succ width ih => rw [decimal, List.length_append, ih, List.length_singleton]

theorem decimalValue_decimal {width n : ℕ} (h : n < 10 ^ width) :
    decimalValue (decimal width n) = n := by
  induction width generalizing n with
  | zero => exact (Nat.lt_one_iff.mp h).symm
  | succ width ih =>
      have hrest : n / 10 < 10 ^ width := by
        rw [Nat.div_lt_iff_lt_mul (by norm_num)]
        rwa [← pow_succ]
      have hunit : (UInt16.ofNat (0x30 + n % 10)).toNat = 0x30 + n % 10 :=
        UInt16.toNat_ofNat_of_lt' (by simp only [UInt16.size]; omega)
      rw [decimal, decimalValue, List.foldl_append, ← decimalValue, ih hrest, List.foldl_cons,
        List.foldl_nil, hunit]
      omega

theorem head_decimal_ne (width n : ℕ) {unit : UInt16} (h : unit.toNat < 0x30) :
    (decimal width n).head? ≠ some unit := by
  induction width generalizing n with
  | zero => simp [decimal]
  | succ width ih =>
      rw [decimal, List.head?_append]
      cases hhead : (decimal width (n / 10)).head? with
      | some other =>
          have hother := ih (n / 10)
          rw [hhead] at hother
          exact hother
      | none =>
          intro heq
          have hunit := congrArg UInt16.toNat (Option.some.inj heq)
          rw [UInt16.toNat_ofNat_of_lt' (by simp only [UInt16.size]; omega)] at hunit
          omega

theorem le_of_mem_decimal {width n : ℕ} {unit : UInt16} (h : unit ∈ decimal width n) :
    0x30 ≤ unit.toNat := by
  induction width generalizing n with
  | zero => cases h
  | succ width ih =>
      rw [decimal, List.mem_append, List.mem_singleton] at h
      obtain hrest | rfl := h
      · exact ih hrest
      · rw [UInt16.toNat_ofNat_of_lt' (by simp only [UInt16.size]; omega)]
        exact Nat.le_add_right 0x30 _

/-- There are no blanks and no control characters in the text of a time. -/
theorem le_of_mem_isoText {time : ℤ} {unit : UInt16} (h : unit ∈ isoText time) :
    0x2B ≤ unit.toNat := by
  have hdecimal {width n : ℕ} (h : unit ∈ decimal width n) : 0x2B ≤ unit.toNat :=
    (by decide : 0x2B ≤ 0x30).trans (le_of_mem_decimal h)
  have hyear {year : ℤ} (h : unit ∈ yearText year) : 0x2B ≤ unit.toNat := by
    unfold yearText at h
    split_ifs at h
    · exact hdecimal h
    · obtain rfl | h := List.mem_cons.mp h
      · decide
      · exact hdecimal h
    · obtain rfl | h := List.mem_cons.mp h
      · decide
      · exact hdecimal h
  have hmark {mark : UInt16} (hmem : unit ∈ [mark]) (hle : 0x2B ≤ mark.toNat) :
      0x2B ≤ unit.toNat := List.mem_singleton.mp hmem ▸ hle
  simp only [isoText, inYearText, List.mem_append] at h
  obtain h | ((((((((((((h | h) | h) | h) | h) | h) | h) | h) | h) | h) | h) | h) | h) := h
  all_goals first
    | exact hyear h
    | exact hdecimal h
    | exact hmark h (by decide)

theorem yearValue_yearText {year : ℤ} (h : |year| < 1000000) :
    yearValue (yearText year) = year := by
  obtain ⟨hlow, hhigh⟩ := abs_lt.mp h
  unfold yearText
  split_ifs with hfour hnegative
  · rw [yearValue, if_neg (head_decimal_ne 4 _ (by decide)),
      if_neg (head_decimal_ne 4 _ (by decide)), decimalValue_decimal (by omega)]
    omega
  · rw [yearValue, List.head?_cons, if_pos rfl, List.tail_cons, decimalValue_decimal (by omega)]
    omega
  · rw [yearValue, List.head?_cons, if_neg (by decide), if_pos rfl, List.tail_cons,
      decimalValue_decimal (by omega)]
    omega

theorem length_inYearText (month day ms : ℕ) : (inYearText month day ms).length = 20 := by
  simp [inYearText]

theorem decimal_two (n : ℕ) :
    decimal 2 n = [UInt16.ofNat (0x30 + n / 10 % 10), UInt16.ofNat (0x30 + n % 10)] := rfl

theorem decimal_three (n : ℕ) :
    decimal 3 n = [UInt16.ofNat (0x30 + n / 10 / 10 % 10), UInt16.ofNat (0x30 + n / 10 % 10),
      UInt16.ofNat (0x30 + n % 10)] := rfl

/-- The fields are where the reader looks for them. -/
theorem inYearText_fields (month day ms : ℕ) :
    ((inYearText month day ms).drop 1).take 2 = decimal 2 month ∧
    ((inYearText month day ms).drop 4).take 2 = decimal 2 day ∧
    ((inYearText month day ms).drop 7).take 2 = decimal 2 (ms / 3600000) ∧
    ((inYearText month day ms).drop 10).take 2 = decimal 2 (ms / 60000 % 60) ∧
    ((inYearText month day ms).drop 13).take 2 = decimal 2 (ms / 1000 % 60) ∧
    ((inYearText month day ms).drop 16).take 3 = decimal 3 (ms % 1000) := by
  simp only [inYearText, decimal_two, decimal_three]
  exact ⟨rfl, rfl, rfl, rfl, rfl, rfl⟩

/-- The years of time values have at most six digits. -/
theorem abs_year_lt {time : ℤ} (h : |time| ≤ maxTime) :
    |(Date.ofDay (time / 86400000)).year| < 1000000 := by
  obtain ⟨hlow, hhigh⟩ := abs_le.mp h
  simp only [maxTime] at hlow hhigh
  have hfirst : dayFromYear (-271821) ≤ time / 86400000 := by
    have hday : dayFromYear (-271821) = -100000109 := by decide
    omega
  have hlast : time / 86400000 < dayFromYear 275761 := by
    have hday : dayFromYear 275761 = 100000110 := by decide
    omega
  have hyear := Date.ofDay_year_bounds hfirst hlast
  rw [abs_lt]
  omega

/-- A time is read back from its text. -/
theorem readIso_isoText {time : ℤ} (h : |time| ≤ maxTime) : readIso (isoText time) = some time := by
  have hbounds := Date.ofDay_bounds (time / 86400000)
  have hday := Date.toDay_ofDay (time / 86400000)
  have hyear := yearValue_yearText (abs_year_lt h)
  have hms : (time % 86400000).toNat < 86400000 := by omega
  generalize hdate : Date.ofDay (time / 86400000) = date at hbounds hday hyear
  generalize hinDay : (time % 86400000).toNat = ms at hms
  have htext : isoText time = yearText date.year ++ inYearText date.month date.day ms := by
    rw [isoText, hdate, hinDay]
  have hlength : (isoText time).length - 20 = (yearText date.year).length := by
    rw [htext, List.length_append, length_inYearText, Nat.add_sub_cancel]
  have hrest : (isoText time).drop ((isoText time).length - 20) =
      inYearText date.month date.day ms := by
    rw [hlength, htext, List.drop_left]
  have hyearText : (isoText time).take ((isoText time).length - 20) = yearText date.year := by
    rw [hlength, htext, List.take_left]
  obtain ⟨hmonth, hdayField, hhour, hminute, hsecond, hmilli⟩ :=
    inYearText_fields date.month date.day ms
  have htime : date.toDay * 86400000 +
      (((ms / 3600000 * 60 + ms / 60000 % 60) * 60 + ms / 1000 % 60) * 1000 + ms % 1000 : ℕ) =
        time := by
    rw [hday]
    omega
  unfold readIso
  simp only [hrest, hyearText, hyear, hmonth, hdayField, hhour, hminute, hsecond, hmilli]
  rw [decimalValue_decimal (by omega), decimalValue_decimal (by omega),
    decimalValue_decimal (by omega), decimalValue_decimal (by omega),
    decimalValue_decimal (by omega), decimalValue_decimal (by omega), htime]
  exact if_pos ⟨h, rfl⟩

end EcmaScript
