import CredMesh.Foundation.IsoTime

/-!
# Lines of text

A line is a text without line feeds and surrogates, such as the value of a header or the text of a
time. Lines are read back from the message that joins them, and a message of lines from its bytes.
-/

namespace EcmaScript

def IsLine (text : JsString) : Prop := ∀ unit ∈ text, unit.toNat < 0xD800 ∧ unit ≠ 0x0A

instance (text : JsString) : Decidable (IsLine text) :=
  List.decidableBAll (fun unit : UInt16 ↦ unit.toNat < 0xD800 ∧ unit ≠ 0x0A) text

variable {text first second : JsString}

@[simp]
theorem isLine_nil : IsLine [] := fun _ h ↦ absurd h List.not_mem_nil

@[simp]
theorem isLine_append : IsLine (first ++ second) ↔ IsLine first ∧ IsLine second :=
  List.forall_mem_append

/-! ## Messages of lines -/

/-- Two messages are the same if their lines are. -/
theorem intercalate_inj {lines lines' : List JsString} (hlines : ∀ line ∈ lines, IsLine line)
    (hlines' : ∀ line ∈ lines', IsLine line) (hne : lines ≠ []) (hne' : lines' ≠ [])
    (h : List.intercalate [0x0A] lines = List.intercalate [0x0A] lines') : lines = lines' := by
  have hfree {lines : List JsString} (hlines : ∀ line ∈ lines, IsLine line) :
      ∀ line ∈ lines, (0x0A : UInt16) ∉ line :=
    fun line hline hmem ↦ (hlines line hline 0x0A hmem).2 rfl
  calc
    lines = (List.intercalate [0x0A] lines).splitOn 0x0A :=
      (List.splitOn_intercalate 0x0A (hfree hlines) hne).symm
    _ = (List.intercalate [0x0A] lines').splitOn 0x0A := congrArg (List.splitOn 0x0A) h
    _ = lines' := List.splitOn_intercalate 0x0A (hfree hlines') hne'

/-- No message of lines has a surrogate. -/
theorem lt_of_mem_intercalate {lines : List JsString} (hlines : ∀ line ∈ lines, IsLine line) :
    ∀ unit ∈ List.intercalate [0x0A] lines, unit.toNat < 0xD800 := by
  intro unit hunit
  induction lines with
  | nil => cases hunit
  | cons line rest ih =>
      obtain ⟨hline, hrest⟩ := List.forall_mem_cons.mp hlines
      cases rest with
      | nil =>
          rw [List.intercalate_singleton] at hunit
          exact (hline unit hunit).1
      | cons next others =>
          rw [List.intercalate_cons_cons, List.mem_append, List.mem_append] at hunit
          obtain (hunit | hunit) | hunit := hunit
          · exact (hline unit hunit).1
          · rw [List.mem_singleton.mp hunit]
            decide
          · exact ih hrest hunit

/-! ## Bytes -/

/-- Without surrogates every unit is a character of its own. -/
theorem ofChars_characters (h : ∀ unit ∈ text, unit.toNat < 0xD800) :
    ofChars (characters text) = text := by
  have hunit {unit : UInt16} (hlt : unit.toNat < 0xD800) :
      UInt16.ofNat (unitChar unit).toNat = unit := by
    have hsurrogate : ¬ (0xD800 ≤ unit ∧ unit ≤ 0xDFFF) := by
      rintro ⟨hle, -⟩
      exact absurd (UInt16.le_iff_toNat_le.mp hle) (not_le.mpr hlt)
    have hvalid : unit.toNat.isValidChar := Or.inl hlt
    have hchar : (Char.ofNat unit.toNat).toNat = unit.toNat := by
      rw [Char.ofNat, dif_pos hvalid]
      rfl
    rw [unitChar, if_neg hsurrogate, hchar, UInt16.ofNat_toNat]
  fun_induction characters text with
  | case1 => rfl
  | case2 unit => simp [ofChars, hunit (h unit List.mem_cons_self)]
  | case3 high low rest hpair =>
      have hhigh := h high List.mem_cons_self
      exact absurd (UInt16.le_iff_toNat_le.mp hpair.1) (not_le.mpr hhigh)
  | case4 high low rest _ ih =>
      obtain ⟨hhigh, hrest⟩ := List.forall_mem_cons.mp h
      rw [ofChars, List.map_cons, hunit hhigh]
      exact congrArg (high :: ·) (ih hrest)

theorem textEncode_inj (hfirst : ∀ unit ∈ first, unit.toNat < 0xD800)
    (hsecond : ∀ unit ∈ second, unit.toNat < 0xD800) (h : textEncode first = textEncode second) :
    first = second := by
  have hencoded : (characters first).utf8Encode = (characters second).utf8Encode :=
    congrArg List.toByteArray h
  have hdecoded := congrArg ByteArray.utf8Decode? hencoded
  rw [List.utf8Decode?_utf8Encode, List.utf8Decode?_utf8Encode] at hdecoded
  have hcharacters : characters first = characters second :=
    congrArg Array.toList (Option.some.inj hdecoded)
  rw [← ofChars_characters hfirst, hcharacters, ofChars_characters hsecond]

/-- A message is known from its bytes. -/
theorem textEncode_intercalate_inj {lines lines' : List JsString}
    (hlines : ∀ line ∈ lines, IsLine line) (hlines' : ∀ line ∈ lines', IsLine line)
    (hne : lines ≠ []) (hne' : lines' ≠ [])
    (h : textEncode (List.intercalate [0x0A] lines) =
      textEncode (List.intercalate [0x0A] lines')) : lines = lines' := by
  apply intercalate_inj hlines hlines' hne hne'
  exact textEncode_inj (lt_of_mem_intercalate hlines) (lt_of_mem_intercalate hlines') h

/-! ## Times -/

theorem isLine_decimal (width n : ℕ) : IsLine (decimal width n) := by
  induction width generalizing n with
  | zero => exact isLine_nil
  | succ width ih =>
      rw [decimal, isLine_append]
      refine ⟨ih _, fun unit hunit ↦ ?_⟩
      have hdigit : ∀ digit < 10, IsLine [UInt16.ofNat (0x30 + digit)] := by decide
      exact hdigit (n % 10) (Nat.mod_lt n (by decide)) unit hunit

theorem isLine_isoText (time : ℤ) : IsLine (isoText time) := by
  have hminus : IsLine [0x2D] := by decide
  have hplus : IsLine [0x2B] := by decide
  have hyear (year : ℤ) : IsLine (yearText year) := by
    unfold yearText
    split_ifs
    · exact isLine_decimal _ _
    · exact isLine_append.mpr ⟨hminus, isLine_decimal _ _⟩
    · exact isLine_append.mpr ⟨hplus, isLine_decimal _ _⟩
  simp only [isoText, inYearText, isLine_append, isLine_decimal, hyear, and_true, true_and]
  decide

end EcmaScript
