import Mathlib.Data.List.MinMax
import Mathlib.Logic.Equiv.Basic
import CredMesh.Foundation.ByteString

/-!
# Codecs

A codec writes the values of a type as bytes and reads a value off the front of a byte string. One
law ties the two together: what is read is exactly what was written, and the bytes behind it are
left alone. The codec of a record or of a tagged union is put together from those of its parts, and
the law comes with it. A codec also knows the most bytes that a value can take.
-/

/-- A writer, a reader that undoes it, and the room that every value fits in. -/
structure Codec (α : Type) where
  encode : α → List UInt8
  decode : List UInt8 → Option (α × List UInt8)
  space : ℕ
  decode_eq_some : ∀ {bytes value rest},
    decode bytes = some (value, rest) ↔ bytes = encode value ++ rest
  length_encode_le : ∀ value, (encode value).length ≤ space

namespace Codec

variable {α β ι : Type}

/-- The value at the front of a byte string, whatever follows it. -/
def read (codec : Codec α) (bytes : List UInt8) : Option α := (codec.decode bytes).map Prod.fst

section Laws

variable (codec : Codec α)

@[simp]
theorem decode_encode (value : α) (rest : List UInt8) :
    codec.decode (codec.encode value ++ rest) = some (value, rest) :=
  codec.decode_eq_some.mpr rfl

theorem read_eq_some {bytes : List UInt8} {value : α} :
    codec.read bytes = some value ↔ codec.encode value <+: bytes := by
  simp only [read, Option.map_eq_some_iff, Prod.exists, exists_and_right, exists_eq_right,
    codec.decode_eq_some]
  exact ⟨fun ⟨rest, h⟩ ↦ ⟨rest, h.symm⟩, fun ⟨rest, h⟩ ↦ ⟨rest, h.symm⟩⟩

/-- No value is written as the beginning of another one. -/
theorem encode_append_inj {first second : α} {rest rest' : List UInt8} :
    codec.encode first ++ rest = codec.encode second ++ rest' ↔ first = second ∧ rest = rest' := by
  constructor
  · intro h
    have hfirst := codec.decode_encode first rest
    rw [h, codec.decode_encode] at hfirst
    obtain ⟨rfl, rfl⟩ := Prod.mk.inj (Option.some.inj hfirst)
    exact ⟨rfl, rfl⟩
  · rintro ⟨rfl, rfl⟩
    rfl

end Laws

/-! ## Building blocks -/

/-- An array of fixed length. -/
def bytes (length : ℕ) : Codec (Bytes length) where
  encode value := value.toList
  decode source :=
    if h : length ≤ source.length then
      some (⟨source.take length, by rw [List.length_take, Nat.min_eq_left h]⟩, source.drop length)
    else none
  space := length
  decode_eq_some := by
    intro source value rest
    split
    case isTrue h =>
      constructor
      · intro hread
        obtain ⟨rfl, rfl⟩ := Prod.mk.inj (Option.some.inj hread)
        exact (List.take_append_drop length source).symm
      · rintro rfl
        have hvalue : (value.toList ++ rest).take length = value.toList :=
          List.take_left' value.toList_length
        have hrest : (value.toList ++ rest).drop length = rest :=
          List.drop_left' value.toList_length
        exact congrArg some (Prod.ext (List.Vector.toList_injective hvalue) hrest)
    case isFalse h =>
      constructor
      · intro hnone
        cases hnone
      · rintro rfl
        rw [List.length_append, value.toList_length] at h
        omega
  length_encode_le value := value.toList_length.le

/-- Values that are written as those of another type. -/
def filterMap (codec : Codec α) (pack : α → Option β) (unpack : β → α)
    (inverse : Function.IsPartialInv unpack pack) : Codec β where
  encode value := codec.encode (unpack value)
  decode source := do
    let (raw, rest) ← codec.decode source
    let value ← pack raw
    some (value, rest)
  space := codec.space
  decode_eq_some := by
    intro source value rest
    simp only [Option.bind_eq_bind, Option.bind_eq_some_iff, Prod.exists, codec.decode_eq_some,
      Option.some.injEq, Prod.mk.injEq]
    constructor
    · rintro ⟨raw, _, rfl, packed, hpacked, rfl, rfl⟩
      rw [(inverse packed raw).mp hpacked]
    · rintro rfl
      exact ⟨unpack value, rest, rfl, value, (inverse value _).mpr rfl, rfl, rfl⟩
  length_encode_le value := codec.length_encode_le (unpack value)

/-- The same values in another form. -/
def ofEquiv (codec : Codec α) (e : α ≃ β) : Codec β :=
  codec.filterMap (fun value ↦ some (e value)) e.symm fun value raw ↦ by
    rw [Option.some.injEq, Equiv.symm_apply_eq, eq_comm]

/-- One value after the other. -/
def pair (first : Codec α) (second : Codec β) : Codec (α × β) where
  encode value := first.encode value.1 ++ second.encode value.2
  decode source := do
    let (left, rest) ← first.decode source
    let (right, rest) ← second.decode rest
    some ((left, right), rest)
  space := first.space + second.space
  decode_eq_some := by
    rintro source ⟨left, right⟩ rest
    simp only [Option.bind_eq_bind, Option.bind_eq_some_iff, Prod.exists, first.decode_eq_some,
      second.decode_eq_some, Option.some.injEq, Prod.mk.injEq, List.append_assoc]
    constructor
    · rintro ⟨_, _, rfl, _, _, rfl, ⟨rfl, rfl⟩, rfl⟩
      rfl
    · rintro rfl
      exact ⟨left, _, rfl, right, rest, rfl, ⟨rfl, rfl⟩, rfl⟩
  length_encode_le value := by
    rw [List.length_append]
    exact Nat.add_le_add (first.length_encode_le _) (second.length_encode_le _)

/-- No bytes for the only value of a type. -/
def unit : Codec Unit where
  encode _ := []
  decode source := some ((), source)
  space := 0
  decode_eq_some := by
    intro source value rest
    rw [Option.some.injEq, Prod.mk.injEq, List.nil_append]
    exact and_iff_right rfl
  length_encode_le _ := le_rfl

/-- A byte that tells if there is a value, and the value. -/
def optional (codec : Codec α) : Codec (Option α) where
  encode
    | none => [0]
    | some value => 1 :: codec.encode value
  decode
    | [] => none
    | tag :: source =>
        if tag = 0 then some (none, source)
        else if tag = 1 then (codec.decode source).map fun (value, rest) ↦ (some value, rest)
        else none
  space := 1 + codec.space
  decode_eq_some := by
    intro source value rest
    cases source with
    | nil => cases value <;> simp
    | cons tag source =>
        cases value with
        | none =>
            by_cases hnone : tag = 0
            · simp [hnone]
            · by_cases hsome : tag = 1 <;> simp [hnone, hsome]
        | some value =>
            by_cases hnone : tag = 0
            · simp [hnone]
            · by_cases hsome : tag = 1 <;> simp [hnone, hsome, codec.decode_eq_some]
  length_encode_le value := by
    cases value with
    | none => simp
    | some value =>
        have h := codec.length_encode_le value
        simp only [List.length_cons]
        omega

/-! ## Numbers -/

/-- The values of a type of numbers with so many bytes, least significant byte first. -/
def littleEndian (width : ℕ) (toNat : α → ℕ) (ofNat : ℕ → α)
    (toNat_lt : ∀ value, toNat value < 256 ^ width)
    (ofNat_toNat : ∀ value, ofNat (toNat value) = value)
    (toNat_ofNat : ∀ n, n < 256 ^ width → toNat (ofNat n) = n) : Codec α :=
  (bytes width).ofEquiv {
    toFun array := ofNat (ByteString.readLE array.toList)
    invFun value := ⟨ByteString.leBytes width (toNat value), ByteString.length_leBytes _ _⟩
    left_inv array := by
      have hvalue : ByteString.readLE array.toList < 256 ^ width := by
        simpa only [array.toList_length] using ByteString.readLE_lt array.toList
      have hbytes := ByteString.leBytes_readLE array.toList
      rw [array.toList_length] at hbytes
      apply List.Vector.toList_injective
      change ByteString.leBytes width _ = _
      rw [toNat_ofNat _ hvalue, hbytes]
    right_inv value := by
      change ofNat (ByteString.readLE (ByteString.leBytes width _)) = _
      rw [ByteString.readLE_leBytes (toNat_lt value), ofNat_toNat] }

def u8 : Codec UInt8 :=
  littleEndian 1 UInt8.toNat UInt8.ofNat (fun value ↦ by simpa using value.toNat_lt)
    (fun _ ↦ UInt8.ofNat_toNat) fun _ h ↦ UInt8.toNat_ofNat_of_lt' (by simpa using h)

def u16 : Codec UInt16 :=
  littleEndian 2 UInt16.toNat UInt16.ofNat (fun value ↦ by simpa using value.toNat_lt)
    (fun _ ↦ UInt16.ofNat_toNat) fun _ h ↦ UInt16.toNat_ofNat_of_lt' (by simpa using h)

def u32 : Codec UInt32 :=
  littleEndian 4 UInt32.toNat UInt32.ofNat (fun value ↦ by simpa using value.toNat_lt)
    (fun _ ↦ UInt32.ofNat_toNat) fun _ h ↦ UInt32.toNat_ofNat_of_lt' (by simpa using h)

def u64 : Codec UInt64 :=
  littleEndian 8 UInt64.toNat UInt64.ofNat (fun value ↦ by simpa using value.toNat_lt)
    (fun _ ↦ UInt64.ofNat_toNat) fun _ h ↦ UInt64.toNat_ofNat_of_lt' (by simpa using h)

/-- Two's complement. -/
def i64 : Codec Int64 :=
  u64.ofEquiv ⟨UInt64.toInt64, Int64.toUInt64, fun _ ↦ rfl, fun _ ↦ rfl⟩

section Encodings

/-! What the codecs write, in one piece. -/

variable (first : Codec α) (second : Codec β)

@[simp]
theorem encode_bytes {length : ℕ} (value : Bytes length) :
    (bytes length).encode value = value.toList := rfl

@[simp]
theorem encode_ofEquiv (e : α ≃ β) (value : β) :
    (first.ofEquiv e).encode value = first.encode (e.symm value) := rfl

@[simp]
theorem encode_pair (value : α × β) :
    (first.pair second).encode value = first.encode value.1 ++ second.encode value.2 := rfl

@[simp]
theorem encode_none : first.optional.encode none = [0] := rfl

@[simp]
theorem encode_some (value : α) : first.optional.encode (some value) = [1] ++ first.encode value :=
  rfl

@[simp]
theorem encode_u8 (value : UInt8) : u8.encode value = [value] := by
  have hlow : value.toNat % 256 = value.toNat := Nat.mod_eq_of_lt value.toNat_lt
  change [UInt8.ofNat (value.toNat % 256)] = _
  rw [hlow, UInt8.ofNat_toNat]

@[simp]
theorem encode_u16 (value : UInt16) : u16.encode value = ByteString.leBytes 2 value.toNat := rfl

@[simp]
theorem encode_u32 (value : UInt32) : u32.encode value = ByteString.leBytes 4 value.toNat := rfl

@[simp]
theorem encode_u64 (value : UInt64) : u64.encode value = ByteString.leBytes 8 value.toNat := rfl

@[simp]
theorem encode_i64 (value : Int64) :
    i64.encode value = ByteString.leBytes 8 value.toUInt64.toNat := rfl

end Encodings

/-! ## Tagged unions -/

/-- The elements of an enumeration, each with an array of its own. -/
def tags {width : ℕ} (elements : List ι) (tag : ι → Bytes width) (complete : ∀ i, i ∈ elements)
    (injective : Function.Injective tag) : Codec ι :=
  (bytes width).filterMap (fun array ↦ elements.find? fun i ↦ tag i = array) tag fun i array ↦ by
    constructor
    · intro h
      simpa using List.find?_some h
    · rintro rfl
      cases hfound : elements.find? fun other ↦ tag other = tag i with
      | none => simpa using List.find?_eq_none.mp hfound i (complete i)
      | some other =>
          have hsame : tag other = tag i := by simpa using List.find?_some hfound
          exact hfound.trans (congrArg some (injective hsame))

/-- A tag, and a value of the type that the tag tells. -/
def sigma {family : ι → Type} (elements : List ι) (complete : ∀ i, i ∈ elements) (tag : Codec ι)
    (codecs : ∀ i, Codec (family i)) : Codec (Σ i, family i) where
  encode value := tag.encode value.1 ++ (codecs value.1).encode value.2
  decode source := do
    let (i, rest) ← tag.decode source
    let (value, rest) ← (codecs i).decode rest
    some (⟨i, value⟩, rest)
  space := tag.space + (elements.map fun i ↦ (codecs i).space).foldr max ⊥
  decode_eq_some := by
    rintro source ⟨i, value⟩ rest
    simp only [Option.bind_eq_bind, Option.bind_eq_some_iff, Prod.exists, tag.decode_eq_some,
      Codec.decode_eq_some, Option.some.injEq, Prod.mk.injEq, List.append_assoc]
    constructor
    · rintro ⟨_, _, rfl, _, _, rfl, hvalue, rfl⟩
      cases hvalue
      rfl
    · rintro rfl
      exact ⟨i, _, rfl, value, rest, rfl, rfl, rfl⟩
  length_encode_le value := by
    rw [List.length_append]
    have hmem := List.mem_map_of_mem (f := fun i ↦ (codecs i).space) (complete value.1)
    exact Nat.add_le_add (tag.length_encode_le _)
      (List.le_max_of_le hmem ((codecs value.1).length_encode_le value.2))

end Codec
