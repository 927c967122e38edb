import CredMesh.Foundation.Codec
import CredMesh.Foundation.Outcome
import CredMesh.Shared.Solana

/-!
# Accounts as bytes

Anchor stores an account as eight bytes that tell its type, followed by its fields in Borsh, in a
buffer that is allocated once. A program that reads an account of another program by hand has to
check its owner, its address, its type and its contents.
-/

namespace CredMesh

open Outcome

/-- A type of accounts. -/
structure AccountType (α : Type) where
  discriminator : Bytes 8
  codec : Codec α

/-- Why Anchor refuses to read a buffer. -/
inductive AccountReadError
  | accountDiscriminatorNotFound
  | accountDiscriminatorMismatch
  | accountDidNotDeserialize
  deriving DecidableEq

namespace AccountType

variable {α : Type} (type : AccountType α)

def data (contents : α) : List UInt8 := type.discriminator.toList ++ type.codec.encode contents

/-- The most bytes that an account of the type can take. -/
def space : ℕ := 8 + type.codec.space

def tryDeserialize (buf : List UInt8) : Except AccountReadError α := do
  require (8 ≤ buf.length) .accountDiscriminatorNotFound
  require (type.discriminator.toList = buf.take 8) .accountDiscriminatorMismatch
  okOr (type.codec.read (buf.drop 8)) .accountDidNotDeserialize

/-- Writing over the beginning of a buffer, which fails if it is too short. -/
def trySerialize (contents : α) (buf : List UInt8) : Option (List UInt8) :=
  if (type.data contents).length ≤ buf.length then
    some (ByteString.writeAt buf 0 (type.data contents))
  else none

/-- A buffer is read as the contents that it begins with. -/
theorem tryDeserialize_eq_ok {buf : List UInt8} {contents : α} :
    type.tryDeserialize buf = .ok contents ↔ type.data contents <+: buf := by
  have hlength := type.discriminator.toList_length
  simp only [tryDeserialize, bind_eq_ok, require_eq_ok, okOr_eq_ok, exists_const,
    type.codec.read_eq_some, data]
  constructor
  · rintro ⟨-, htag, hfields⟩
    rw [← List.take_append_drop 8 buf, ← htag]
    exact (List.prefix_append_right_inj _).mpr hfields
  · rintro ⟨rest, rfl⟩
    rw [List.append_assoc, List.length_append, List.take_left' hlength, List.drop_left' hlength,
      hlength]
    exact ⟨Nat.le_add_right 8 _, rfl, List.prefix_append _ rest⟩

theorem length_data_le (contents : α) : (type.data contents).length ≤ type.space := by
  have hfields := type.codec.length_encode_le contents
  rw [data, List.length_append, type.discriminator.toList_length, space]
  omega

/-- Where the type has enough room, every value is written and read back, in spite of what is left
behind it. -/
theorem exists_trySerialize {buf : List UInt8} (hroom : type.space ≤ buf.length) (contents : α) :
    ∃ written, type.trySerialize contents buf = some written ∧ written.length = buf.length ∧
      type.data contents <+: written := by
  have hfits := (type.length_data_le contents).trans hroom
  refine ⟨_, if_pos hfits, ?_, ?_⟩
  · simp only [ByteString.writeAt, List.take_zero, List.nil_append, Nat.zero_add,
      List.length_append, List.length_drop]
    omega
  · exact List.prefix_append _ _

end AccountType

/-- An account as the runtime hands it to a program. -/
structure AccountInfo where
  key : Pubkey
  owner : Pubkey
  data : List UInt8
  mutablyBorrowed : Bool

inductive CrossProgramReadError
  | ownerMismatch
  | addressMismatch
  | discriminatorMismatch
  | deserialize
  deriving DecidableEq

def AccountInfo.tryBorrowData (info : AccountInfo) : Option (List UInt8) :=
  if info.mutablyBorrowed then none else some info.data

def readCrossProgramAccount {α : Type} (type : AccountType α) (info : AccountInfo)
    (expectedOwner expectedAddress : Pubkey) : Except CrossProgramReadError α := do
  require (info.owner = expectedOwner) .ownerMismatch
  require (info.key = expectedAddress) .addressMismatch
  let data ← okOr info.tryBorrowData .deserialize
  require (8 ≤ data.length) .discriminatorMismatch
  require (data.take 8 = type.discriminator.toList) .discriminatorMismatch
  (type.tryDeserialize data).mapError fun _ ↦ .deserialize

theorem readCrossProgramAccount_eq_ok {α : Type} {type : AccountType α} {info : AccountInfo}
    {owner address : Pubkey} {contents : α} :
    readCrossProgramAccount type info owner address = .ok contents ↔
      info.owner = owner ∧ info.key = address ∧ info.mutablyBorrowed = false ∧
        type.data contents <+: info.data := by
  simp only [readCrossProgramAccount, AccountInfo.tryBorrowData, bind_eq_ok, require_eq_ok,
    okOr_eq_ok, exists_const, mapError_eq_ok, type.tryDeserialize_eq_ok,
    Option.ite_none_left_eq_some, Bool.not_eq_true, Option.some.injEq]
  constructor
  · rintro ⟨howner, hkey, _, ⟨hborrowed, rfl⟩, -, -, hdata⟩
    exact ⟨howner, hkey, hborrowed, hdata⟩
  · rintro ⟨howner, hkey, hborrowed, hdata⟩
    have hread := hdata
    simp only [← type.tryDeserialize_eq_ok, AccountType.tryDeserialize, bind_eq_ok, require_eq_ok,
      exists_const] at hread
    exact ⟨howner, hkey, _, ⟨hborrowed, rfl⟩, hread.1, hread.2.1.symm, hdata⟩

end CredMesh
