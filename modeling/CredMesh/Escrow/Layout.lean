import CredMesh.Escrow.AccountCodec

/-!
# The accounts of the escrow as bytes

An account of the escrow has an address, a type and contents of this type, and its bytes are those
that its type gives to the contents. What the account was allocated beyond that is not part of its
contents.
-/

namespace CredMesh.Escrow

/-- An address. Those that the escrow derives for its accounts are named by their seeds. -/
inductive Address
  | key (key : Pubkey)
  | advance (seeds : AdvanceSeeds)
  | consumed (seeds : AdvanceSeeds)
  | issuanceLedger (seeds : LedgerSeeds)
  | tombstone (seeds : AdvanceSeeds)
  deriving DecidableEq

/-- An account of the escrow with its contents. -/
inductive ProgramAccount
  | pool (address : Pubkey) (pool : Pool)
  | advance (seeds : AdvanceSeeds) (advance : Advance)
  | consumed (seeds : AdvanceSeeds) (consumed : ConsumedPayment)
  | issuanceLedger (seeds : LedgerSeeds) (ledger : AgentIssuanceLedger)
  | tombstone (seeds : AdvanceSeeds) (tombstone : LiquidationTombstone)

namespace ProgramAccount

def address : ProgramAccount → Address
  | pool key _ => .key key
  | advance seeds _ => .advance seeds
  | consumed seeds _ => .consumed seeds
  | issuanceLedger seeds _ => .issuanceLedger seeds
  | tombstone seeds _ => .tombstone seeds

def kind : ProgramAccount → AccountKind
  | pool _ _ => .pool
  | advance _ _ => .advance
  | consumed _ _ => .consumedPayment
  | issuanceLedger _ _ => .agentIssuanceLedger
  | tombstone _ _ => .liquidationTombstone

def contents : (account : ProgramAccount) → account.kind.Contents
  | pool _ contents => contents
  | advance _ contents => contents
  | consumed _ contents => contents
  | issuanceLedger _ contents => contents
  | tombstone _ contents => contents

def discriminator (account : ProgramAccount) : List UInt8 := account.kind.discriminator.toList

def data (account : ProgramAccount) : List UInt8 := account.kind.type.data account.contents

theorem length_discriminator (account : ProgramAccount) : account.discriminator.length = 8 :=
  account.kind.discriminator.toList_length

/-- The bytes of an account begin with those of its type. -/
theorem discriminator_isPrefix (account : ProgramAccount) :
    account.discriminator <+: account.data :=
  List.prefix_append _ _

end ProgramAccount

end CredMesh.Escrow
