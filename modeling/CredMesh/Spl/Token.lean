import CredMesh.Foundation.AccountMap
import CredMesh.Foundation.FixedWidth
import CredMesh.Foundation.Outcome
import CredMesh.Shared.Solana

/-!
# The token program

The SPL token program. A transfer moves exactly the stated amount or fails; minting and burning move
the supply with the balance. An account can be frozen by the freeze authority of its mint, its owner
can let a delegate draw on it, hand it over and close it once it is empty. The native mint and
owners that are multisignatures are left out.
-/

namespace CredMesh.Spl

open Outcome

inductive TokenError
  | insufficientFunds
  | mintMismatch
  | ownerMismatch
  | fixedSupply
  | alreadyInUse
  | uninitializedState
  | nonNativeHasBalance
  | invalidInstruction
  | invalidState
  | overflow
  | authorityTypeNotSupported
  | mintCannotFreeze
  | accountFrozen
  | mintDecimalsMismatch
  deriving DecidableEq

structure Mint where
  authority : Option Pubkey
  supply : UInt64
  decimals : UInt8
  freezeAuthority : Option Pubkey
  deriving DecidableEq

structure TokenAccount where
  mint : Pubkey
  owner : Pubkey
  amount : UInt64
  delegate : Option Pubkey
  isFrozen : Bool
  delegatedAmount : UInt64
  closeAuthority : Option Pubkey
  deriving DecidableEq

namespace TokenAccount

/-- An account as it is opened. -/
def opened (mint owner : Pubkey) : TokenAccount where
  mint
  owner
  amount := 0
  delegate := none
  isFrozen := false
  delegatedAmount := 0
  closeAuthority := none

/-- The delegate may take as much as it was granted, also where it is the owner. Anybody else has to
be the owner. -/
def Allows (account : TokenAccount) (authority : Pubkey) (amount : ℕ) : Prop :=
  if account.delegate = some authority then amount ≤ account.delegatedAmount.toNat
  else account.owner = authority

instance (account : TokenAccount) (authority : Pubkey) (amount : ℕ) :
    Decidable (account.Allows authority amount) :=
  inferInstanceAs (Decidable (if account.delegate = some authority
    then amount ≤ account.delegatedAmount.toNat else account.owner = authority))

/-- What is left of the delegation of an account from which an authority takes an amount. -/
def draw (account : TokenAccount) (authority : Pubkey) (amount : UInt64) :
    Except TokenError TokenAccount :=
  if account.delegate = some authority then do
    let delegatedAmount ← okOr (account.delegatedAmount.checkedSub amount) .insufficientFunds
    pure { account with
      delegatedAmount
      delegate := if delegatedAmount = 0 then none else account.delegate }
  else do
    require (account.owner = authority) .ownerMismatch
    pure account

end TokenAccount

structure TokenLedger where
  mints : AccountMap Pubkey Mint
  accounts : AccountMap Pubkey TokenAccount

namespace TokenLedger

def empty : TokenLedger := ⟨∅, ∅⟩

variable (t : TokenLedger)

def mint (address : Pubkey) : Except TokenError Mint :=
  okOr (t.mints.lookup address) .uninitializedState

def account (address : Pubkey) : Except TokenError TokenAccount :=
  okOr (t.accounts.lookup address) .uninitializedState

def setAccount (address : Pubkey) (account : TokenAccount) : TokenLedger :=
  { t with accounts := t.accounts.insert address account }

def setAmount (address : Pubkey) (account : TokenAccount) (amount : UInt64) : TokenLedger :=
  t.setAccount address { account with amount }

def setMint (address : Pubkey) (mint : Mint) : TokenLedger :=
  { t with mints := t.mints.insert address mint }

def setSupply (address : Pubkey) (mint : Mint) (supply : UInt64) : TokenLedger :=
  t.setMint address { mint with supply }

/-- The tokens held at an address, none if there is no account. -/
def balance (address : Pubkey) : ℕ :=
  ((t.accounts.lookup address).map fun account ↦ account.amount.toNat).getD 0

def supply (address : Pubkey) : ℕ :=
  ((t.mints.lookup address).map fun mint ↦ mint.supply.toNat).getD 0

/-- The tokens of one mint held in all accounts together. -/
def holdings (address : Pubkey) : ℕ :=
  t.accounts.total fun _ account ↦ if account.mint = address then account.amount.toNat else 0

/-- The tokens of one mint held in all accounts of some owners. -/
def heldBy (address : Pubkey) (owners : Pubkey → Prop) [DecidablePred owners] : ℕ :=
  t.accounts.total fun _ account ↦
    if account.mint = address ∧ owners account.owner then account.amount.toNat else 0

/-- There is a token account at the address, of the given mint and owner. -/
def IsAccount (address mint owner : Pubkey) : Prop :=
  ∃ account, t.accounts.lookup address = some account ∧ account.mint = mint ∧
    account.owner = owner

instance (address mint owner : Pubkey) : Decidable (t.IsAccount address mint owner) :=
  decidable_of_iff ((t.accounts.lookup address).any fun account ↦
    account.mint = mint ∧ account.owner = owner) (by simp [IsAccount, Option.any_eq_true])

/-- There is a mint at the address, under the given authority. -/
def IsMint (address authority : Pubkey) : Prop :=
  ∃ mint, t.mints.lookup address = some mint ∧ mint.authority = some authority

/-- There is a frozen account at the address. -/
def IsFrozen (address : Pubkey) : Prop :=
  ∃ account, t.accounts.lookup address = some account ∧ account.isFrozen = true

instance (address : Pubkey) : Decidable (t.IsFrozen address) :=
  decidable_of_iff ((t.accounts.lookup address).any fun account ↦ account.isFrozen)
    (by simp [IsFrozen, Option.any_eq_true])

/-- There is an account at the address from which the authority may take the amount. -/
def Allows (address authority : Pubkey) (amount : ℕ) : Prop :=
  ∃ account, t.accounts.lookup address = some account ∧ account.Allows authority amount

instance (address authority : Pubkey) (amount : ℕ) :
    Decidable (t.Allows address authority amount) :=
  decidable_of_iff ((t.accounts.lookup address).any fun account ↦
    decide (account.Allows authority amount)) (by simp [Allows, Option.any_eq_true])

end TokenLedger

open TokenLedger

def initializeMint (address authority : Pubkey) (freezeAuthority : Option Pubkey)
    (decimals : UInt8) (t : TokenLedger) : Except TokenError TokenLedger := do
  require (t.mints.lookup address = none) .alreadyInUse
  require (t.accounts.lookup address = none) .alreadyInUse
  pure (t.setMint address ⟨some authority, 0, decimals, freezeAuthority⟩)

def initializeAccount (address mint owner : Pubkey) (t : TokenLedger) :
    Except TokenError TokenLedger := do
  require (t.mints.lookup address = none) .alreadyInUse
  require (t.accounts.lookup address = none) .alreadyInUse
  let _ ← t.mint mint
  pure (t.setAccount address (.opened mint owner))

def transferChecked (source mint destination authority : Pubkey) (amount : UInt64)
    (decimals : UInt8) (t : TokenLedger) : Except TokenError TokenLedger := do
  let sourceAccount ← t.account source
  let destinationAccount ← t.account destination
  require (sourceAccount.isFrozen = false ∧ destinationAccount.isFrozen = false) .accountFrozen
  require (amount.toNat ≤ sourceAccount.amount.toNat) .insufficientFunds
  require (sourceAccount.mint = destinationAccount.mint) .mintMismatch
  require (sourceAccount.mint = mint) .mintMismatch
  let mintState ← t.mint mint
  require (decimals = mintState.decimals) .mintDecimalsMismatch
  let drawnAccount ← sourceAccount.draw authority amount
  -- a transfer of an account to itself leaves the allowance as it is
  if source = destination then pure t
  else do
    let sourceAmount ← okOr (drawnAccount.amount.checkedSub amount) .overflow
    let destinationAmount ← okOr (destinationAccount.amount.checkedAdd amount) .overflow
    pure ((t.setAmount source drawnAccount sourceAmount).setAmount destination
      destinationAccount destinationAmount)

def mintTo (mint destination authority : Pubkey) (amount : UInt64) (t : TokenLedger) :
    Except TokenError TokenLedger := do
  let destinationAccount ← t.account destination
  require (destinationAccount.isFrozen = false) .accountFrozen
  require (destinationAccount.mint = mint) .mintMismatch
  let mintState ← t.mint mint
  let mintAuthority ← okOr mintState.authority .fixedSupply
  require (mintAuthority = authority) .ownerMismatch
  let destinationAmount ← okOr (destinationAccount.amount.checkedAdd amount) .overflow
  let supply ← okOr (mintState.supply.checkedAdd amount) .overflow
  pure ((t.setAmount destination destinationAccount destinationAmount).setSupply mint mintState
    supply)

def burn (source mint authority : Pubkey) (amount : UInt64) (t : TokenLedger) :
    Except TokenError TokenLedger := do
  let sourceAccount ← t.account source
  let mintState ← t.mint mint
  require (sourceAccount.isFrozen = false) .accountFrozen
  require (amount.toNat ≤ sourceAccount.amount.toNat) .insufficientFunds
  require (sourceAccount.mint = mint) .mintMismatch
  let drawnAccount ← sourceAccount.draw authority amount
  let sourceAmount ← okOr (drawnAccount.amount.checkedSub amount) .overflow
  let supply ← okOr (mintState.supply.checkedSub amount) .overflow
  pure ((t.setAmount source drawnAccount sourceAmount).setSupply mint mintState supply)

/-! ## Rights to an account -/

/-- What the owner of an account does to it, which must not be frozen. -/
def asOwner (address owner : Pubkey) (change : TokenAccount → TokenAccount) (t : TokenLedger) :
    Except TokenError TokenLedger := do
  let account ← t.account address
  require (account.isFrozen = false) .accountFrozen
  require (account.owner = owner) .ownerMismatch
  pure (t.setAccount address (change account))

def approve (source delegate owner : Pubkey) (amount : UInt64) : TokenLedger →
    Except TokenError TokenLedger :=
  asOwner source owner fun account ↦
    { account with delegate := some delegate, delegatedAmount := amount }

def revoke (source owner : Pubkey) : TokenLedger → Except TokenError TokenLedger :=
  asOwner source owner fun account ↦ { account with delegate := none, delegatedAmount := 0 }

inductive AuthorityType
  | mintTokens
  | freezeAccount
  | accountOwner
  | closeAccount
  deriving DecidableEq

def setAccountAuthority (authorityType : AuthorityType) (authority : Pubkey)
    (newAuthority : Option Pubkey) (account : TokenAccount) : Except TokenError TokenAccount := do
  require (account.isFrozen = false) .accountFrozen
  match authorityType with
  | .accountOwner => do
      require (account.owner = authority) .ownerMismatch
      let owner ← okOr newAuthority .invalidInstruction
      pure { account with owner, delegate := none, delegatedAmount := 0 }
  | .closeAccount => do
      require (account.closeAuthority.getD account.owner = authority) .ownerMismatch
      pure { account with closeAuthority := newAuthority }
  | _ => .error .authorityTypeNotSupported

def setMintAuthority (authorityType : AuthorityType) (authority : Pubkey)
    (newAuthority : Option Pubkey) (mint : Mint) : Except TokenError Mint :=
  match authorityType with
  | .mintTokens => do
      let mintAuthority ← okOr mint.authority .fixedSupply
      require (mintAuthority = authority) .ownerMismatch
      pure { mint with authority := newAuthority }
  | .freezeAccount => do
      let freezeAuthority ← okOr mint.freezeAuthority .mintCannotFreeze
      require (freezeAuthority = authority) .ownerMismatch
      pure { mint with freezeAuthority := newAuthority }
  | _ => .error .authorityTypeNotSupported

def setAuthority (address : Pubkey) (authorityType : AuthorityType) (authority : Pubkey)
    (newAuthority : Option Pubkey) (t : TokenLedger) : Except TokenError TokenLedger :=
  match t.accounts.lookup address with
  | some account => do
      let account ← setAccountAuthority authorityType authority newAuthority account
      pure (t.setAccount address account)
  | none => do
      let mint ← t.mint address
      let mint ← setMintAuthority authorityType authority newAuthority mint
      pure (t.setMint address mint)

def closeAccount (address authority : Pubkey) (t : TokenLedger) :
    Except TokenError TokenLedger := do
  let account ← t.account address
  require (account.amount = 0) .nonNativeHasBalance
  require (account.closeAuthority.getD account.owner = authority) .ownerMismatch
  pure { t with accounts := t.accounts.erase address }

/-- `FreezeAccount` and `ThawAccount`. -/
def toggleFreezeAccount (freeze : Bool) (address mint authority : Pubkey) (t : TokenLedger) :
    Except TokenError TokenLedger := do
  let account ← t.account address
  require (account.isFrozen ≠ freeze) .invalidState
  require (account.mint = mint) .mintMismatch
  let mintState ← t.mint mint
  let freezeAuthority ← okOr mintState.freezeAuthority .mintCannotFreeze
  require (freezeAuthority = authority) .ownerMismatch
  pure (t.setAccount address { account with isFrozen := freeze })

end CredMesh.Spl
