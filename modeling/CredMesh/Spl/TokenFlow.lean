import Mathlib.Algebra.Notation.Pi.Basic
import Mathlib.Algebra.Group.Pi.Basic
import CredMesh.Spl.Token

/-!
# What a token instruction moves

Every token instruction is summarised by what it debits and credits at each address and what it
mints and burns of each mint. These quantities add up along a sequence of instructions, so the
effect of a handler that calls the token program several times is read off the calls. Along such
calls accounts and mints persist with all that the instructions do not move, and the holdings of a
mint move with its supply.
-/

namespace CredMesh.Spl

open Outcome AccountMap

/-- What no movement of tokens changes about an account. No delegation arises, but one may run
out. -/
structure TokenAccount.Keeps (account account' : TokenAccount) : Prop where
  mint : account'.mint = account.mint
  owner : account'.owner = account.owner
  isFrozen : account'.isFrozen = account.isFrozen
  closeAuthority : account'.closeAuthority = account.closeAuthority
  undelegated : account.delegate = none → account'.delegate = none

theorem TokenAccount.Keeps.refl (account : TokenAccount) : account.Keeps account :=
  ⟨rfl, rfl, rfl, rfl, id⟩

theorem TokenAccount.Keeps.trans {first second third : TokenAccount} (h : first.Keeps second)
    (h' : second.Keeps third) : first.Keeps third where
  mint := h'.mint.trans h.mint
  owner := h'.owner.trans h.owner
  isFrozen := h'.isFrozen.trans h.isFrozen
  closeAuthority := h'.closeAuthority.trans h.closeAuthority
  undelegated hnone := h'.undelegated (h.undelegated hnone)

/-- Accounts survive, and mints but for their supply. What is opened is of a mint and not frozen. -/
structure Persists (t t' : TokenLedger) : Prop where
  kept : ∀ address account, t.accounts.lookup address = some account →
    ∃ account', t'.accounts.lookup address = some account' ∧ account.Keeps account'
  opened : ∀ address account', t.accounts.lookup address = none →
    t'.accounts.lookup address = some account' →
      account'.isFrozen = false ∧ ∃ mint, t'.mints.lookup account'.mint = some mint
  supplied : ∀ address mint, t.mints.lookup address = some mint →
    ∃ supply, t'.mints.lookup address = some { mint with supply }

namespace Persists

variable {t t₁ t₂ t₃ t' : TokenLedger}

theorem refl (t : TokenLedger) : Persists t t where
  kept _ account haccount := ⟨account, haccount, .refl account⟩
  opened _ _ hnone hsome := by
    rw [hnone] at hsome
    cases hsome
  supplied _ mint hmint := ⟨mint.supply, hmint⟩

theorem trans (h₁ : Persists t₁ t₂) (h₂ : Persists t₂ t₃) : Persists t₁ t₃ where
  kept address account haccount := by
    obtain ⟨account₂, haccount₂, hkeeps₂⟩ := h₁.kept address account haccount
    obtain ⟨account₃, haccount₃, hkeeps₃⟩ := h₂.kept address account₂ haccount₂
    exact ⟨account₃, haccount₃, hkeeps₂.trans hkeeps₃⟩
  opened address account₃ hnone hsome := by
    cases hbetween : t₂.accounts.lookup address with
    | none => exact h₂.opened address account₃ hbetween hsome
    | some account₂ =>
        obtain ⟨_, hfound, hkeeps⟩ := h₂.kept address account₂ hbetween
        obtain rfl := Option.some.inj (hsome.symm.trans hfound)
        obtain ⟨hthawed, mint, hmint⟩ := h₁.opened address account₂ hnone hbetween
        obtain ⟨supply, hmint'⟩ := h₂.supplied _ mint hmint
        rw [hkeeps.isFrozen, hkeeps.mint]
        exact ⟨hthawed, { mint with supply }, hmint'⟩
  supplied address mint hmint := by
    obtain ⟨_, hmint₂⟩ := h₁.supplied address mint hmint
    obtain ⟨supply, hmint₃⟩ := h₂.supplied address _ hmint₂
    exact ⟨supply, hmint₃⟩

theorem account (h : Persists t t') (address mint owner : Pubkey)
    (haccount : t.IsAccount address mint owner) : t'.IsAccount address mint owner := by
  obtain ⟨account, hfound, rfl, rfl⟩ := haccount
  obtain ⟨account', hfound', hkeeps⟩ := h.kept address account hfound
  exact ⟨account', hfound', hkeeps.mint, hkeeps.owner⟩

theorem mint (h : Persists t t') (address authority : Pubkey)
    (hmint : t.IsMint address authority) : t'.IsMint address authority := by
  obtain ⟨mint, hfound, hauthority⟩ := hmint
  obtain ⟨supply, hfound'⟩ := h.supplied address mint hfound
  exact ⟨{ mint with supply }, hfound', hauthority⟩

theorem accounts_none (h : Persists t t') {address : Pubkey}
    (hnone : t'.accounts.lookup address = none) : t.accounts.lookup address = none := by
  rw [Option.eq_none_iff_forall_ne_some]
  intro account hfound
  obtain ⟨_, hfound', -⟩ := h.kept address account hfound
  rw [hnone] at hfound'
  cases hfound'

theorem mints_none (h : Persists t t') {address : Pubkey}
    (hnone : t'.mints.lookup address = none) : t.mints.lookup address = none := by
  rw [Option.eq_none_iff_forall_ne_some]
  intro mint hfound
  obtain ⟨_, hfound'⟩ := h.supplied address mint hfound
  rw [hnone] at hfound'
  cases hfound'

/-- Nothing is frozen or thawed. -/
theorem isFrozen_iff (h : Persists t t') (address : Pubkey) :
    t'.IsFrozen address ↔ t.IsFrozen address := by
  constructor
  · rintro ⟨account', hfound', hfrozen⟩
    cases hfound : t.accounts.lookup address with
    | none =>
        rw [(h.opened address account' hfound hfound').1] at hfrozen
        cases hfrozen
    | some account =>
        obtain ⟨_, hsame, hkeeps⟩ := h.kept address account hfound
        obtain rfl := Option.some.inj (hfound'.symm.trans hsame)
        exact ⟨account, hfound, hkeeps.isFrozen.symm.trans hfrozen⟩
  · rintro ⟨account, hfound, hfrozen⟩
    obtain ⟨account', hfound', hkeeps⟩ := h.kept address account hfound
    exact ⟨account', hfound', hkeeps.isFrozen.trans hfrozen⟩

end Persists

/-- The quantities that a change of the ledger moves. -/
structure Moves (t t' : TokenLedger) (debit credit minted burned : Pubkey → ℕ) : Prop where
  balance : ∀ address, t'.balance address + debit address = t.balance address + credit address
  supply : ∀ mint, t'.supply mint + burned mint = t.supply mint + minted mint
  holdings : ∀ mint, t'.holdings mint + burned mint = t.holdings mint + minted mint

/-- The movement of tokens between two states of the ledger. -/
structure Flow (t t' : TokenLedger) (debit credit minted burned : Pubkey → ℕ) : Prop
    extends Moves t t' debit credit minted burned where
  persists : Persists t t'

namespace Flow

variable {t t₁ t₂ t₃ : TokenLedger} {d₁ d₂ c₁ c₂ m₁ m₂ b₁ b₂ : Pubkey → ℕ}

theorem refl (t : TokenLedger) : Flow t t 0 0 0 0 :=
  ⟨⟨fun _ ↦ rfl, fun _ ↦ rfl, fun _ ↦ rfl⟩, Persists.refl t⟩

/-- Flows in sequence add up. -/
theorem trans (h₁ : Flow t₁ t₂ d₁ c₁ m₁ b₁) (h₂ : Flow t₂ t₃ d₂ c₂ m₂ b₂) :
    Flow t₁ t₃ (d₁ + d₂) (c₁ + c₂) (m₁ + m₂) (b₁ + b₂) where
  persists := h₁.persists.trans h₂.persists
  balance address := by
    have := h₁.balance address
    have := h₂.balance address
    simp only [Pi.add_apply]
    omega
  supply mint := by
    have := h₁.supply mint
    have := h₂.supply mint
    simp only [Pi.add_apply]
    omega
  holdings mint := by
    have := h₁.holdings mint
    have := h₂.holdings mint
    simp only [Pi.add_apply]
    omega

end Flow

/-- Every account is of a mint that exists. -/
def Minted (t : TokenLedger) : Prop :=
  ∀ address account, t.accounts.lookup address = some account →
    ∃ mint, t.mints.lookup account.mint = some mint

theorem Persists.minted {t t' : TokenLedger} (h : Persists t t') (hminted : Minted t) :
    Minted t' := by
  intro address account' hfound'
  cases hfound : t.accounts.lookup address with
  | none => exact (h.opened address account' hfound hfound').2
  | some account =>
      obtain ⟨_, hsame, hkeeps⟩ := h.kept address account hfound
      obtain rfl := Option.some.inj (hfound'.symm.trans hsame)
      obtain ⟨mint, hmint⟩ := hminted address account hfound
      obtain ⟨supply, hmint'⟩ := h.supplied account.mint mint hmint
      rw [hkeeps.mint]
      exact ⟨{ mint with supply }, hmint'⟩

/-- The accounts of each mint hold exactly its supply. -/
def Balanced (t : TokenLedger) : Prop :=
  ∀ mint, t.holdings mint = t.supply mint

theorem Balanced.moves {t t' : TokenLedger} {debit credit minted burned : Pubkey → ℕ}
    (h : Balanced t) (hmoves : Moves t t' debit credit minted burned) : Balanced t' := by
  intro mint
  have := h mint
  have := hmoves.supply mint
  have := hmoves.holdings mint
  omega

/-! ## Single updates -/

section Updates

variable {t : TokenLedger} {address : Pubkey} {account account' : TokenAccount}

theorem TokenAccount.Keeps.setAmount (h : account.Keeps account') (amount : UInt64) :
    account.Keeps { account' with amount } :=
  ⟨h.mint, h.owner, h.isFrozen, h.closeAuthority, h.undelegated⟩

namespace TokenLedger

@[simp]
theorem balance_of_lookup (h : t.accounts.lookup address = some account) :
    t.balance address = account.amount.toNat := by
  simp [balance, h]

@[simp]
theorem supply_of_lookup {mint : Mint} (h : t.mints.lookup address = some mint) :
    t.supply address = mint.supply.toNat := by
  simp [supply, h]

theorem balance_lt (t : TokenLedger) (address : Pubkey) : t.balance address < 2 ^ 64 := by
  cases hfound : t.accounts.lookup address with
  | none => simp [balance, hfound]
  | some account =>
      rw [balance_of_lookup hfound]
      exact account.amount.toNat_lt

theorem balance_setAccount (account : TokenAccount) (other : Pubkey) :
    (t.setAccount address account).balance other =
      if other = address then account.amount.toNat else t.balance other := by
  simp only [balance, setAccount, lookup_insert_eq]
  split <;> simp

@[simp]
theorem supply_setAccount (account : TokenAccount) (mint : Pubkey) :
    (t.setAccount address account).supply mint = t.supply mint := rfl

theorem holdings_setAccount (h : t.accounts.lookup address = some account)
    (hmint : account'.mint = account.mint) (mint : Pubkey) :
    (t.setAccount address account').holdings mint +
        (if account.mint = mint then account.amount.toNat else 0) =
      t.holdings mint + (if account.mint = mint then account'.amount.toNat else 0) := by
  have htotal := total_insert
    (fun _ (account : TokenAccount) ↦ if account.mint = mint then account.amount.toNat else 0)
    account' h
  rwa [hmint] at htotal

theorem supply_setSupply (mint : Mint) (supply : UInt64) (other : Pubkey) :
    (t.setSupply address mint supply).supply other =
      if other = address then supply.toNat else t.supply other := by
  simp only [TokenLedger.supply, setSupply, setMint, lookup_insert_eq]
  split <;> simp

@[simp]
theorem balance_setMint (mint : Mint) (other : Pubkey) :
    (t.setMint address mint).balance other = t.balance other := rfl

@[simp]
theorem holdings_setMint (mint : Mint) (other : Pubkey) :
    (t.setMint address mint).holdings other = t.holdings other := rfl

theorem persists_setAccount (h : t.accounts.lookup address = some account)
    (hkeeps : account.Keeps account') : Persists t (t.setAccount address account') where
  kept other found hfound := by
    by_cases heq : other = address
    · subst heq
      obtain rfl := Option.some.inj (h.symm.trans hfound)
      exact ⟨account', Finmap.lookup_insert _, hkeeps⟩
    · exact ⟨found, by simp [setAccount, heq, hfound], .refl found⟩
  opened other found hnone hsome := by
    have hne : other ≠ address := by
      rintro rfl
      rw [hnone] at h
      cases h
    rw [setAccount, lookup_insert_eq, if_neg hne, hnone] at hsome
    cases hsome
  supplied _ mint hmint := ⟨mint.supply, hmint⟩

theorem persists_setSupply {mint : Mint} (supply : UInt64)
    (h : t.mints.lookup address = some mint) :
    Persists t (t.setSupply address mint supply) where
  kept _ account haccount := ⟨account, haccount, .refl account⟩
  opened other found hnone hsome := by
    rw [show (t.setSupply address mint supply).accounts = t.accounts from rfl, hnone] at hsome
    cases hsome
  supplied other found hfound := by
    by_cases heq : other = address
    · subst heq
      obtain rfl := Option.some.inj (h.symm.trans hfound)
      exact ⟨supply, Finmap.lookup_insert _⟩
    · exact ⟨found.supply, by simp [setSupply, setMint, heq, hfound]⟩

end TokenLedger

end Updates

/-! ## Delegates -/

namespace TokenAccount

variable {account drawn : TokenAccount} {authority : Pubkey} {amount : UInt64}

theorem draw_keeps (h : account.draw authority amount = .ok drawn) :
    account.Keeps drawn ∧ drawn.amount = account.amount := by
  simp only [draw, ite_eq_ok, bind_eq_ok, okOr_eq_ok, require_eq_ok, pure_eq_ok] at h
  obtain ⟨hdelegate, _, -, rfl⟩ | ⟨-, -, -, rfl⟩ := h
  · refine ⟨⟨rfl, rfl, rfl, rfl, fun hnone ↦ ?_⟩, rfl⟩
    rw [hdelegate] at hnone
    cases hnone
  · exact ⟨.refl account, rfl⟩

/-- What a draw leaves of an amount may be taken with the next one. -/
theorem draw_allows {more : ℕ} (h : account.draw authority amount = .ok drawn)
    (hallowed : account.Allows authority (amount.toNat + more)) (hmore : 0 < more) :
    drawn.Allows authority more := by
  simp only [draw, ite_eq_ok, bind_eq_ok, okOr_eq_ok, require_eq_ok, pure_eq_ok,
    UInt64.checkedSub_eq_some] at h
  obtain ⟨hdelegate, rest, hrest, rfl⟩ | ⟨hother, howner, -, rfl⟩ := h
  · rw [Allows, if_pos hdelegate] at hallowed
    have hleft : rest ≠ 0 := by
      rintro rfl
      rw [UInt64.toNat_zero] at hrest
      omega
    rw [Allows, if_neg hleft, if_pos hdelegate]
    dsimp only
    omega
  · rw [Allows, if_neg hother] at hallowed ⊢
    exact hallowed

theorem exists_draw_iff :
    (∃ drawn, account.draw authority amount = .ok drawn) ↔
      account.Allows authority amount.toNat := by
  unfold draw Allows
  split
  · simp only [exists_bind_eq_ok, okOr_eq_ok, UInt64.checkedSub_eq_some, exists_pure_eq_ok,
      and_true]
    constructor
    · rintro ⟨rest, hrest⟩
      omega
    · exact fun hle ↦ UInt64.exists_add_eq hle
  · simp only [exists_bind_eq_ok, require_eq_ok, exists_pure_eq_ok, and_true, exists_const]

/-- Who takes something is the owner or the delegate. -/
theorem Allows.owner_or_delegate {amount : ℕ} (h : account.Allows authority amount) :
    account.owner = authority ∨ account.delegate = some authority := by
  unfold Allows at h
  split at h
  case isTrue hdelegate => exact .inr hdelegate
  case isFalse => exact .inl h

theorem Allows.mono {amount less : ℕ} (h : account.Allows authority amount)
    (hle : less ≤ amount) : account.Allows authority less := by
  unfold Allows at h ⊢
  split
  case isTrue hdelegate =>
    rw [if_pos hdelegate] at h
    exact hle.trans h
  case isFalse hother =>
    rwa [if_neg hother] at h

end TokenAccount

/-! ## Instructions -/

section Instructions

variable {t t' : TokenLedger} {source mint destination authority : Pubkey} {amount : UInt64}
  {decimals : UInt8}

theorem not_isFrozen_iff {address : Pubkey} {account : TokenAccount}
    (h : t.accounts.lookup address = some account) :
    ¬ t.IsFrozen address ↔ account.isFrozen = false := by
  simp [TokenLedger.IsFrozen, h]

theorem allows_iff {address : Pubkey} {account : TokenAccount}
    (h : t.accounts.lookup address = some account) {amount : ℕ} :
    t.Allows address authority amount ↔ account.Allows authority amount := by
  simp [TokenLedger.Allows, h]

theorem TokenLedger.Allows.mono {address : Pubkey} {amount less : ℕ}
    (h : t.Allows address authority amount) (hle : less ≤ amount) :
    t.Allows address authority less := by
  obtain ⟨account, hfound, hallowed⟩ := h
  exact ⟨account, hfound, hallowed.mono hle⟩

/-- What is required of an account from which an authority takes an amount. -/
structure DrawReady (t : TokenLedger) (source mint authority : Pubkey) (amount : UInt64) :
    Prop where
  funds : amount.toNat ≤ t.balance source
  allowed : t.Allows source authority amount.toNat
  thawed : ¬ t.IsFrozen source
  source : ∃ owner, t.IsAccount source mint owner

theorem drawReady_of_lookup {src : TokenAccount} (hsrc : t.accounts.lookup source = some src) :
    DrawReady t source mint authority amount ↔
      amount.toNat ≤ src.amount.toNat ∧ src.mint = mint ∧ src.Allows authority amount.toNat ∧
      src.isFrozen = false := by
  constructor
  · rintro ⟨hfunds, hallowed, hthawed, owner, found, hfound, hmint, -⟩
    obtain rfl := Option.some.inj (hsrc.symm.trans hfound)
    rw [TokenLedger.balance_of_lookup hsrc] at hfunds
    exact ⟨hfunds, hmint, (allows_iff hsrc).mp hallowed, (not_isFrozen_iff hsrc).mp hthawed⟩
  · rintro ⟨hfunds, hmint, hallowed, hthawed⟩
    rw [← TokenLedger.balance_of_lookup hsrc] at hfunds
    exact ⟨hfunds, (allows_iff hsrc).mpr hallowed, (not_isFrozen_iff hsrc).mpr hthawed, src.owner,
      src, hsrc, hmint, rfl⟩

/-- What a transfer requires of the two accounts. -/
structure TransferReady (t : TokenLedger) (source mint destination authority : Pubkey)
    (amount : UInt64) : Prop extends DrawReady t source mint authority amount where
  destinationThawed : ¬ t.IsFrozen destination
  destination : ∃ owner, t.IsAccount destination mint owner

theorem transferChecked_ready
    (h : transferChecked source mint destination authority amount decimals t = .ok t') :
    TransferReady t source mint destination authority amount := by
  simp only [transferChecked, TokenLedger.account, TokenLedger.mint, bind_eq_ok, okOr_eq_ok,
    require_eq_ok] at h
  obtain ⟨src, hsrc, dst, hdst, -, hthawed, -, hfunds, -, hsame, -, hmint, -, -, -, -, drawn,
    hdrawn, -⟩ := h
  have hallowed := TokenAccount.exists_draw_iff.mp ⟨drawn, hdrawn⟩
  have hready : DrawReady t source mint authority amount :=
    (drawReady_of_lookup hsrc).mpr ⟨hfunds, hmint, hallowed, hthawed.1⟩
  exact ⟨hready, (not_isFrozen_iff hdst).mpr hthawed.2, dst.owner, dst, hdst, hsame ▸ hmint, rfl⟩

theorem transferChecked_flow
    (h : transferChecked source mint destination authority amount decimals t = .ok t') :
    Flow t t' (Pi.single source amount.toNat) (Pi.single destination amount.toNat) 0 0 := by
  simp only [transferChecked, TokenLedger.account, TokenLedger.mint, bind_eq_ok, okOr_eq_ok,
    require_eq_ok, ite_eq_ok, pure_eq_ok, UInt64.checkedSub_eq_some,
    UInt64.checkedAdd_eq_some] at h
  obtain ⟨src, hsrc, dst, hdst, -, -, -, hfunds, -, hsame, -, hmint, -, -, -, -, drawn, hdrawn,
    ⟨rfl, rfl⟩ | ⟨hne, out, hout, inn, hinn, rfl⟩⟩ := h
  · exact ⟨⟨fun _ ↦ rfl, fun _ ↦ rfl, fun _ ↦ rfl⟩, Persists.refl t⟩
  · obtain ⟨hkeeps, hheld⟩ := TokenAccount.draw_keeps hdrawn
    have hdst' : (t.setAmount source drawn out).accounts.lookup destination = some dst := by
      simp [TokenLedger.setAmount, TokenLedger.setAccount, Ne.symm hne, hdst]
    have hsrcBalance := TokenLedger.balance_of_lookup hsrc
    have hdstBalance := TokenLedger.balance_of_lookup hdst
    rw [hheld] at hout
    constructor
    case persists =>
      exact (TokenLedger.persists_setAccount hsrc (hkeeps.setAmount out)).trans
        (TokenLedger.persists_setAccount hdst' ((TokenAccount.Keeps.refl dst).setAmount inn))
    refine ⟨fun address ↦ ?_, fun _ ↦ rfl, fun m ↦ ?_⟩
    · simp only [TokenLedger.setAmount, TokenLedger.balance_setAccount, Pi.single_apply]
      by_cases hd : address = destination
      · subst hd
        simp only [if_true, if_neg (Ne.symm hne)]
        omega
      · by_cases hs : address = source
        · subst hs
          simp only [if_neg hd, if_true]
          omega
        · simp [hd, hs]
    · have h₁ := TokenLedger.holdings_setAccount hsrc (hkeeps.setAmount out).mint m
      have h₂ := TokenLedger.holdings_setAccount hdst'
        ((TokenAccount.Keeps.refl dst).setAmount inn).mint m
      rw [hsame] at h₁
      simp only [Pi.zero_apply, TokenLedger.setAmount] at h₁ h₂ ⊢
      by_cases hm : dst.mint = m
      · simp only [if_pos hm] at h₁ h₂
        omega
      · simp only [if_neg hm] at h₁ h₂
        omega

/-- What a transfer writes: nothing, if the two accounts are one. -/
theorem transferChecked_writes
    (h : transferChecked source mint destination authority amount decimals t = .ok t') :
    (source = destination ∧ t' = t) ∨
    source ≠ destination ∧ ∃ src dst drawn out inn, t.accounts.lookup source = some src ∧
      t.accounts.lookup destination = some dst ∧ src.draw authority amount = .ok drawn ∧
      t' = (t.setAmount source drawn out).setAmount destination dst inn := by
  simp only [transferChecked, TokenLedger.account, bind_eq_ok, okOr_eq_ok, require_eq_ok,
    ite_eq_ok, pure_eq_ok] at h
  obtain ⟨src, hsrc, dst, hdst, -, -, -, -, -, -, -, -, -, -, -, -, drawn, hdrawn,
    ⟨hsame, rfl⟩ | ⟨hne, out, -, inn, -, rfl⟩⟩ := h
  · exact .inl ⟨hsame, rfl⟩
  · exact .inr ⟨hne, src, dst, drawn, out, inn, hsrc, hdst, hdrawn, rfl⟩

/-- A transfer leaves every other account as it is. -/
theorem transferChecked_accounts {address : Pubkey}
    (h : transferChecked source mint destination authority amount decimals t = .ok t')
    (hsource : address ≠ source) (hdestination : address ≠ destination) :
    t'.accounts.lookup address = t.accounts.lookup address := by
  obtain ⟨-, rfl⟩ | ⟨-, src, dst, drawn, out, inn, -, -, -, rfl⟩ := transferChecked_writes h
  · rfl
  · simp [TokenLedger.setAmount, TokenLedger.setAccount, hsource, hdestination]

theorem burn_writes (h : burn source mint authority amount t = .ok t') :
    ∃ src mintState drawn out supply, t.accounts.lookup source = some src ∧
      t.mints.lookup mint = some mintState ∧ src.draw authority amount = .ok drawn ∧
      supply.toNat + amount.toNat = mintState.supply.toNat ∧
      t' = (t.setAmount source drawn out).setSupply mint mintState supply := by
  simp only [burn, TokenLedger.account, TokenLedger.mint, bind_eq_ok, okOr_eq_ok, pure_eq_ok,
    UInt64.checkedSub_eq_some] at h
  obtain ⟨src, hsrc, mintState, hmint, -, -, -, -, -, -, drawn, hdrawn, out, -, supply, hsupply,
    rfl⟩ := h
  exact ⟨src, mintState, drawn, out, supply, hsrc, hmint, hdrawn, hsupply, rfl⟩

theorem burn_accounts {address : Pubkey} (h : burn source mint authority amount t = .ok t')
    (hsource : address ≠ source) : t'.accounts.lookup address = t.accounts.lookup address := by
  obtain ⟨src, mintState, drawn, out, supply, -, -, -, -, rfl⟩ := burn_writes h
  simp [TokenLedger.setSupply, TokenLedger.setMint, TokenLedger.setAmount, TokenLedger.setAccount,
    hsource]

theorem transferChecked_allows {more : ℕ}
    (h : transferChecked source mint destination authority amount decimals t = .ok t')
    (hallowed : t.Allows source authority (amount.toNat + more)) (hmore : 0 < more) :
    t'.Allows source authority more := by
  obtain ⟨account, hfound, hallowed⟩ := hallowed
  obtain ⟨-, rfl⟩ | ⟨hne, src, dst, drawn, out, inn, hsrc, -, hdraw, rfl⟩ :=
    transferChecked_writes h
  · exact TokenLedger.Allows.mono ⟨account, hfound, hallowed⟩ (Nat.le_add_left more _)
  · obtain rfl := Option.some.inj (hsrc.symm.trans hfound)
    have hleft : drawn.Allows authority more := TokenAccount.draw_allows hdraw hallowed hmore
    refine ⟨{ drawn with amount := out }, ?_, hleft⟩
    simp [TokenLedger.setAmount, TokenLedger.setAccount, hne]

theorem transferChecked_mints
    (h : transferChecked source mint destination authority amount decimals t = .ok t') :
    t'.mints = t.mints := by
  simp only [transferChecked, bind_eq_ok, require_eq_ok, ite_eq_ok, pure_eq_ok] at h
  obtain ⟨_, -, _, -, -, -, -, -, -, -, -, -, _, -, -, -, _, -,
    ⟨-, rfl⟩ | ⟨-, _, -, _, -, rfl⟩⟩ := h
  · rfl
  · rfl

/-- No token account of a mint holds more than all of them together. -/
theorem TokenLedger.IsAccount.balance_le_holdings {address owner : Pubkey}
    (h : t.IsAccount address mint owner) : t.balance address ≤ t.holdings mint := by
  obtain ⟨account, hfound, hmint, -⟩ := h
  have hle := weight_le_total
    (fun _ (account : TokenAccount) ↦ if account.mint = mint then account.amount.toNat else 0)
    hfound
  simp only [if_pos hmint] at hle
  rwa [TokenLedger.balance_of_lookup hfound]

/-- A mint of which something is held exists. -/
theorem Balanced.exists_mint {address owner : Pubkey} (h : Balanced t)
    (haccount : t.IsAccount address mint owner) (hpositive : 0 < t.balance address) :
    ∃ mintState, t.mints.lookup mint = some mintState := by
  have hheld := haccount.balance_le_holdings
  rw [h mint] at hheld
  cases hlookup : t.mints.lookup mint with
  | none =>
      simp only [TokenLedger.supply, hlookup, Option.map_none, Option.getD_none] at hheld
      omega
  | some mintState => exact ⟨mintState, rfl⟩

/-- Two accounts of a mint together hold at most its supply. -/
theorem Balanced.balance_add_balance_le {first second owner owner' : Pubkey} (h : Balanced t)
    (hfirst : t.IsAccount first mint owner) (hsecond : t.IsAccount second mint owner')
    (hne : first ≠ second) : t.balance first + t.balance second ≤ t.supply mint := by
  obtain ⟨a, ha, hamint, -⟩ := hfirst
  obtain ⟨b, hb, hbmint, -⟩ := hsecond
  have htotal := total_erase (fun _ (account : TokenAccount) ↦
    if account.mint = mint then account.amount.toNat else 0) ha
  have hrest := weight_le_total (fun _ (account : TokenAccount) ↦
    if account.mint = mint then account.amount.toNat else 0)
    (show (t.accounts.erase first).lookup second = some b by
      rw [lookup_erase_eq, if_neg hne.symm, hb])
  have hholdings := h mint
  rw [TokenLedger.holdings] at hholdings
  rw [TokenLedger.balance_of_lookup ha, TokenLedger.balance_of_lookup hb]
  simp only [if_pos hamint, if_pos hbmint] at htotal hrest
  omega

/-- As long as all holdings are backed by supply, nothing overflows and a transfer goes through
whenever the accounts are ready for it. -/
theorem exists_transferChecked {mintState : Mint} (hbalanced : Balanced t)
    (hready : TransferReady t source mint destination authority amount)
    (hmint : t.mints.lookup mint = some mintState) :
    ∃ t', transferChecked source mint destination authority amount mintState.decimals t =
      .ok t' := by
  obtain ⟨owner, hdestination⟩ := hready.destination
  obtain ⟨_, hsource⟩ := hready.source
  have hpair := hbalanced.balance_add_balance_le hsource hdestination
  have hthawed' := hready.destinationThawed
  obtain ⟨src, hsrc, -⟩ := hsource
  obtain ⟨dst, hdst, hdstMint, -⟩ := hdestination
  obtain ⟨hfunds, hsrcMint, hallowed, hthawed⟩ := (drawReady_of_lookup hsrc).mp hready.toDrawReady
  rw [not_isFrozen_iff hdst] at hthawed'
  obtain ⟨drawn, hdrawn⟩ := TokenAccount.exists_draw_iff.mpr hallowed
  have hheld := (TokenAccount.draw_keeps hdrawn).2
  simp only [transferChecked, TokenLedger.account, TokenLedger.mint, exists_bind_eq_ok,
    okOr_eq_ok, require_eq_ok]
  refine ⟨src, hsrc, dst, hdst, (), ⟨hthawed, hthawed'⟩, (), hfunds, (),
    hsrcMint.trans hdstMint.symm, (), hsrcMint, mintState, hmint, (), rfl, drawn, hdrawn, ?_⟩
  by_cases hsame : source = destination
  · rw [if_pos hsame]
    exact exists_pure_eq_ok
  · have hsupply := mintState.supply.toNat_lt
    have htogether := hpair hsame
    rw [TokenLedger.balance_of_lookup hsrc, TokenLedger.balance_of_lookup hdst,
      TokenLedger.supply_of_lookup hmint] at htogether
    have hdrawnFunds := hfunds
    rw [← hheld] at hdrawnFunds
    obtain ⟨out, hout⟩ := UInt64.exists_add_eq hdrawnFunds
    obtain ⟨inn, hinn⟩ : ∃ c : UInt64, c.toNat = dst.amount.toNat + amount.toNat :=
      UInt64.exists_toNat_eq (by omega)
    rw [if_neg hsame]
    simp only [exists_bind_eq_ok, okOr_eq_ok, UInt64.checkedSub_eq_some,
      UInt64.checkedAdd_eq_some]
    exact ⟨out, hout, inn, hinn, exists_pure_eq_ok⟩

/-- An account and the supply of its mint change by the same amounts. -/
theorem TokenLedger.setSupply_flow {account account' : TokenAccount} {mintState : Mint}
    {supply : UInt64} {address : Pubkey} (added removed : ℕ)
    (haccount : t.accounts.lookup address = some account) (hkeeps : account.Keeps account')
    (hon : account.mint = mint) (hmint : t.mints.lookup mint = some mintState)
    (hbalance : account'.amount.toNat + removed = account.amount.toNat + added)
    (hsupply : supply.toNat + removed = mintState.supply.toNat + added) :
    Flow t ((t.setAccount address account').setSupply mint mintState supply)
      (Pi.single address removed) (Pi.single address added) (Pi.single mint added)
      (Pi.single mint removed) := by
  have hheld := TokenLedger.balance_of_lookup haccount
  have hissued := TokenLedger.supply_of_lookup hmint
  constructor
  case persists =>
    exact (TokenLedger.persists_setAccount haccount hkeeps).trans
      (TokenLedger.persists_setSupply supply hmint)
  refine ⟨fun other ↦ ?_, fun other ↦ ?_, fun other ↦ ?_⟩
  · simp only [TokenLedger.setSupply, TokenLedger.balance_setMint, TokenLedger.balance_setAccount,
      Pi.single_apply]
    by_cases hother : other = address
    · subst hother
      simp only [if_true]
      omega
    · simp [hother]
  · simp only [TokenLedger.supply_setSupply, TokenLedger.supply_setAccount, Pi.single_apply]
    by_cases hother : other = mint
    · subst hother
      simp only [if_true]
      omega
    · simp [hother]
  · have hholdings := TokenLedger.holdings_setAccount haccount hkeeps.mint other
    simp only [TokenLedger.setSupply, TokenLedger.holdings_setMint, Pi.single_apply]
    rw [hon] at hholdings
    by_cases hother : other = mint
    · subst hother
      simp only [if_true] at hholdings ⊢
      omega
    · simpa only [if_neg hother, if_neg (Ne.symm hother), add_zero] using hholdings

theorem mintTo_flow (h : mintTo mint destination authority amount t = .ok t') :
    (∃ owner, t.IsAccount destination mint owner) ∧ t.IsMint mint authority ∧
    Flow t t' 0 (Pi.single destination amount.toNat) (Pi.single mint amount.toNat) 0 := by
  simp only [mintTo, TokenLedger.account, TokenLedger.mint, bind_eq_ok, okOr_eq_ok,
    require_eq_ok, pure_eq_ok, UInt64.checkedAdd_eq_some] at h
  obtain ⟨dst, hdst, -, -, -, hmint, m, hm, _, hauthority, -, rfl, inn, hinn, supply, hsupply,
    rfl⟩ := h
  refine ⟨⟨dst.owner, dst, hdst, hmint, rfl⟩, ⟨m, hm, hauthority⟩, ?_⟩
  have hflow := TokenLedger.setSupply_flow amount.toNat 0 hdst
    ((TokenAccount.Keeps.refl dst).setAmount inn) hmint hm hinn hsupply
  rwa [Pi.single_zero, Pi.single_zero] at hflow

theorem burn_ready (h : burn source mint authority amount t = .ok t') :
    DrawReady t source mint authority amount := by
  simp only [burn, TokenLedger.account, bind_eq_ok, okOr_eq_ok, require_eq_ok] at h
  obtain ⟨src, hsrc, _, -, -, hthawed, -, hfunds, -, hmint, drawn, hdrawn, -⟩ := h
  exact (drawReady_of_lookup hsrc).mpr
    ⟨hfunds, hmint, TokenAccount.exists_draw_iff.mp ⟨drawn, hdrawn⟩, hthawed⟩

theorem burn_flow (h : burn source mint authority amount t = .ok t') :
    Flow t t' (Pi.single source amount.toNat) 0 0 (Pi.single mint amount.toNat) := by
  simp only [burn, TokenLedger.account, TokenLedger.mint, bind_eq_ok, okOr_eq_ok,
    require_eq_ok, pure_eq_ok, UInt64.checkedSub_eq_some] at h
  obtain ⟨src, hsrc, m, hm, -, -, -, -, -, hmint, drawn, hdrawn, out, hout, supply, hsupply,
    rfl⟩ := h
  obtain ⟨hkeeps, hheld⟩ := TokenAccount.draw_keeps hdrawn
  rw [hheld] at hout
  have hflow := TokenLedger.setSupply_flow 0 amount.toNat hsrc (hkeeps.setAmount out) hmint hm
    hout hsupply
  rwa [Pi.single_zero, Pi.single_zero] at hflow

/-- As long as all holdings are backed by supply, what an authority may take can be burned. -/
theorem exists_burn {mintState : Mint} (hbalanced : Balanced t)
    (hready : DrawReady t source mint authority amount)
    (hmint : t.mints.lookup mint = some mintState) :
    ∃ t', burn source mint authority amount t = .ok t' := by
  obtain ⟨_, hsource⟩ := hready.source
  have hissued := hsource.balance_le_holdings
  rw [hbalanced mint, TokenLedger.supply_of_lookup hmint] at hissued
  obtain ⟨src, hsrc, -⟩ := hsource
  rw [TokenLedger.balance_of_lookup hsrc] at hissued
  obtain ⟨hfunds, hsrcMint, hallowed, hthawed⟩ := (drawReady_of_lookup hsrc).mp hready
  obtain ⟨drawn, hdrawn⟩ := TokenAccount.exists_draw_iff.mpr hallowed
  obtain ⟨supply, hsupply⟩ := UInt64.exists_add_eq (hfunds.trans hissued)
  have hheld := (TokenAccount.draw_keeps hdrawn).2
  have hdrawnFunds := hfunds
  rw [← hheld] at hdrawnFunds
  obtain ⟨out, hout⟩ := UInt64.exists_add_eq hdrawnFunds
  simp only [burn, TokenLedger.account, TokenLedger.mint, exists_bind_eq_ok, okOr_eq_ok,
    require_eq_ok, UInt64.checkedSub_eq_some]
  exact ⟨src, hsrc, mintState, hmint, (), hthawed, (), hfunds, (), hsrcMint, drawn, hdrawn, out,
    hout, supply, hsupply, exists_pure_eq_ok⟩

/-- A burn leaves every other mint as it is. -/
theorem burn_mints {other : Pubkey} (h : burn source mint authority amount t = .ok t')
    (hother : other ≠ mint) : t'.mints.lookup other = t.mints.lookup other := by
  simp only [burn, bind_eq_ok, pure_eq_ok] at h
  obtain ⟨_, -, _, -, -, -, -, -, -, -, _, -, _, -, _, -, rfl⟩ := h
  simp [TokenLedger.setSupply, TokenLedger.setMint, TokenLedger.setAmount, TokenLedger.setAccount,
    hother]

/-- Opening a token account moves nothing. -/
theorem initializeAccount_flow {address owner : Pubkey}
    (h : initializeAccount address mint owner t = .ok t') :
    t.accounts.lookup address = none ∧
    t'.accounts.lookup address = some (.opened mint owner) ∧ Flow t t' 0 0 0 0 := by
  simp only [initializeAccount, TokenLedger.mint, bind_eq_ok, okOr_eq_ok, require_eq_ok,
    pure_eq_ok] at h
  obtain ⟨-, -, -, hfresh, mintState, hmint, rfl⟩ := h
  have hother {other : Pubkey} {account : TokenAccount}
      (hfound : t.accounts.lookup other = some account) : other ≠ address := by
    rintro rfl
    rw [hfresh] at hfound
    cases hfound
  refine ⟨hfresh, Finmap.lookup_insert _, ?_⟩
  constructor
  case persists =>
    constructor
    case kept =>
      intro other account hfound
      refine ⟨account, ?_, .refl account⟩
      rw [TokenLedger.setAccount, lookup_insert_eq, if_neg (hother hfound), hfound]
    case opened =>
      intro other account hnone hsome
      rw [TokenLedger.setAccount, lookup_insert_eq, hnone] at hsome
      split at hsome
      · obtain rfl := Option.some.inj hsome
        exact ⟨rfl, mintState, hmint⟩
      · cases hsome
    case supplied => exact fun _ mint hmint ↦ ⟨mint.supply, hmint⟩
  refine ⟨fun other ↦ ?_, fun _ ↦ rfl, fun m ↦ ?_⟩
  · rw [TokenLedger.balance_setAccount]
    split
    case isTrue heq =>
      subst heq
      simp [TokenLedger.balance, hfresh, TokenAccount.opened]
    case isFalse => rfl
  · simp [TokenLedger.holdings, TokenLedger.setAccount, total_insert_fresh _ _ hfresh,
      TokenAccount.opened]

/-- Opening a mint moves nothing. -/
theorem initializeMint_flow {address : Pubkey} {freezeAuthority : Option Pubkey}
    (h : initializeMint address authority freezeAuthority decimals t = .ok t') :
    t.mints.lookup address = none ∧
    t'.mints.lookup address = some ⟨some authority, 0, decimals, freezeAuthority⟩ ∧
    Flow t t' 0 0 0 0 := by
  simp only [initializeMint, bind_eq_ok, require_eq_ok, pure_eq_ok] at h
  obtain ⟨-, hfresh, -, -, rfl⟩ := h
  refine ⟨hfresh, Finmap.lookup_insert _, ?_⟩
  constructor
  case persists =>
    constructor
    case kept => exact fun _ account hfound ↦ ⟨account, hfound, .refl account⟩
    case opened =>
      intro other account hnone hsome
      exact absurd (hsome.symm.trans hnone) (Option.some_ne_none account)
    case supplied =>
      intro other m hm
      have hne : other ≠ address := by
        rintro rfl
        rw [hfresh] at hm
        cases hm
      exact ⟨m.supply, by rw [TokenLedger.setMint, lookup_insert_eq, if_neg hne, hm]⟩
  refine ⟨fun _ ↦ rfl, fun other ↦ ?_, fun _ ↦ rfl⟩
  by_cases hother : other = address
  · subst hother
    simp [TokenLedger.supply, TokenLedger.setMint, hfresh]
  · simp [TokenLedger.supply, TokenLedger.setMint, hother]

end Instructions

/-! ## Holdings of a group of owners -/

section HeldBy

variable {t t' : TokenLedger} {source mint destination authority other : Pubkey} {amount : UInt64}
  {decimals : UInt8} (owners : Pubkey → Prop) [DecidablePred owners]

theorem heldBy_setAmount {address : Pubkey} {account account' : TokenAccount} (amount : UInt64)
    (h : t.accounts.lookup address = some account) (hkeeps : account.Keeps account')
    (mint : Pubkey) :
    (t.setAmount address account' amount).heldBy mint owners +
        (if account.mint = mint ∧ owners account.owner then account.amount.toNat else 0) =
      t.heldBy mint owners +
        (if account.mint = mint ∧ owners account.owner then amount.toNat else 0) := by
  have hkept : (if account'.mint = mint ∧ owners account'.owner then amount.toNat else 0) =
      if account.mint = mint ∧ owners account.owner then amount.toNat else 0 := by
    rw [hkeeps.mint, hkeeps.owner]
  rw [← hkept]
  exact total_insert _ { account' with amount } h

/-- A transfer of one mint does not touch the holdings of another. -/
theorem transferChecked_heldBy
    (h : transferChecked source mint destination authority amount decimals t = .ok t')
    (hne : mint ≠ other) : t'.heldBy other owners = t.heldBy other owners := by
  simp only [transferChecked, TokenLedger.account, bind_eq_ok, okOr_eq_ok, require_eq_ok,
    ite_eq_ok, pure_eq_ok] at h
  obtain ⟨src, hsrc, dst, hdst, -, -, -, -, -, hsame, -, hmint, -, -, -, -, drawn, hdrawn,
    ⟨-, rfl⟩ | ⟨hdistinct, out, -, inn, -, rfl⟩⟩ := h
  · rfl
  · have hdst' : (t.setAmount source drawn out).accounts.lookup destination = some dst := by
      simp [TokenLedger.setAmount, TokenLedger.setAccount, Ne.symm hdistinct, hdst]
    have h₁ := heldBy_setAmount owners out hsrc (TokenAccount.draw_keeps hdrawn).1 other
    have h₂ := heldBy_setAmount owners inn hdst' (.refl dst) other
    rw [← hsame] at h₂
    simp only [hmint, hne, false_and, if_false, add_zero] at h₁ h₂
    rw [h₂, h₁]

/-- A transfer moves what the owners hold out of their accounts and into them. -/
theorem transferChecked_heldBy_owners {owner owner' : Pubkey}
    (h : transferChecked source mint destination authority amount decimals t = .ok t')
    (hsource : t.IsAccount source mint owner) (hdestination : t.IsAccount destination mint owner') :
    t'.heldBy mint owners + (if owners owner then amount.toNat else 0) =
      t.heldBy mint owners + if owners owner' then amount.toNat else 0 := by
  simp only [transferChecked, TokenLedger.account, bind_eq_ok, okOr_eq_ok, require_eq_ok,
    ite_eq_ok, pure_eq_ok, UInt64.checkedSub_eq_some, UInt64.checkedAdd_eq_some] at h
  obtain ⟨src, hsrc, dst, hdst, -, -, -, -, -, hsame, -, hmint, -, -, -, -, drawn, hdrawn,
    ⟨rfl, rfl⟩ | ⟨hdistinct, out, hout, inn, hinn, rfl⟩⟩ := h
  · obtain ⟨account, hfound, -, rfl⟩ := hsource
    obtain ⟨account', hfound', -, rfl⟩ := hdestination
    obtain rfl := Option.some.inj (hfound.symm.trans hfound')
    rfl
  · obtain ⟨account, hfound, -, rfl⟩ := hsource
    obtain rfl := Option.some.inj (hsrc.symm.trans hfound)
    obtain ⟨account', hfound', -, rfl⟩ := hdestination
    obtain rfl := Option.some.inj (hdst.symm.trans hfound')
    obtain ⟨hkeeps, hamount⟩ := TokenAccount.draw_keeps hdrawn
    have hdst' : (t.setAmount source drawn out).accounts.lookup destination = some dst := by
      simp [TokenLedger.setAmount, TokenLedger.setAccount, Ne.symm hdistinct, hdst]
    have h₁ := heldBy_setAmount owners out hsrc hkeeps mint
    have h₂ := heldBy_setAmount owners inn hdst' (.refl dst) mint
    rw [hamount] at hout
    rw [← hsame] at h₂
    simp only [hmint, true_and] at h₁ h₂
    split_ifs at h₁ h₂ ⊢ <;> omega

/-- Minting adds to what the owners hold if the destination is theirs. -/
theorem mintTo_heldBy {owner : Pubkey} (h : mintTo mint destination authority amount t = .ok t')
    (haccount : t.IsAccount destination mint owner) :
    t'.heldBy other owners =
      t.heldBy other owners + if mint = other ∧ owners owner then amount.toNat else 0 := by
  simp only [mintTo, TokenLedger.account, bind_eq_ok, okOr_eq_ok, require_eq_ok, pure_eq_ok,
    UInt64.checkedAdd_eq_some] at h
  obtain ⟨dst, hdst, -, -, -, hmint, _, -, _, -, -, -, inn, hinn, _, -, rfl⟩ := h
  obtain ⟨account, haccount, -, rfl⟩ := haccount
  obtain rfl : dst = account := by simpa [hdst] using haccount
  have hheld := heldBy_setAmount owners inn hdst (.refl dst) other
  rw [hmint, hinn] at hheld
  change (t.setAmount destination dst inn).heldBy other owners = _
  split_ifs at hheld ⊢ <;> omega

/-- Burning takes from what the owners hold if the source is theirs. -/
theorem burn_heldBy {owner : Pubkey} (h : burn source mint authority amount t = .ok t')
    (haccount : t.IsAccount source mint owner) :
    t'.heldBy other owners + (if mint = other ∧ owners owner then amount.toNat else 0) =
      t.heldBy other owners := by
  simp only [burn, TokenLedger.account, bind_eq_ok, okOr_eq_ok, require_eq_ok, pure_eq_ok,
    UInt64.checkedSub_eq_some] at h
  obtain ⟨src, hsrc, _, -, -, -, -, -, -, hmint, drawn, hdrawn, out, hout, _, -, rfl⟩ := h
  obtain ⟨account, haccount, -, rfl⟩ := haccount
  obtain rfl : src = account := by simpa [hsrc] using haccount
  obtain ⟨hkeeps, hamount⟩ := TokenAccount.draw_keeps hdrawn
  have hheld := heldBy_setAmount owners out hsrc hkeeps other
  rw [hmint] at hheld
  rw [hamount] at hout
  change (t.setAmount source drawn out).heldBy other owners + _ = _
  split_ifs at hheld ⊢ <;> omega

theorem initializeAccount_heldBy {address owner : Pubkey}
    (h : initializeAccount address mint owner t = .ok t') :
    t'.heldBy other owners = t.heldBy other owners := by
  simp only [initializeAccount, bind_eq_ok, require_eq_ok, pure_eq_ok] at h
  obtain ⟨-, -, -, hfresh, -, -, rfl⟩ := h
  simp [TokenLedger.heldBy, TokenLedger.setAccount, total_insert_fresh _ _ hfresh,
    TokenAccount.opened]

end HeldBy

namespace TokenLedger

variable {t : TokenLedger} {address other mint mint' owner owner' : Pubkey}

/-- Accounts with different owners are different. -/
theorem IsAccount.ne_of_owner (h : t.IsAccount address mint owner)
    (h' : t.IsAccount other mint' owner') (hne : owner ≠ owner') : address ≠ other := by
  rintro rfl
  obtain ⟨account, haccount, -, rfl⟩ := h
  obtain ⟨account', haccount', -, rfl⟩ := h'
  exact hne (by simp_all)

theorem IsAccount.ne_of_mint (h : t.IsAccount address mint owner)
    (h' : t.IsAccount other mint' owner') (hne : mint ≠ mint') : address ≠ other := by
  rintro rfl
  obtain ⟨account, haccount, rfl, -⟩ := h
  obtain ⟨account', haccount', rfl, -⟩ := h'
  exact hne (by simp_all)

/-- Mints under different authorities are different. -/
theorem IsMint.ne_of_authority (h : t.IsMint mint owner) (h' : t.IsMint mint' owner')
    (hne : owner ≠ owner') : mint ≠ mint' := by
  rintro rfl
  obtain ⟨m, hm, hauthority⟩ := h
  obtain ⟨m', hm', hauthority'⟩ := h'
  obtain rfl := Option.some.inj (hm.symm.trans hm')
  exact hne (Option.some.inj (hauthority.symm.trans hauthority'))

end TokenLedger

end CredMesh.Spl
