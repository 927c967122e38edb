import CredMesh.Spl.TokenRights

/-!
# Ledgers that differ in balances

Two states of the token program with the same mints and accounts, where some accounts hold less in
the second because of what they sent, and others more because of what they received. What is
accepted in the first state is accepted in the second, and moves the same amounts, as long as each
account it draws on can spare what it sent.
-/

namespace CredMesh.Spl

open Outcome AccountMap

/-- The second account is the first but for its balance, and for its delegate if tokens were sent
from it: a delegate that sends them uses up its allowance. -/
structure TokenAccount.Alike (touched : Prop) (account account' : TokenAccount) : Prop where
  mint : account'.mint = account.mint
  owner : account'.owner = account.owner
  isFrozen : account'.isFrozen = account.isFrozen
  closeAuthority : account'.closeAuthority = account.closeAuthority
  delegation : touched ∨
    account'.delegate = account.delegate ∧ account'.delegatedAmount = account.delegatedAmount

/-- The second ledger is the first with balances moved from senders to receivers. -/
structure Shifted (touched : Pubkey → Prop) (sent received : Pubkey → ℕ) (t t' : TokenLedger) :
    Prop where
  mints : t'.mints = t.mints
  accounts : ∀ address, Option.Rel (TokenAccount.Alike (touched address))
    (t.accounts.lookup address) (t'.accounts.lookup address)
  balance : ∀ address, t'.balance address + sent address = t.balance address + received address
  touched : ∀ address, sent address ≠ 0 → touched address
  balanced : Balanced t'

/-- If tokens were sent from the account, it can spare them: the authority may still take the amount
from it. -/
def Spares (touched : Pubkey → Prop) (address authority : Pubkey) (amount : ℕ)
    (t : TokenLedger) : Prop :=
  touched address → amount ≤ t.balance address ∧ t.Allows address authority amount

theorem Spares.mono {touched : Pubkey → Prop} {address authority : Pubkey} {amount less : ℕ}
    {t : TokenLedger} (h : Spares touched address authority amount t) (hle : less ≤ amount) :
    Spares touched address authority less t := by
  intro htouched
  obtain ⟨hfunds, hallowed⟩ := h htouched
  exact ⟨hle.trans hfunds, hallowed.mono hle⟩

/-- What a transfer leaves of an amount may be taken with the next one. -/
theorem Spares.transferChecked {touched : Pubkey → Prop}
    {source mint destination authority : Pubkey} {amount : UInt64} {decimals : UInt8}
    {t t' : TokenLedger} {more : ℕ}
    (h : Spares touched source authority (amount.toNat + more) t)
    (hop : Spl.transferChecked source mint destination authority amount decimals t = .ok t')
    (hmore : 0 < more) : Spares touched source authority more t' := by
  intro htouched
  obtain ⟨hfunds, hallowed⟩ := h htouched
  constructor
  · have hbalance := (transferChecked_flow hop).balance source
    simp only [Pi.single_eq_same] at hbalance
    omega
  · exact transferChecked_allows hop hallowed hmore

/-! ## Accounts that are alike -/

namespace TokenAccount

variable {touched : Prop} {account account' drawn drawn' : TokenAccount}
  {authority : Pubkey} {amount : UInt64}

theorem Alike.refl (touched : Prop) (account : TokenAccount) : Alike touched account account :=
  ⟨rfl, rfl, rfl, rfl, .inr ⟨rfl, rfl⟩⟩

theorem Alike.mono {touched' : Prop} (h : Alike touched account account')
    (htouched : touched → touched') : Alike touched' account account' :=
  ⟨h.mint, h.owner, h.isFrozen, h.closeAuthority, h.delegation.imp_left htouched⟩

theorem Alike.setAmount (h : Alike touched account account') (new new' : UInt64) :
    Alike touched { account with amount := new } { account' with amount := new' } :=
  ⟨h.mint, h.owner, h.isFrozen, h.closeAuthority, h.delegation⟩

/-- An account that nothing was sent from allows the same. -/
theorem Alike.allows_iff (h : Alike touched account account') (huntouched : ¬ touched)
    {amount : ℕ} : account'.Allows authority amount ↔ account.Allows authority amount := by
  obtain ⟨hdelegate, hdelegated⟩ := h.delegation.resolve_left huntouched
  rw [Allows, Allows, hdelegate, hdelegated, h.owner]

/-- The same draw leaves accounts alike. -/
theorem Alike.draw (h : Alike touched account account')
    (hdraw : account.draw authority amount = .ok drawn)
    (hdraw' : account'.draw authority amount = .ok drawn') : Alike touched drawn drawn' := by
  have hkeeps := (draw_keeps hdraw).1
  have hkeeps' := (draw_keeps hdraw').1
  refine ⟨?_, ?_, ?_, ?_, ?_⟩
  · rw [hkeeps'.mint, hkeeps.mint, h.mint]
  · rw [hkeeps'.owner, hkeeps.owner, h.owner]
  · rw [hkeeps'.isFrozen, hkeeps.isFrozen, h.isFrozen]
  · rw [hkeeps'.closeAuthority, hkeeps.closeAuthority, h.closeAuthority]
  · refine h.delegation.imp_right fun ⟨hdelegate, hdelegated⟩ ↦ ?_
    simp only [TokenAccount.draw, ite_eq_ok, bind_eq_ok, okOr_eq_ok, require_eq_ok, pure_eq_ok,
      UInt64.checkedSub_eq_some] at hdraw hdraw'
    rw [hdelegate, hdelegated] at hdraw'
    obtain ⟨hauthority, rest, hrest, rfl⟩ | ⟨hother, -, -, rfl⟩ := hdraw
    · obtain ⟨-, rest', hrest', rfl⟩ | ⟨hother, -⟩ := hdraw'
      · obtain rfl : rest = rest' := UInt64.toNat_inj.mp (by omega)
        exact ⟨rfl, rfl⟩
      · exact absurd hauthority hother
    · obtain ⟨hauthority, -⟩ | ⟨-, -, -, rfl⟩ := hdraw'
      · exact absurd hauthority hother
      · exact ⟨hdelegate, hdelegated⟩

/-- A draw on the second account alone is one of the tokens sent from it. -/
theorem Alike.donate (h : Alike touched account account')
    (hdraw' : account'.draw authority amount = .ok drawn') : Alike True account drawn' := by
  have hkeeps' := (draw_keeps hdraw').1
  refine ⟨?_, ?_, ?_, ?_, .inl trivial⟩
  · rw [hkeeps'.mint, h.mint]
  · rw [hkeeps'.owner, h.owner]
  · rw [hkeeps'.isFrozen, h.isFrozen]
  · rw [hkeeps'.closeAuthority, h.closeAuthority]

/-- A new authority makes the accounts as alike as they were. -/
theorem Alike.setAccountAuthority {authorityType : AuthorityType} {newAuthority : Option Pubkey}
    {changed : TokenAccount} (h : Alike touched account account')
    (hset : Spl.setAccountAuthority authorityType authority newAuthority account = .ok changed) :
    ∃ changed',
      Spl.setAccountAuthority authorityType authority newAuthority account' = .ok changed' ∧
      Alike touched changed changed' := by
  simp only [Spl.setAccountAuthority, bind_eq_ok, require_eq_ok] at hset ⊢
  obtain ⟨-, hthawed, hset⟩ := hset
  cases authorityType with
  | accountOwner =>
      simp only [bind_eq_ok, okOr_eq_ok, require_eq_ok, pure_eq_ok] at hset ⊢
      obtain ⟨-, howner, owner, hnew, rfl⟩ := hset
      exact ⟨_, ⟨(), h.isFrozen.trans hthawed, (), h.owner.trans howner, owner, hnew, rfl⟩,
        h.mint, rfl, h.isFrozen, h.closeAuthority, .inr ⟨rfl, rfl⟩⟩
  | closeAccount =>
      simp only [bind_eq_ok, require_eq_ok, pure_eq_ok] at hset ⊢
      obtain ⟨-, hclose, rfl⟩ := hset
      rw [← h.closeAuthority, ← h.owner] at hclose
      exact ⟨_, ⟨(), h.isFrozen.trans hthawed, (), hclose, rfl⟩, h.mint, h.owner, h.isFrozen, rfl,
        h.delegation⟩
  | mintTokens => cases hset
  | freezeAccount => cases hset

end TokenAccount

theorem accounts_setAccount {touched : Pubkey → Prop} {t t' : TokenLedger}
    {address : Pubkey} {account account' : TokenAccount}
    (h : ∀ other, Option.Rel (TokenAccount.Alike (touched other))
      (t.accounts.lookup other) (t'.accounts.lookup other))
    (halike : TokenAccount.Alike (touched address) account account')
    (other : Pubkey) :
    Option.Rel (TokenAccount.Alike (touched other))
      ((t.setAccount address account).accounts.lookup other)
      ((t'.setAccount address account').accounts.lookup other) := by
  rw [TokenLedger.setAccount, TokenLedger.setAccount, lookup_insert_eq, lookup_insert_eq]
  by_cases heq : other = address
  · rw [if_pos heq, if_pos heq, heq]
    exact .some halike
  · rw [if_neg heq, if_neg heq]
    exact h other

/-! ## Instructions on shifted ledgers -/

namespace Shifted

variable {touched : Pubkey → Prop} {sent received : Pubkey → ℕ} {t t' t₁ : TokenLedger}
  {address source mint destination authority owner : Pubkey} {amount : UInt64} {decimals : UInt8}
  {account : TokenAccount}

/-- An account of the first ledger, in the second. -/
theorem exists_account (h : Shifted touched sent received t t')
    (hfound : t.accounts.lookup address = some account) :
    ∃ account', t'.accounts.lookup address = some account' ∧
      TokenAccount.Alike (touched address) account account' := by
  have hrel := h.accounts address
  rw [hfound] at hrel
  cases hfound' : t'.accounts.lookup address with
  | none =>
      rw [hfound'] at hrel
      cases hrel
  | some account' =>
      rw [hfound'] at hrel
      obtain ⟨_⟩ := hrel
      exact ⟨account', rfl, ‹_›⟩

theorem lookup_eq_none (h : Shifted touched sent received t t') :
    t'.accounts.lookup address = none ↔ t.accounts.lookup address = none := by
  have hrel := h.accounts address
  cases hfound : t.accounts.lookup address with
  | none =>
      rw [hfound] at hrel
      cases hfound' : t'.accounts.lookup address with
      | none => simp
      | some account' =>
          rw [hfound'] at hrel
          cases hrel
  | some account =>
      obtain ⟨account', hfound', -⟩ := h.exists_account hfound
      simp [hfound']

/-- An account of the second ledger, in the first. -/
theorem exists_account_before (h : Shifted touched sent received t t') {account' : TokenAccount}
    (hfound' : t'.accounts.lookup address = some account') :
    ∃ account, t.accounts.lookup address = some account ∧
      TokenAccount.Alike (touched address) account account' := by
  cases hfound : t.accounts.lookup address with
  | none =>
      rw [h.lookup_eq_none.mpr hfound] at hfound'
      cases hfound'
  | some account =>
      obtain ⟨_, hsame, halike⟩ := h.exists_account hfound
      obtain rfl := Option.some.inj (hfound'.symm.trans hsame)
      exact ⟨account, rfl, halike⟩

theorem isAccount (h : Shifted touched sent received t t') :
    t'.IsAccount address mint owner ↔ t.IsAccount address mint owner := by
  constructor
  · rintro ⟨account', hfound', rfl, rfl⟩
    obtain ⟨account, hfound, halike⟩ := h.exists_account_before hfound'
    exact ⟨account, hfound, halike.mint.symm, halike.owner.symm⟩
  · rintro ⟨account, hfound, rfl, rfl⟩
    obtain ⟨account', hfound', halike⟩ := h.exists_account hfound
    exact ⟨account', hfound', halike.mint, halike.owner⟩

theorem isFrozen (h : Shifted touched sent received t t') :
    t'.IsFrozen address ↔ t.IsFrozen address := by
  constructor
  · rintro ⟨account', hfound', hfrozen⟩
    obtain ⟨account, hfound, halike⟩ := h.exists_account_before hfound'
    exact ⟨account, hfound, halike.isFrozen.symm.trans hfrozen⟩
  · rintro ⟨account, hfound, hfrozen⟩
    obtain ⟨account', hfound', halike⟩ := h.exists_account hfound
    exact ⟨account', hfound', halike.isFrozen.trans hfrozen⟩

/-- An account that was ready for a draw still is, if it can spare what it sent. -/
theorem drawReady (h : Shifted touched sent received t t')
    (hready : DrawReady t source mint authority amount)
    (hspare : Spares touched source authority amount.toNat t') :
    DrawReady t' source mint authority amount := by
  constructor
  case funds =>
    by_cases htouched : touched source
    · exact (hspare htouched).1
    · have hsent : sent source = 0 := by
        by_contra hsent
        exact htouched (h.touched source hsent)
      have hbalance := h.balance source
      have hfunds := hready.funds
      omega
  case allowed =>
    by_cases htouched : touched source
    · exact (hspare htouched).2
    · obtain ⟨account, hfound, hallowed⟩ := hready.allowed
      obtain ⟨account', hfound', halike⟩ := h.exists_account hfound
      exact ⟨account', hfound', (halike.allows_iff htouched).mpr hallowed⟩
  case thawed =>
    rw [h.isFrozen]
    exact hready.thawed
  case source =>
    obtain ⟨owner, hsource⟩ := hready.source
    exact ⟨owner, h.isAccount.mpr hsource⟩

/-- An account that its owner holds alone, and that nothing was sent from, can spare what it
holds. -/
theorem spares_of_heldAlone (h : Shifted touched sent received t t')
    (hheld : t'.HeldAlone address mint owner) (hsent : sent address = 0) {amount : ℕ}
    (hfunds : amount ≤ t.balance address) : Spares touched address owner amount t' := by
  intro _
  have hbalance := h.balance address
  exact ⟨by omega, hheld.allows amount⟩

/-- The same movement in both ledgers keeps the difference between them. -/
theorem moves (h : Shifted touched sent received t t') {t₁' : TokenLedger}
    {debit credit minted burned : Pubkey → ℕ} (hmoves : Moves t t₁ debit credit minted burned)
    (hmoves' : Moves t' t₁' debit credit minted burned) (hmints : t₁'.mints = t₁.mints)
    (haccounts : ∀ address, Option.Rel (TokenAccount.Alike (touched address))
      (t₁.accounts.lookup address) (t₁'.accounts.lookup address)) :
    Shifted touched sent received t₁ t₁' where
  mints := hmints
  accounts := haccounts
  balance address := by
    have hbefore := h.balance address
    have hfirst := hmoves.balance address
    have hsecond := hmoves'.balance address
    omega
  touched := h.touched
  balanced := h.balanced.moves hmoves'

theorem transferChecked (h : Shifted touched sent received t t')
    (hop : Spl.transferChecked source mint destination authority amount decimals t = .ok t₁)
    (hspare : Spares touched source authority amount.toNat t') :
    ∃ t₁', Spl.transferChecked source mint destination authority amount decimals t' = .ok t₁' ∧
      Shifted touched sent received t₁ t₁' := by
  have hready := transferChecked_ready hop
  obtain ⟨owner, hdestination⟩ := hready.destination
  obtain ⟨mintState, hmint, hdecimals⟩ : ∃ mintState, t.mints.lookup mint = some mintState ∧
      decimals = mintState.decimals := by
    simp only [Spl.transferChecked, TokenLedger.mint, bind_eq_ok, okOr_eq_ok, require_eq_ok] at hop
    obtain ⟨_, -, _, -, -, -, -, -, -, -, -, -, mintState, hmint, -, hdecimals, -⟩ := hop
    exact ⟨mintState, hmint, hdecimals⟩
  have hthawed : ¬ t'.IsFrozen destination := by
    rw [h.isFrozen]
    exact hready.destinationThawed
  obtain ⟨t₁', hop'⟩ := exists_transferChecked h.balanced
    ⟨h.drawReady hready.toDrawReady hspare, hthawed, owner, h.isAccount.mpr hdestination⟩
    ((congrArg _ h.mints).trans hmint)
  rw [← hdecimals] at hop'
  refine ⟨t₁', hop', h.moves (transferChecked_flow hop).toMoves (transferChecked_flow hop').toMoves
    ?_ ?_⟩
  · rw [transferChecked_mints hop', h.mints, transferChecked_mints hop]
  · obtain ⟨hsame, rfl⟩ | ⟨hne, src, dst, drawn, out, inn, hsrc, hdst, hdrawn, rfl⟩ :=
      transferChecked_writes hop
    · obtain ⟨-, rfl⟩ | ⟨hne, -⟩ := transferChecked_writes hop'
      · exact h.accounts
      · exact absurd hsame hne
    · obtain ⟨hsame, -⟩ | ⟨-, src', dst', drawn', out', inn', hsrc', hdst', hdrawn', rfl⟩ :=
        transferChecked_writes hop'
      · exact absurd hsame hne
      · obtain ⟨_, hsame, hsource⟩ := h.exists_account hsrc
        obtain rfl := Option.some.inj (hsrc'.symm.trans hsame)
        obtain ⟨_, hsame, hreceiver⟩ := h.exists_account hdst
        obtain rfl := Option.some.inj (hdst'.symm.trans hsame)
        exact accounts_setAccount
          (accounts_setAccount h.accounts ((hsource.draw hdrawn hdrawn').setAmount out out'))
          (hreceiver.setAmount inn inn')

theorem mintTo (h : Shifted touched sent received t t')
    (hop : Spl.mintTo mint destination authority amount t = .ok t₁) :
    ∃ t₁', Spl.mintTo mint destination authority amount t' = .ok t₁' ∧
      Shifted touched sent received t₁ t₁' := by
  obtain ⟨-, -, hflow⟩ := mintTo_flow hop
  simp only [Spl.mintTo, TokenLedger.account, TokenLedger.mint, bind_eq_ok, okOr_eq_ok,
    require_eq_ok, pure_eq_ok, UInt64.checkedAdd_eq_some] at hop
  obtain ⟨dst, hdst, -, hthawed, -, hmint, m, hm, mintAuthority, hissues, -, hauthority, inn, -,
    supply, hsupply, rfl⟩ := hop
  obtain ⟨dst', hdst', halike⟩ := h.exists_account hdst
  have hm' : t'.mints.lookup mint = some m := by rw [h.mints, hm]
  -- an account holds at most the supply, so it can take what the supply can
  have hheld : dst'.amount.toNat ≤ m.supply.toNat := by
    have haccount : t'.IsAccount destination mint dst.owner :=
      ⟨dst', hdst', halike.mint.trans hmint, halike.owner⟩
    have hle := haccount.balance_le_holdings
    rwa [h.balanced mint, TokenLedger.balance_of_lookup hdst', TokenLedger.supply_of_lookup hm']
      at hle
  have hlt := supply.toNat_lt
  obtain ⟨inn', hinn'⟩ : ∃ c : UInt64, c.toNat = dst'.amount.toNat + amount.toNat :=
    UInt64.exists_toNat_eq (by omega)
  have hop' : Spl.mintTo mint destination authority amount t' =
      .ok ((t'.setAmount destination dst' inn').setSupply mint m supply) := by
    simp only [Spl.mintTo, TokenLedger.account, TokenLedger.mint, bind_eq_ok, okOr_eq_ok,
      require_eq_ok, pure_eq_ok, UInt64.checkedAdd_eq_some]
    exact ⟨dst', hdst', (), halike.isFrozen.trans hthawed, (), halike.mint.trans hmint, m, hm',
      mintAuthority, hissues, (), hauthority, inn', hinn', supply, hsupply, rfl⟩
  refine ⟨_, hop', h.moves hflow.toMoves (mintTo_flow hop').2.2.toMoves ?_ ?_⟩
  · exact congrArg (fun mints ↦ mints.insert mint { m with supply }) h.mints
  · exact accounts_setAccount h.accounts (halike.setAmount inn inn')

theorem burn (h : Shifted touched sent received t t')
    (hop : Spl.burn source mint authority amount t = .ok t₁)
    (hspare : Spares touched source authority amount.toNat t') :
    ∃ t₁', Spl.burn source mint authority amount t' = .ok t₁' ∧
      Shifted touched sent received t₁ t₁' := by
  have hflow := burn_flow hop
  have hready := burn_ready hop
  obtain ⟨src, m, drawn, out, supply, hsrc, hm, hdrawn, hsupply, rfl⟩ := burn_writes hop
  have hm' : t'.mints.lookup mint = some m := by rw [h.mints, hm]
  obtain ⟨t₁', hop'⟩ := exists_burn h.balanced (h.drawReady hready hspare) hm'
  refine ⟨t₁', hop', h.moves hflow.toMoves (burn_flow hop').toMoves ?_ ?_⟩
  all_goals
    obtain ⟨src', m', drawn', out', supply', hsrc', hm'', hdrawn', hsupply', rfl⟩ :=
      burn_writes hop'
  · obtain rfl := Option.some.inj (hm'.symm.trans hm'')
    obtain rfl : supply = supply' := UInt64.toNat_inj.mp (by omega)
    exact congrArg (fun mints ↦ mints.insert mint { m with supply }) h.mints
  · obtain ⟨_, hsame, halike⟩ := h.exists_account hsrc
    obtain rfl := Option.some.inj (hsrc'.symm.trans hsame)
    exact accounts_setAccount h.accounts ((halike.draw hdrawn hdrawn').setAmount out out')

theorem initializeAccount (h : Shifted touched sent received t t')
    (hop : Spl.initializeAccount address mint owner t = .ok t₁) :
    ∃ t₁', Spl.initializeAccount address mint owner t' = .ok t₁' ∧
      Shifted touched sent received t₁ t₁' := by
  obtain ⟨-, -, hflow⟩ := initializeAccount_flow hop
  simp only [Spl.initializeAccount, TokenLedger.mint, bind_eq_ok, okOr_eq_ok, require_eq_ok,
    pure_eq_ok] at hop
  obtain ⟨-, hunminted, -, hfresh, m, hm, rfl⟩ := hop
  have hop' : Spl.initializeAccount address mint owner t' =
      .ok (t'.setAccount address (.opened mint owner)) := by
    simp only [Spl.initializeAccount, TokenLedger.mint, bind_eq_ok, okOr_eq_ok, require_eq_ok,
      pure_eq_ok, h.mints]
    exact ⟨(), hunminted, (), h.lookup_eq_none.mpr hfresh, m, hm, trivial⟩
  obtain ⟨-, -, hflow'⟩ := initializeAccount_flow hop'
  exact ⟨_, hop', h.moves hflow.toMoves hflow'.toMoves h.mints
    (accounts_setAccount h.accounts (.refl _ _))⟩

theorem initializeMint {freezeAuthority : Option Pubkey} (h : Shifted touched sent received t t')
    (hop : Spl.initializeMint address authority freezeAuthority decimals t = .ok t₁) :
    ∃ t₁', Spl.initializeMint address authority freezeAuthority decimals t' = .ok t₁' ∧
      Shifted touched sent received t₁ t₁' := by
  obtain ⟨-, -, hflow⟩ := initializeMint_flow hop
  simp only [Spl.initializeMint, bind_eq_ok, require_eq_ok, pure_eq_ok] at hop
  obtain ⟨-, hfresh, -, hunused, rfl⟩ := hop
  have hop' : Spl.initializeMint address authority freezeAuthority decimals t' =
      .ok (t'.setMint address ⟨some authority, 0, decimals, freezeAuthority⟩) := by
    simp only [Spl.initializeMint, bind_eq_ok, require_eq_ok, pure_eq_ok, h.mints]
    exact ⟨(), hfresh, (), h.lookup_eq_none.mpr hunused, trivial⟩
  obtain ⟨-, -, hflow'⟩ := initializeMint_flow hop'
  refine ⟨_, hop', h.moves hflow.toMoves hflow'.toMoves ?_ h.accounts⟩
  exact congrArg (fun mints ↦ mints.insert address ⟨some authority, 0, decimals, freezeAuthority⟩)
    h.mints

theorem asOwner {change : TokenAccount → TokenAccount} (h : Shifted touched sent received t t')
    (hop : Spl.asOwner address owner change t = .ok t₁)
    (hmint : ∀ account, (change account).mint = account.mint)
    (hamount : ∀ account, (change account).amount = account.amount)
    (hfrozen : ∀ account, (change account).isFrozen = account.isFrozen)
    (halike : ∀ account account',
      TokenAccount.Alike (touched address) account account' →
        TokenAccount.Alike (touched address) (change account) (change account')) :
    ∃ t₁', Spl.asOwner address owner change t' = .ok t₁' ∧
      Shifted touched sent received t₁ t₁' := by
  have hmoves := (asOwner_regrants hop hmint hamount hfrozen).moves
  simp only [Spl.asOwner, TokenLedger.account, bind_eq_ok, okOr_eq_ok, require_eq_ok,
    pure_eq_ok] at hop
  obtain ⟨account, hfound, -, hthawed, -, howner, rfl⟩ := hop
  obtain ⟨account', hfound', hsame⟩ := h.exists_account hfound
  have hop' : Spl.asOwner address owner change t' =
      .ok (t'.setAccount address (change account')) := by
    simp only [Spl.asOwner, TokenLedger.account, bind_eq_ok, okOr_eq_ok, require_eq_ok, pure_eq_ok]
    exact ⟨account', hfound', (), hsame.isFrozen.trans hthawed, (), hsame.owner.trans howner, rfl⟩
  exact ⟨_, hop', h.moves hmoves (asOwner_regrants hop' hmint hamount hfrozen).moves h.mints
    (accounts_setAccount h.accounts (halike account account' hsame))⟩

theorem approve {delegate : Pubkey} (h : Shifted touched sent received t t')
    (hop : Spl.approve address delegate owner amount t = .ok t₁) :
    ∃ t₁', Spl.approve address delegate owner amount t' = .ok t₁' ∧
      Shifted touched sent received t₁ t₁' :=
  h.asOwner hop (fun _ ↦ rfl) (fun _ ↦ rfl) (fun _ ↦ rfl) fun _ _ halike ↦
    ⟨halike.mint, halike.owner, halike.isFrozen, halike.closeAuthority, .inr ⟨rfl, rfl⟩⟩

theorem revoke (h : Shifted touched sent received t t')
    (hop : Spl.revoke address owner t = .ok t₁) :
    ∃ t₁', Spl.revoke address owner t' = .ok t₁' ∧ Shifted touched sent received t₁ t₁' :=
  h.asOwner hop (fun _ ↦ rfl) (fun _ ↦ rfl) (fun _ ↦ rfl) fun _ _ halike ↦
    ⟨halike.mint, halike.owner, halike.isFrozen, halike.closeAuthority, .inr ⟨rfl, rfl⟩⟩

theorem setAuthority {authorityType : AuthorityType} {newAuthority : Option Pubkey}
    (h : Shifted touched sent received t t')
    (hop : Spl.setAuthority address authorityType authority newAuthority t = .ok t₁) :
    ∃ t₁', Spl.setAuthority address authorityType authority newAuthority t' = .ok t₁' ∧
      Shifted touched sent received t₁ t₁' := by
  have hmoves := (setAuthority_regrants hop).moves
  cases hfound : t.accounts.lookup address with
  | some account =>
      simp only [Spl.setAuthority, hfound, bind_eq_ok, pure_eq_ok] at hop
      obtain ⟨changed, hset, rfl⟩ := hop
      obtain ⟨account', hfound', halike⟩ := h.exists_account hfound
      obtain ⟨changed', hset', hchanged⟩ := halike.setAccountAuthority hset
      have hop' : Spl.setAuthority address authorityType authority newAuthority t' =
          .ok (t'.setAccount address changed') := by
        simp only [Spl.setAuthority, hfound', bind_eq_ok, pure_eq_ok]
        exact ⟨changed', hset', rfl⟩
      exact ⟨_, hop', h.moves hmoves (setAuthority_regrants hop').moves h.mints
        (accounts_setAccount h.accounts hchanged)⟩
  | none =>
      simp only [Spl.setAuthority, hfound, TokenLedger.mint, bind_eq_ok, okOr_eq_ok,
        pure_eq_ok] at hop
      obtain ⟨mintState, hm, changed, hset, rfl⟩ := hop
      have hop' : Spl.setAuthority address authorityType authority newAuthority t' =
          .ok (t'.setMint address changed) := by
        simp only [Spl.setAuthority, h.lookup_eq_none.mpr hfound, TokenLedger.mint, bind_eq_ok,
          okOr_eq_ok, pure_eq_ok, h.mints]
        exact ⟨mintState, hm, changed, hset, rfl⟩
      refine ⟨_, hop', h.moves hmoves (setAuthority_regrants hop').moves ?_ h.accounts⟩
      exact congrArg (fun mints ↦ mints.insert address changed) h.mints

/-- An account that is empty in the first ledger is empty in the second, unless it has received
something. -/
theorem closeAccount (h : Shifted touched sent received t t')
    (hop : Spl.closeAccount address authority t = .ok t₁) (hreceived : received address = 0) :
    ∃ t₁', Spl.closeAccount address authority t' = .ok t₁' ∧
      Shifted touched sent received t₁ t₁' := by
  have hmoves := (closeAccount_regrants hop).2.moves
  simp only [Spl.closeAccount, TokenLedger.account, bind_eq_ok, okOr_eq_ok, require_eq_ok,
    pure_eq_ok] at hop
  obtain ⟨account, hfound, -, hempty, -, hclose, rfl⟩ := hop
  obtain ⟨account', hfound', halike⟩ := h.exists_account hfound
  have hempty' : account'.amount = 0 := by
    have hbalance := h.balance address
    rw [TokenLedger.balance_of_lookup hfound, TokenLedger.balance_of_lookup hfound', hempty,
      hreceived, UInt64.toNat_zero] at hbalance
    exact UInt64.toNat_inj.mp (by rw [UInt64.toNat_zero]; omega)
  rw [← halike.closeAuthority, ← halike.owner] at hclose
  have hop' : Spl.closeAccount address authority t' =
      .ok { t' with accounts := t'.accounts.erase address } := by
    simp only [Spl.closeAccount, TokenLedger.account, bind_eq_ok, okOr_eq_ok, require_eq_ok,
      pure_eq_ok]
    exact ⟨account', hfound', (), hempty', (), hclose, trivial⟩
  refine ⟨_, hop', h.moves hmoves (closeAccount_regrants hop').2.moves h.mints fun other ↦ ?_⟩
  rw [lookup_erase_eq, lookup_erase_eq]
  split
  case isTrue => exact .none
  case isFalse => exact h.accounts other

theorem toggleFreezeAccount {freeze : Bool} (h : Shifted touched sent received t t')
    (hop : Spl.toggleFreezeAccount freeze address mint authority t = .ok t₁) :
    ∃ t₁', Spl.toggleFreezeAccount freeze address mint authority t' = .ok t₁' ∧
      Shifted touched sent received t₁ t₁' := by
  have hmoves := (toggleFreezeAccount_regrants hop).moves
  simp only [Spl.toggleFreezeAccount, TokenLedger.account, TokenLedger.mint, bind_eq_ok,
    okOr_eq_ok, require_eq_ok, pure_eq_ok] at hop
  obtain ⟨account, hfound, -, hstate, -, hmint, m, hm, freezeAuthority, hfreeze, -, hauthority,
    rfl⟩ := hop
  obtain ⟨account', hfound', halike⟩ := h.exists_account hfound
  rw [← halike.isFrozen] at hstate
  have hop' : Spl.toggleFreezeAccount freeze address mint authority t' =
      .ok (t'.setAccount address { account' with isFrozen := freeze }) := by
    simp only [Spl.toggleFreezeAccount, TokenLedger.account, TokenLedger.mint, bind_eq_ok,
      okOr_eq_ok, require_eq_ok, pure_eq_ok, h.mints]
    exact ⟨account', hfound', (), hstate, (), halike.mint.trans hmint, m, hm, freezeAuthority,
      hfreeze, (), hauthority, rfl⟩
  exact ⟨_, hop', h.moves hmoves (toggleFreezeAccount_regrants hop').moves h.mints
    (accounts_setAccount h.accounts
      ⟨halike.mint, halike.owner, rfl, halike.closeAuthority, halike.delegation⟩)⟩

/-- A transfer in the second ledger alone adds to the difference. -/
theorem donate (h : Shifted touched sent received t t')
    (hop : Spl.transferChecked source mint destination authority amount decimals t' = .ok t₁) :
    Shifted (fun address ↦ touched address ∨ address = source)
      (sent + Pi.single source amount.toNat) (received + Pi.single destination amount.toNat)
      t t₁ := by
  have hmono (address : Pubkey) :
      Option.Rel (TokenAccount.Alike (touched address ∨ address = source))
        (t.accounts.lookup address) (t'.accounts.lookup address) := by
    cases hfound : t.accounts.lookup address with
    | none =>
        rw [h.lookup_eq_none.mpr hfound]
        exact .none
    | some account =>
        obtain ⟨account', hfound', halike⟩ := h.exists_account hfound
        rw [hfound']
        exact .some (halike.mono .inl)
  constructor
  case mints => exact (transferChecked_mints hop).trans h.mints
  case accounts =>
    obtain ⟨-, rfl⟩ | ⟨hne, src', dst', drawn', out', inn', hsrc', hdst', hdrawn', rfl⟩ :=
      transferChecked_writes hop
    · exact hmono
    · intro address
      obtain ⟨src, hsrc, hsource⟩ := h.exists_account_before hsrc'
      obtain ⟨dst, hdst, hreceiver⟩ := h.exists_account_before hdst'
      simp only [TokenLedger.setAmount, TokenLedger.setAccount, lookup_insert_eq]
      split
      case isTrue hdestination =>
        rw [hdestination, hdst]
        exact .some ((hreceiver.mono .inl).setAmount dst.amount inn')
      case isFalse =>
        split
        case isTrue hsource' =>
          rw [hsource', hsrc]
          exact .some (((hsource.donate hdrawn').mono fun _ ↦ .inr rfl).setAmount
            src.amount out')
        case isFalse => exact hmono address
  case balance =>
    intro address
    have hbefore := h.balance address
    have hmoved := (transferChecked_flow hop).balance address
    simp only [Pi.add_apply]
    omega
  case touched =>
    intro address hsent
    by_cases hsource : address = source
    · exact .inr hsource
    · rw [Pi.add_apply, Pi.single_eq_of_ne hsource, add_zero] at hsent
      exact .inl (h.touched address hsent)
  case balanced => exact h.balanced.moves (transferChecked_flow hop).toMoves

end Shifted

/-! ## What an owner leaves of its accounts -/

/-- An account apart from what it holds, once its owner has taken so much of it. An owner that is
its own delegate uses up its allowance. -/
def TokenAccount.after (account : TokenAccount) (taken : ℕ) : TokenAccount :=
  if account.delegate = some account.owner ∧ 0 < taken then
    { account with
      amount := 0
      delegate := if account.delegatedAmount.toNat ≤ taken then none else account.delegate
      delegatedAmount := .ofNat (account.delegatedAmount.toNat - taken) }
  else { account with amount := 0 }

def TokenLedger.after (t : TokenLedger) (taken : Pubkey → ℕ) (address : Pubkey) :
    Option TokenAccount :=
  (t.accounts.lookup address).map fun account ↦ account.after (taken address)

/-- Draws of the owner add up. -/
theorem TokenAccount.draw_after {account drawn : TokenAccount} {amount : UInt64}
    (h : account.draw account.owner amount = .ok drawn) (hpositive : 0 < amount.toNat) (more : ℕ) :
    drawn.after more = account.after (amount.toNat + more) := by
  simp only [draw, ite_eq_ok, bind_eq_ok, okOr_eq_ok, require_eq_ok, pure_eq_ok,
    UInt64.checkedSub_eq_some] at h
  obtain ⟨hdelegate, rest, hrest, rfl⟩ | ⟨hother, -, -, rfl⟩ := h
  · have hwhole : account.after (amount.toNat + more) = { account with
        amount := 0
        delegate := if account.delegatedAmount.toNat ≤ amount.toNat + more then none
          else account.delegate
        delegatedAmount := .ofNat (account.delegatedAmount.toNat - (amount.toNat + more)) } :=
      if_pos ⟨hdelegate, Nat.add_pos_left hpositive more⟩
    have hremaining :
        account.delegatedAmount.toNat - (amount.toNat + more) = rest.toNat - more := by
      omega
    rw [hwhole, hremaining]
    by_cases hempty : rest = 0
    · obtain rfl := hempty
      rw [UInt64.toNat_zero] at hrest ⊢
      rw [after, if_neg (by simp), if_pos rfl, if_pos (by omega), Nat.zero_sub]
      rfl
    · have hleft : rest.toNat ≠ 0 := fun hzero ↦ hempty (UInt64.toNat_inj.mp hzero)
      rw [if_neg hempty, after]
      by_cases hmore : 0 < more
      · rw [if_pos ⟨hdelegate, hmore⟩]
        dsimp only
        rw [if_congr (by omega : rest.toNat ≤ more ↔
          account.delegatedAmount.toNat ≤ amount.toNat + more) rfl rfl]
      · obtain rfl : more = 0 := by omega
        rw [if_neg (fun hand ↦ hmore hand.2), if_neg (by omega), Nat.sub_zero, UInt64.ofNat_toNat]
  · rw [after, after, if_neg (fun hand ↦ hother hand.1), if_neg (fun hand ↦ hother hand.1)]

theorem TokenAccount.after_zero (account : TokenAccount) :
    account.after 0 = { account with amount := 0 } :=
  if_neg fun hand ↦ lt_irrefl 0 hand.2

theorem transferChecked_after {t t' : TokenLedger} {source mint destination owner : Pubkey}
    {amount : UInt64} {decimals : UInt8}
    (h : transferChecked source mint destination owner amount decimals t = .ok t')
    (hsource : t.IsAccount source mint owner) (hpositive : 0 < amount.toNat)
    (more : Pubkey → ℕ) :
    t'.after more =
      t.after ((if source = destination then 0 else Pi.single source amount.toNat) + more) := by
  obtain ⟨hsame, rfl⟩ | ⟨hne, src, dst, drawn, out, inn, hsrc, hdst, hdraw, rfl⟩ :=
    transferChecked_writes h
  · rw [if_pos hsame, zero_add]
  · obtain ⟨found, hfound, -, rfl⟩ := hsource
    obtain rfl := Option.some.inj (hsrc.symm.trans hfound)
    rw [if_neg hne]
    funext address
    simp only [TokenLedger.after, TokenLedger.setAmount, TokenLedger.setAccount, lookup_insert_eq,
      Pi.add_apply]
    by_cases hdestination : address = destination
    · rw [if_pos hdestination, hdestination, hdst, Pi.single_eq_of_ne hne.symm, zero_add,
        Option.map_some, Option.map_some]
      rfl
    · rw [if_neg hdestination]
      by_cases hsource' : address = source
      · rw [if_pos hsource', hsource', hsrc, Pi.single_eq_same, Option.map_some, Option.map_some,
          ← TokenAccount.draw_after hdraw hpositive]
        rfl
      · rw [if_neg hsource', Pi.single_eq_of_ne hsource', zero_add]

/-- A ledger is given by its mints and by its accounts apart from what they hold, and by that. -/
theorem TokenLedger.eq_of_balance {t t' : TokenLedger} (hmints : t'.mints = t.mints)
    (hafter : t'.after 0 = t.after 0)
    (hbalance : ∀ address, t'.balance address = t.balance address) : t' = t := by
  have haccounts : t'.accounts = t.accounts := by
    apply Finmap.ext_lookup
    intro address
    have hrest := congrFun hafter address
    have hheld := hbalance address
    simp only [after, Pi.zero_apply, TokenAccount.after_zero] at hrest
    cases hfound' : t'.accounts.lookup address with
    | none =>
        rw [hfound', Option.map_none, eq_comm, Option.map_eq_none_iff] at hrest
        exact hrest.symm
    | some account' =>
        rw [hfound', Option.map_some, eq_comm, Option.map_eq_some_iff] at hrest
        obtain ⟨account, hfound, hrest⟩ := hrest
        rw [balance_of_lookup hfound', balance_of_lookup hfound, UInt64.toNat_inj] at hheld
        rw [hfound]
        cases account
        cases account'
        simp_all
  cases t
  cases t'
  simp_all

end CredMesh.Spl
