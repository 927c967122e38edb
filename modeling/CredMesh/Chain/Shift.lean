import CredMesh.Chain.Custody
import CredMesh.Spl.BalanceShift

/-!
# Chains that differ in balances

What an instruction reads of token balances only decides whether it is accepted: no balance is
stored or computed with. So on a chain that differs in balances alone it is accepted as well, with
the same effect on everything else, as long as each account that it draws on can spare what it sent.
The vault of a pool never sends anything.
-/

namespace CredMesh

open Outcome Escrow Spl

/-- What an instruction takes from a token account of its signer, if it takes anything. -/
def PoolInstruction.drawn (env : Env) (s : PoolState) (account : Pubkey) :
    PoolInstruction → Option ℕ
  | deposit accounts amount => if account = accounts.lpUsdcAta then some amount.toNat else none
  | withdraw accounts shares => if account = accounts.lpShareAta then some shares.toNat else none
  | claimAndSettle accounts paymentAmount =>
      if account = accounts.agentUsdcAta then do
        let advance ← s.advances.lookup accounts.advance.key
        let split ← (waterfall advance env.now paymentAmount).toOption
        let paid := split.protocolCut.toNat + split.lpCut.toNat
        if paid = 0 then none else some paid
      else none
  | _ => none

def TokenInstruction.drawn (account : Pubkey) : TokenInstruction → Option ℕ
  | transfer source _ _ _ amount _ => if account = source then some amount.toNat else none
  | burn source _ _ amount => if account = source then some amount.toNat else none
  | _ => none

/-- Who takes something from a token account with an input, and how much. -/
def Chain.drawn (s : Chain) (input : Input) (account : Pubkey) : Option (Pubkey × ℕ) :=
  match input.action with
  | .pool ix => do
      let ps ← s.pools.lookup ix.pool
      let amount ← ix.drawn input.env ps account
      some (ix.signer, amount)
  | .token ix => do
      let amount ← ix.drawn account
      some (ix.signer, amount)
  | _ => none

section Handlers

variable {rt : Runtime} {env : Env} {r : Registry.RegistryState}
  {touched : Pubkey → Prop} {sent received : Pubkey → ℕ} {s : PoolState} {t t' : TokenLedger}
  {effect : Effect}

/-- The result on the second ledger has the same effect, up to the ledger. -/
def Mirrors (touched : Pubkey → Prop) (sent received : Pubkey → ℕ) (effect : Effect)
    (result : Except Error Effect) : Prop :=
  ∃ tokens, result = .ok { effect with tokens } ∧ Shifted touched sent received effect.tokens tokens

theorem tryAccounts_shifted {accounts : Deposit} {pool : Pool} {vault : TokenAccount} {mint : Mint}
    (hshifted : Shifted touched sent received t t')
    (h : accounts.tryAccounts pool t = .ok (vault, mint)) :
    ∃ vault', accounts.tryAccounts pool t' = .ok (vault', mint) ∧
      t.balance pool.usdcVault = vault.amount.toNat ∧
      t'.balance pool.usdcVault = vault'.amount.toNat := by
  rw [Deposit.tryAccounts_eq_ok] at h
  obtain ⟨hready, hvault, hshare, husdc⟩ := h
  obtain ⟨vault', hvault', -⟩ := hshifted.exists_account hvault
  rw [← hshifted.mints] at hshare husdc
  refine ⟨vault', Deposit.tryAccounts_eq_ok.mpr ⟨⟨hready.vault, hready.shareMint, hready.usdcMint,
    hshifted.isAccount.mpr hready.lpUsdc, hshifted.isAccount.mpr hready.lpShare⟩, hvault', hshare,
    husdc⟩, ?_⟩
  rw [← hready.vault]
  exact ⟨TokenLedger.balance_of_lookup hvault, TokenLedger.balance_of_lookup hvault'⟩

theorem deposit_shifted {accounts : Deposit} {amount : UInt64}
    (hshifted : Shifted touched sent received t t') (h : deposit accounts amount s t = .ok effect)
    (hspare : Spares touched accounts.lpUsdcAta accounts.lp amount.toNat t') :
    Mirrors touched sent received effect (deposit accounts amount s t') := by
  obtain ⟨_, mint, shares, t₁, haccounts, hbuys, htransfer, hmint⟩ := deposit_eq_ok.mp h
  obtain ⟨vault', haccounts', -⟩ := tryAccounts_shifted hshifted haccounts
  obtain ⟨t₁', htransfer', hshifted₁⟩ := hshifted.transferChecked htransfer hspare
  obtain ⟨t₂', hmint', hshifted₂⟩ := hshifted₁.mintTo hmint
  exact ⟨t₂', deposit_eq_ok.mpr ⟨vault', mint, shares, t₁', haccounts', hbuys, htransfer', hmint'⟩,
    hshifted₂⟩

/-- The gate on the vault is passed with more in it. -/
theorem withdraw_shifted {accounts : Withdraw} {shares : UInt64}
    (hshifted : Shifted touched sent received t t') (h : withdraw accounts shares s t = .ok effect)
    (hvault : sent s.pool.usdcVault = 0)
    (hheld : t'.HeldAlone s.pool.usdcVault s.pool.assetMint accounts.pool)
    (hspare : Spares touched accounts.lpShareAta accounts.lp shares.toNat t') :
    Mirrors touched sent received effect (withdraw accounts shares s t') := by
  obtain ⟨vault, mint, assets, t₁, haccounts, hredeems, hliquid, hburn, htransfer⟩ :=
    withdraw_eq_ok.mp h
  have hready := (Deposit.tryAccounts_eq_ok.mp haccounts).1
  obtain ⟨vault', haccounts', hbalance, hbalance'⟩ := tryAccounts_shifted hshifted haccounts
  have hgrown := hshifted.balance s.pool.usdcVault
  have hliquid' : assets ≤ vault'.amount := by
    rw [UInt64.le_iff_toNat_le] at hliquid ⊢
    omega
  obtain ⟨t₁', hburn', hshifted₁⟩ := hshifted.burn hburn hspare
  have hkept : Spares touched accounts.usdcVault accounts.pool assets.toNat t₁' := by
    have hfunds := (transferChecked_ready htransfer).funds
    rw [hready.vault] at hfunds ⊢
    exact hshifted₁.spares_of_heldAlone ((burn_flow hburn').persists.heldAlone hheld) hvault hfunds
  obtain ⟨t₂', htransfer', hshifted₂⟩ := hshifted₁.transferChecked htransfer hkept
  exact ⟨t₂', withdraw_eq_ok.mpr ⟨vault', mint, assets, t₁', haccounts', hredeems, hliquid', hburn',
    htransfer'⟩, hshifted₂⟩

theorem initAssociatedTokenAccount_shifted {address wallet mint : Pubkey} {t₁ : TokenLedger}
    (hshifted : Shifted touched sent received t t')
    (h : initAssociatedTokenAccount rt address wallet mint t = .ok t₁) :
    ∃ t₁', initAssociatedTokenAccount rt address wallet mint t' = .ok t₁' ∧
      Shifted touched sent received t₁ t₁' := by
  simp only [initAssociatedTokenAccount, bind_eq_ok, require_eq_ok] at h ⊢
  obtain ⟨-, haddress, h⟩ := h
  cases hfound : t.accounts.lookup address with
  | some account =>
      simp only [hfound, bind_eq_ok, require_eq_ok, pure_eq_ok] at h
      obtain ⟨-, hmint, -, howner, rfl⟩ := h
      obtain ⟨account', hfound', halike⟩ := hshifted.exists_account hfound
      simp only [hfound', bind_eq_ok, require_eq_ok, pure_eq_ok]
      exact ⟨t', ⟨(), haddress, (), halike.mint.trans hmint, (), halike.owner.trans howner, rfl⟩,
        hshifted⟩
  | none =>
      simp only [hfound, mapError_eq_ok] at h
      obtain ⟨t₁', h', hshifted₁⟩ := hshifted.initializeAccount h
      simp only [hshifted.lookup_eq_none.mpr hfound, mapError_eq_ok]
      exact ⟨t₁', ⟨(), haddress, h'⟩, hshifted₁⟩

/-- Balances play no part in the account constraints. -/
theorem Escrow.Opens.shifted {accounts : RequestAdvance} {receivableId : Bytes 32} {mint : Mint}
    {t₁ : TokenLedger} (h : Opens rt accounts receivableId s t mint t₁)
    (hshifted : Shifted touched sent received t t') :
    ∃ t₁', Opens rt accounts receivableId s t' mint t₁' ∧ Shifted touched sent received t₁ t₁' := by
  obtain ⟨_, hvault⟩ := h.vaultFound
  obtain ⟨vault', hvault', -⟩ := hshifted.exists_account hvault
  obtain ⟨t₁', hopened, hshifted₁⟩ := initAssociatedTokenAccount_shifted hshifted h.opened
  exact ⟨t₁', { h with
    vaultFound := ⟨vault', hvault'⟩
    assetFound := by rw [hshifted.mints, h.assetFound]
    opened := hopened }, hshifted₁⟩

theorem requestAdvance_shifted {accounts : RequestAdvance} {receivableId : Bytes 32}
    {amount : UInt64} {nonce : Bytes 16} (hshifted : Shifted touched sent received t t')
    (h : requestAdvance rt env accounts receivableId amount nonce r s t = .ok effect)
    (hvault : sent s.pool.usdcVault = 0)
    (hheld : t'.HeldAlone s.pool.usdcVault s.pool.assetMint accounts.pool) :
    Mirrors touched sent received effect
      (requestAdvance rt env accounts receivableId amount nonce r s t') := by
  obtain ⟨attestation, ledger, advance, mint, t₁, hopens, hissues, htransfer, hevent⟩ :=
    requestAdvance_eq_ok.mp h
  obtain ⟨t₁', hopens', hshifted₁⟩ := hopens.shifted hshifted
  have hkept : Spares touched accounts.poolUsdcVault accounts.pool amount.toNat t₁' := by
    have hfunds := (transferChecked_ready htransfer).funds
    rw [hopens.vault] at hfunds ⊢
    have hpersists := (initAssociatedTokenAccount_flow hopens'.opened).2.persists
    exact hshifted₁.spares_of_heldAlone (hpersists.heldAlone hheld) hvault hfunds
  obtain ⟨t₂', htransfer', hshifted₂⟩ := hshifted₁.transferChecked htransfer hkept
  exact ⟨t₂', requestAdvance_eq_ok.mpr ⟨attestation, ledger, advance, mint, t₁', hopens', hissues,
    htransfer', hevent⟩, hshifted₂⟩

theorem transferIfPositive_shifted {source mint destination authority : Pubkey} {amount : UInt64}
    {decimals : UInt8} {t₁ : TokenLedger} (hshifted : Shifted touched sent received t t')
    (h : transferIfPositive source mint destination authority amount decimals t = .ok t₁)
    (hspare : 0 < amount → Spares touched source authority amount.toNat t') :
    ∃ t₁', transferIfPositive source mint destination authority amount decimals t' = .ok t₁' ∧
      Shifted touched sent received t₁ t₁' := by
  simp only [transferIfPositive, ite_eq_ok, mapError_eq_ok, pure_eq_ok] at h ⊢
  obtain ⟨hpositive, htransfer⟩ | ⟨hzero, rfl⟩ := h
  · obtain ⟨t₁', htransfer', hshifted₁⟩ := hshifted.transferChecked htransfer (hspare hpositive)
    exact ⟨t₁', .inl ⟨hpositive, htransfer'⟩, hshifted₁⟩
  · exact ⟨t', .inr ⟨hzero, rfl⟩, hshifted⟩

/-- What the first of two transfers leaves may be taken with the second. -/
theorem Spl.Spares.transferIfPositive {source mint destination authority : Pubkey}
    {amount : UInt64} {decimals : UInt8} {t₁ : TokenLedger} {more : ℕ}
    (h : Spares touched source authority (amount.toNat + more) t)
    (hop : Escrow.transferIfPositive source mint destination authority amount decimals t = .ok t₁)
    (hmore : 0 < more) : Spares touched source authority more t₁ := by
  simp only [Escrow.transferIfPositive, ite_eq_ok, mapError_eq_ok, pure_eq_ok] at hop
  obtain ⟨-, htransfer⟩ | ⟨-, rfl⟩ := hop
  · exact h.transferChecked htransfer hmore
  · exact h.mono (Nat.le_add_left more _)

/-- Balances play no part in the account constraints. -/
theorem Escrow.Admits.shifted {accounts : ClaimAndSettle} {advance : Advance}
    {consumed : ConsumedPayment} {ledger : AgentIssuanceLedger} {mint : Mint}
    (h : Admits rt accounts s t advance consumed ledger mint)
    (hshifted : Shifted touched sent received t t') :
    Admits rt accounts s t' advance consumed ledger mint := by
  obtain ⟨_, hvault⟩ := h.vaultFound
  obtain ⟨_, htreasury⟩ := h.treasuryFound
  obtain ⟨vault', hvault', -⟩ := hshifted.exists_account hvault
  obtain ⟨treasury', htreasury', -⟩ := hshifted.exists_account htreasury
  exact { h with
    vaultFound := ⟨vault', hvault'⟩
    source := hshifted.isAccount.mpr h.source
    treasuryFound := ⟨treasury', htreasury'⟩
    assetFound := by rw [hshifted.mints, h.assetFound] }

/-- A settlement draws on the agent twice; what the first transfer leaves covers the second. -/
theorem claimAndSettle_shifted {accounts : ClaimAndSettle} {paymentAmount : UInt64}
    (hshifted : Shifted touched sent received t t')
    (h : claimAndSettle rt env accounts paymentAmount s t = .ok effect)
    (hspare : ∀ amount, (PoolInstruction.claimAndSettle accounts paymentAmount).drawn env s
      accounts.agentUsdcAta = some amount →
        Spares touched accounts.agentUsdcAta accounts.agent amount t') :
    Mirrors touched sent received effect (claimAndSettle rt env accounts paymentAmount s t') := by
  obtain ⟨advance, consumed, ledger, mint, split, t₁, hadmits, hsettles, hprotocol, hlp,
    hevent⟩ := claimAndSettle_eq_ok.mp h
  have hpaid (hpositive : split.protocolCut.toNat + split.lpCut.toNat ≠ 0) :
      Spares touched accounts.agentUsdcAta accounts.agent
        (split.protocolCut.toNat + split.lpCut.toNat) t' := by
    apply hspare
    simp [PoolInstruction.drawn, hsettles.stored, hsettles.divided, Except.toOption]
    omega
  obtain ⟨t₁', hprotocol', hshifted₁⟩ := transferIfPositive_shifted hshifted hprotocol
    fun hpositive ↦ by
      rw [UInt64.lt_iff_toNat_lt, UInt64.toNat_zero] at hpositive
      exact (hpaid (by omega)).mono (Nat.le_add_right _ _)
  obtain ⟨t₂', hlp', hshifted₂⟩ := transferIfPositive_shifted hshifted₁ hlp fun hpositive ↦ by
    rw [UInt64.lt_iff_toNat_lt, UInt64.toNat_zero] at hpositive
    exact (hpaid (by omega)).transferIfPositive hprotocol' hpositive
  exact ⟨t₂', claimAndSettle_eq_ok.mpr ⟨advance, consumed, ledger, mint, split, t₁',
    hadmits.shifted hshifted, hsettles, hprotocol', hlp', hevent⟩, hshifted₂⟩

theorem Escrow.SkimReady.shifted {accounts : SkimProtocolFees} {pool : Pool} {mint : Mint}
    (h : SkimReady accounts pool t mint) (hshifted : Shifted touched sent received t t') :
    SkimReady accounts pool t' mint := by
  obtain ⟨_, hvault⟩ := h.vaultFound
  obtain ⟨_, hrecipient⟩ := h.recipientFound
  obtain ⟨vault', hvault', -⟩ := hshifted.exists_account hvault
  obtain ⟨recipient', hrecipient', -⟩ := hshifted.exists_account hrecipient
  exact { h with
    vaultFound := ⟨vault', hvault'⟩
    recipientFound := ⟨recipient', hrecipient'⟩
    assetFound := by rw [hshifted.mints, h.assetFound] }

theorem skimProtocolFees_shifted {accounts : SkimProtocolFees} {amount : UInt64}
    (hshifted : Shifted touched sent received t t')
    (h : skimProtocolFees env accounts amount s t = .ok effect)
    (hvault : sent s.pool.usdcVault = 0)
    (hheld : t'.HeldAlone s.pool.usdcVault s.pool.assetMint accounts.pool) :
    Mirrors touched sent received effect (skimProtocolFees env accounts amount s t') := by
  obtain ⟨mint, hready, hskims, htransfer, hevent⟩ := skimProtocolFees_eq_ok.mp h
  have hkept : Spares touched accounts.poolUsdcVault accounts.pool amount.toNat t' := by
    have hfunds := (transferChecked_ready htransfer).funds
    rw [hready.vault] at hfunds ⊢
    exact hshifted.spares_of_heldAlone hheld hvault hfunds
  obtain ⟨t₁', htransfer', hshifted₁⟩ := hshifted.transferChecked htransfer hkept
  exact ⟨t₁', skimProtocolFees_eq_ok.mpr ⟨mint, hready.shifted hshifted, hskims, htransfer',
    hevent⟩, hshifted₁⟩

theorem initPool_shifted {accounts : InitPool} {params : InitPoolParams}
    (hshifted : Shifted touched sent received t t')
    (h : initPool rt accounts params t = .ok effect) :
    Mirrors touched sent received effect (initPool rt accounts params t') := by
  simp only [initPool, mintAccount, bind_eq_ok, okOr_eq_ok, require_eq_ok, mapError_eq_ok,
    pure_eq_ok] at h
  obtain ⟨-, haddress, _, hasset, t₁, hmint, t₂, haccount, -, hpct, -, htimelock, -, hchain, ⟨⟩,
    hvalid, rfl⟩ := h
  obtain ⟨t₁', hmint', hshifted₁⟩ := hshifted.initializeMint hmint
  obtain ⟨t₂', haccount', hshifted₂⟩ := hshifted₁.initializeAccount haccount
  rw [← hshifted.mints] at hasset
  refine ⟨t₂', ?_, hshifted₂⟩
  simp only [initPool, mintAccount, bind_eq_ok, okOr_eq_ok, require_eq_ok, mapError_eq_ok,
    pure_eq_ok]
  exact ⟨(), haddress, _, hasset, t₁', hmint', t₂', haccount', (), hpct, (), htimelock, (), hchain,
    (), hvalid, rfl⟩

/-- Every instruction of a pool that is accepted is accepted on the second ledger, with the same
effect. -/
theorem PoolInstruction.handler_shifted {ix : PoolInstruction}
    (hshifted : Shifted touched sent received t t') (h : ix.handler rt env r s t = .ok effect)
    (hvault : sent s.pool.usdcVault = 0)
    (hheld : t'.HeldAlone s.pool.usdcVault s.pool.assetMint ix.pool)
    (hspare : ∀ account amount, ix.drawn env s account = some amount →
      Spares touched account ix.signer amount t') :
    Mirrors touched sent received effect (ix.handler rt env r s t') := by
  cases ix with
  | deposit accounts amount =>
      exact deposit_shifted hshifted h (hspare accounts.lpUsdcAta _ (if_pos rfl))
  | withdraw accounts shares =>
      exact withdraw_shifted hshifted h hvault hheld (hspare accounts.lpShareAta _ (if_pos rfl))
  | requestAdvance accounts receivableId amount nonce =>
      exact requestAdvance_shifted hshifted h hvault hheld
  | claimAndSettle accounts paymentAmount =>
      exact claimAndSettle_shifted hshifted h (hspare accounts.agentUsdcAta)
  | liquidate accounts =>
      obtain ⟨htokens, hliquidates⟩ := liquidate_eq_ok.mp h
      rw [← htokens] at hshifted
      exact ⟨t', liquidate_eq_ok.mpr ⟨rfl, hliquidates⟩, hshifted⟩
  | proposeParams accounts params =>
      simp only [handler, Escrow.proposeParams, bind_eq_ok, pure_eq_ok] at h
      obtain ⟨_, hgovernance, _, hgate, _, hvalid, executeAfter, htime, rfl⟩ := h
      refine ⟨t', ?_, hshifted⟩
      simp only [handler, Escrow.proposeParams, bind_eq_ok, pure_eq_ok]
      exact ⟨_, hgovernance, _, hgate, _, hvalid, executeAfter, htime, rfl⟩
  | executeParams accounts =>
      simp only [handler, Escrow.executeParams, bind_eq_ok, pure_eq_ok] at h
      obtain ⟨pending, hpending, _, htime, rfl⟩ := h
      refine ⟨t', ?_, hshifted⟩
      simp only [handler, Escrow.executeParams, bind_eq_ok, pure_eq_ok]
      exact ⟨pending, hpending, _, htime, rfl⟩
  | skimProtocolFees accounts amount => exact skimProtocolFees_shifted hshifted h hvault hheld

/-- So is every direct call of the token program, unless it closes an account that has received
something. -/
theorem TokenInstruction.handler_shifted {ix : TokenInstruction} {t₁ : TokenLedger}
    (hshifted : Shifted touched sent received t t') (h : ix.handler t = .ok t₁)
    (hclosed : ∀ account, ix.closes account = true → received account = 0)
    (hspare : ∀ account amount, ix.drawn account = some amount →
      Spares touched account ix.signer amount t') :
    ∃ t₁', ix.handler t' = .ok t₁' ∧ Shifted touched sent received t₁ t₁' := by
  cases ix with
  | createMint address authority freezeAuthority decimals => exact hshifted.initializeMint h
  | createAccount address mint owner => exact hshifted.initializeAccount h
  | mintTo mint destination authority amount => exact hshifted.mintTo h
  | transfer source mint destination authority amount decimals =>
      exact hshifted.transferChecked h (hspare source _ (if_pos rfl))
  | burn source mint authority amount => exact hshifted.burn h (hspare source _ (if_pos rfl))
  | approve source delegate owner amount => exact hshifted.approve h
  | revoke source owner => exact hshifted.revoke h
  | setAuthority address authorityType authority newAuthority => exact hshifted.setAuthority h
  | closeAccount address authority =>
      exact hshifted.closeAccount h (hclosed address (decide_eq_true rfl))
  | freezeAccount address mint authority => exact hshifted.toggleFreezeAccount h
  | thawAccount address mint authority => exact hshifted.toggleFreezeAccount h

end Handlers

/-- Two chains that agree on everything but balances. -/
structure Parallel (touched : Pubkey → Prop) (sent received : Pubkey → ℕ) (s t : Chain) :
    Prop where
  pools : t.pools = s.pools
  registry : t.registry = s.registry
  events : t.events = s.events
  tokens : Shifted touched sent received s.tokens t.tokens

theorem Parallel.commit {touched : Pubkey → Prop} {sent received : Pubkey → ℕ} {s t : Chain}
    {effect : Effect} {tokens : TokenLedger} (h : Parallel touched sent received s t)
    (hshifted : Shifted touched sent received effect.tokens tokens) (p : Pubkey) :
    Parallel touched sent received (s.commit p effect) (t.commit p { effect with tokens }) where
  pools := congrArg (fun pools ↦ pools.insert p effect.state) h.pools
  registry := h.registry
  events := congrArg (· ++ [effect.event]) h.events
  tokens := hshifted

/-- An accepted input is accepted on the second chain, and the chains go on in parallel. -/
theorem Chain.step_parallel {rt : Runtime} {touched : Pubkey → Prop} {sent received : Pubkey → ℕ}
    {input : Input} {s t s' : Chain} (hparallel : Parallel touched sent received s t)
    (h : step rt input s = .ok s') (hcustodial : Custodial rt t)
    (hvaults : ∀ p ps, s.pools.lookup p = some ps → sent ps.pool.usdcVault = 0)
    (hclosed : ∀ account, input.action.closes account = true → received account = 0)
    (hspare : ∀ account authority amount, s.drawn input account = some (authority, amount) →
      Spares touched account authority amount t.tokens) :
    ∃ t', step rt input t = .ok t' ∧ Parallel touched sent received s' t' := by
  have hpools := hparallel.pools
  have hregistry := hparallel.registry
  have htokens := hparallel.tokens
  cases haction : input.action with
  | initPool accounts params =>
      simp only [step, haction, bind_eq_ok, requireSigners_eq_ok, require_eq_ok, pure_eq_ok] at h
      obtain ⟨-, hsigners, -, hfresh, effect, heffect, rfl⟩ := h
      obtain ⟨tokens, heffect', hshifted⟩ := initPool_shifted htokens heffect
      refine ⟨_, ?_, hparallel.commit hshifted accounts.pool⟩
      simp only [step, haction, bind_eq_ok, requireSigners_eq_ok, require_eq_ok, pure_eq_ok, hpools]
      exact ⟨(), hsigners, (), hfresh, _, heffect', rfl⟩
  | pool ix =>
      simp only [step, haction, bind_eq_ok, requireSigner_eq_ok, loadPool_eq_ok, pure_eq_ok] at h
      obtain ⟨-, hsigner, ⟨⟩, hloaded, ps, ⟨hfound, hseeds⟩, effect, heffect, rfl⟩ := h
      obtain ⟨tokens, heffect', hshifted⟩ :=
        PoolInstruction.handler_shifted htokens heffect (hvaults _ ps hfound)
          (hcustodial.custody _ ps (hpools ▸ hfound)).heldAlone fun account amount hdrawn ↦
            hspare account ix.signer amount (by simp [drawn, haction, hfound, hdrawn])
      refine ⟨_, ?_, hparallel.commit hshifted ix.pool⟩
      have hloaded' : t.loadRecords ix = .ok () := by
        simp only [loadRecords, loadRecord, hpools]
        exact hloaded
      simp only [step, haction, bind_eq_ok, requireSigner_eq_ok, loadPool_eq_ok, pure_eq_ok, hpools,
        hregistry]
      exact ⟨(), hsigner, (), hloaded', ps, ⟨hfound, hseeds⟩, _, heffect', rfl⟩
  | registry ix =>
      simp only [step, haction, bind_eq_ok, requireSigner_eq_ok, pure_eq_ok] at h
      obtain ⟨-, hsigner, registry, heffect, rfl⟩ := h
      refine ⟨{ t with registry }, ?_, ⟨hpools, rfl, hparallel.events, htokens⟩⟩
      simp only [step, haction, bind_eq_ok, requireSigner_eq_ok, pure_eq_ok, hpools, hregistry]
      exact ⟨(), hsigner, registry, heffect, rfl⟩
  | token ix =>
      simp only [step, haction, bind_eq_ok, requireSigner_eq_ok, mapError_eq_ok, pure_eq_ok] at h
      obtain ⟨-, hsigner, tokens, heffect, rfl⟩ := h
      rw [haction] at hclosed
      obtain ⟨tokens', heffect', hshifted⟩ :=
        TokenInstruction.handler_shifted htokens heffect hclosed fun account amount hdrawn ↦
          hspare account ix.signer amount (by simp [drawn, haction, hdrawn])
      refine ⟨{ t with tokens := tokens' }, ?_, ⟨hpools, hregistry, hparallel.events, hshifted⟩⟩
      simp only [step, haction, bind_eq_ok, requireSigner_eq_ok, mapError_eq_ok, pure_eq_ok,
        hpools]
      exact ⟨(), hsigner, tokens', heffect', rfl⟩

end CredMesh
