import CredMesh.Chain.Books

/-!
# Custody, and the chain as a refinement of the books

Along every run each pool alone has rights to its vault and to its share mint. Nobody else can then
debit or close the vault, mint shares or freeze them, so an accepted instruction acts on the books
of a pool as `PoolStep` says, and every run of the chain is a history of each of its pools.
-/

namespace CredMesh

open Outcome Escrow Registry Spl

/-- The pool sits at its derived address, holds its vault alone and issues its shares alone. -/
structure Custody (rt : Runtime) (t : TokenLedger) (p : Pubkey) (pool : Pool) : Prop where
  seeds : rt.poolPda pool.assetMint = (p, pool.bump)
  heldAlone : t.HeldAlone pool.usdcVault pool.assetMint p
  issuedAlone : t.IssuedAlone pool.shareMint p

theorem Custody.vault {rt : Runtime} {t : TokenLedger} {p : Pubkey} {pool : Pool}
    (h : Custody rt t p pool) : t.IsAccount pool.usdcVault pool.assetMint p :=
  h.heldAlone.isAccount

theorem Custody.shares {rt : Runtime} {t : TokenLedger} {p : Pubkey} {pool : Pool}
    (h : Custody rt t p pool) : t.IsMint pool.shareMint p :=
  h.issuedAlone.isMint

/-- Two pools with one asset mint are one pool. -/
theorem Custody.assetMint_ne {rt : Runtime} {t : TokenLedger} {p q : Pubkey} {pool pool' : Pool}
    (h : Custody rt t p pool) (h' : Custody rt t q pool') (hne : p ≠ q) :
    pool.assetMint ≠ pool'.assetMint := by
  intro hmint
  have hseeds := h.seeds
  rw [hmint, h'.seeds] at hseeds
  exact hne (congrArg Prod.fst hseeds).symm

namespace PoolInstruction

variable {rt : Runtime} {env : Env} {r : RegistryState} {s : PoolState} {t : TokenLedger}
  {ix : PoolInstruction} {effect : Effect} {p : Pubkey}

/-- On its own pool an instruction is a step of the books. -/
theorem handler_books (h : ix.handler rt env r s t = .ok effect)
    (hcustody : Custody rt t ix.pool s.pool) (hsigner : ix.signer ≠ ix.pool) :
    PoolStep rt r env ix.pool (.pool ix)
      ⟨s, t.balance s.pool.usdcVault, t.supply s.pool.shareMint⟩
      ⟨effect.state, effect.tokens.balance s.pool.usdcVault,
        effect.tokens.supply s.pool.shareMint⟩ := by
  cases ix with
  | deposit accounts amount =>
      obtain ⟨hready, shares, totalAssets, totalShares, hpositive, hshares, hassets, htotal,
        hstate, hflow⟩ := deposit_effect h
      have husdc := hready.lpUsdc.ne_of_owner hcustody.vault hsigner
      have hshare := hready.lpShare.ne_of_owner hcustody.vault hsigner
      have hbalance := hflow.balance s.pool.usdcVault
      have hsupply := hflow.supply s.pool.shareMint
      simp only [Pi.add_apply, Pi.zero_apply, Pi.single_apply, if_neg husdc.symm,
        if_neg hshare.symm, if_true, add_zero] at hbalance hsupply
      rw [hstate, hbalance, hsupply]
      exact .deposit rfl hpositive hshares hassets htotal
  | withdraw accounts shares =>
      obtain ⟨hready, assets, totalAssets, totalShares, hassets, hbooked, htotal, hstate,
        hflow⟩ := withdraw_effect h
      have husdc := hready.lpUsdc.ne_of_owner hcustody.vault hsigner
      have hshare := hready.lpShare.ne_of_owner hcustody.vault hsigner
      have hbalance := hflow.balance s.pool.usdcVault
      have hsupply := hflow.supply s.pool.shareMint
      simp only [Pi.add_apply, Pi.zero_apply, Pi.single_apply, if_neg husdc.symm,
        if_neg hshare.symm, if_true, add_zero, zero_add] at hbalance hsupply
      rw [hstate]
      exact .withdraw rfl hassets hbooked htotal hbalance hsupply
  | requestAdvance accounts receivableId amount nonce =>
      obtain ⟨attestation, ledger, advance, hissues, hata, hflow⟩ := requestAdvance_effect h
      have hne := hata.ne_of_owner (hflow.persists.account _ _ _ hcustody.vault) hsigner
      have hbalance := hflow.balance s.pool.usdcVault
      have hsupply := hflow.supply s.pool.shareMint
      simp only [Pi.zero_apply, Pi.single_apply, if_neg hne.symm, if_true, add_zero]
        at hbalance hsupply
      rw [hsupply]
      exact .issue rfl hissues hbalance
  | claimAndSettle accounts paymentAmount =>
      obtain ⟨advance, consumed, ledger, split, hsettles, hata, -, hflow⟩ :=
        claimAndSettle_effect h
      have hne := hata.ne_of_owner hcustody.vault hsigner
      have hbalance := hflow.balance s.pool.usdcVault
      have hsupply := hflow.supply s.pool.shareMint
      simp only [Pi.add_apply, Pi.zero_apply, Pi.single_apply, if_neg hne.symm, if_true, add_zero]
        at hbalance hsupply
      have hvault : effect.tokens.balance s.pool.usdcVault =
          t.balance s.pool.usdcVault + split.lpCut.toNat +
            s.pool.looped split.protocolCut.toNat := by
        rw [hbalance, Pool.looped]
        omega
      rw [hvault, hsupply]
      exact .settle rfl hsettles
  | liquidate accounts =>
      obtain ⟨htokens, advance, consumed, ledger, hliquidates⟩ := liquidate_effect h
      rw [htokens]
      exact .liquidate rfl hliquidates
  | proposeParams accounts params =>
      obtain ⟨-, hvalid, htokens, executeAfter, htime, hstate⟩ := proposeParams_effect h
      rw [htokens, hstate]
      exact .propose rfl hvalid htime
  | executeParams accounts =>
      obtain ⟨htokens, pending, hpending, htime, hstate⟩ := executeParams_effect h
      rw [htokens, hstate]
      exact .execute rfl hpending htime
  | skimProtocolFees accounts amount =>
      obtain ⟨-, ⟨accrued, haccrued, hstate⟩, -, hflow⟩ := skimProtocolFees_effect h
      have hbalance := hflow.balance s.pool.usdcVault
      have hsupply := hflow.supply s.pool.shareMint
      simp only [Pi.zero_apply, Pi.single_apply, if_true, add_zero] at hbalance hsupply
      rw [hstate, hsupply]
      exact .skim rfl haccrued hbalance

/-- What an instruction moves, seen from a pool it does not name: its vault and its share mint are
not touched. -/
theorem handler_elsewhere (h : ix.handler rt env r s t = .ok effect)
    (hcustody : Custody rt t ix.pool s.pool) {pool : Pool} (hother : Custody rt t p pool)
    (hne : ix.pool ≠ p) (hsigner : ix.signer ≠ p) :
    effect.tokens.balance pool.usdcVault = t.balance pool.usdcVault ∧
    effect.tokens.supply pool.shareMint = t.supply pool.shareMint := by
  have hvault := hcustody.vault.ne_of_owner hother.vault hne
  have hshares := hcustody.shares.ne_of_authority hother.shares hne
  have hmint := hcustody.assetMint_ne hother hne
  cases ix with
  | deposit accounts amount =>
      obtain ⟨hready, shares, -, -, -, -, -, -, -, hflow⟩ := deposit_effect h
      have husdc := hready.lpUsdc.ne_of_owner hother.vault hsigner
      have hshare := hready.lpShare.ne_of_owner hother.vault hsigner
      have hbalance := hflow.balance pool.usdcVault
      have hsupply := hflow.supply pool.shareMint
      simp only [Pi.add_apply, Pi.zero_apply, Pi.single_apply, if_neg husdc.symm,
        if_neg hshare.symm, if_neg hvault.symm, if_neg hshares.symm, add_zero] at hbalance hsupply
      exact ⟨hbalance, hsupply⟩
  | withdraw accounts shares =>
      obtain ⟨hready, assets, -, -, -, -, -, -, hflow⟩ := withdraw_effect h
      have husdc := hready.lpUsdc.ne_of_owner hother.vault hsigner
      have hshare := hready.lpShare.ne_of_owner hother.vault hsigner
      have hbalance := hflow.balance pool.usdcVault
      have hsupply := hflow.supply pool.shareMint
      simp only [Pi.add_apply, Pi.zero_apply, Pi.single_apply, if_neg husdc.symm,
        if_neg hshare.symm, if_neg hvault.symm, if_neg hshares.symm, add_zero] at hbalance hsupply
      exact ⟨hbalance, hsupply⟩
  | requestAdvance accounts receivableId amount nonce =>
      obtain ⟨-, -, -, -, hata, hflow⟩ := requestAdvance_effect h
      have hagent := hata.ne_of_owner (hflow.persists.account _ _ _ hother.vault) hsigner
      have hbalance := hflow.balance pool.usdcVault
      have hsupply := hflow.supply pool.shareMint
      simp only [Pi.zero_apply, Pi.single_apply, if_neg hagent.symm, if_neg hvault.symm, add_zero]
        at hbalance hsupply
      exact ⟨hbalance, hsupply⟩
  | claimAndSettle accounts paymentAmount =>
      obtain ⟨-, -, -, split, -, hata, htreasury, hflow⟩ := claimAndSettle_effect h
      have hagent := hata.ne_of_owner hother.vault hsigner
      have hbalance := hflow.balance pool.usdcVault
      have hsupply := hflow.supply pool.shareMint
      simp only [Pi.add_apply, Pi.zero_apply, Pi.single_apply, if_neg hagent.symm,
        if_neg hvault.symm, add_zero] at hbalance hsupply
      refine ⟨?_, hsupply⟩
      obtain ⟨mint, owner, haccount, hzero | rfl⟩ := htreasury
      · rwa [hzero, ite_self, add_zero] at hbalance
      · rwa [if_neg (haccount.ne_of_mint hother.vault hmint).symm, add_zero] at hbalance
  | liquidate accounts =>
      obtain ⟨htokens, -⟩ := liquidate_effect h
      simp [htokens]
  | proposeParams accounts params =>
      obtain ⟨-, -, htokens, -⟩ := proposeParams_effect h
      simp [htokens]
  | executeParams accounts =>
      obtain ⟨htokens, -⟩ := executeParams_effect h
      simp [htokens]
  | skimProtocolFees accounts amount =>
      obtain ⟨-, -, ⟨owner, haccount⟩, hflow⟩ := skimProtocolFees_effect h
      have htreasury := haccount.ne_of_mint hother.vault hmint
      have hbalance := hflow.balance pool.usdcVault
      have hsupply := hflow.supply pool.shareMint
      simp only [Pi.zero_apply, Pi.single_apply, if_neg htreasury.symm, if_neg hvault.symm,
        add_zero] at hbalance hsupply
      exact ⟨hbalance, hsupply⟩

/-- Whatever an instruction does, accounts persist and holdings follow supplies. -/
theorem handler_flow (h : ix.handler rt env r s t = .ok effect) :
    ∃ debit credit minted burned, Flow t effect.tokens debit credit minted burned := by
  cases ix with
  | deposit accounts amount =>
      obtain ⟨-, _, _, _, -, -, -, -, -, hflow⟩ := deposit_effect h
      exact ⟨_, _, _, _, hflow⟩
  | withdraw accounts shares =>
      obtain ⟨-, _, _, _, -, -, -, -, hflow⟩ := withdraw_effect h
      exact ⟨_, _, _, _, hflow⟩
  | requestAdvance accounts receivableId amount nonce =>
      obtain ⟨-, -, -, -, -, hflow⟩ := requestAdvance_effect h
      exact ⟨_, _, _, _, hflow⟩
  | claimAndSettle accounts paymentAmount =>
      obtain ⟨_, _, _, _, -, -, -, hflow⟩ := claimAndSettle_effect h
      exact ⟨_, _, _, _, hflow⟩
  | liquidate accounts =>
      obtain ⟨htokens, -⟩ := liquidate_effect h
      rw [htokens]
      exact ⟨_, _, _, _, Flow.refl t⟩
  | proposeParams accounts params =>
      obtain ⟨-, -, htokens, -⟩ := proposeParams_effect h
      rw [htokens]
      exact ⟨_, _, _, _, Flow.refl t⟩
  | executeParams accounts =>
      obtain ⟨htokens, -⟩ := executeParams_effect h
      rw [htokens]
      exact ⟨_, _, _, _, Flow.refl t⟩
  | skimProtocolFees accounts amount =>
      obtain ⟨-, -, -, hflow⟩ := skimProtocolFees_effect h
      exact ⟨_, _, _, _, hflow⟩

end PoolInstruction

namespace TokenInstruction

variable {t t' : TokenLedger} {ix : TokenInstruction}

/-- What a direct call moves. It touches nothing that a key which does not sign holds alone. -/
theorem handler_moves (h : ix.handler t = .ok t') :
    (∃ debit credit minted burned, Moves t t' debit credit minted burned) ∧
    (Minted t → Minted t') ∧ ∀ key, ix.signer ≠ key → Respects key t t' := by
  have of_flow {debit credit minted burned : Pubkey → ℕ}
      (hflow : Flow t t' debit credit minted burned) :
      (∃ debit credit minted burned, Moves t t' debit credit minted burned) ∧
      (Minted t → Minted t') ∧ ∀ key, ix.signer ≠ key → Respects key t t' :=
    ⟨⟨_, _, _, _, hflow.toMoves⟩, hflow.persists.minted, fun key _ ↦ hflow.persists.respects key⟩
  have of_regrants {closed : Option Pubkey} (hregrants : Regrants ix.signer closed t t') :
      (∃ debit credit minted burned, Moves t t' debit credit minted burned) ∧
      (Minted t → Minted t') ∧ ∀ key, ix.signer ≠ key → Respects key t t' :=
    ⟨⟨_, _, _, _, hregrants.moves⟩, hregrants.minted, hregrants.respects⟩
  cases ix with
  | createMint address authority freezeAuthority decimals =>
      exact of_flow (initializeMint_flow h).2.2
  | createAccount address mint owner => exact of_flow (initializeAccount_flow h).2.2
  | mintTo mint destination authority amount => exact of_flow (mintTo_flow h).2.2
  | transfer source mint destination authority amount decimals =>
      exact of_flow (transferChecked_flow h)
  | burn source mint authority amount => exact of_flow (burn_flow h)
  | approve source delegate owner amount => exact of_regrants (approve_regrants h)
  | revoke source owner => exact of_regrants (revoke_regrants h)
  | setAuthority address authorityType authority newAuthority =>
      exact of_regrants (setAuthority_regrants h)
  | closeAccount address authority => exact of_regrants (closeAccount_regrants h).2
  | freezeAccount address mint authority => exact of_regrants (toggleFreezeAccount_regrants h)
  | thawAccount address mint authority => exact of_regrants (toggleFreezeAccount_regrants h)

/-- A direct call that the pool does not sign can bring tokens into its vault and burn its shares,
and nothing else. -/
theorem handler_outside {rt : Runtime} {p : Pubkey} {pool : Pool} (h : ix.handler t = .ok t')
    (hcustody : Custody rt t p pool) (hsigner : ix.signer ≠ p) :
    ix.closes pool.usdcVault = false ∧
    t'.balance pool.usdcVault = t.balance pool.usdcVault + ix.sentTo pool.usdcVault ∧
    t'.supply pool.shareMint + ix.burnedOf pool.shareMint = t.supply pool.shareMint := by
  have of_regrants {closed : Option Pubkey} (hregrants : Regrants ix.signer closed t t') :
      t'.balance pool.usdcVault = t.balance pool.usdcVault ∧
      t'.supply pool.shareMint = t.supply pool.shareMint :=
    ⟨hregrants.moves.balance _, hregrants.moves.supply _⟩
  cases ix with
  | createMint address authority freezeAuthority decimals =>
      have hflow := (initializeMint_flow h).2.2
      exact ⟨rfl, hflow.balance _, hflow.supply _⟩
  | createAccount address mint owner =>
      have hflow := (initializeAccount_flow h).2.2
      exact ⟨rfl, hflow.balance _, hflow.supply _⟩
  | mintTo mint destination authority amount =>
      obtain ⟨-, hauthority, hflow⟩ := mintTo_flow h
      have hmint := hauthority.ne_of_authority hcustody.shares hsigner
      have hbalance := hflow.balance pool.usdcVault
      have hsupply := hflow.supply pool.shareMint
      simp only [Pi.zero_apply, Pi.single_apply, if_neg hmint.symm, add_zero] at hbalance hsupply
      simp only [sentTo, burnedOf, eq_comm (b := pool.usdcVault)]
      exact ⟨rfl, hbalance, hsupply⟩
  | transfer source mint destination authority amount decimals =>
      have hsource := hcustody.heldAlone.ne_of_drawReady (transferChecked_ready h).toDrawReady
        hsigner
      have hflow := transferChecked_flow h
      have hbalance := hflow.balance pool.usdcVault
      have hsupply := hflow.supply pool.shareMint
      simp only [Pi.zero_apply, Pi.single_apply, if_neg hsource.symm, add_zero] at hbalance hsupply
      simp only [sentTo, burnedOf, eq_comm (b := pool.usdcVault)]
      exact ⟨rfl, hbalance, hsupply⟩
  | burn source mint authority amount =>
      have hsource := hcustody.heldAlone.ne_of_drawReady (burn_ready h) hsigner
      have hflow := burn_flow h
      have hbalance := hflow.balance pool.usdcVault
      have hsupply := hflow.supply pool.shareMint
      simp only [Pi.zero_apply, Pi.single_apply, if_neg hsource.symm, add_zero] at hbalance hsupply
      simp only [sentTo, burnedOf, eq_comm (b := pool.shareMint)]
      exact ⟨rfl, hbalance, hsupply⟩
  | approve source delegate owner amount => exact ⟨rfl, of_regrants (approve_regrants h)⟩
  | revoke source owner => exact ⟨rfl, of_regrants (revoke_regrants h)⟩
  | setAuthority address authorityType authority newAuthority =>
      exact ⟨rfl, of_regrants (setAuthority_regrants h)⟩
  | closeAccount address authority =>
      obtain ⟨haccounts, hregrants⟩ := closeAccount_regrants h
      refine ⟨decide_eq_false ?_, of_regrants hregrants⟩
      rintro rfl
      -- the vault is still there
      obtain ⟨account, hfound, -⟩ := (hregrants.respects p hsigner).heldAlone _ _ hcustody.heldAlone
      rw [haccounts, Finmap.lookup_erase] at hfound
      cases hfound
  | freezeAccount address mint authority =>
      exact ⟨rfl, of_regrants (toggleFreezeAccount_regrants h)⟩
  | thawAccount address mint authority =>
      exact ⟨rfl, of_regrants (toggleFreezeAccount_regrants h)⟩

/-- An account disappears only by being closed, and a mint never does. -/
theorem handler_survives (h : ix.handler t = .ok t') :
    (∀ account, t'.accounts.lookup account = none →
      t.accounts.lookup account = none ∨ ix.closes account = true) ∧
    ∀ mint, t'.mints.lookup mint = none → t.mints.lookup mint = none := by
  have of_flow {debit credit minted burned : Pubkey → ℕ}
      (hflow : Flow t t' debit credit minted burned) :
      (∀ account, t'.accounts.lookup account = none →
        t.accounts.lookup account = none ∨ ix.closes account = true) ∧
      ∀ mint, t'.mints.lookup mint = none → t.mints.lookup mint = none :=
    ⟨fun account hnone ↦ .inl (hflow.persists.accounts_none hnone),
      fun mint hnone ↦ hflow.persists.mints_none hnone⟩
  have of_regrants (hregrants : Regrants ix.signer none t t') :
      (∀ account, t'.accounts.lookup account = none →
        t.accounts.lookup account = none ∨ ix.closes account = true) ∧
      ∀ mint, t'.mints.lookup mint = none → t.mints.lookup mint = none :=
    ⟨fun account hnone ↦ .inl ((hregrants.accounts account hnone).resolve_right
      (Option.some_ne_none account).symm), hregrants.mints⟩
  cases ix with
  | createMint address authority freezeAuthority decimals =>
      exact of_flow (initializeMint_flow h).2.2
  | createAccount address mint owner => exact of_flow (initializeAccount_flow h).2.2
  | mintTo mint destination authority amount => exact of_flow (mintTo_flow h).2.2
  | transfer source mint destination authority amount decimals =>
      exact of_flow (transferChecked_flow h)
  | burn source mint authority amount => exact of_flow (burn_flow h)
  | approve source delegate owner amount => exact of_regrants (approve_regrants h)
  | revoke source owner => exact of_regrants (revoke_regrants h)
  | setAuthority address authorityType authority newAuthority =>
      exact of_regrants (setAuthority_regrants h)
  | closeAccount address authority =>
      obtain ⟨-, hregrants⟩ := closeAccount_regrants h
      refine ⟨fun account hnone ↦ ?_, hregrants.mints⟩
      exact (hregrants.accounts account hnone).imp_right fun hclosed ↦
        decide_eq_true (Option.some.inj hclosed)
  | freezeAccount address mint authority => exact of_regrants (toggleFreezeAccount_regrants h)
  | thawAccount address mint authority => exact of_regrants (toggleFreezeAccount_regrants h)

end TokenInstruction

namespace Chain

variable {rt : Runtime} {s s' : Chain} {input : Input} {p : Pubkey} {ps : PoolState}

/-- The books of a pool on the chain. -/
def books (s : Chain) (ps : PoolState) : Books :=
  ⟨ps, s.tokens.balance ps.pool.usdcVault, s.tokens.supply ps.pool.shareMint⟩

/-- Every pool has custody of its accounts, all holdings are backed by supply and every account is
of a mint that exists. -/
structure Custodial (rt : Runtime) (s : Chain) : Prop where
  custody : ∀ p ps, s.pools.lookup p = some ps → Custody rt s.tokens p ps.pool
  balanced : Balanced s.tokens
  minted : Minted s.tokens

/-- What a step moves. Whoever does not sign for it keeps what it holds alone. -/
theorem step_moves (h : step rt input s = .ok s') :
    (∃ debit credit minted burned, Moves s.tokens s'.tokens debit credit minted burned) ∧
    (Minted s.tokens → Minted s'.tokens) ∧
    ∀ key ps, s.pools.lookup key = some ps → Respects key s.tokens s'.tokens := by
  have of_flow {t' : TokenLedger} {debit credit minted burned : Pubkey → ℕ}
      (hflow : Flow s.tokens t' debit credit minted burned) :
      (∃ debit credit minted burned, Moves s.tokens t' debit credit minted burned) ∧
      (Minted s.tokens → Minted t') ∧
      ∀ key ps, s.pools.lookup key = some ps → Respects key s.tokens t' :=
    ⟨⟨_, _, _, _, hflow.toMoves⟩, hflow.persists.minted, fun key _ _ ↦ hflow.persists.respects key⟩
  cases step_cases h with
  | initPool _ _ heffect =>
      obtain ⟨-, -, -, -, -, -, hflow⟩ := initPool_effect heffect
      exact of_flow hflow
  | pool _ _ _ heffect =>
      obtain ⟨_, _, _, _, hflow⟩ := PoolInstruction.handler_flow heffect
      exact of_flow hflow
  | registry _ _ => exact of_flow (Flow.refl s.tokens)
  | token _ hsigner heffect =>
      obtain ⟨hmoves, hminted, hrespects⟩ := TokenInstruction.handler_moves heffect
      refine ⟨hmoves, hminted, fun key ps hkey ↦ hrespects key ?_⟩
      rintro rfl
      rw [hkey] at hsigner
      cases hsigner

/-- An accepted instruction is a step of the books of every pool there is. -/
theorem step_books (hcustodial : Custodial rt s) (h : step rt input s = .ok s')
    (hp : s.pools.lookup p = some ps) :
    ∃ ps', s'.pools.lookup p = some ps' ∧
      PoolStep rt s.registry input.env p input.action (s.books ps) (s'.books ps') := by
  have hcustody := hcustodial.custody p ps hp
  have hne {key : Pubkey} (hkey : s.pools.lookup key = none) : key ≠ p := by
    rintro rfl
    simp [hp] at hkey
  cases step_cases h with
  | @initPool accounts params effect haction hfresh heffect =>
      obtain ⟨-, -, -, -, -, -, hflow⟩ := initPool_effect heffect
      refine ⟨ps, by simpa [commit, AccountMap.lookup_insert_eq, (hne hfresh).symm] using hp, ?_⟩
      rw [haction]
      have hbalance := hflow.balance ps.pool.usdcVault
      have hsupply := hflow.supply ps.pool.shareMint
      simp only [Pi.zero_apply, add_zero] at hbalance hsupply
      simp only [books, commit, hbalance, hsupply]
      exact .outside (by simp [Action.IsOn]) rfl rfl
  | @pool ix state effect haction hsigner hfound heffect =>
      have hown := hcustodial.custody ix.pool state hfound
      by_cases hpool : ix.pool = p
      · subst hpool
        obtain rfl : state = ps := by simpa [hfound] using hp
        have hbooks := PoolInstruction.handler_books heffect hown (hne hsigner)
        obtain ⟨-, hvault, hshare, -⟩ := hbooks.identity
        refine ⟨effect.state, by simp [commit], ?_⟩
        dsimp only at hvault hshare
        simp only [haction, books, commit, hvault, hshare]
        exact hbooks
      · obtain ⟨hbalance, hsupply⟩ :=
          PoolInstruction.handler_elsewhere heffect hown hcustody hpool (hne hsigner)
        refine ⟨ps, by simpa [commit, AccountMap.lookup_insert_eq, Ne.symm hpool] using hp, ?_⟩
        simp only [haction, books, commit, hbalance, hsupply]
        refine .outside ?_ rfl rfl
        rintro ⟨other, hother, rfl⟩
        exact hpool (by injection hother with hix; rw [hix])
  | @registry ix registry haction heffect =>
      refine ⟨ps, hp, ?_⟩
      rw [haction]
      exact .outside (by simp [Action.IsOn]) rfl rfl
  | @token ix tokens haction hsigner heffect =>
      obtain ⟨hopen, hbalance, hsupply⟩ :=
        TokenInstruction.handler_outside heffect hcustody (hne hsigner)
      refine ⟨ps, hp, ?_⟩
      simp only [haction, books, hbalance]
      exact .outside (by simp [Action.IsOn]) hopen hsupply

/-- A pool that was not there before has just been created, with nothing in it. -/
theorem step_create (hminted : Minted s.tokens) (h : step rt input s = .ok s')
    (hp : s.pools.lookup p = none) (hp' : s'.pools.lookup p = some ps) :
    ∃ accounts params, input.action = .initPool accounts params ∧ accounts.pool = p ∧
      ps = ⟨initialPool (rt.poolPda accounts.assetMint).2 accounts params, ∅, ∅, ∅, ∅⟩ ∧
      s.tokens.accounts.lookup accounts.usdcVault = none ∧
      s.tokens.mints.lookup accounts.shareMint = none ∧
      s'.books ps = ⟨ps, 0, 0⟩ ∧ Custody rt s'.tokens p ps.pool := by
  obtain ⟨accounts, params, effect, haction, hpool, heffect, rfl, rfl⟩ := step_new h hp hp'
  obtain ⟨hstate, haddress, hvault, hmint, -, -, hflow⟩ := initPool_effect heffect
  obtain ⟨hheld, hissued⟩ := initPool_alone hminted heffect
  have hbalance := hflow.balance accounts.usdcVault
  have hsupply := hflow.supply accounts.shareMint
  simp only [Pi.zero_apply, add_zero] at hbalance hsupply
  refine ⟨accounts, params, haction, hpool, hstate, hvault, hmint, ?_, ?_⟩
  · simp only [books, commit, hstate, initialPool, hbalance, hsupply]
    simp [TokenLedger.balance, TokenLedger.supply, hvault, hmint]
  · rw [hstate, ← hpool]
    exact ⟨by rw [haddress]; rfl, hheld, hissued⟩

theorem custodial_genesis : Custodial rt genesis where
  custody p ps hp := by simp [genesis] at hp
  balanced mint := rfl
  minted address account hfound := by
    rw [genesis, TokenLedger.empty, Finmap.lookup_empty] at hfound
    cases hfound

theorem step_custodial (hcustodial : Custodial rt s) (h : step rt input s = .ok s') :
    Custodial rt s' := by
  obtain ⟨⟨_, _, _, _, hmoves⟩, hminted, hrespects⟩ := step_moves h
  refine ⟨fun p ps' hp' ↦ ?_, hcustodial.balanced.moves hmoves, hminted hcustodial.minted⟩
  cases hp : s.pools.lookup p with
  | none =>
      obtain ⟨_, _, -, -, -, -, -, -, hcustody⟩ := step_create hcustodial.minted h hp hp'
      exact hcustody
  | some ps =>
      obtain ⟨_, hfound, hbooks⟩ := step_books hcustodial h hp
      obtain rfl : _ = ps' := by simpa [hp'] using hfound.symm
      obtain ⟨hasset, hvault, hshare, -, -, hbump⟩ := hbooks.identity
      have hcustody := hcustodial.custody p ps hp
      have hkept := hrespects p ps hp
      dsimp only [books] at hasset hvault hshare hbump
      refine ⟨?_, ?_, ?_⟩
      · rw [hasset, hbump]
        exact hcustody.seeds
      · rw [hasset, hvault]
        exact hkept.heldAlone _ _ hcustody.heldAlone
      · rw [hshare]
        exact hkept.issuedAlone _ hcustody.issuedAlone

theorem run_custodial {trace : List Input} (hrun : run rt trace = .ok s) : Custodial rt s :=
  Execution.run_invariant custodial_genesis (fun _ _ _ h hstep ↦ step_custodial h hstep) hrun

/-- Nothing has happened yet to an account, a mint or a pool that does not exist. -/
structure Untouched (s : Chain) (trace : List Input) : Prop where
  sent : ∀ account, s.tokens.accounts.lookup account = none → totalSent account trace = 0
  burned : ∀ mint, s.tokens.mints.lookup mint = none → totalBurned mint trace = 0
  elsewhere : ∀ p, s.pools.lookup p = none → ∀ input ∈ trace, ¬ input.action.IsOn p

theorem step_sent {account : Pubkey} (h : step rt input s = .ok s')
    (haccount : s.tokens.accounts.lookup account = none) :
    input.action.directlySent account = 0 := by
  cases step_cases h with
  | initPool haction _ _ => simp [haction, Action.directlySent]
  | pool haction _ _ _ => simp [haction, Action.directlySent]
  | registry haction _ => simp [haction, Action.directlySent]
  | @token ix tokens haction _ heffect =>
      have habsent {mint owner : Pubkey} (h : s.tokens.IsAccount account mint owner) : False := by
        obtain ⟨_, hfound, -⟩ := h
        simp [haccount] at hfound
      rw [haction]
      cases ix with
      | mintTo mint destination authority amount =>
          obtain ⟨⟨owner, hdestination⟩, -⟩ := mintTo_flow heffect
          exact if_neg fun heq ↦ habsent (heq ▸ hdestination)
      | transfer source mint destination authority amount decimals =>
          obtain ⟨owner, hdestination⟩ := (transferChecked_ready heffect).destination
          exact if_neg fun heq ↦ habsent (heq ▸ hdestination)
      | _ => rfl

theorem step_burned {mint : Pubkey} (h : step rt input s = .ok s')
    (hmint : s.tokens.mints.lookup mint = none) : input.action.directlyBurned mint = 0 := by
  cases step_cases h with
  | initPool haction _ _ => simp [haction, Action.directlyBurned]
  | pool haction _ _ _ => simp [haction, Action.directlyBurned]
  | registry haction _ => simp [haction, Action.directlyBurned]
  | @token ix tokens haction _ heffect =>
      rw [haction]
      cases ix with
      | burn source burned authority amount =>
          simp only [TokenInstruction.handler, burn, TokenLedger.mint, bind_eq_ok, okOr_eq_ok]
            at heffect
          obtain ⟨-, -, _, hfound, -⟩ := heffect
          refine if_neg fun heq ↦ ?_
          rw [heq, hmint] at hfound
          cases hfound
      | _ => rfl

theorem step_pools_none (h : step rt input s = .ok s') (hp' : s'.pools.lookup p = none) :
    s.pools.lookup p = none := by
  cases step_cases h with
  | initPool _ _ _ =>
      simp only [commit, AccountMap.lookup_insert_eq] at hp'
      split at hp'
      · cases hp'
      · exact hp'
  | pool _ _ _ _ =>
      simp only [commit, AccountMap.lookup_insert_eq] at hp'
      split at hp'
      · cases hp'
      · exact hp'
  | registry _ _ => exact hp'
  | token _ _ _ => exact hp'

theorem step_elsewhere (h : step rt input s = .ok s') (hp : s.pools.lookup p = none) :
    ¬ input.action.IsOn p := by
  rintro ⟨ix, hix, rfl⟩
  cases step_cases h with
  | initPool haction _ _ => simp [haction] at hix
  | pool haction _ hfound _ =>
      obtain rfl : _ = ix := by simpa [haction] using hix
      simp [hp] at hfound
  | registry haction _ => simp [haction] at hix
  | token haction _ _ => simp [haction] at hix

/-- An account disappears only by being closed, and a mint never does. -/
theorem step_survives (h : step rt input s = .ok s') :
    (∀ account, s'.tokens.accounts.lookup account = none →
      s.tokens.accounts.lookup account = none ∨ input.action.closes account = true) ∧
    ∀ mint, s'.tokens.mints.lookup mint = none → s.tokens.mints.lookup mint = none := by
  have of_persists {t' : TokenLedger} (hpersists : Persists s.tokens t') :
      (∀ account, t'.accounts.lookup account = none →
        s.tokens.accounts.lookup account = none ∨ input.action.closes account = true) ∧
      ∀ mint, t'.mints.lookup mint = none → s.tokens.mints.lookup mint = none :=
    ⟨fun account hnone ↦ .inl (hpersists.accounts_none hnone),
      fun mint hnone ↦ hpersists.mints_none hnone⟩
  cases step_cases h with
  | initPool _ _ heffect =>
      obtain ⟨-, -, -, -, -, -, hflow⟩ := initPool_effect heffect
      exact of_persists hflow.persists
  | pool _ _ _ heffect =>
      obtain ⟨_, _, _, _, hflow⟩ := PoolInstruction.handler_flow heffect
      exact of_persists hflow.persists
  | registry _ _ => exact of_persists (Persists.refl s.tokens)
  | token haction _ heffect =>
      rw [haction]
      exact TokenInstruction.handler_survives heffect

theorem step_untouched {trace : List Input} (huntouched : Untouched s trace)
    (h : step rt input s = .ok s') : Untouched s' (trace ++ [input]) := by
  obtain ⟨haccount, hmint⟩ := step_survives h
  refine ⟨fun account hnone ↦ ?_, fun mint hnone ↦ ?_, fun p hnone earlier hmem ↦ ?_⟩
  · rw [totalSent_snoc]
    split
    case isTrue => rfl
    case isFalse hopen =>
      have hnone' := (haccount account hnone).resolve_right hopen
      rw [huntouched.sent account hnone', step_sent h hnone']
  · rw [totalBurned_snoc, huntouched.burned mint (hmint mint hnone),
      step_burned h (hmint mint hnone)]
  · have hnone' : s.pools.lookup p = none := step_pools_none h hnone
    obtain hearlier | rfl := List.mem_append.mp hmem |>.imp_right List.mem_singleton.mp
    · exact huntouched.elsewhere p hnone' earlier hearlier
    · exact step_elsewhere h hnone'

theorem run_untouched {trace : List Input} (hrun : run rt trace = .ok s) : Untouched s trace :=
  Execution.run_induction (motive := fun trace state ↦ Untouched state trace)
    ⟨fun _ _ ↦ rfl, fun _ _ ↦ rfl, fun _ _ _ hmem ↦ absurd hmem List.not_mem_nil⟩
    (fun _ _ _ _ _ h hstep ↦ step_untouched h hstep) hrun

/-- Every run of the chain is a history of each of its pools. -/
theorem run_poolRun {trace : List Input} (hrun : run rt trace = .ok s)
    (hp : s.pools.lookup p = some ps) : PoolRun rt p trace (s.books ps) := by
  refine Execution.run_induction
    (motive := fun trace state ↦ ∀ ps, state.pools.lookup p = some ps →
      PoolRun rt p trace (state.books ps)) ?_ ?_ hrun ps hp
  · intro ps hp
    simp [genesis] at hp
  · intro trace s input s' hrun ih hstep ps' hp'
    cases hp : s.pools.lookup p with
    | none =>
        obtain ⟨accounts, params, haction, hpool, rfl, hvault, hmint, hbooks, -⟩ :=
          step_create (run_custodial hrun).minted hstep hp hp'
        have huntouched := run_untouched hrun
        rw [hbooks]
        exact .create haction hpool (huntouched.sent _ hvault) (huntouched.burned _ hmint)
          (huntouched.elsewhere p hp)
    | some ps =>
        obtain ⟨found, hfound, hbooks⟩ := step_books (run_custodial hrun) hstep hp
        obtain rfl : found = ps' := by simpa [hp'] using hfound.symm
        exact .step (ih ps hp) hbooks

end Chain

end CredMesh
