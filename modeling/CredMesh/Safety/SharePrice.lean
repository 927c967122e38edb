import CredMesh.Chain.Custody
import CredMesh.Chain.Localnet
import CredMesh.Foundation.VirtualShares

/-!
# The price of a share

Deposits and withdrawals round in favour of the pool, and settlements add to its assets, so the
price of a share falls only when an advance is written off. A group of providers that enters and
leaves again, with nobody else entering or leaving in between, therefore takes out no more than it
put in: what it burned of its shares was never worth more than the rest of the pool let it be.
-/

namespace CredMesh

open Escrow Spl VirtualShares

/-- The assets and shares of a pool as its previews count them. -/
def Escrow.Pool.totals (pool : Pool) : Totals where
  assets := pool.totalAssets.toNat + virtualAssetsOffset.toNat
  shares := pool.totalShares.toNat + virtualSharesOffset.toNat

theorem Escrow.Pool.totals_shares_pos (pool : Pool) : 0 < pool.totals.shares :=
  Nat.add_pos_right _ (by decide)

/-- Minting rounds down. -/
theorem Escrow.Buys.priceLe {accounts : Deposit} {amount shares : UInt64} {s s' : PoolState}
    {event : Event} (h : Buys accounts amount s shares s' event) :
    PriceLe s.pool.totals s'.pool.totals := by
  have hassets := h.totalAssets
  have hshares := h.totalShares
  apply priceLe_deposit amount.toNat shares.toNat
  · simp only [Pool.totals]
    omega
  · simp only [Pool.totals]
    omega
  · exact (previewDeposit_eq_ok.mp h.priced).2

/-- So does paying out. -/
theorem Escrow.Redeems.priceLe {accounts : Withdraw} {shares assets : UInt64} {s s' : PoolState}
    {event : Event} (h : Redeems accounts shares s assets s' event) :
    PriceLe s.pool.totals s'.pool.totals := by
  have hassets := h.totalAssets
  have hshares := h.totalShares
  apply priceLe_redeem shares.toNat assets.toNat
  · simp only [Pool.totals]
    omega
  · simp only [Pool.totals]
    omega
  · exact (previewRedeem_eq_ok.mp h.priced).2

/-- The action writes off an advance of the pool. -/
def Action.Liquidates (p : Pubkey) : Action → Prop
  | .pool (.liquidate accounts) => accounts.pool = p
  | _ => False

instance (p : Pubkey) (action : Action) : Decidable (action.Liquidates p) := by
  unfold Action.Liquidates
  split <;> infer_instance

/-- No instruction but `liquidate` lowers the price, whatever the state of the pool. -/
theorem PoolInstruction.handler_price {rt : Runtime} {env : Env} {r : Registry.RegistryState}
    {s : PoolState} {t : TokenLedger} {ix : PoolInstruction} {effect : Effect}
    (h : ix.handler rt env r s t = .ok effect) (hdefault : ∀ accounts, ix ≠ .liquidate accounts) :
    PriceLe s.pool.totals effect.state.pool.totals := by
  cases ix with
  | deposit accounts amount =>
      obtain ⟨_, _, shares, _, -, hbuys, -, -⟩ := deposit_eq_ok.mp h
      exact hbuys.priceLe
  | withdraw accounts shares =>
      obtain ⟨_, _, assets, _, -, hredeems, -, -, -⟩ := withdraw_eq_ok.mp h
      exact hredeems.priceLe
  | requestAdvance accounts receivableId amount nonce =>
      obtain ⟨_, _, _, hissues, -⟩ := requestAdvance_effect h
      rw [hissues.pool]
      exact PriceLe.refl _
  | claimAndSettle accounts paymentAmount =>
      obtain ⟨_, _, _, split, hsettles, -⟩ := claimAndSettle_effect h
      have hassets := hsettles.assets
      apply priceLe_gain
      · simp only [Pool.totals]
        omega
      · rw [hsettles.pool]
        rfl
  | liquidate accounts => exact absurd rfl (hdefault accounts)
  | proposeParams accounts params =>
      obtain ⟨-, -, -, _, -, hstate⟩ := proposeParams_effect h
      rw [hstate]
      exact PriceLe.refl _
  | executeParams accounts =>
      obtain ⟨-, _, -, -, hstate⟩ := executeParams_effect h
      rw [hstate]
      exact PriceLe.refl _
  | skimProtocolFees accounts amount =>
      obtain ⟨-, ⟨_, -, hstate⟩, -⟩ := skimProtocolFees_effect h
      rw [hstate]
      exact PriceLe.refl _

namespace Chain

variable {rt : Runtime} {input : Input} {trace : List Input} {s s' : Chain} {p : Pubkey}
  {ps : PoolState}

theorem step_price (h : step rt input s = .ok s') (hp : s.pools.lookup p = some ps)
    (hdefault : ¬ input.action.Liquidates p) :
    ∃ ps', s'.pools.lookup p = some ps' ∧ PriceLe ps.pool.totals ps'.pool.totals := by
  obtain ⟨ps', hp', hchange⟩ := step_change h hp
  refine ⟨ps', hp', ?_⟩
  cases hchange with
  | elsewhere _ => exact PriceLe.refl _
  | handled haction hpool _ heffect =>
      apply PoolInstruction.handler_price heffect
      rintro accounts rfl
      exact hdefault (by rw [haction]; exact hpool)

/-- Along a stretch of a run without liquidations of the pool the price does not fall. -/
theorem run_price (hrun : Execution.run (step rt) s trace = .ok s')
    (hp : s.pools.lookup p = some ps)
    (hdefault : ∀ input ∈ trace, ¬ input.action.Liquidates p) :
    ∃ ps', s'.pools.lookup p = some ps' ∧ PriceLe ps.pool.totals ps'.pool.totals := by
  refine Execution.prefix_induction
    (motive := fun _ state ↦ ∃ ps', state.pools.lookup p = some ps' ∧
      PriceLe ps.pool.totals ps'.pool.totals)
    ⟨ps, hp, PriceLe.refl _⟩ ?_ trace s' (List.prefix_refl trace) hrun
  intro part input state next hpart _ hbefore hstep
  obtain ⟨middle, hmiddle, hprice⟩ := hbefore
  have hmem : input ∈ trace := hpart.subset (by simp)
  obtain ⟨ps', hp', hnext⟩ := step_price hstep hmiddle (hdefault input hmem)
  exact ⟨ps', hp', hprice.trans hnext middle.pool.totals_shares_pos⟩

end Chain

/-- In every state of a pool, only `liquidate` can lower the price of its shares; along every
stretch of a run without liquidations the price does not fall, and a liquidation takes exactly the
principal out of the assets. -/
theorem share_price_falls_only_by_default (rt : Runtime) :
    (∀ env r s t ix effect, PoolInstruction.handler rt env r s t ix = .ok effect →
      (∀ accounts, ix ≠ .liquidate accounts) →
      PriceLe s.pool.totals effect.state.pool.totals) ∧
    (∀ p s s' ps trace, Execution.run (Chain.step rt) s trace = .ok s' →
      s.pools.lookup p = some ps → (∀ input ∈ trace, ¬ input.action.Liquidates p) →
      ∃ ps', s'.pools.lookup p = some ps' ∧ PriceLe ps.pool.totals ps'.pool.totals) ∧
    (∀ input s s' accounts, Chain.step rt input s = .ok s' →
      input.action = .pool (.liquidate accounts) →
      ∃ ps ps' advance, s.pools.lookup accounts.pool = some ps ∧
        s'.pools.lookup accounts.pool = some ps' ∧
        ps.advances.lookup accounts.advance.key = some advance ∧
        ps'.pool.totalAssets.toNat + advance.principal.toNat = ps.pool.totalAssets.toNat ∧
        ps'.pool.totalShares = ps.pool.totalShares) := by
  refine ⟨?_, ?_, ?_⟩
  · intro env r s t ix effect h hdefault
    exact PoolInstruction.handler_price h hdefault
  · intro p s s' ps trace hrun hp hdefault
    exact Chain.run_price hrun hp hdefault
  · intro input s s' accounts hstep haction
    obtain ⟨ps, ps', advance, _, _, hp, hp', hliquidates⟩ := Chain.step_liquidates hstep haction
    have hshares : ps'.pool.totalShares = ps.pool.totalShares := by
      rw [hliquidates.pool]
    exact ⟨ps, ps', advance, hp, hp', hliquidates.stored, hliquidates.assets, hshares⟩

/-- The first advance does not lower the price; writing it off costs its 100 USDC. -/
theorem share_price_falls_only_by_default_localnet :
    ∃ s₁ s₂ s₃ ps₁ ps₂ ps₃, Chain.run Localnet.runtime Localnet.opening = .ok s₁ ∧
      Execution.run (Chain.step Localnet.runtime) s₁ [Localnet.firstRequest 100000000] = .ok s₂ ∧
      Chain.run Localnet.runtime Localnet.defaulted = .ok s₃ ∧
      s₁.pools.lookup Localnet.pool = some ps₁ ∧ s₂.pools.lookup Localnet.pool = some ps₂ ∧
      s₃.pools.lookup Localnet.pool = some ps₃ ∧ PriceLe ps₁.pool.totals ps₂.pool.totals ∧
      ps₃.pool.totalAssets.toNat + 100000000 = ps₂.pool.totalAssets.toNat := by
  obtain ⟨s₃, -, hrun, -⟩ := Localnet.reaches_iff.mp
    (show Localnet.reaches Localnet.defaulted (fun _ _ ↦ true) = true by decide +kernel)
  obtain ⟨s₂, hissued, hliquidated⟩ := Execution.run_snoc.mp
    (show Chain.run Localnet.runtime ((Localnet.opening ++ [Localnet.firstRequest 100000000]) ++
      [Localnet.liquidation 1 (Localnet.t₀ + 86400 + liquidationGraceSeconds)]) = .ok s₃ from hrun)
  obtain ⟨s₁, hopened, hstretch⟩ := Execution.run_append.mp hissued
  obtain ⟨ps₁, hp₁, -⟩ := Localnet.reaches_run hopened
    (show Localnet.reaches Localnet.opening (fun _ _ ↦ true) = true by decide +kernel)
  obtain ⟨stored, hstate, htest⟩ := Localnet.reaches_run hissued
    (show Localnet.reaches (Localnet.opening ++ [Localnet.firstRequest 100000000])
      (fun _ ps ↦ (ps.advances.lookup (Localnet.agent, Localnet.keyOf 1)).any
        fun advance ↦ advance.principal = 100000000) = true by decide +kernel)
  obtain ⟨-, hprice, hloss⟩ := share_price_falls_only_by_default Localnet.runtime
  obtain ⟨ps₂, hp₂, hle⟩ := hprice Localnet.pool s₁ s₂ ps₁ _ hstretch hp₁
    (by simp [Localnet.firstRequest, Localnet.request, Action.Liquidates])
  obtain ⟨before, ps₃, advance, hbefore, hp₃, hadvance, hassets, -⟩ :=
    hloss _ s₂ s₃ _ hliquidated rfl
  obtain rfl : ps₂ = before := by simpa [hp₂] using hbefore
  obtain rfl : ps₂ = stored := by simpa [hp₂] using hstate
  have hfirst : ps₂.advances.lookup (Localnet.agent, Localnet.keyOf 1) = some advance := hadvance
  have hprincipal : advance.principal = 100000000 := by simpa [hfirst] using htest
  rw [hprincipal] at hassets
  exact ⟨s₁, s₂, s₃, ps₁, ps₂, ps₃, hopened, hstretch, hrun, hp₁, hp₂, hp₃, hle, hassets⟩

/-! ## Entering and leaving again -/

section Cycling

variable (p : Pubkey) (coalition : Pubkey → Prop) [DecidablePred coalition]

/-- What members of the coalition put into the pool with an event. -/
def Escrow.Event.depositedBy : Event → ℕ
  | .deposited pool lp amount _ => if pool = p ∧ coalition lp then amount.toNat else 0
  | _ => 0

/-- What members of the coalition take out of the pool with an event. -/
def Escrow.Event.withdrawnBy : Event → ℕ
  | .withdrew pool lp _ assets => if pool = p ∧ coalition lp then assets.toNat else 0
  | _ => 0

/-- What the pool lends to members of the coalition, or pays to its treasury, with an event. -/
def Escrow.Event.grantedBy : Event → ℕ
  | .advanceIssued pool agent _ principal _ _ _ =>
      if pool = p ∧ coalition agent then principal.toNat else 0
  | .protocolFeesSkimmed pool amount _ => if pool = p then amount.toNat else 0
  | _ => 0

omit [DecidablePred coalition] in
/-- The vault exists and belongs to nobody in the coalition. -/
def Escrow.Pool.VaultApart (pool : Pool) (t : TokenLedger) : Prop :=
  ∃ owner, t.IsAccount pool.usdcVault pool.assetMint owner ∧ ¬ coalition owner

omit [DecidablePred coalition] in
/-- The deposits and withdrawals of the coalition, issuances, and what governance does. -/
def PoolInstruction.Cycles (ix : PoolInstruction) : Prop :=
  ix.pool = p ∧
  match ix with
  | .deposit accounts _ => coalition accounts.lp
  | .withdraw accounts _ => coalition accounts.lp
  | .requestAdvance _ _ _ _ => True
  | .proposeParams _ _ => True
  | .executeParams _ => True
  | .skimProtocolFees _ _ => True
  | .claimAndSettle _ _ => False
  | .liquidate _ => False

variable {p} {rt : Runtime} {env : Env} {r : Registry.RegistryState} {s : PoolState}
  {t : TokenLedger} {effect : Effect}

theorem deposit_heldBy {accounts : Deposit} {amount : UInt64}
    (h : deposit accounts amount s t = .ok effect) (hmember : coalition accounts.lp)
    (hmints : s.pool.assetMint ≠ s.pool.shareMint) :
    ∃ shares, effect.event = .deposited accounts.pool accounts.lp amount shares ∧
      effect.state.pool.totalAssets.toNat = s.pool.totalAssets.toNat + amount.toNat ∧
      effect.state.pool.totalShares.toNat = s.pool.totalShares.toNat + shares.toNat ∧
      effect.tokens.heldBy s.pool.shareMint coalition =
        t.heldBy s.pool.shareMint coalition + shares.toNat ∧
      (s.pool.VaultApart coalition t →
        effect.tokens.heldBy s.pool.assetMint coalition + amount.toNat =
          t.heldBy s.pool.assetMint coalition) := by
  obtain ⟨_, _, shares, t₁, haccounts, hbuys, htransfer, hmint⟩ := deposit_eq_ok.mp h
  have hready := (Deposit.tryAccounts_eq_ok.mp haccounts).1
  have haccount := (transferChecked_flow htransfer).persists.account _ _ _ hready.lpShare
  rw [hready.usdcMint] at htransfer
  rw [hready.shareMint] at hmint
  refine ⟨shares, hbuys.emitted, hbuys.totalAssets, hbuys.totalShares, ?_, ?_⟩
  · rw [mintTo_heldBy coalition hmint haccount, transferChecked_heldBy coalition htransfer hmints,
      if_pos ⟨rfl, hmember⟩]
  · rintro ⟨owner, hvault, hapart⟩
    rw [← hready.vault] at hvault
    have hpaid := transferChecked_heldBy_owners coalition htransfer hready.lpUsdc hvault
    rw [if_pos hmember, if_neg hapart, add_zero] at hpaid
    rw [mintTo_heldBy coalition hmint haccount, if_neg fun hsame ↦ hmints hsame.1.symm, add_zero]
    exact hpaid

theorem withdraw_heldBy {accounts : Withdraw} {shares : UInt64}
    (h : withdraw accounts shares s t = .ok effect) (hmember : coalition accounts.lp)
    (hmints : s.pool.assetMint ≠ s.pool.shareMint) :
    ∃ assets, effect.event = .withdrew accounts.pool accounts.lp shares assets ∧
      effect.state.pool.totalAssets.toNat + assets.toNat = s.pool.totalAssets.toNat ∧
      effect.state.pool.totalShares.toNat + shares.toNat = s.pool.totalShares.toNat ∧
      effect.tokens.heldBy s.pool.shareMint coalition + shares.toNat =
        t.heldBy s.pool.shareMint coalition ∧
      (s.pool.VaultApart coalition t →
        effect.tokens.heldBy s.pool.assetMint coalition =
          t.heldBy s.pool.assetMint coalition + assets.toNat) := by
  obtain ⟨_, _, assets, t₁, haccounts, hredeems, -, hburn, htransfer⟩ := withdraw_eq_ok.mp h
  have hready := (Deposit.tryAccounts_eq_ok.mp haccounts).1
  have hpersists := (burn_flow hburn).persists
  rw [hready.usdcMint] at htransfer
  rw [hready.shareMint] at hburn
  refine ⟨assets, hredeems.emitted, hredeems.totalAssets, hredeems.totalShares, ?_, ?_⟩
  · rw [transferChecked_heldBy coalition htransfer hmints,
      ← burn_heldBy coalition hburn hready.lpShare, if_pos ⟨rfl, hmember⟩]
  · rintro ⟨owner, hvault, hapart⟩
    rw [← hready.vault] at hvault
    have hpaid := transferChecked_heldBy_owners coalition htransfer
      (hpersists.account _ _ _ hvault) (hpersists.account _ _ _ hready.lpUsdc)
    rw [if_neg hapart, if_pos hmember, add_zero] at hpaid
    rw [hpaid, ← burn_heldBy coalition hburn hready.lpShare,
      if_neg fun hsame ↦ hmints hsame.1.symm, add_zero]

theorem requestAdvance_heldBy {accounts : RequestAdvance} {receivableId : Bytes 32}
    {amount : UInt64} {nonce : Bytes 16}
    (h : requestAdvance rt env accounts receivableId amount nonce r s t = .ok effect)
    (hmints : s.pool.assetMint ≠ s.pool.shareMint) :
    effect.tokens.heldBy s.pool.shareMint coalition = t.heldBy s.pool.shareMint coalition ∧
    (s.pool.VaultApart coalition t →
      effect.tokens.heldBy s.pool.assetMint coalition =
        t.heldBy s.pool.assetMint coalition +
          if coalition accounts.agent then amount.toNat else 0) := by
  obtain ⟨_, _, _, _, t₁, hopens, -, htransfer, -⟩ := requestAdvance_eq_ok.mp h
  have hopened (mint : Pubkey) : t₁.heldBy mint coalition = t.heldBy mint coalition := by
    have hata := hopens.opened
    simp only [initAssociatedTokenAccount, Outcome.bind_eq_ok, Outcome.require_eq_ok] at hata
    obtain ⟨-, -, hata⟩ := hata
    split at hata
    case h_1 account hfound =>
      simp only [Outcome.bind_eq_ok, Outcome.require_eq_ok, Outcome.pure_eq_ok] at hata
      obtain ⟨-, -, -, -, rfl⟩ := hata
      rfl
    case h_2 => exact initializeAccount_heldBy coalition (Outcome.mapError_eq_ok.mp hata)
  obtain ⟨hagent, hflow⟩ := initAssociatedTokenAccount_flow hopens.opened
  rw [hopens.asset] at htransfer hagent
  constructor
  · rw [transferChecked_heldBy coalition htransfer hmints, hopened]
  · rintro ⟨owner, hvault, hapart⟩
    rw [← hopens.vault] at hvault
    have hpaid := transferChecked_heldBy_owners coalition htransfer
      (hflow.persists.account _ _ _ hvault) hagent
    rw [if_neg hapart, add_zero, hopened] at hpaid
    exact hpaid

theorem skimProtocolFees_heldBy {accounts : SkimProtocolFees} {amount : UInt64}
    (h : skimProtocolFees env accounts amount s t = .ok effect)
    (hmints : s.pool.assetMint ≠ s.pool.shareMint) :
    effect.tokens.heldBy s.pool.shareMint coalition = t.heldBy s.pool.shareMint coalition ∧
    (s.pool.VaultApart coalition t →
      effect.tokens.heldBy s.pool.assetMint coalition ≤
        t.heldBy s.pool.assetMint coalition + amount.toNat) := by
  obtain ⟨_, hready, -, htransfer, -⟩ := skimProtocolFees_eq_ok.mp h
  rw [hready.asset] at htransfer
  refine ⟨transferChecked_heldBy coalition htransfer hmints, ?_⟩
  rintro ⟨owner, hvault, hapart⟩
  rw [← hready.vault] at hvault
  obtain ⟨recipient, hrecipient⟩ := (transferChecked_ready htransfer).destination
  have hpaid := transferChecked_heldBy_owners coalition htransfer hvault hrecipient
  split_ifs at hpaid <;> omega

variable {coalition}

/-- One step of a cycle: the assets move by what the coalition puts in and takes out, the share
counter by the shares it holds, and what it holds of the asset by no more than that and what the
pool pays out otherwise. -/
theorem PoolInstruction.handler_cycles {ix : PoolInstruction}
    (h : ix.handler rt env r s t = .ok effect) (hcycles : ix.Cycles p coalition)
    (hmints : s.pool.assetMint ≠ s.pool.shareMint) :
    effect.state.pool.totalAssets.toNat + effect.event.withdrawnBy p coalition =
      s.pool.totalAssets.toNat + effect.event.depositedBy p coalition ∧
    effect.state.pool.totalShares.toNat + t.heldBy s.pool.shareMint coalition =
      s.pool.totalShares.toNat + effect.tokens.heldBy s.pool.shareMint coalition ∧
    (s.pool.VaultApart coalition t →
      effect.tokens.heldBy s.pool.assetMint coalition + effect.event.depositedBy p coalition ≤
        t.heldBy s.pool.assetMint coalition + effect.event.withdrawnBy p coalition +
          effect.event.grantedBy p coalition) := by
  obtain ⟨rfl, hcycles⟩ := hcycles
  have hemits := handler_emits h
  generalize hevent : effect.event = event at hemits ⊢
  cases hemits with
  | @deposit accounts amount shares =>
      obtain ⟨_, hemitted, hassets, htotal, hheld, hpaid⟩ :=
        deposit_heldBy coalition h hcycles hmints
      cases hevent.symm.trans hemitted
      have hin : Event.depositedBy accounts.pool coalition
          (.deposited accounts.pool accounts.lp amount shares) = amount.toNat :=
        if_pos ⟨rfl, hcycles⟩
      exact ⟨hin ▸ hassets, by omega, fun hapart ↦ (hin ▸ hpaid hapart).le⟩
  | @withdraw accounts shares assets =>
      obtain ⟨_, hemitted, hassets, htotal, hheld, hpaid⟩ :=
        withdraw_heldBy coalition h hcycles hmints
      cases hevent.symm.trans hemitted
      have hout : Event.withdrawnBy accounts.pool coalition
          (.withdrew accounts.pool accounts.lp shares assets) = assets.toNat :=
        if_pos ⟨rfl, hcycles⟩
      exact ⟨hout ▸ hassets, by omega, fun hapart ↦ (hout ▸ hpaid hapart).le⟩
  | requestAdvance =>
      obtain ⟨_, _, _, hissues, -⟩ := requestAdvance_effect h
      obtain ⟨hheld, hpaid⟩ := requestAdvance_heldBy coalition h hmints
      rw [hheld, hissues.pool]
      refine ⟨rfl, rfl, fun hapart ↦ (hpaid hapart).le.trans ?_⟩
      simp [Event.withdrawnBy, Event.grantedBy, PoolInstruction.pool]
  | claimAndSettle _ _ => exact hcycles.elim
  | liquidate _ => exact hcycles.elim
  | proposeParams =>
      obtain ⟨-, -, htokens, _, -, hstate⟩ := proposeParams_effect h
      rw [htokens, hstate]
      exact ⟨rfl, rfl, fun _ ↦ le_rfl⟩
  | executeParams =>
      obtain ⟨htokens, _, -, -, hstate⟩ := executeParams_effect h
      rw [htokens, hstate]
      exact ⟨rfl, rfl, fun _ ↦ le_rfl⟩
  | skimProtocolFees =>
      obtain ⟨-, ⟨_, -, hstate⟩, -⟩ := skimProtocolFees_effect h
      obtain ⟨hheld, hpaid⟩ := skimProtocolFees_heldBy coalition h hmints
      rw [hheld, hstate]
      refine ⟨rfl, rfl, fun hapart ↦ (hpaid hapart).trans ?_⟩
      simp [Event.withdrawnBy, Event.grantedBy, PoolInstruction.pool]

variable (p coalition)

def depositedBy (events : List Event) : ℕ := (events.map (Event.depositedBy p coalition)).sum

def withdrawnBy (events : List Event) : ℕ := (events.map (Event.withdrawnBy p coalition)).sum

def grantedBy (events : List Event) : ℕ := (events.map (Event.grantedBy p coalition)).sum

/-- What a cycle that started at `s` has done so far. -/
structure Cycled (s : Chain) (ps : PoolState) (later : List Event) (s' : Chain) (ps' : PoolState) :
    Prop where
  found : s'.pools.lookup p = some ps'
  events : s'.events = s.events ++ later
  identity : ps'.pool.identity = ps.pool.identity
  price : PriceLe ps.pool.totals ps'.pool.totals
  assets : ps'.pool.totalAssets.toNat + withdrawnBy p coalition later =
    ps.pool.totalAssets.toNat + depositedBy p coalition later
  shares : ps'.pool.totalShares.toNat + s.tokens.heldBy ps.pool.shareMint coalition =
    ps.pool.totalShares.toNat + s'.tokens.heldBy ps.pool.shareMint coalition
  apart : ps.pool.VaultApart coalition s.tokens → ps'.pool.VaultApart coalition s'.tokens
  held : ps.pool.VaultApart coalition s.tokens →
    s'.tokens.heldBy ps.pool.assetMint coalition + depositedBy p coalition later ≤
      s.tokens.heldBy ps.pool.assetMint coalition + withdrawnBy p coalition later +
        grantedBy p coalition later

variable {p coalition} {s₀ s₁ s₂ : Chain} {ps₀ ps₁ : PoolState}

theorem Cycled.step {input : Input} {later : List Event}
    (h : Cycled p coalition s₀ ps₀ later s₁ ps₁) (hstep : Chain.step rt input s₁ = .ok s₂)
    (hcycles : ∃ ix, input.action = .pool ix ∧ ix.Cycles p coalition)
    (hmints : ps₀.pool.assetMint ≠ ps₀.pool.shareMint) :
    ∃ event ps₂, Cycled p coalition s₀ ps₀ (later ++ [event]) s₂ ps₂ := by
  obtain ⟨cycled, hcycled, hcycles⟩ := hcycles
  have hasset := congrArg PoolIdentity.assetMint h.identity
  have hshare := congrArg PoolIdentity.shareMint h.identity
  dsimp only [Pool.identity] at hasset hshare
  rw [← hasset, ← hshare] at hmints
  obtain ⟨ps₂, hp₂, hchange⟩ := Chain.step_change hstep h.found
  cases hchange with
  | elsewhere helsewhere => exact absurd ⟨cycled, hcycled, hcycles.1⟩ helsewhere
  | @handled ix effect haction hpool _ heffect =>
      obtain rfl : cycled = ix := by simpa [hcycled] using haction
      have hprice := PoolInstruction.handler_price heffect fun accounts hix ↦ by
        rw [hix] at hcycles
        exact hcycles.2
      obtain ⟨hassets, hshares, hheld⟩ := PoolInstruction.handler_cycles heffect hcycles hmints
      have hidentity := PoolInstruction.handler_identity heffect
      have hbefore := h.assets
      have hcounted := h.shares
      rw [hshare] at hshares
      refine ⟨effect.event, effect.state, hp₂, ?_, ?_, ?_, ?_, ?_, ?_, ?_⟩
      · rw [Chain.commit, h.events, List.append_assoc]
      · rw [hidentity, h.identity]
      · exact h.price.trans hprice ps₁.pool.totals_shares_pos
      · simp only [withdrawnBy, depositedBy, List.map_append, List.sum_append, List.map_cons,
          List.map_nil, List.sum_singleton] at hbefore ⊢
        omega
      · simp only [Chain.commit]
        omega
      · intro hapart
        obtain ⟨owner, hvault, hother⟩ := h.apart hapart
        obtain ⟨_, _, _, _, hflow⟩ := PoolInstruction.handler_flow heffect
        refine ⟨owner, ?_, hother⟩
        have hsame := congrArg PoolIdentity.usdcVault hidentity
        have hkept := congrArg PoolIdentity.assetMint hidentity
        dsimp only [Pool.identity] at hsame hkept
        rw [hsame, hkept]
        exact hflow.persists.account _ _ _ hvault
      · intro hapart
        have hearlier := h.held hapart
        have hlater := hheld (h.apart hapart)
        rw [hasset] at hlater
        simp only [Chain.commit, withdrawnBy, depositedBy, grantedBy, List.map_append,
          List.sum_append, List.map_cons, List.map_nil, List.sum_singleton] at hearlier ⊢
        omega

/-- From every state of a pool, a coalition that holds no shares of it takes out, in any sequence
of its deposits and withdrawals interleaved with issuances and governance, at most what it puts
in. In the accounts of the token program, what it holds of the asset then grows by no more than the
pool lends to it or pays to its treasury. A pool's share mint is created with it and is not its
asset mint. -/
theorem cycling_yields_nothing {trace : List Input} (hp : s₀.pools.lookup p = some ps₀)
    (hmints : ps₀.pool.assetMint ≠ ps₀.pool.shareMint)
    (hnone : s₀.tokens.heldBy ps₀.pool.shareMint coalition = 0)
    (hcycles : ∀ input ∈ trace, ∃ ix, input.action = .pool ix ∧ ix.Cycles p coalition)
    (hrun : Execution.run (Chain.step rt) s₀ trace = .ok s₁) :
    ∃ later, s₁.events = s₀.events ++ later ∧
      withdrawnBy p coalition later ≤ depositedBy p coalition later ∧
      (ps₀.pool.VaultApart coalition s₀.tokens →
        s₁.tokens.heldBy ps₀.pool.assetMint coalition ≤
          s₀.tokens.heldBy ps₀.pool.assetMint coalition + grantedBy p coalition later) := by
  obtain ⟨later, ps₁, hcycled⟩ : ∃ later ps₁, Cycled p coalition s₀ ps₀ later s₁ ps₁ := by
    refine Execution.prefix_induction
      (motive := fun _ state ↦ ∃ later ps₁, Cycled p coalition s₀ ps₀ later state ps₁)
      ⟨[], ps₀, hp, by simp, rfl, PriceLe.refl _, rfl, rfl, id, fun _ ↦ le_rfl⟩ ?_ trace s₁
      (List.prefix_refl trace) hrun
    intro part input state next hpart _ hbefore hstep
    obtain ⟨later, ps₁, hcycled⟩ := hbefore
    obtain ⟨event, ps₂, hnext⟩ :=
      hcycled.step hstep (hcycles input (hpart.subset (by simp))) hmints
    exact ⟨later ++ [event], ps₂, hnext⟩
  have hshares := hcycled.shares
  have hassets := hcycled.assets
  rw [hnone] at hshares
  -- the coalition's own shares are all that was added, so the others' assets are still there
  have hkept := hcycled.price.assets_le
    (by simp only [Pool.totals]; omega) ps₀.pool.totals_shares_pos
  simp only [Pool.totals] at hkept
  have hle : withdrawnBy p coalition later ≤ depositedBy p coalition later := by omega
  refine ⟨later, hcycled.events, hle, fun hapart ↦ ?_⟩
  have hheld := hcycled.held hapart
  omega

end Cycling

namespace Localnet

/-- The provider enters the empty pool, an advance is issued, and half of the shares leave. -/
def cycle : List Input := [
  plain t₀ (.pool (.deposit liquidityAccounts 1000000000)),
  firstRequest 100000000,
  withdrawal 500000000000 (t₀ + 100)]

end Localnet

theorem cycling_yields_nothing_localnet : ∃ s₀ s₁ later,
    Chain.run Localnet.runtime Localnet.opening.dropLast = .ok s₀ ∧
    Execution.run (Chain.step Localnet.runtime) s₀ Localnet.cycle = .ok s₁ ∧
    s₁.events = s₀.events ++ later ∧
    withdrawnBy Localnet.pool (· = Localnet.lp) later ≤
      depositedBy Localnet.pool (· = Localnet.lp) later ∧
    s₁.tokens.heldBy Localnet.usdcMint (· = Localnet.lp) ≤
      s₀.tokens.heldBy Localnet.usdcMint (· = Localnet.lp) +
        grantedBy Localnet.pool (· = Localnet.lp) later := by
  obtain ⟨s₁, -, hrun, -⟩ := Localnet.reaches_iff.mp
    (show Localnet.reaches (Localnet.opening.dropLast ++ Localnet.cycle) (fun _ _ ↦ true) = true by
      decide +kernel)
  obtain ⟨s₀, hbefore, hcycle⟩ := Execution.run_append.mp hrun
  obtain ⟨ps₀, hp, htest⟩ := Localnet.reaches_run hbefore
    (show Localnet.reaches Localnet.opening.dropLast (fun s ps ↦
      ps.pool.assetMint ≠ ps.pool.shareMint ∧
      s.tokens.heldBy ps.pool.shareMint (· = Localnet.lp) = 0 ∧
      ps.pool.assetMint = Localnet.usdcMint ∧
      (s.tokens.accounts.lookup ps.pool.usdcVault).any fun account ↦
        account.mint = ps.pool.assetMint ∧ account.owner ≠ Localnet.lp) = true by decide +kernel)
  obtain ⟨hmints, hnone, hasset, hvault⟩ := of_decide_eq_true htest
  have hapart : ps₀.pool.VaultApart (· = Localnet.lp) s₀.tokens := by
    obtain ⟨account, hfound, hchecked⟩ := (Option.any_eq_true _ _).mp hvault
    obtain ⟨hmint, hother⟩ := of_decide_eq_true hchecked
    exact ⟨account.owner, ⟨account, hfound, hmint, rfl⟩, hother⟩
  have hcycles : ∀ input ∈ Localnet.cycle, ∃ ix, input.action = .pool ix ∧
      ix.Cycles Localnet.pool (· = Localnet.lp) := by
    intro input hinput
    simp only [Localnet.cycle, List.mem_cons, List.not_mem_nil, or_false] at hinput
    obtain rfl | rfl | rfl := hinput
    · exact ⟨_, rfl, rfl, rfl⟩
    · exact ⟨_, rfl, rfl, trivial⟩
    · exact ⟨_, rfl, rfl, rfl⟩
  obtain ⟨later, hevents, hle, hheld⟩ := cycling_yields_nothing hp hmints hnone hcycles hcycle
  exact ⟨s₀, s₁, later, hbefore, hcycle, hevents, hle, hasset ▸ hheld hapart⟩

end CredMesh
