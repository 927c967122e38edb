import CredMesh.Safety.Exposure
import CredMesh.Safety.Solvency

/-!
# Deployed capital and booked assets

A liquidation subtracts the principal from both the deployed amount and the total assets, so it
goes through whenever the first is at most the second. Issuing checks that inequality; a
withdrawal checks only the vault balance, and keeps it exactly when the shares are worth no more
than the idle assets.
-/

namespace CredMesh

open Escrow Outcome

/-- The shares are worth at most the idle assets of the pool, rounded down. -/
def Escrow.Pool.RedeemsIdle (pool : Pool) (shares : UInt64) : Prop :=
  (shares.toNat : ℤ) * (pool.totalAssets.toNat + 10 ^ 6) <
    (pool.idle + 1) * (pool.totalShares.toNat + 10 ^ 9)

theorem previewRedeem_le_idle_iff {pool : Pool} {shares assets : UInt64}
    (h : previewRedeem shares pool.totalAssets pool.totalShares = .ok assets) :
    (assets.toNat : ℤ) ≤ pool.idle ↔ pool.RedeemsIdle shares := by
  obtain ⟨-, hassets⟩ := previewRedeem_eq_ok.mp h
  have hpositive : (0 : ℤ) < pool.totalShares.toNat + 10 ^ 9 := by positivity
  have hfloor : (assets.toNat : ℤ) =
      (shares.toNat : ℤ) * (pool.totalAssets.toNat + 10 ^ 6) /
        (pool.totalShares.toNat + 10 ^ 9) := by
    rw [hassets]
    push_cast
    rfl
  rw [← Int.lt_add_one_iff, hfloor, Int.ediv_lt_iff_lt_mul hpositive, Pool.RedeemsIdle]

/-- If the action is a withdrawal from the pool, it redeems at most the idle assets. -/
def WithdrawsIdle (p : Pubkey) (pool : Pool) (action : Action) : Prop :=
  ∀ accounts shares, action = .pool (.withdraw accounts shares) → accounts.pool = p →
    pool.RedeemsIdle shares

/-- Starting from covered books, a step leaves them covered exactly if it is not a withdrawal of
more than the idle assets. -/
theorem PoolStep.covered_iff {rt : Runtime} {r : Registry.RegistryState} {env : Env} {p : Pubkey}
    {action : Action} {b b' : Books} (h : PoolStep rt r env p action b b')
    (hcovered : 0 ≤ b.state.pool.idle) :
    0 ≤ b'.state.pool.idle ↔ WithdrawsIdle p b.state.pool action := by
  have hother (hne : ∀ accounts shares, action ≠ .pool (.withdraw accounts shares)) :
      WithdrawsIdle p b.state.pool action :=
    fun accounts shares heq _ ↦ absurd heq (hne accounts shares)
  cases h with
  | @withdraw _ accounts shares assets _ _ _ _ hpool hassets hbooked _ _ _ =>
      have hredeems : WithdrawsIdle p b.state.pool (.pool (.withdraw accounts shares)) ↔
          b.state.pool.RedeemsIdle shares := by
        refine ⟨fun hidle ↦ hidle accounts shares rfl hpool, fun hredeems _ _ heq _ ↦ ?_⟩
        obtain ⟨rfl, rfl⟩ : _ ∧ shares = _ := by simpa using heq
        exact hredeems
      rw [hredeems, ← previewRedeem_le_idle_iff hassets]
      simp only [Pool.idle]
      omega
  | outside helsewhere _ =>
      refine iff_of_true hcovered fun accounts shares heq hpool ↦ ?_
      exact absurd ⟨_, heq, hpool⟩ helsewhere
  | deposit _ _ _ hassets _ =>
      refine iff_of_true ?_ (hother (by simp))
      simp only [Pool.idle] at hcovered ⊢
      omega
  | issue _ hissues _ =>
      refine iff_of_true ?_ (hother (by simp))
      have hle := UInt64.le_iff_toNat_le.mp hissues.covered
      simp only [Pool.idle, hissues.totalAssets]
      omega
  | settle _ hsettles =>
      refine iff_of_true ?_ (hother (by simp))
      have hassets := hsettles.assets
      have hdeployed := hsettles.closes.deployed
      simp only [Pool.idle] at hcovered ⊢
      omega
  | liquidate _ hliquidates =>
      refine iff_of_true ?_ (hother (by simp))
      have hassets := hliquidates.assets
      have hdeployed := hliquidates.closes.deployed
      simp only [Pool.idle] at hcovered ⊢
      omega
  | _ => exact iff_of_true hcovered (hother (by simp))

/-! ## Liquidating -/

variable {rt : Runtime} {trace : List Input} {s : Chain} {p : Pubkey} {ps : PoolState}

/-- The accounts of a liquidation, derived from the advance. -/
def liquidationOf (p cranker : Pubkey) (advance : Advance) : Liquidate where
  cranker
  advance := ⟨p, advance.agent, advance.receivableId⟩
  consumed := ⟨p, advance.agent, advance.receivableId⟩
  issuanceLedger := ⟨p, advance.agent⟩
  tombstone := ⟨p, advance.agent, advance.receivableId⟩
  pool := p

/-- Anyone can liquidate every open advance whose grace period is over. -/
def Liquidatable (rt : Runtime) (s : Chain) (p : Pubkey) (ps : PoolState) : Prop :=
  ∀ key advance, ps.advances.lookup key = some advance → advance.state = .issued →
    ∀ cranker env, s.pools.lookup cranker = none →
      advance.expiresAt.toInt + liquidationGraceSeconds.toInt ≤ env.now.toInt →
      ∃ s', Chain.step rt ⟨env, .pool (.liquidate (liquidationOf p cranker advance))⟩ s = .ok s'

theorem liquidatable_of_covered (hrun : Chain.run rt trace = .ok s)
    (hp : s.pools.lookup p = some ps)
    (hcovered : ps.pool.deployedAmount.toNat ≤ ps.pool.totalAssets.toNat) :
    Liquidatable rt s p ps := by
  intro key advance hfound hissued cranker env hcranker hwindow
  have hexposure := Chain.run_exposure hrun hp
  have hseeds := ((Chain.run_custodial hrun).custody p ps hp).seeds
  obtain ⟨consumed, ledger, hlive⟩ := hexposure.exists_live hfound
  have hassets := (hexposure.principal_le hlive).1.trans hcovered
  obtain ⟨effect, heffect⟩ :
      ∃ effect, liquidate rt env (liquidationOf p cranker advance) ps s.tokens = .ok effect := by
    apply (Exposure.liquidate_iff hexposure s.tokens).mpr
    exact ⟨advance, hlive.found, ⟨rfl, rfl, rfl, rfl, hwindow⟩, hassets⟩
  exact ⟨_, Chain.step_pool hcranker hp hseeds heffect⟩

/-- The pool, if it exists, has deployed at most its total assets. -/
def Chain.Covered (p : Pubkey) (s : Chain) : Prop :=
  ∀ ps, s.pools.lookup p = some ps →
    ps.pool.deployedAmount.toNat ≤ ps.pool.totalAssets.toNat

/-- Starting from a covered pool, a step leaves it covered exactly if it withdraws at most the
idle assets. -/
theorem Chain.step_covered_iff {input : Input} {s' : Chain} (hrun : Chain.run rt trace = .ok s)
    (hcovered : Chain.Covered p s) (hstep : Chain.step rt input s = .ok s') :
    Chain.Covered p s' ↔
      ∀ ps, s.pools.lookup p = some ps → WithdrawsIdle p ps.pool input.action := by
  cases hp : s.pools.lookup p with
  | none =>
      refine iff_of_true (fun ps' hp' ↦ ?_) (by simp)
      obtain ⟨_, _, -, -, rfl, -⟩ :=
        Chain.step_create (Chain.run_custodial hrun).minted hstep hp hp'
      exact le_refl 0
  | some ps =>
      obtain ⟨ps', hp', hbooks⟩ := Chain.step_books (Chain.run_custodial hrun) hstep hp
      have hbefore := hcovered ps hp
      have hiff := hbooks.covered_iff (by simp only [Chain.books, Pool.idle]; omega)
      simp only [Chain.books, Pool.idle, Int.sub_nonneg, Nat.cast_le] at hiff
      simp only [Chain.Covered, hp', Option.some_inj, forall_eq']
      exact hiff

/-- Along a run the deployed amount stays within the total assets, and every open advance stays
liquidatable, exactly if no withdrawal of the run redeems more than the idle assets. -/
theorem deployed_covered_iff (hrun : Chain.run rt trace = .ok s) (p : Pubkey) :
    (∀ part state ps, part <+: trace → Chain.run rt part = .ok state →
      state.pools.lookup p = some ps →
        ps.pool.deployedAmount.toNat ≤ ps.pool.totalAssets.toNat ∧ Liquidatable rt state p ps) ↔
    (∀ part input state ps, part ++ [input] <+: trace → Chain.run rt part = .ok state →
      state.pools.lookup p = some ps → WithdrawsIdle p ps.pool input.action) := by
  have hstates := Execution.forall_states_iff (Chain.Covered p)
    (fun state input ↦ ∀ ps, state.pools.lookup p = some ps →
      WithdrawsIdle p ps.pool input.action)
    (fun ps hp ↦ by simp [genesis] at hp)
    (fun _ _ _ _ hrun hcovered hstep ↦ Chain.step_covered_iff hrun hcovered hstep) hrun
  constructor
  · intro hcovered part input state ps hpart hstate hp
    exact hstates.mp
      (fun part state hpart hstate ps hp ↦ (hcovered part state ps hpart hstate hp).1)
      part input state hpart hstate ps hp
  · intro hidle part state ps hpart hstate hp
    have hcovered := hstates.mpr (fun part input state hpart hstate ps hp ↦
      hidle part input state ps hpart hstate hp) part state hpart hstate ps hp
    exact ⟨hcovered, liquidatable_of_covered hstate hp hcovered⟩

namespace Localnet

def oneAdvance : List Input := opening ++ [firstRequest 100000000]

/-- While 100 USDC are deployed, someone sends 100 USDC to the vault and the provider redeems all
shares. -/
def drained : List Input := oneAdvance ++ [
  plain (t₀ + 50) (.token (.transfer lpUsdc usdcMint usdcVault lp 100000000 6)),
  withdrawal 1000000000000 (t₀ + 100)]

/-- The end of the first advance's grace period. -/
def graceEnd : Env := ⟨t₀ + 86400 + liquidationGraceSeconds, ⟨[], 0⟩⟩

end Localnet

/-- Without a withdrawal the advance stays covered and liquidatable. -/
theorem deployed_covered_iff_localnet : ∃ s ps,
    Chain.run Localnet.runtime Localnet.oneAdvance = .ok s ∧
    s.pools.lookup Localnet.pool = some ps ∧ ps.pool.deployedAmount = 100000000 ∧
    ps.pool.deployedAmount.toNat ≤ ps.pool.totalAssets.toNat ∧
    Liquidatable Localnet.runtime s Localnet.pool ps := by
  obtain ⟨s, ps, hrun, hp, htest⟩ := Localnet.reaches_iff.mp
    (show Localnet.reaches Localnet.oneAdvance
      (fun _ ps ↦ ps.pool.deployedAmount = 100000000) = true by decide +kernel)
  have hnone : ∀ input ∈ Localnet.oneAdvance, ∀ accounts shares,
      input.action ≠ .pool (.withdraw accounts shares) := by
    simp [Localnet.oneAdvance, Localnet.opening, Localnet.plain, Localnet.firstRequest,
      Localnet.request]
  have hcovered := (deployed_covered_iff hrun Localnet.pool).mpr
    fun part input state ps hpart _ _ accounts shares hwithdraw ↦
      absurd hwithdraw (hnone input (hpart.subset (by simp)) accounts shares)
  exact ⟨s, ps, hrun, hp, of_decide_eq_true htest,
    hcovered Localnet.oneAdvance s ps (List.prefix_refl _) hrun hp⟩

/-- The donated 100 USDC pass the guard of the withdrawal, which books them out of the total
assets. The advance can then not be liquidated at the end of its grace period. -/
theorem withdrawal_uncovers_deployed : ∃ s ps,
    Chain.run Localnet.runtime Localnet.drained = .ok s ∧
    s.pools.lookup Localnet.pool = some ps ∧
    ps.pool.totalAssets.toNat < ps.pool.deployedAmount.toNat ∧
    ∃ advance, ps.advances.lookup (Localnet.agent, Localnet.keyOf 1) = some advance ∧
      advance.state = .issued ∧
      advance.expiresAt.toInt + liquidationGraceSeconds.toInt ≤ Localnet.graceEnd.now.toInt ∧
      Chain.step Localnet.runtime ⟨Localnet.graceEnd,
        .pool (.liquidate (liquidationOf Localnet.pool Localnet.cranker advance))⟩ s =
          .error (.credmesh .mathOverflow) := by
  obtain ⟨s, ps, hrun, hp, htest⟩ := Localnet.reaches_iff.mp
    (show Localnet.reaches Localnet.drained (fun s ps ↦
      ps.pool.totalAssets.toNat < ps.pool.deployedAmount.toNat ∧
      (ps.advances.lookup (Localnet.agent, Localnet.keyOf 1)).any fun advance ↦ decide
        (advance.state = .issued ∧
        advance.expiresAt.toInt + liquidationGraceSeconds.toInt ≤ Localnet.graceEnd.now.toInt ∧
        Localnet.rejects s ⟨Localnet.graceEnd,
          .pool (.liquidate (liquidationOf Localnet.pool Localnet.cranker advance))⟩
          (.credmesh .mathOverflow) = true)) = true by decide +kernel)
  obtain ⟨hshort, hadvance⟩ := of_decide_eq_true htest
  obtain ⟨advance, hfound, hrest⟩ := (Option.any_eq_true _ _).mp hadvance
  obtain ⟨hissued, hwindow, hfails⟩ := of_decide_eq_true hrest
  exact ⟨s, ps, hrun, hp, hshort, advance, hfound, hissued, hwindow,
    Localnet.rejects_iff.mp hfails⟩

end CredMesh
