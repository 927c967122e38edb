import CredMesh.Chain.Acceptance
import CredMesh.Safety.Coverage
import CredMesh.Safety.TerminalOrder

/-!
# Winding up

Whether a pool can still be wound up, that is rid of all its advances by liquidations alone, is
decided by two facts: it has not paid out more than its idle assets, and the grace period of every
advance ends in the range of the clock. It needs no one but a cranker, and the providers keep their
shares and the idle assets.
-/

namespace CredMesh

open Outcome Escrow

variable {rt : Runtime} {trace : List Input} {s s' : Chain} {p cranker : Pubkey}
  {ps ps' : PoolState} {input : Input} {accounts : Liquidate}

/-- Liquidations for a pool that all have the same cranker. -/
def LiquidationsBy (p cranker : Pubkey) (batch : List Input) : Prop :=
  ∀ input ∈ batch, ∃ accounts, input.action = .pool (.liquidate accounts) ∧ accounts.pool = p ∧
    accounts.cranker = cranker

/-- What no liquidation changes. -/
structure WrittenDown (s s' : Chain) (ps ps' : PoolState) : Prop where
  tokens : s'.tokens = s.tokens
  totalShares : ps'.pool.totalShares = ps.pool.totalShares
  idle : ps'.pool.idle = ps.pool.idle

theorem WrittenDown.trans {s₁ s₂ s₃ : Chain} {ps₁ ps₂ ps₃ : PoolState}
    (h : WrittenDown s₁ s₂ ps₁ ps₂) (h' : WrittenDown s₂ s₃ ps₂ ps₃) :
    WrittenDown s₁ s₃ ps₁ ps₃ where
  tokens := h'.tokens.trans h.tokens
  totalShares := h'.totalShares.trans h.totalShares
  idle := h'.idle.trans h.idle

/-- The grace period of every advance ends while the clock can still show it. -/
def Escrow.PoolState.GraceEnds (ps : PoolState) : Prop :=
  ∀ key advance, ps.advances.lookup key = some advance →
    advance.expiresAt.toInt + liquidationGraceSeconds.toInt < 2 ^ 63

/-- A liquidation closes its advance. -/
structure ClosesOne (now : Int64) (accounts : Liquidate) (s s' : Chain) (ps ps' : PoolState) :
    Prop where
  pool : s'.pools.lookup accounts.pool = some ps'
  signers : ∀ signer, s'.pools.lookup signer = none ↔ s.pools.lookup signer = none
  overdue : ∃ advance, ps.advances.lookup accounts.advance.key = some advance ∧
    Overdue now accounts advance
  advances : ps'.advances = ps.advances.erase accounts.advance.key
  kept : WrittenDown s s' ps ps'

theorem Chain.step_closesOne (hp : s.pools.lookup accounts.pool = some ps)
    (haction : input.action = .pool (.liquidate accounts)) (hstep : step rt input s = .ok s') :
    ∃ ps', ClosesOne input.env.now accounts s s' ps ps' := by
  obtain ⟨ps', hleaves⟩ := step_leaves hp haction hstep
  obtain ⟨found, effect, hfound, hp', heffect, rfl⟩ := step_handled hstep haction
  obtain rfl : ps = found := by simpa [PoolInstruction.pool, hp] using hfound
  obtain rfl : effect.state = ps' := Option.some.inj (hp'.symm.trans hleaves.pool)
  obtain ⟨htokens, advance, consumed, ledger, hoverdue, hliquidates, -⟩ :=
    liquidate_eq_ok.mp heffect
  refine ⟨effect.state, hleaves.pool, hleaves.signers, ⟨advance, hliquidates.stored, hoverdue⟩, ?_,
    htokens, ?_, ?_⟩
  · rw [hliquidates.closes.advances, hliquidates.key_eq]
  · rw [hliquidates.pool]
  · have hassets := hliquidates.assets
    have hdeployed := hliquidates.closes.deployed
    rw [Pool.idle, Pool.idle]
    omega

/-! ## What a batch of liquidations needs -/

/-- An advance that liquidations closed had a grace period that ends. -/
theorem Chain.run_closes {batch : List Input} (hbatch : LiquidationsBy p cranker batch)
    (hp : s.pools.lookup p = some ps)
    (hbatchRun : Execution.run (step rt) s batch = .ok s') :
    ∃ ps', s'.pools.lookup p = some ps' ∧ WrittenDown s s' ps ps' ∧
      ∀ key advance, ps.advances.lookup key = some advance →
        ps'.advances.lookup key = some advance ∨
        advance.expiresAt.toInt + liquidationGraceSeconds.toInt < 2 ^ 63 := by
  induction batch generalizing s ps with
  | nil =>
      obtain rfl : s = s' := Except.ok.inj hbatchRun
      exact ⟨ps, hp, ⟨rfl, rfl, rfl⟩, fun _ _ hstored ↦ .inl hstored⟩
  | cons input rest ih =>
      obtain ⟨⟨accounts, haction, rfl, -⟩, hrest⟩ := List.forall_mem_cons.mp hbatch
      obtain ⟨middle, hstep, hremaining⟩ := Execution.run_cons.mp hbatchRun
      obtain ⟨ps₁, hcloses⟩ := step_closesOne hp haction hstep
      obtain ⟨ps', hp', hkept, hleft⟩ := ih hrest hcloses.pool hremaining
      refine ⟨ps', hp', hcloses.kept.trans hkept, fun key advance hstored ↦ ?_⟩
      by_cases hkey : key = accounts.advance.key
      · obtain ⟨closed, hclosed, hoverdue⟩ := hcloses.overdue
        obtain rfl : advance = closed :=
          Option.some.inj (hstored.symm.trans (hkey ▸ hclosed))
        exact .inr (hoverdue.window.trans_lt input.env.now.toInt_lt)
      · apply hleft
        rw [hcloses.advances, Finmap.lookup_erase_ne hkey]
        exact hstored

/-! ## What suffices -/

/-- One liquidation after the other, each of them covered by the one fact that all of them keep. -/
theorem Chain.exists_windingUp (hcranker : s.pools.lookup cranker = none)
    (hrun : run rt trace = .ok s) (hp : s.pools.lookup p = some ps)
    (hcovered : ps.pool.deployedAmount.toNat ≤ ps.pool.totalAssets.toNat) (hends : ps.GraceEnds) :
    ∃ batch s' ps', LiquidationsBy p cranker batch ∧
      Execution.run (step rt) s batch = .ok s' ∧ s'.pools.lookup p = some ps' ∧
      ps'.advances = ∅ := by
  -- by induction on the number of open advances
  induction hcount : ps.advances.keys.card generalizing trace s ps with
  | zero =>
      refine ⟨[], s, ps, fun _ hnone ↦ absurd hnone List.not_mem_nil, rfl, hp, ?_⟩
      apply Finmap.ext_lookup
      intro key
      rw [Finmap.lookup_empty, Finmap.lookup_eq_none, ← Finmap.mem_keys,
        Finset.card_eq_zero.mp hcount]
      exact Finset.notMem_empty key
  | succ count ih =>
      obtain ⟨key, hmem⟩ : ps.advances.keys.Nonempty := Finset.card_pos.mp (by omega)
      obtain ⟨advance, hstored⟩ := Finmap.mem_iff.mp (Finmap.mem_keys.mp hmem)
      have hrecorded := (run_exposure hrun hp).recorded key advance hstored
      obtain ⟨now, hnow⟩ : ∃ now : Int64, now.toInt = 2 ^ 63 - 1 :=
        Int64.exists_toInt_eq (by decide) (by decide)
      have hend := hends key advance hstored
      obtain ⟨middle, hstep⟩ := liquidatable_of_covered hrun hp hcovered key advance hstored
        hrecorded.issued cranker ⟨now, ⟨[], 0⟩⟩ hcranker (by dsimp only; omega)
      obtain ⟨ps₁, hcloses⟩ := step_closesOne hp rfl hstep
      have hkey : (liquidationOf p cranker advance).advance.key = key := hrecorded.keyed.symm
      have hadvances := hcloses.advances
      rw [hkey] at hadvances
      have hidle := hcloses.kept.idle
      rw [Pool.idle, Pool.idle] at hidle
      have hstillEnds : ps₁.GraceEnds := by
        intro other found hfound
        rw [hadvances, AccountMap.lookup_erase_eq] at hfound
        split at hfound
        case isTrue => cases hfound
        case isFalse => exact hends other found hfound
      have hfewer : ps₁.advances.keys.card = count := by
        rw [hadvances, Finmap.keys_erase, Finset.card_erase_of_mem hmem, hcount,
          Nat.add_sub_cancel]
      obtain ⟨batch, s', ps', hbatch, hbatchRun, hp', hempty⟩ :=
        ih ((hcloses.signers cranker).mpr hcranker) (Execution.run_snoc.mpr ⟨s, hrun, hstep⟩)
          hcloses.pool (by omega) hstillEnds hfewer
      exact ⟨_ :: batch, s', ps', List.forall_mem_cons.mpr ⟨⟨_, rfl, rfl, rfl⟩, hbatch⟩,
        Execution.run_cons.mpr ⟨middle, hstep, hbatchRun⟩, hp', hempty⟩

/-- At every point of every run, a cranker who is no pool can rid a pool of all its advances by
liquidations exactly if the pool has deployed no more than its total assets and each advance has a
grace period that ends. Whenever it does, nothing is deployed any more, the pool has exactly its
idle assets, and every token and every share is where it was. -/
theorem winding_up_iff (hrun : Chain.run rt trace = .ok s) (hp : s.pools.lookup p = some ps)
    (hcranker : s.pools.lookup cranker = none) :
    ((∃ batch s' ps', LiquidationsBy p cranker batch ∧
      Execution.run (Chain.step rt) s batch = .ok s' ∧ s'.pools.lookup p = some ps' ∧
      ps'.advances = ∅) ↔
      ps.pool.deployedAmount.toNat ≤ ps.pool.totalAssets.toNat ∧ ps.GraceEnds) ∧
    ∀ batch s' ps', LiquidationsBy p cranker batch →
      Execution.run (Chain.step rt) s batch = .ok s' → s'.pools.lookup p = some ps' →
      ps'.advances = ∅ →
      ps'.pool.deployedAmount.toNat = 0 ∧ ps'.pool.totalAssets.toNat = ps.pool.idle ∧
      WrittenDown s s' ps ps' := by
  have hclosed (batch s' ps') (hbatch : LiquidationsBy p cranker batch)
      (hbatchRun : Execution.run (Chain.step rt) s batch = .ok s')
      (hp' : s'.pools.lookup p = some ps') (hempty : ps'.advances = ∅) :
      ps'.pool.deployedAmount.toNat = 0 ∧ ps'.pool.totalAssets.toNat = ps.pool.idle ∧
      WrittenDown s s' ps ps' ∧ ps.GraceEnds := by
    obtain ⟨found, hfound, hkept, hleft⟩ := Chain.run_closes hbatch hp hbatchRun
    obtain rfl : found = ps' := Option.some.inj (hfound.symm.trans hp')
    have hdeployed : found.pool.deployedAmount.toNat = 0 := by
      rw [(Chain.run_exposure (Execution.run_append.mpr ⟨s, hrun, hbatchRun⟩) hp').deployed,
        PoolState.issuedPrincipal, hempty, AccountMap.total_empty]
    have hidle := hkept.idle
    rw [Pool.idle, hdeployed] at hidle
    refine ⟨hdeployed, by omega, hkept, fun key advance hstored ↦ ?_⟩
    apply (hleft key advance hstored).resolve_left
    rw [hempty, Finmap.lookup_empty]
    exact (Option.some_ne_none advance).symm
  refine ⟨⟨?_, ?_⟩, ?_⟩
  · rintro ⟨batch, s', ps', hbatch, hbatchRun, hp', hempty⟩
    obtain ⟨-, hidle, -, hends⟩ := hclosed batch s' ps' hbatch hbatchRun hp' hempty
    rw [Pool.idle] at hidle
    exact ⟨by omega, hends⟩
  · rintro ⟨hcovered, hends⟩
    exact Chain.exists_windingUp hcranker hrun hp hcovered hends
  · intro batch s' ps' hbatch hbatchRun hp' hempty
    obtain ⟨hdeployed, hidle, hkept, -⟩ := hclosed batch s' ps' hbatch hbatchRun hp' hempty
    exact ⟨hdeployed, hidle, hkept⟩

/-- The cranker writes off the one advance of 100 USDC, and the providers keep what is idle. -/
theorem winding_up_iff_localnet : ∃ s s' ps ps',
    Chain.run Localnet.runtime Localnet.oneAdvance = .ok s ∧
    s.pools.lookup Localnet.pool = some ps ∧ ps.pool.deployedAmount = 100000000 ∧
    ps.GraceEnds ∧ s'.pools.lookup Localnet.pool = some ps' ∧
    ps'.pool.deployedAmount.toNat = 0 ∧ ps'.pool.totalAssets.toNat = ps.pool.idle ∧
    WrittenDown s s' ps ps' := by
  let batch : List Input := [Localnet.liquidation 1 Localnet.graceEnd.now]
  obtain ⟨s, ps, hrun, hp, htest⟩ := Localnet.reaches_iff.mp
    (show Localnet.reaches Localnet.oneAdvance (fun s ps ↦
      (s.pools.lookup Localnet.cranker).isNone && decide (ps.pool.deployedAmount = 100000000) &&
        Localnet.returns (Execution.run (Chain.step Localnet.runtime) s batch)
          (fun s' ↦ (s'.pools.lookup Localnet.pool).any (fun ps' ↦ ps'.advances = ∅))) = true by
      decide +kernel)
  obtain ⟨hbefore, hafter⟩ := Bool.and_eq_true_iff.mp htest
  obtain ⟨hcranker, hdeployed⟩ := Bool.and_eq_true_iff.mp hbefore
  obtain ⟨s', hbatchRun, hfound⟩ := Localnet.returns_iff.mp hafter
  obtain ⟨ps', hp', hempty⟩ := (Option.any_eq_true _ _).mp hfound
  have hbatch : LiquidationsBy Localnet.pool Localnet.cranker batch :=
    List.forall_mem_singleton.mpr ⟨_, rfl, rfl, rfl⟩
  obtain ⟨hwinds, hwound⟩ := winding_up_iff hrun hp (Option.isNone_iff_eq_none.mp hcranker)
  obtain ⟨-, hends⟩ :=
    hwinds.mp ⟨batch, s', ps', hbatch, hbatchRun, hp', of_decide_eq_true hempty⟩
  exact ⟨s, s', ps, ps', hrun, hp, of_decide_eq_true hdeployed, hends, hp',
    hwound batch s' ps' hbatch hbatchRun hp' (of_decide_eq_true hempty)⟩

end CredMesh
