import CredMesh.Foundation.Submission
import CredMesh.Safety.KeeperTargets

/-!
# What a tick of the keeper achieves

The transactions of a tick reach the chain in any order, among those of everybody else, and some
of them are refused. All advances of the pool that were overdue when the keeper looked are written
off all the same, as long as nobody redeems more than the idle assets in between.
-/

namespace CredMesh

open Outcome Escrow Keeper Execution

variable {rt : Runtime} {p : Pubkey} {now : Int64} {key : AdvanceKey} {advance : Advance}

/-- The chain after it was sent some inputs. -/
def Chain.submit (rt : Runtime) (s : Chain) (inputs : List Input) : Chain :=
  Execution.submit (Chain.step rt) s inputs

/-- The input carries an instruction that the keeper built. -/
def Input.Carries (input : Input) (ix : LiquidateIx) : Prop :=
  ix.programAddress = ProgramIds.escrow ∧ ix.data = EscrowMethod.liquidate.sighash.toList ∧
    ∃ accounts, Liquidate.ofAccounts ix.accounts = some accounts ∧
      input.action = .pool (.liquidate accounts)

/-- The tombstone of an advance that was liquidated at some time from `now` on. -/
def Escrow.PoolState.Buried (rt : Runtime) (p : Pubkey) (now : Int64) (s : PoolState)
    (key : AdvanceKey) (advance : Advance) : Prop :=
  ∃ time, now ≤ time ∧ s.tombstones.lookup key = some (tombstoneOf rt time p advance)

/-- What a liquidation leaves of an advance: its account is closed, the payment stays consumed as it
was, and there is a tombstone. -/
structure Escrow.PoolState.WrittenOff (rt : Runtime) (p : Pubkey) (now : Int64)
    (s before : PoolState) (key : AdvanceKey) (advance : Advance) : Prop where
  closed : s.advances.lookup key = none
  consumed : ∃ payment, before.consumed.lookup key = some payment ∧
    s.consumed.lookup key = some payment
  buried : s.Buried rt p now key advance

/-! ## One input -/

/-- A new advance is not overdue. -/
theorem Escrow.Issues.not_isOverdue {env : Env} {accounts : RequestAdvance}
    {receivableId : Bytes 32} {amount : UInt64} {nonce : Bytes 16} {r : Registry.RegistryState}
    {s s' : PoolState} {attestation : Attestation} {ledger : AgentIssuanceLedger}
    (h : Issues rt env accounts receivableId amount nonce r s attestation ledger advance s')
    (hnow : now ≤ env.now) : ¬ IsOverdue advance now := by
  obtain ⟨allowed, -, hread⟩ := h.attested
  obtain ⟨_, -, -, -, -, -, -, hexpiry⟩ := readAttestation_carries hread
  have hexpires : advance.expiresAt = attestation.expiresAt := congrArg Advance.expiresAt h.recorded
  have hgrace : liquidationGraceSeconds.toInt = 1209600 := rfl
  have hnow := Int64.le_iff_toInt_le.mp hnow
  intro hoverdue
  have hwindow := hoverdue.window
  rw [hexpires] at hwindow
  omega

/-- An overdue advance stays as it is until it is liquidated. -/
theorem PoolInstruction.KeyChange.overdue {env : Env} {r : Registry.RegistryState}
    {s s' : PoolState} {ix : PoolInstruction} (h : ix.KeyChange rt env r s key s')
    (hpool : ix.pool = p) (hnow : now ≤ env.now) (hoverdue : IsOverdue advance now)
    (hstored : s.advances.lookup key = some advance) :
    s'.advances.lookup key = some advance ∨ s'.Buried rt p now key advance := by
  cases h with
  | issue hkey hissues =>
      rw [hkey, hissues.unissued] at hstored
      cases hstored
  | settle hkey hsettles =>
      have hsame := hsettles.live.found
      rw [← hkey, hstored] at hsame
      obtain rfl := Option.some.inj hsame
      have hopen := hsettles.window
      have hover := hoverdue.window
      have hnow := Int64.le_iff_toInt_le.mp hnow
      omega
  | liquidate hkey hliquidates =>
      have hsame := hliquidates.live.found
      rw [← hkey, hstored] at hsame
      obtain rfl := Option.some.inj hsame
      refine .inr ⟨env.now, hnow, ?_⟩
      rw [hkey, hliquidates.tombstones, Finmap.lookup_insert]
      exact congrArg (fun q ↦ some (tombstoneOf rt env.now q advance)) hpool
  | untouched _ hadvance _ _ =>
      left
      rw [hadvance]
      exact hstored

/-- An advance that is overdue was there before. -/
theorem PoolInstruction.KeyChange.overdue_before {env : Env} {r : Registry.RegistryState}
    {s s' : PoolState} {ix : PoolInstruction} (h : ix.KeyChange rt env r s key s')
    (hnow : now ≤ env.now) (hoverdue : IsOverdue advance now)
    (hstored : s'.advances.lookup key = some advance) : s.advances.lookup key = some advance := by
  cases h with
  | issue hkey hissues =>
      rw [hkey, hissues.advances, Finmap.lookup_insert] at hstored
      obtain rfl := Option.some.inj hstored
      exact absurd hoverdue (hissues.not_isOverdue hnow)
  | settle hkey hsettles =>
      rw [hkey, hsettles.closes.advances, Finmap.lookup_erase] at hstored
      cases hstored
  | liquidate hkey hliquidates =>
      rw [hkey, hliquidates.closes.advances, Finmap.lookup_erase] at hstored
      cases hstored
  | untouched _ hadvance _ _ => rwa [hadvance] at hstored

/-! ## A sweep -/

/-- Between the look of the keeper and the end of the sweep: what is overdue now was overdue then,
and what was overdue then still is there or has been written off. No consumed payment is lost. -/
structure Sweeping (rt : Runtime) (p : Pubkey) (now : Int64) (before : PoolState) (s : Chain) :
    Prop where
  reachable : ∃ trace, Chain.run rt trace = .ok s
  covered : Chain.Covered p s
  pool : ∃ ps, s.pools.lookup p = some ps ∧
    (∀ key advance, ps.advances.lookup key = some advance → IsOverdue advance now →
      before.advances.lookup key = some advance) ∧
    (∀ key advance, before.advances.lookup key = some advance → IsOverdue advance now →
      ps.advances.lookup key = some advance ∨ ps.Buried rt p now key advance) ∧
    ∀ key payment, before.consumed.lookup key = some payment →
      ps.consumed.lookup key = some payment

namespace Sweeping

variable {before : PoolState} {s s' : Chain} {input : Input}

theorem step (h : Sweeping rt p now before s) (hnow : now ≤ input.env.now)
    (hidle : ∀ ps, s.pools.lookup p = some ps → WithdrawsIdle p ps.pool input.action)
    (hstep : Chain.step rt input s = .ok s') : Sweeping rt p now before s' := by
  obtain ⟨trace, hrun⟩ := h.reachable
  obtain ⟨ps, hp, hnew, hold, hconsumed⟩ := h.pool
  obtain ⟨ps', hp', hchange⟩ := Chain.step_change hstep hp
  refine ⟨⟨trace ++ [input], Execution.run_snoc.mpr ⟨s, hrun, hstep⟩⟩,
    (Chain.step_covered_iff hrun h.covered hstep).mpr hidle, ps', hp', ?_⟩
  cases hchange with
  | elsewhere _ => exact ⟨hnew, hold, hconsumed⟩
  | @handled ix effect _ hpool _ heffect =>
      have hkeys := (PoolInstruction.handler_advances heffect).at_key
      refine ⟨?_, ?_, fun key payment hpayment ↦
        (hkeys key).consumed_kept (hconsumed key payment hpayment)⟩
      · intro key advance hstored hoverdue
        exact hnew key advance ((hkeys key).overdue_before hnow hoverdue hstored) hoverdue
      · intro key advance hstored hoverdue
        obtain hthere | ⟨time, htime, hburied⟩ := hold key advance hstored hoverdue
        · exact (hkeys key).overdue hpool hnow hoverdue hthere
        · exact .inr ⟨time, htime, (hkeys key).tombstone_kept hburied⟩

/-- What is written off stays so. -/
theorem buried_kept {ps : PoolState} (hp : s.pools.lookup p = some ps)
    (hburied : ps.Buried rt p now key advance) (hstep : Chain.step rt input s = .ok s') :
    ∃ ps', s'.pools.lookup p = some ps' ∧ ps'.Buried rt p now key advance := by
  obtain ⟨ps', hp', -, hkept⟩ := @Chain.step_records_kept _ _ _ _ _ _ key hstep hp
  obtain ⟨time, htime, htombstone⟩ := hburied
  exact ⟨ps', hp', time, htime, hkept _ htombstone⟩

/-- An attempt to liquidate an overdue advance leaves it written off. -/
theorem attempt (h : Sweeping rt p now before s)
    (hstored : before.advances.lookup key = some advance) (hoverdue : IsOverdue advance now)
    {signer : Pubkey} (hsigner : ∀ mint, signer ≠ (rt.poolPda mint).1) (hnow : now ≤ input.env.now)
    (haction : input.action = .pool (.liquidate (liquidationOf p signer advance))) :
    ∃ ps, (Execution.attempt (Chain.step rt) s input).pools.lookup p = some ps ∧
      ps.Buried rt p now key advance := by
  obtain ⟨trace, hrun⟩ := h.reachable
  obtain ⟨ps, hp, -, hold, -⟩ := h.pool
  obtain hthere | hburied := hold key advance hstored hoverdue
  · have hfree : s.pools.lookup signer = none := by
      by_contra hpool
      obtain ⟨other, hother⟩ := Option.ne_none_iff_exists'.mp hpool
      have hseeds := ((Chain.run_custodial hrun).custody signer other hother).seeds
      exact hsigner _ (congrArg Prod.fst hseeds).symm
    have hwindow := hoverdue.window.trans (Int64.le_iff_toInt_le.mp hnow)
    obtain ⟨s', hstep⟩ := liquidatable_of_covered hrun hp (h.covered ps hp) key advance hthere
      hoverdue.issued signer input.env hfree hwindow
    rw [← haction] at hstep
    rw [Execution.attempt_of_ok hstep]
    obtain ⟨ps₀, ps', found, consumed, ledger, hp₀, hp', hliquidates⟩ :=
      Chain.step_liquidates hstep haction
    obtain rfl : ps = ps₀ := Option.some.inj (hp.symm.trans hp₀)
    have hkey : key = (liquidationOf p signer advance).advance.key :=
      ((Chain.run_exposure hrun hp).recorded key advance hthere).keyed
    have hfound := hliquidates.stored
    rw [← hkey, hthere] at hfound
    obtain rfl := Option.some.inj hfound
    refine ⟨ps', hp', input.env.now, hnow, ?_⟩
    rw [hliquidates.tombstones, ← hliquidates.key_eq, ← hkey, Finmap.lookup_insert]
    rfl
  · obtain hrefused | haccepted := Execution.attempt_cases (Chain.step rt) s input
    · rw [hrefused]
      exact ⟨ps, hp, hburied⟩
    · exact buried_kept hp hburied haccepted

end Sweeping

/-! ## The tick -/

section Tick

variable {cfg : Keeper.Config} {result : List KeyedAccount} {ixs : List LiquidateIx}
  {s : Chain} {ps : PoolState} {trace : List Input}

/-- With the grace period of the escrow, or a shorter one, a tick sends a liquidation for every
overdue advance of the configured pool. -/
theorem exists_ix (hresult : s.ProgramAccounts advanceDiscriminator result)
    (hgrace : cfg.liquidationGraceSeconds ≤ defaultGraceSeconds)
    (htick : tick rt cfg now.toInt result = .ok ixs) (hrun : Chain.run rt trace = .ok s)
    (hp : s.pools.lookup (derivePoolPda rt cfg) = some ps)
    (hstored : ps.advances.lookup key = some advance) (hoverdue : IsOverdue advance now) :
    ∃ ix ∈ ixs, ∀ input : Input, input.Carries ix →
      input.action =
        .pool (.liquidate (liquidationOf (derivePoolPda rt cfg) cfg.signer advance)) := by
  rw [tick, select_eq, ok_bind] at htick
  obtain rfl := Except.ok.inj htick
  have hkeyed := ((Chain.run_exposure hrun hp).recorded key advance hstored).keyed
  let seeds : AdvanceSeeds := ⟨derivePoolPda rt cfg, advance.agent, advance.receivableId⟩
  have hlisted : s.Stores (.advance seeds advance) := ⟨ps, hp, by rw [← hstored, hkeyed]; rfl⟩
  have hdecoded := (mem_decoded_iff hresult).mpr ⟨seeds, advance, hlisted, rfl⟩
  have hliquidatable : isLiquidatable cfg.liquidationGraceSeconds now.toInt
      (.of (.advance seeds) advance) = true := by
    have hdefault := of_decide_eq_true ((isLiquidatable_of (.advance seeds) advance).mpr hoverdue)
    exact decide_eq_true ⟨hdefault.1, by omega⟩
  refine ⟨_, List.mem_map_of_mem (List.mem_filter.mpr ⟨hdecoded, hliquidatable⟩), ?_⟩
  rintro input ⟨-, -, accounts, haccounts, haction⟩
  have hread : Liquidate.ofAccounts
      (liquidateIx (derivePoolPda rt cfg) cfg.signer (.of (.advance seeds) advance)).accounts =
      some ⟨cfg.signer, seeds, seedsOf (derivePoolPda rt cfg) advance.agent.toList
          advance.receivableId.toList,
        ⟨derivePoolPda rt cfg, (seedsOf (derivePoolPda rt cfg) advance.agent.toList
          advance.receivableId.toList).agent⟩,
        seedsOf (derivePoolPda rt cfg) advance.agent.toList advance.receivableId.toList,
        derivePoolPda rt cfg⟩ := rfl
  rw [seedsOf_toList, haccounts] at hread
  obtain rfl := Option.some.inj hread
  exact haction

/-- The keeper looks at the accounts of the escrow at time `now`, and the instructions of its tick
reach the chain no earlier, in any order and among any other inputs, of which none redeems more than
the idle assets of the pool. Whatever else is refused on the way, in the end no advance of the pool
is overdue at `now`, and all that were have been written off. -/
theorem tick_clears_overdue (hrun : Chain.run rt trace = .ok s)
    (hp : s.pools.lookup (derivePoolPda rt cfg) = some ps)
    (hcovered : ps.pool.deployedAmount.toNat ≤ ps.pool.totalAssets.toNat)
    (hsigner : ∀ mint, cfg.signer ≠ (rt.poolPda mint).1)
    (hgrace : cfg.liquidationGraceSeconds ≤ defaultGraceSeconds)
    (hresult : s.ProgramAccounts advanceDiscriminator result)
    (htick : tick rt cfg now.toInt result = .ok ixs) {inputs : List Input}
    (hsent : ∀ ix ∈ ixs, ∃ input ∈ inputs, input.Carries ix)
    (htime : ∀ input ∈ inputs, now ≤ input.env.now)
    (hidle : ∀ part input, part ++ [input] <+: inputs → ∀ ps,
      (s.submit rt part).pools.lookup (derivePoolPda rt cfg) = some ps →
        WithdrawsIdle (derivePoolPda rt cfg) ps.pool input.action) :
    ∃ ps', (s.submit rt inputs).pools.lookup (derivePoolPda rt cfg) = some ps' ∧
      (∀ key advance, ps'.advances.lookup key = some advance → ¬ IsOverdue advance now) ∧
      ∀ key advance, ps.advances.lookup key = some advance → IsOverdue advance now →
        ps'.WrittenOff rt (derivePoolPda rt cfg) now ps key advance := by
  have hstart : Sweeping rt (derivePoolPda rt cfg) now ps s := by
    refine ⟨⟨trace, hrun⟩, ?_, ps, hp, fun _ _ hstored _ ↦ hstored,
      fun _ _ hstored _ ↦ .inl hstored, fun _ _ hpayment ↦ hpayment⟩
    intro found hfound
    obtain rfl : ps = found := Option.some.inj (hp.symm.trans hfound)
    exact hcovered
  have hsweeping : ∀ part, part <+: inputs →
      Sweeping rt (derivePoolPda rt cfg) now ps (s.submit rt part) :=
    Execution.submit_induction hstart fun part input next hpart h hstep ↦
      h.step (htime input (hpart.mem (by simp))) (hidle part input hpart) hstep
  have hwritten : ∀ key advance, ps.advances.lookup key = some advance → IsOverdue advance now →
      ∃ ps', (s.submit rt inputs).pools.lookup (derivePoolPda rt cfg) = some ps' ∧
        ps'.Buried rt (derivePoolPda rt cfg) now key advance := by
    intro key advance hstored hoverdue
    obtain ⟨ix, hix, hcarries⟩ := exists_ix hresult hgrace htick hrun hp hstored hoverdue
    obtain ⟨input, hmem, hcarried⟩ := hsent ix hix
    refine Execution.submit_of_mem (fun state ↦
      ∃ ps', state.pools.lookup (derivePoolPda rt cfg) = some ps' ∧
        ps'.Buried rt (derivePoolPda rt cfg) now key advance) hmem hsweeping
      (fun state h ↦ h.attempt hstored hoverdue hsigner (htime input hmem)
        (hcarries input hcarried)) ?_
    rintro part other next - - ⟨found, hfound, hburied⟩ hstep
    exact Sweeping.buried_kept hfound hburied hstep
  obtain ⟨⟨later, hlater⟩, -, ps', hp', hnew, -, hconsumed⟩ := hsweeping inputs List.prefix_rfl
  have hclosed : ∀ key advance, ps.advances.lookup key = some advance → IsOverdue advance now →
      ps'.WrittenOff rt (derivePoolPda rt cfg) now ps key advance := by
    intro key advance hstored hoverdue
    obtain ⟨found, hfound, hburied⟩ := hwritten key advance hstored hoverdue
    obtain rfl : ps' = found := Option.some.inj (hp'.symm.trans hfound)
    obtain ⟨payment, hpayment, -⟩ :=
      ((Chain.run_exposure hrun hp).recorded key advance hstored).payment
    have hburied' : ps'.tombstones.lookup key ≠ none := by
      obtain ⟨time, -, htombstone⟩ := hburied
      rw [htombstone]
      exact Option.some_ne_none _
    exact ⟨((Chain.run_exposure hlater hp').buried key hburied').1,
      ⟨payment, hpayment, hconsumed key payment hpayment⟩, hburied⟩
  refine ⟨ps', hp', fun key advance hstored hoverdue ↦ ?_, hclosed⟩
  have habsent := (hclosed key advance (hnew key advance hstored hoverdue) hoverdue).closed
  rw [hstored] at habsent
  cases habsent

/-- Inputs that carry the instructions of a tick. -/
def inputsOf (env : Env) (ixs : List LiquidateIx) : List Input :=
  (ixs.filterMap fun ix ↦ Liquidate.ofAccounts ix.accounts).map
    fun accounts ↦ ⟨env, .pool (.liquidate accounts)⟩

/-- Whatever a tick builds can be sent. -/
theorem exists_carries (hresult : s.ProgramAccounts advanceDiscriminator result)
    (htick : tick rt cfg now.toInt result = .ok ixs) (env : Env) :
    ∀ ix ∈ ixs, ∃ input ∈ inputsOf env ixs, input.Carries ix := by
  rw [tick, select_eq, ok_bind] at htick
  obtain rfl := Except.ok.inj htick
  intro ix hix
  obtain ⟨decoded, hdecoded, rfl⟩ := List.mem_map.mp hix
  obtain ⟨seeds, advance, -, rfl⟩ :=
    (mem_decoded_iff hresult).mp (List.mem_of_mem_filter hdecoded)
  exact ⟨_, List.mem_map_of_mem (List.mem_filterMap.mpr ⟨_, hix, rfl⟩), rfl, rfl, _, rfl, rfl⟩

end Tick

namespace Localnet

/-- The keeper of localnet's pool. -/
def keeper : Keeper.Config := ⟨usdcMint, cranker, defaultGraceSeconds⟩

theorem cranker_ne_poolPda (mint : Pubkey) : cranker ≠ (runtime.poolPda mint).1 := by
  have hall : addresses.all (fun entry ↦ entry.2.1 ≠ cranker) = true := by decide +kernel
  have hdefault : defaultPubkey ≠ cranker := by decide +kernel
  intro hsame
  have hlookup : ((addresses.lookup ([Seeds.poolSeed, mint.toList], ProgramIds.escrow)).getD
      (defaultPubkey, 255)).1 = cranker := hsame.symm
  cases hfound : addresses.lookup ([Seeds.poolSeed, mint.toList], ProgramIds.escrow) with
  | none =>
      rw [hfound] at hlookup
      exact hdefault hlookup
  | some found =>
      rw [hfound] at hlookup
      obtain ⟨before, after, hsplit, -⟩ := List.lookup_eq_some_iff.mp hfound
      have hmem : (([Seeds.poolSeed, mint.toList], ProgramIds.escrow), found) ∈ addresses := by
        simp [hsplit]
      exact of_decide_eq_true (List.all_eq_true.mp hall _ hmem) hlookup

end Localnet

/-- The tick at the end of the grace period writes off the advance of localnet. -/
theorem tick_clears_overdue_localnet : ∃ s result ixs ps ps' advance,
    Chain.run Localnet.runtime Localnet.oneAdvance = .ok s ∧
    s.pools.lookup Localnet.pool = some ps ∧
    tick Localnet.runtime Localnet.keeper Localnet.graceEnd.now.toInt result = .ok ixs ∧
    (s.submit Localnet.runtime (inputsOf Localnet.graceEnd ixs)).pools.lookup Localnet.pool =
      some ps' ∧
    ps'.WrittenOff Localnet.runtime Localnet.pool Localnet.graceEnd.now ps
      (Localnet.agent, Localnet.keyOf 1) advance := by
  obtain ⟨s, ps, advance, hrun, hp, hadvance, htest⟩ := Localnet.reaches_advance
    (show Localnet.reaches Localnet.oneAdvance (fun _ ps ↦
      (ps.advances.lookup (Localnet.agent, Localnet.keyOf 1)).any fun advance ↦
        ps.pool.deployedAmount.toNat ≤ ps.pool.totalAssets.toNat ∧ advance.state = .issued ∧
        advance.expiresAt.toInt + liquidationGraceSeconds.toInt ≤
          Localnet.graceEnd.now.toInt) = true by decide +kernel)
  obtain ⟨hcovered, hissued, hwindow⟩ := of_decide_eq_true htest
  have hpool : derivePoolPda Localnet.runtime Localnet.keeper = Localnet.pool := by decide +kernel
  obtain ⟨result, hresult⟩ := s.exists_programAccounts
  obtain ⟨ixs, htick⟩ : ∃ ixs, tick Localnet.runtime Localnet.keeper Localnet.graceEnd.now.toInt
      result = .ok ixs := by
    rw [tick, select_eq]
    exact ⟨_, rfl⟩
  have hall : ∀ input ∈ inputsOf Localnet.graceEnd ixs, ∃ accounts,
      input = ⟨Localnet.graceEnd, .pool (.liquidate accounts)⟩ := by
    intro input hinput
    obtain ⟨accounts, -, rfl⟩ := List.mem_map.mp hinput
    exact ⟨accounts, rfl⟩
  rw [← hpool] at hp
  obtain ⟨ps', hp', -, hwritten⟩ := tick_clears_overdue hrun hp hcovered
    Localnet.cranker_ne_poolPda le_rfl hresult htick (exists_carries hresult htick _)
    (fun input hinput ↦ by
      obtain ⟨accounts, rfl⟩ := hall input hinput
      exact Int64.le_refl _)
    (fun part input hpart ps _ accounts shares hwithdraw ↦ by
      obtain ⟨_, rfl⟩ := hall input (hpart.mem (by simp))
      cases hwithdraw)
  rw [hpool] at hp hp' hwritten
  exact ⟨s, result, ixs, ps, ps', advance, hrun, hp, htick, hp', hwritten _ advance hadvance
    ⟨hissued, hwindow⟩⟩

end CredMesh
