import CredMesh.Chain.Shift
import CredMesh.Safety.IssuanceWindow

/-!
# The order of terminal operations

Settlements and liquidations that end different advances of a pool at one time only add to its
counters and move tokens by amounts that do not depend on each other. Whatever order they succeed
in, they leave the same. Liquidations alone succeed in every order or in none, since all that they
compete for is the total assets, and they take the same from them in every order.
-/

namespace CredMesh

open Escrow AccountMap Spl

/-! ## Batches -/

/-- The advance of a pool that an action ends. -/
def Action.ends (p : Pubkey) : Action → Option AdvanceKey
  | pool (.claimAndSettle accounts _) =>
      if accounts.pool = p then some accounts.advance.key else none
  | pool (.liquidate accounts) => if accounts.pool = p then some accounts.advance.key else none
  | _ => none

/-- The advance of a pool that an action liquidates. -/
def Action.liquidates (p : Pubkey) : Action → Option AdvanceKey
  | pool (.liquidate accounts) => if accounts.pool = p then some accounts.advance.key else none
  | _ => none

def endedBy (p : Pubkey) (batch : List Input) : List AdvanceKey :=
  batch.filterMap fun input ↦ input.action.ends p

def liquidatedBy (p : Pubkey) (batch : List Input) : List AdvanceKey :=
  batch.filterMap fun input ↦ input.action.liquidates p

/-- Terminal operations at one time, each on an advance of its own. -/
structure Batch (p : Pubkey) (now : Int64) (batch : List Input) : Prop where
  clock : ∀ input ∈ batch, input.env.now = now
  terminal : ∀ input ∈ batch, input.action.ends p ≠ none
  distinct : (endedBy p batch).Nodup

/-- The two kinds of terminal operations. -/
theorem Action.ends_eq_some {p : Pubkey} {action : Action} {key : AdvanceKey}
    (h : action.ends p = some key) :
    (∃ accounts paymentAmount, action = .pool (.claimAndSettle accounts paymentAmount) ∧
      accounts.pool = p ∧ accounts.advance.key = key ∧ action.liquidates p = none) ∨
    ∃ accounts, action = .pool (.liquidate accounts) ∧ accounts.pool = p ∧
      accounts.advance.key = key ∧ action.liquidates p = some key := by
  unfold ends at h
  split at h
  case h_1 accounts paymentAmount =>
    obtain ⟨hpool, hkey⟩ := Option.ite_none_right_eq_some.mp h
    exact .inl ⟨accounts, paymentAmount, rfl, hpool, Option.some.inj hkey, rfl⟩
  case h_2 accounts =>
    obtain ⟨hpool, hkey⟩ := Option.ite_none_right_eq_some.mp h
    refine .inr ⟨accounts, rfl, hpool, Option.some.inj hkey, ?_⟩
    simpa [liquidates] using ⟨hpool, Option.some.inj hkey⟩
  case h_3 => cases h

/-! ## One operation -/

/-- What a terminal operation leaves alone: the pool up to three counters, the consumed payments,
the ledgers up to the live principal, and the mints. -/
def frame (s : PoolState) (t : TokenLedger) : Pool × AccountMap AdvanceKey ConsumedPayment ×
    (Pubkey → Option AgentIssuanceLedger) × AccountMap Pubkey Mint :=
  ({ s.pool with totalAssets := 0, deployedAmount := 0, accruedProtocolFees := 0 }, s.consumed,
    fun agent ↦ (s.ledgers.lookup agent).map fun ledger ↦ { ledger with livePrincipal := 0 },
    t.mints)

/-- What it adds to or takes from: the assets, the fees for the treasury, the token balances. -/
def measure (s : PoolState) (t : TokenLedger) : ℤ × ℤ × (Pubkey → ℤ) :=
  (s.pool.totalAssets.toNat, s.pool.accruedProtocolFees.toNat, fun address ↦ t.balance address)

/-- What a transfer takes from its source, which keeps what it sends to itself. -/
def takenBy (source destination : Pubkey) (amount : ℕ) : Pubkey → ℕ :=
  if source = destination then 0 else Pi.single source amount

/-- The amounts of a settlement, and what it takes from accounts of the agent. -/
def settledAmounts (pool : Pool) (accounts : ClaimAndSettle) (split : Waterfall) :
    (ℤ × ℤ × (Pubkey → ℤ)) × (Pubkey → ℕ) :=
  ((split.lpFee.toNat, split.protocolCut.toNat,
    Pi.single pool.treasuryAta (split.protocolCut.toNat : ℤ) +
      Pi.single pool.usdcVault (split.lpCut.toNat : ℤ) -
      Pi.single accounts.agentUsdcAta (split.protocolCut.toNat + split.lpCut.toNat : ℤ)),
    takenBy accounts.agentUsdcAta pool.treasuryAta split.protocolCut.toNat +
      takenBy accounts.agentUsdcAta pool.usdcVault split.lpCut.toNat)

/-- The amounts of a terminal operation, given the advance that it ends. -/
def changeFor (pool : Pool) (now : Int64) (advance : Advance) :
    Action → (ℤ × ℤ × (Pubkey → ℤ)) × (Pubkey → ℕ)
  | .pool (.claimAndSettle accounts paymentAmount) =>
      match waterfall advance now paymentAmount with
      | .ok split => settledAmounts pool accounts split
      | .error _ => 0
  | .pool (.liquidate _) => ((-(advance.principal.toNat : ℤ), 0, 0), 0)
  | _ => 0

def change (p : Pubkey) (now : Int64) (s : PoolState) (action : Action) :
    (ℤ × ℤ × (Pubkey → ℤ)) × (Pubkey → ℕ) :=
  ((action.ends p).bind s.advances.lookup).elim 0 fun advance ↦ changeFor s.pool now advance action

/-- What a terminal operation does to its pool and to the tokens. -/
structure Ends (rt : Runtime) (p : Pubkey) (now : Int64) (action : Action) (key : AdvanceKey)
    (s : PoolState) (t : TokenLedger) (s' : PoolState) (t' : TokenLedger) : Prop where
  advances : s'.advances = s.advances.erase key
  tombstones : ∀ other, s'.tombstones.lookup other =
    if action.liquidates p = some other then
      (s.advances.lookup other).map (tombstoneOf rt now p)
    else s.tombstones.lookup other
  framed : frame s' t' = frame s t
  measured : measure s' t' = measure s t + (change p now s action).1
  spent : ∀ more, t'.after more = t.after ((change p now s action).2 + more)

variable {rt : Runtime} {p : Pubkey} {env : Env} {s s' : PoolState} {t t' : TokenLedger}

/-- The bookkeeping of an advance that ends leaves its ledger alone up to the live principal. -/
theorem frame_of_closes {advance : Advance} {consumed : ConsumedPayment}
    {ledger : AgentIssuanceLedger} (hlive : Live rt p s advance consumed ledger)
    (hcloses : Closes s advance ledger s')
    (hpool : { s'.pool with totalAssets := 0, deployedAmount := 0, accruedProtocolFees := 0 } =
      { s.pool with totalAssets := 0, deployedAmount := 0, accruedProtocolFees := 0 })
    (hmints : t'.mints = t.mints) : frame s' t' = frame s t := by
  have hledgers : (fun agent ↦ (s'.ledgers.lookup agent).map fun ledger ↦
      { ledger with livePrincipal := 0 }) =
      fun agent ↦ (s.ledgers.lookup agent).map fun ledger ↦ { ledger with livePrincipal := 0 } := by
    obtain ⟨livePrincipal, -, hledgers⟩ := hcloses.ledgers
    funext agent
    rw [hledgers, lookup_insert_eq]
    split
    case isTrue hagent => rw [hagent, hlive.ledgerFound, Option.map_some, Option.map_some]
    case isFalse => rfl
  rw [frame, frame, hpool, hcloses.consumed, hledgers, hmints]

theorem transferIfPositive_after {source mint destination owner : Pubkey} {amount : UInt64}
    {decimals : UInt8}
    (h : transferIfPositive source mint destination owner amount decimals t = .ok t')
    (hsource : t.IsAccount source mint owner) (more : Pubkey → ℕ) :
    t'.after more = t.after (takenBy source destination amount.toNat + more) := by
  simp only [transferIfPositive, Outcome.ite_eq_ok, Outcome.mapError_eq_ok,
    Outcome.pure_eq_ok] at h
  obtain ⟨hpositive, htransfer⟩ | ⟨hzero, rfl⟩ := h
  · exact transferChecked_after htransfer hsource (UInt64.lt_iff_toNat_lt.mp hpositive) more
  · rw [UInt64.not_lt, UInt64.le_iff_toNat_le, UInt64.toNat_zero, Nat.le_zero] at hzero
    rw [takenBy, hzero, Pi.single_zero, ite_self, zero_add]

theorem transferIfPositive_mints {source mint destination owner : Pubkey} {amount : UInt64}
    {decimals : UInt8}
    (h : transferIfPositive source mint destination owner amount decimals t = .ok t') :
    t'.mints = t.mints := by
  simp only [transferIfPositive, Outcome.ite_eq_ok, Outcome.mapError_eq_ok,
    Outcome.pure_eq_ok] at h
  obtain ⟨-, htransfer⟩ | ⟨-, rfl⟩ := h
  · exact transferChecked_mints htransfer
  · rfl

theorem claimAndSettle_ends {accounts : ClaimAndSettle} {paymentAmount : UInt64} {effect : Effect}
    (h : claimAndSettle rt env accounts paymentAmount s t = .ok effect) :
    Ends rt accounts.pool env.now (.pool (.claimAndSettle accounts paymentAmount))
      accounts.advance.key s t effect.state effect.tokens := by
  obtain ⟨advance, consumed, ledger, mint, split, t₁, hadmits, hsettles, hfirst, hsecond, -⟩ :=
    claimAndSettle_eq_ok.mp h
  have hflow := (transferIfPositive_flow hfirst).trans (transferIfPositive_flow hsecond)
  rw [hadmits.treasury, hadmits.vault] at hflow
  have hkey := hsettles.key_eq
  have hmints := (transferIfPositive_mints hsecond).trans (transferIfPositive_mints hfirst)
  have hchange : change accounts.pool env.now s (.pool (.claimAndSettle accounts paymentAmount)) =
      settledAmounts s.pool accounts split := by
    simp [change, Action.ends, hkey, hsettles.live.found, changeFor, hsettles.divided]
  constructor
  case advances =>
    rw [hkey]
    exact hsettles.closes.advances
  case tombstones =>
    intro other
    rw [hsettles.tombstones]
    exact (if_neg (by simp [Action.liquidates])).symm
  case framed =>
    refine frame_of_closes hsettles.live hsettles.closes ?_ hmints
    rw [hsettles.pool]
  case measured =>
    rw [hchange, measure, measure, hsettles.assets, hsettles.accrued, settledAmounts]
    refine Prod.ext (by simp) (Prod.ext (by simp) ?_)
    funext address
    have hbalance := hflow.balance address
    simp only [Pi.add_apply, Pi.sub_apply, Pi.single_apply, Prod.snd_add] at hbalance ⊢
    split_ifs at hbalance ⊢ <;> omega
  case spent =>
    intro more
    have hsource := hadmits.source
    rw [← hadmits.asset] at hsource
    have hkept := (transferIfPositive_flow hfirst).persists.account _ _ _ hsource
    rw [transferIfPositive_after hsecond hkept, transferIfPositive_after hfirst hsource, hchange,
      settledAmounts, hadmits.treasury, hadmits.vault, add_assoc]

theorem liquidate_ends {accounts : Liquidate} {effect : Effect}
    (h : liquidate rt env accounts s t = .ok effect) :
    Ends rt accounts.pool env.now (.pool (.liquidate accounts)) accounts.advance.key s t
      effect.state effect.tokens := by
  obtain ⟨htokens, advance, consumed, ledger, hliquidates⟩ := liquidate_effect h
  have hkey := hliquidates.key_eq
  have hchange : change accounts.pool env.now s (.pool (.liquidate accounts)) =
      ((-(advance.principal.toNat : ℤ), 0, 0), 0) := by
    simp [change, Action.ends, hkey, hliquidates.live.found, changeFor]
  rw [htokens]
  constructor
  case advances =>
    rw [hkey]
    exact hliquidates.closes.advances
  case tombstones =>
    intro other
    rw [hliquidates.tombstones, lookup_insert_eq]
    simp only [Action.liquidates, if_true, Option.some_inj, hkey]
    by_cases hother : other = (advance.agent, advance.receivableId)
    · rw [if_pos hother, if_pos hother.symm, hother, hliquidates.live.found, Option.map_some]
    · rw [if_neg hother, if_neg (Ne.symm hother)]
  case framed =>
    refine frame_of_closes hliquidates.live hliquidates.closes ?_ rfl
    rw [hliquidates.pool]
  case measured =>
    have hassets := hliquidates.assets
    have haccrued : effect.state.pool.accruedProtocolFees = s.pool.accruedProtocolFees := by
      rw [hliquidates.pool]
    rw [hchange, measure, measure, haccrued]
    refine Prod.ext ?_ (by simp)
    dsimp only [Prod.fst_add]
    omega
  case spent =>
    intro more
    rw [hchange, zero_add]

/-- An accepted terminal operation on a pool of the chain. -/
theorem Chain.step_ends {input : Input} {s s' : Chain} {key : AdvanceKey}
    (hstep : Chain.step rt input s = .ok s') (hends : input.action.ends p = some key) :
    ∃ ps ps', s.pools.lookup p = some ps ∧ s'.pools = s.pools.insert p ps' ∧
      s'.registry = s.registry ∧
      Ends rt p input.env.now input.action key ps s.tokens ps' s'.tokens := by
  obtain ⟨accounts, paymentAmount, haction, rfl, rfl, -⟩ | ⟨accounts, haction, rfl, rfl, -⟩ :=
    Action.ends_eq_some hends
  · obtain ⟨ps, effect, hp, -, heffect, rfl⟩ := Chain.step_handled hstep haction
    rw [haction]
    exact ⟨ps, effect.state, hp, rfl, rfl, claimAndSettle_ends heffect⟩
  · obtain ⟨ps, effect, hp, -, heffect, rfl⟩ := Chain.step_handled hstep haction
    rw [haction]
    exact ⟨ps, effect.state, hp, rfl, rfl, liquidate_ends heffect⟩

/-! ## A batch in some order -/

/-- The state after a part of a batch, told from the state before the batch. -/
structure Ended (rt : Runtime) (p : Pubkey) (now : Int64) (s₀ : Chain) (ps₀ : PoolState)
    (part : List Input) (s : Chain) (ps : PoolState) : Prop where
  pools : s.pools = s₀.pools.insert p ps
  registry : s.registry = s₀.registry
  advances : ∀ key, ps.advances.lookup key =
    if key ∈ endedBy p part then none else ps₀.advances.lookup key
  tombstones : ∀ key, ps.tombstones.lookup key =
    if key ∈ liquidatedBy p part then (ps₀.advances.lookup key).map (tombstoneOf rt now p)
    else ps₀.tombstones.lookup key
  framed : frame ps s.tokens = frame ps₀ s₀.tokens
  measured : measure ps s.tokens = measure ps₀ s₀.tokens +
    (part.map fun input ↦ change p now ps₀ input.action).sum.1
  spent : ∀ more, s.tokens.after more =
    s₀.tokens.after ((part.map fun input ↦ change p now ps₀ input.action).sum.2 + more)

/-- The amounts of an operation do not depend on what ended before it. -/
theorem change_congr {now : Int64} {ps ps₀ : PoolState} {t₀ : TokenLedger} {action : Action}
    {key : AdvanceKey} (hends : action.ends p = some key) (hframe : frame ps t = frame ps₀ t₀)
    (hkey : ps.advances.lookup key = ps₀.advances.lookup key) :
    change p now ps action = change p now ps₀ action := by
  have htreasury : ps.pool.treasuryAta = ps₀.pool.treasuryAta :=
    congrArg (fun parts ↦ parts.1.treasuryAta) hframe
  have hvault : ps.pool.usdcVault = ps₀.pool.usdcVault :=
    congrArg (fun parts ↦ parts.1.usdcVault) hframe
  simp only [change, hends, Option.bind_some, hkey]
  cases ps₀.advances.lookup key with
  | none => rfl
  | some advance =>
      simp only [Option.elim_some, changeFor, settledAmounts, htreasury, hvault]

theorem Ended.start {now : Int64} {s₀ : Chain} {ps₀ : PoolState}
    (hp₀ : s₀.pools.lookup p = some ps₀) : Ended rt p now s₀ ps₀ [] s₀ ps₀ where
  pools := (insert_lookup_self hp₀).symm
  registry := rfl
  advances _ := rfl
  tombstones _ := rfl
  framed := rfl
  measured := (add_zero _).symm
  spent more := by rw [List.map_nil, List.sum_nil, Prod.snd_zero, zero_add]

/-- One more operation, on an advance that has not ended yet. -/
theorem Ended.step {now : Int64} {s₀ s s' : Chain} {ps₀ ps : PoolState} {part : List Input}
    {input : Input} {key : AdvanceKey} (h : Ended rt p now s₀ ps₀ part s ps)
    (hends : input.action.ends p = some key) (hfresh : key ∉ endedBy p part)
    (hclock : input.env.now = now) (hstep : Chain.step rt input s = .ok s') :
    ∃ ps', Ended rt p now s₀ ps₀ (part ++ [input]) s' ps' := by
  obtain ⟨found, ps', hfound, hpools, hregistry, hstepped⟩ := Chain.step_ends hstep hends
  obtain rfl : ps = found := by
    rw [h.pools, Finmap.lookup_insert] at hfound
    exact Option.some.inj hfound
  have hkept : ps.advances.lookup key = ps₀.advances.lookup key := by
    rw [h.advances, if_neg hfresh]
  have hended : endedBy p (part ++ [input]) = endedBy p part ++ [key] := by
    simp [endedBy, hends]
  have hliquidated : liquidatedBy p (part ++ [input]) =
      liquidatedBy p part ++ (input.action.liquidates p).toList := by
    cases hnone : input.action.liquidates p <;> simp [liquidatedBy, hnone]
  rw [hclock] at hstepped
  refine ⟨ps', ?_⟩
  constructor
  case pools => rw [hpools, h.pools, Finmap.insert_insert]
  case registry => exact hregistry.trans h.registry
  case advances =>
    intro other
    rw [hstepped.advances, lookup_erase_eq, h.advances, hended]
    by_cases hother : other = key
    · simp [hother]
    · simp [hother]
  case tombstones =>
    intro other
    simp only [hstepped.tombstones, h.tombstones, hliquidated, List.mem_append, Option.mem_toList]
    by_cases hother : input.action.liquidates p = some other
    · obtain rfl : key = other := by
        obtain ⟨-, -, -, -, -, hnone⟩ | ⟨-, -, -, -, hsome⟩ := Action.ends_eq_some hends
        · simp [hnone] at hother
        · simpa [hsome] using hother
      rw [if_pos hother, if_pos (.inr hother), hkept]
    · rw [if_neg hother]
      exact if_congr (or_iff_left hother).symm rfl rfl
  case framed => exact hstepped.framed.trans h.framed
  case measured =>
    rw [hstepped.measured, h.measured, change_congr hends h.framed hkept, List.map_append,
      List.sum_append, List.map_singleton, List.sum_singleton, Prod.fst_add, add_assoc]
  case spent =>
    intro more
    rw [hstepped.spent, h.spent, change_congr hends h.framed hkept, List.map_append,
      List.sum_append, List.map_singleton, List.sum_singleton, Prod.snd_add, add_assoc]

theorem Batch.run_ended {now : Int64} {s₀ : Chain} {ps₀ : PoolState} {batch : List Input}
    (hbatch : Batch p now batch) (hp₀ : s₀.pools.lookup p = some ps₀) {s : Chain}
    (hrun : Execution.run (Chain.step rt) s₀ batch = .ok s) :
    ∃ ps, Ended rt p now s₀ ps₀ batch s ps := by
  refine Execution.prefix_induction (motive := fun part s ↦ ∃ ps, Ended rt p now s₀ ps₀ part s ps)
    ⟨ps₀, .start hp₀⟩ ?_ batch s (List.prefix_refl batch) hrun
  intro part input state next hpart _ hended hstep
  obtain ⟨ps, hended⟩ := hended
  have hmem : input ∈ batch := hpart.subset (by simp)
  obtain ⟨key, hends⟩ := Option.ne_none_iff_exists'.mp (hbatch.terminal input hmem)
  have hfresh : key ∉ endedBy p part := by
    have hnodup : (endedBy p (part ++ [input])).Nodup :=
      hbatch.distinct.sublist (hpart.sublist.filterMap _)
    simp only [endedBy, List.filterMap_append, List.filterMap_cons, hends, List.filterMap_nil]
      at hnodup
    exact fun hin ↦ (List.disjoint_of_nodup_append hnodup) hin (by simp)
  exact hended.step hends hfresh (hbatch.clock input hmem) hstep

/-! ## Two orders -/

theorem Batch.perm {now : Int64} {first second : List Input} (h : Batch p now first)
    (hperm : first.Perm second) : Batch p now second where
  clock input hinput := h.clock input (hperm.mem_iff.mpr hinput)
  terminal input hinput := h.terminal input (hperm.mem_iff.mpr hinput)
  distinct := (hperm.filterMap _).nodup_iff.mp h.distinct

/-- The pool is given by its frame, its counters, and its advances and tombstones. -/
theorem PoolState.eq_of_frame {ps ps' : PoolState} (hexposure : Exposure rt p ps)
    (hexposure' : Exposure rt p ps') (hframe : frame ps' t' = frame ps t)
    (hmeasure : measure ps' t' = measure ps t)
    (hadvances : ps'.advances = ps.advances) (htombstones : ps'.tombstones = ps.tombstones) :
    ps' = ps := by
  simp only [frame, measure, Prod.mk.injEq, Nat.cast_inj, UInt64.toNat_inj] at hframe hmeasure
  obtain ⟨hpool, hconsumed, hledgers, -⟩ := hframe
  obtain ⟨hassets, haccrued, -⟩ := hmeasure
  have hdeployed : ps'.pool.deployedAmount = ps.pool.deployedAmount := by
    rw [← UInt64.toNat_inj, hexposure'.deployed, hexposure.deployed, PoolState.issuedPrincipal,
      PoolState.issuedPrincipal, hadvances]
  have hpool' : ps'.pool = ps.pool := by
    cases hps : ps.pool
    cases hps' : ps'.pool
    simp_all
  have hledgers' : ps'.ledgers = ps.ledgers := by
    apply Finmap.ext_lookup
    intro agent
    have hlive : ps'.livePrincipal agent = ps.livePrincipal agent := by
      rw [hexposure'.live, hexposure.live, PoolState.issuedPrincipalOf,
        PoolState.issuedPrincipalOf, hadvances]
    have hsame := congrFun hledgers agent
    simp only [PoolState.livePrincipal] at hlive hsame
    cases hfound' : ps'.ledgers.lookup agent with
    | none =>
        rw [hfound', Option.map_none, eq_comm, Option.map_eq_none_iff] at hsame
        exact hsame.symm
    | some ledger' =>
        rw [hfound', Option.map_some, eq_comm, Option.map_eq_some_iff] at hsame
        obtain ⟨ledger, hfound, hrest⟩ := hsame
        rw [hfound', hfound, Option.map_some, Option.map_some, Option.getD_some, Option.getD_some,
          UInt64.toNat_inj] at hlive
        rw [hfound]
        cases ledger
        cases ledger'
        simp_all
  cases ps
  cases ps'
  simp_all

/-- Two orders of a batch leave the same. -/
theorem Ended.perm_unique {now : Int64} {s₀ s₁ s₂ : Chain} {ps₀ ps₁ ps₂ : PoolState}
    {first second : List Input} (hperm : first.Perm second)
    (h₁ : Ended rt p now s₀ ps₀ first s₁ ps₁) (h₂ : Ended rt p now s₀ ps₀ second s₂ ps₂)
    (hexposure₁ : Exposure rt p ps₁) (hexposure₂ : Exposure rt p ps₂) :
    ps₁ = ps₂ ∧ s₁.pools = s₂.pools ∧ s₁.tokens = s₂.tokens ∧ s₁.registry = s₂.registry := by
  have hmeasure : measure ps₁ s₁.tokens = measure ps₂ s₂.tokens := by
    rw [h₁.measured, h₂.measured, (hperm.map _).sum_eq]
  have hframe : frame ps₁ s₁.tokens = frame ps₂ s₂.tokens := h₁.framed.trans h₂.framed.symm
  have hadvances : ps₁.advances = ps₂.advances := by
    apply Finmap.ext_lookup
    intro key
    have hmem : key ∈ endedBy p first ↔ key ∈ endedBy p second := (hperm.filterMap _).mem_iff
    rw [h₁.advances, h₂.advances]
    exact if_congr hmem rfl rfl
  have htombstones : ps₁.tombstones = ps₂.tombstones := by
    apply Finmap.ext_lookup
    intro key
    have hmem : key ∈ liquidatedBy p first ↔ key ∈ liquidatedBy p second :=
      (hperm.filterMap _).mem_iff
    rw [h₁.tombstones, h₂.tombstones]
    exact if_congr hmem rfl rfl
  have hstate : ps₁ = ps₂ :=
    PoolState.eq_of_frame hexposure₂ hexposure₁ hframe hmeasure hadvances htombstones
  have htokens : s₁.tokens = s₂.tokens := by
    simp only [frame, measure, Prod.mk.injEq] at hframe hmeasure
    obtain ⟨-, -, -, hmints⟩ := hframe
    have hafter : s₁.tokens.after 0 = s₂.tokens.after 0 := by
      rw [h₁.spent, h₂.spent, (hperm.map _).sum_eq]
    exact TokenLedger.eq_of_balance hmints hafter fun address ↦
      Nat.cast_inj.mp (congrFun hmeasure.2.2 address)
  refine ⟨hstate, ?_, htokens, h₁.registry.trans h₂.registry.symm⟩
  rw [h₁.pools, h₂.pools, hstate]

/-! ## Liquidations alone -/

section Liquidations

variable {trace : List Input} {s s' : Chain} {ps ps' : PoolState}

/-- The principal of a stored advance. -/
def Escrow.PoolState.principalAt (ps : PoolState) (key : AdvanceKey) : ℕ :=
  ((ps.advances.lookup key).map fun advance ↦ advance.principal.toNat).getD 0

/-- Nothing but the total assets can stop a liquidation. -/
def Ready (s : Chain) (ps : PoolState) (now : Int64) (accounts : Liquidate) : Prop :=
  s.pools.lookup accounts.cranker = none ∧
  ∃ advance, ps.advances.lookup accounts.advance.key = some advance ∧ Overdue now accounts advance

/-- On a reachable pool a liquidation is accepted if it is ready and the assets hold the
principal. -/
theorem Chain.step_liquidates_iff {input : Input} {accounts : Liquidate}
    (hrun : Chain.run rt trace = .ok s) (hp : s.pools.lookup accounts.pool = some ps)
    (haction : input.action = .pool (.liquidate accounts)) :
    (∃ s', Chain.step rt input s = .ok s') ↔ Ready s ps input.env.now accounts ∧
      ps.principalAt accounts.advance.key ≤ ps.pool.totalAssets.toNat := by
  have hexposure := Chain.run_exposure hrun hp
  constructor
  · rintro ⟨s', hstep⟩
    cases Chain.step_cases hstep with
    | @pool ix found effect hix hsigner hfound heffect =>
        obtain rfl : .liquidate accounts = ix := by simpa [haction] using hix
        obtain rfl : ps = found := by simpa [PoolInstruction.pool, hp] using hfound
        obtain ⟨advance, hstored, hoverdue, hassets⟩ :=
          (hexposure.liquidate_iff s.tokens).mp ⟨effect, heffect⟩
        refine ⟨⟨hsigner, advance, hstored, hoverdue⟩, ?_⟩
        simpa [PoolState.principalAt, hstored] using hassets
    | initPool hother _ _ => simp [haction] at hother
    | registry hother _ => simp [haction] at hother
    | token hother _ _ => simp [haction] at hother
  · rintro ⟨⟨hsigner, advance, hstored, hoverdue⟩, hassets⟩
    have hseeds := ((Chain.run_custodial hrun).custody _ ps hp).seeds
    rw [PoolState.principalAt, hstored, Option.map_some, Option.getD_some] at hassets
    obtain ⟨effect, heffect⟩ :=
      (hexposure.liquidate_iff s.tokens).mpr ⟨advance, hstored, hoverdue, hassets⟩
    refine ⟨s.commit accounts.pool effect, ?_⟩
    cases input
    obtain rfl := haction
    exact Chain.step_pool hsigner hp hseeds heffect

/-- What an accepted liquidation leaves to the others: their advances, and the assets without its
own principal. -/
structure Leaves (p : Pubkey) (key : AdvanceKey) (s : Chain) (ps : PoolState) (s' : Chain)
    (ps' : PoolState) : Prop where
  pool : s'.pools.lookup p = some ps'
  signers : ∀ signer, s'.pools.lookup signer = none ↔ s.pools.lookup signer = none
  advances : ∀ other, other ≠ key → ps'.advances.lookup other = ps.advances.lookup other
  assets : ps'.pool.totalAssets.toNat + ps.principalAt key = ps.pool.totalAssets.toNat

theorem Chain.step_leaves {input : Input} {accounts : Liquidate}
    (hp : s.pools.lookup accounts.pool = some ps)
    (haction : input.action = .pool (.liquidate accounts))
    (hstep : Chain.step rt input s = .ok s') :
    ∃ ps', Leaves accounts.pool accounts.advance.key s ps s' ps' := by
  obtain ⟨found, effect, hfound, hp', heffect, rfl⟩ := Chain.step_handled hstep haction
  obtain rfl : ps = found := by simpa [PoolInstruction.pool, hp] using hfound
  obtain ⟨-, advance, consumed, ledger, hliquidates⟩ := liquidate_effect heffect
  have hkey := hliquidates.key_eq
  refine ⟨effect.state, ?_⟩
  constructor
  case pool => exact hp'
  case signers =>
    intro signer
    change (s.pools.insert accounts.pool effect.state).lookup signer = none ↔ _
    rw [lookup_insert_eq]
    by_cases hsame : signer = accounts.pool
    · rw [if_pos hsame, hsame, hp]
      exact iff_of_false (by simp) (by simp)
    · rw [if_neg hsame]
  case advances =>
    intro other hother
    rw [hliquidates.closes.advances, ← hkey, Finmap.lookup_erase_ne hother]
  case assets =>
    rw [hkey, PoolState.principalAt, hliquidates.live.found]
    exact hliquidates.assets

theorem Leaves.ready_iff {key : AdvanceKey} (h : Leaves p key s ps s' ps') {now : Int64}
    {accounts : Liquidate} (hother : accounts.advance.key ≠ key) :
    Ready s' ps' now accounts ↔ Ready s ps now accounts := by
  rw [Ready, Ready, h.signers, h.advances _ hother]

/-- The inputs of a batch of liquidations of a pool. -/
def Liquidations (p : Pubkey) (batch : List Input) : Prop :=
  ∀ input ∈ batch, ∃ accounts, input.action = .pool (.liquidate accounts) ∧ accounts.pool = p

/-- Each liquidation of a batch is ready, and the assets hold the sum of the principals. -/
structure Feasible (p : Pubkey) (s : Chain) (ps : PoolState) (batch : List Input) : Prop where
  ready : ∀ input ∈ batch, ∀ accounts, input.action = .pool (.liquidate accounts) →
    Ready s ps input.env.now accounts
  assets : ((endedBy p batch).map ps.principalAt).sum ≤ ps.pool.totalAssets.toNat

theorem Feasible.perm {first second : List Input} (h : Feasible p s ps first)
    (hperm : first.Perm second) : Feasible p s ps second := by
  constructor
  · intro input hin
    exact h.ready input (hperm.mem_iff.mpr hin)
  · have hended : (endedBy p first).Perm (endedBy p second) := hperm.filterMap _
    rw [← (hended.map ps.principalAt).sum_eq]
    exact h.assets

theorem endedBy_cons {batch : List Input} {input : Input} {key : AdvanceKey}
    (hends : input.action.ends p = some key) :
    endedBy p (input :: batch) = key :: endedBy p batch := by
  simp [endedBy, hends]

theorem Liquidations.tail {rest : List Input} {input : Input}
    (h : Liquidations p (input :: rest)) : Liquidations p rest := fun other hin ↦
  h other (List.mem_cons_of_mem _ hin)

theorem Liquidations.ends {batch : List Input} {input : Input} {accounts : Liquidate}
    (h : Liquidations p batch) (hin : input ∈ batch)
    (haction : input.action = .pool (.liquidate accounts)) :
    input.action.ends p = some accounts.advance.key := by
  obtain ⟨found, hfound, hpool⟩ := h input hin
  obtain rfl : accounts = found := by simpa [haction] using hfound
  rw [haction, Action.ends, if_pos hpool]

/-- Other advances keep their principals. -/
theorem Leaves.map_principalAt {key : AdvanceKey} (h : Leaves p key s ps s' ps')
    {keys : List AdvanceKey} (hfresh : key ∉ keys) :
    keys.map ps'.principalAt = keys.map ps.principalAt := by
  apply List.map_congr_left
  intro other hother
  have hne : other ≠ key := fun hsame ↦ hfresh (hsame ▸ hother)
  rw [PoolState.principalAt, PoolState.principalAt, h.advances other hne]

/-- A ready liquidation leaves the rest of the batch as feasible as the whole was. -/
theorem Leaves.feasible_iff {input : Input} {rest : List Input} {accounts : Liquidate}
    (h : Leaves p accounts.advance.key s ps s' ps')
    (haction : input.action = .pool (.liquidate accounts))
    (hbatch : Liquidations p (input :: rest)) (hdistinct : (endedBy p (input :: rest)).Nodup)
    (hready : Ready s ps input.env.now accounts) :
    Feasible p s' ps' rest ↔ Feasible p s ps (input :: rest) := by
  have hends := hbatch.ends List.mem_cons_self haction
  rw [endedBy_cons hends, List.nodup_cons] at hdistinct
  have hprincipals := h.map_principalAt hdistinct.1
  have hassets := h.assets
  have hother (other : Input) (hin : other ∈ rest) (accounts' : Liquidate)
      (hliquidates : other.action = .pool (.liquidate accounts')) :
      Ready s' ps' other.env.now accounts' ↔ Ready s ps other.env.now accounts' := by
    apply h.ready_iff
    intro hsame
    have hended := hbatch.tail.ends hin hliquidates
    rw [hsame] at hended
    exact hdistinct.1 (List.mem_filterMap.mpr ⟨other, hin, hended⟩)
  constructor
  · intro hrest
    constructor
    · intro other hin accounts' hliquidates
      obtain rfl | hin := List.mem_cons.mp hin
      · obtain rfl : accounts = accounts' := by simpa [haction] using hliquidates
        exact hready
      · exact (hother other hin accounts' hliquidates).mp (hrest.ready other hin _ hliquidates)
    · have hsum := hrest.assets
      rw [hprincipals] at hsum
      rw [endedBy_cons hends, List.map_cons, List.sum_cons]
      omega
  · intro hwhole
    constructor
    · intro other hin accounts' hliquidates
      exact (hother other hin accounts' hliquidates).mpr
        (hwhole.ready other (List.mem_cons_of_mem _ hin) _ hliquidates)
    · have hsum := hwhole.assets
      rw [endedBy_cons hends, List.map_cons, List.sum_cons] at hsum
      rw [hprincipals]
      omega

/-- Liquidations succeed one after the other exactly if they are feasible at the start. -/
theorem Chain.run_liquidates_iff {batch : List Input} (hbatch : Liquidations p batch)
    (hdistinct : (endedBy p batch).Nodup) (hrun : Chain.run rt trace = .ok s)
    (hp : s.pools.lookup p = some ps) :
    (∃ s', Execution.run (Chain.step rt) s batch = .ok s') ↔ Feasible p s ps batch := by
  induction batch generalizing trace s ps with
  | nil => exact iff_of_true ⟨s, rfl⟩ ⟨by simp, by simp [endedBy]⟩
  | cons input rest ih =>
      obtain ⟨accounts, haction, rfl⟩ := hbatch input List.mem_cons_self
      have hends := hbatch.ends List.mem_cons_self haction
      have hrest : (endedBy accounts.pool rest).Nodup := by
        rw [endedBy_cons hends] at hdistinct
        exact hdistinct.of_cons
      have hstep := Chain.step_liquidates_iff hrun hp haction
      have hafter (s' : Chain) (hnext : Chain.step rt input s = .ok s') :
          (∃ final, Execution.run (Chain.step rt) s' rest = .ok final) ↔
            Feasible accounts.pool s ps (input :: rest) := by
        obtain ⟨ps', hleaves⟩ := Chain.step_leaves hp haction hnext
        rw [ih hbatch.tail hrest (Execution.run_snoc.mpr ⟨s, hrun, hnext⟩) hleaves.pool]
        exact hleaves.feasible_iff haction hbatch hdistinct (hstep.mp ⟨s', hnext⟩).1
      constructor
      · rintro ⟨final, hfinal⟩
        obtain ⟨s', hnext, hremaining⟩ := Execution.run_cons.mp hfinal
        exact (hafter s' hnext).mp ⟨final, hremaining⟩
      · intro hfeasible
        have hassets := hfeasible.assets
        rw [endedBy_cons hends, List.map_cons, List.sum_cons] at hassets
        obtain ⟨s', hnext⟩ := hstep.mpr
          ⟨hfeasible.ready input List.mem_cons_self accounts haction, by omega⟩
        obtain ⟨final, hremaining⟩ := (hafter s' hnext).mpr hfeasible
        exact ⟨final, Execution.run_cons.mpr ⟨s', hnext, hremaining⟩⟩

end Liquidations

/-- From every reachable state, at any time, two orders of a batch of terminal operations on
different advances of a pool that both succeed leave the same pools, tokens and registry. A batch of
liquidations succeeds in every order if it does in one. -/
theorem terminal_order_irrelevant {trace batch : List Input} {s : Chain} {ps : PoolState}
    {now : Int64} (hrun : Chain.run rt trace = .ok s) (hp : s.pools.lookup p = some ps)
    (hbatch : Batch p now batch) :
    (∀ first second s₁ s₂, first.Perm batch → second.Perm batch →
      Execution.run (Chain.step rt) s first = .ok s₁ →
      Execution.run (Chain.step rt) s second = .ok s₂ →
      s₁.pools = s₂.pools ∧ s₁.tokens = s₂.tokens ∧ s₁.registry = s₂.registry) ∧
    (Liquidations p batch → ∀ first second, first.Perm batch → second.Perm batch →
      ((∃ s₁, Execution.run (Chain.step rt) s first = .ok s₁) ↔
        ∃ s₂, Execution.run (Chain.step rt) s second = .ok s₂)) := by
  constructor
  · intro first second s₁ s₂ hfirst hsecond hrun₁ hrun₂
    obtain ⟨ps₁, hended₁⟩ := (hbatch.perm hfirst.symm).run_ended hp hrun₁
    obtain ⟨ps₂, hended₂⟩ := (hbatch.perm hsecond.symm).run_ended hp hrun₂
    have hexposure₁ : Exposure rt p ps₁ :=
      Chain.run_exposure (Execution.run_append.mpr ⟨s, hrun, hrun₁⟩)
        (by rw [hended₁.pools, Finmap.lookup_insert])
    have hexposure₂ : Exposure rt p ps₂ :=
      Chain.run_exposure (Execution.run_append.mpr ⟨s, hrun, hrun₂⟩)
        (by rw [hended₂.pools, Finmap.lookup_insert])
    exact (hended₁.perm_unique (hfirst.trans hsecond.symm) hended₂ hexposure₁ hexposure₂).2
  · intro hliquidations first second hfirst hsecond
    have horder (order : List Input) (hperm : order.Perm batch) :
        (∃ s', Execution.run (Chain.step rt) s order = .ok s') ↔ Feasible p s ps batch := by
      rw [Chain.run_liquidates_iff (fun input hin ↦ hliquidations input (hperm.mem_iff.mp hin))
        (hbatch.perm hperm.symm).distinct hrun hp]
      constructor
      · intro hfeasible
        exact hfeasible.perm hperm
      · intro hfeasible
        exact hfeasible.perm hperm.symm
    rw [horder first hfirst, horder second hsecond]

namespace Localnet

/-- The first instant after the grace period of the first advance, when the second is thirteen days
late. -/
def firstOverdue : Int64 := t₀ + 86400 + liquidationGraceSeconds

/-- The first advance is written off and the second one repaid. -/
def mixedBatch : List Input :=
  [liquidation 1 firstOverdue, settle 2 200000000 firstOverdue textNonce.toList]

end Localnet

instance (p : Pubkey) (now : Int64) (batch : List Input) : Decidable (Batch p now batch) :=
  decidable_of_iff ((∀ input ∈ batch, input.env.now = now) ∧
      (∀ input ∈ batch, input.action.ends p ≠ none) ∧ (endedBy p batch).Nodup)
    ⟨fun ⟨h₁, h₂, h₃⟩ ↦ ⟨h₁, h₂, h₃⟩, fun ⟨h₁, h₂, h₃⟩ ↦ ⟨h₁, h₂, h₃⟩⟩

theorem terminal_order_irrelevant_localnet : ∃ s s₁ s₂,
    Chain.run Localnet.runtime Localnet.nextDay = .ok s ∧
    Execution.run (Chain.step Localnet.runtime) s Localnet.mixedBatch = .ok s₁ ∧
    Execution.run (Chain.step Localnet.runtime) s Localnet.mixedBatch.reverse = .ok s₂ ∧
    s₁.pools = s₂.pools ∧ s₁.tokens = s₂.tokens ∧ s₁.registry = s₂.registry := by
  obtain ⟨s, ps, hrun, hp, htest⟩ := Localnet.reaches_iff.mp
    (show Localnet.reaches Localnet.nextDay (fun s _ ↦
      Localnet.returns (Execution.run (Chain.step Localnet.runtime) s Localnet.mixedBatch)
          (fun _ ↦ true) &&
        Localnet.returns (Execution.run (Chain.step Localnet.runtime) s
          Localnet.mixedBatch.reverse) (fun _ ↦ true)) = true by decide +kernel)
  obtain ⟨hfirst, hsecond⟩ := Bool.and_eq_true_iff.mp htest
  obtain ⟨s₁, hrun₁, -⟩ := Localnet.returns_iff.mp hfirst
  obtain ⟨s₂, hrun₂, -⟩ := Localnet.returns_iff.mp hsecond
  have hbatch : Batch Localnet.pool Localnet.firstOverdue Localnet.mixedBatch := by
    decide +kernel
  exact ⟨s, s₁, s₂, hrun, hrun₁, hrun₂, (terminal_order_irrelevant hrun hp hbatch).1 _ _ s₁ s₂
    (List.Perm.refl _) (List.reverse_perm _) hrun₁ hrun₂⟩

end CredMesh
