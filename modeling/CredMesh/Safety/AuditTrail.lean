import CredMesh.Bridge.EventCodec
import CredMesh.Foundation.Journal
import CredMesh.Safety.Replay

/-!
# The audit trail

The events of the escrow tell everything about its pools that is counted in atoms. An auditor who
starts from nothing, or from a snapshot taken at any point, and reads the bytes that were logged
since keeps the books of every pool, the debt and the open advances of every agent, what was written
off, the pending proposal and the caps in force. The same books show who was paid: of all fees ever
paid the treasury gets 15% at most.
-/

namespace CredMesh

open Escrow

/-- The pool that an event is about. -/
def Escrow.Event.pool : Event → Pubkey
  | poolInitialized pool _ _ _ => pool
  | deposited pool _ _ _ => pool
  | withdrew pool _ _ _ => pool
  | advanceIssued pool _ _ _ _ _ _ => pool
  | advanceSettled pool _ _ _ _ _ _ _ => pool
  | advanceLiquidated pool _ _ _ => pool
  | paramsProposed pool _ => pool
  | paramsExecuted pool _ _ _ => pool
  | protocolFeesSkimmed pool _ _ => pool

theorem PoolInstruction.Emits.event_pool {rt : Runtime} {env : Env} {s : PoolState}
    {ix : PoolInstruction} {event : Event} (h : ix.Emits rt env s event) :
    event.pool = ix.pool := by
  cases h <;> rfl

namespace Escrow.PoolState

/-- The number of open advances of an agent. -/
def liveAdvances (s : PoolState) (agent : Pubkey) : ℕ :=
  s.advances.total fun _ advance ↦ if advance.agent = agent then 1 else 0

/-- The principal of the advances that have a tombstone. -/
def lostPrincipal (s : PoolState) : ℕ :=
  s.tombstones.total fun _ tombstone ↦ tombstone.principal.toNat

end Escrow.PoolState

/-- What an auditor writes down about a pool. Its caps are known once the first proposal has been
executed. -/
structure PoolAudit where
  assetMint : Pubkey
  shareMint : Pubkey
  governance : Pubkey
  totalAssets : ℤ
  totalShares : ℤ
  deployedAmount : ℤ
  accruedProtocolFees : ℤ
  livePrincipal : Pubkey → ℤ
  liveAdvances : Pubkey → ℤ
  lostPrincipal : ℤ
  executeAfter : Option Int64
  caps : Option (UInt16 × UInt64 × UInt64)

namespace PoolAudit

def opened (assetMint shareMint governance : Pubkey) : PoolAudit where
  assetMint
  shareMint
  governance
  totalAssets := 0
  totalShares := 0
  deployedAmount := 0
  accruedProtocolFees := 0
  livePrincipal := 0
  liveAdvances := 0
  lostPrincipal := 0
  executeAfter := none
  caps := none

/-- The debt of an agent and the capital in its hands change by the same amount, and the number of
its advances with them. -/
def lend (audit : PoolAudit) (agent : Pubkey) (change advances : ℤ) : PoolAudit :=
  { audit with
    deployedAmount := audit.deployedAmount + change
    livePrincipal := Function.update audit.livePrincipal agent
      (audit.livePrincipal agent + change)
    liveAdvances := Function.update audit.liveAdvances agent
      (audit.liveAdvances agent + advances) }

def record (audit : PoolAudit) : Event → PoolAudit
  | .poolInitialized _ _ _ _ => audit
  | .deposited _ _ amount sharesMinted =>
      { audit with
        totalAssets := audit.totalAssets + amount.toNat
        totalShares := audit.totalShares + sharesMinted.toNat }
  | .withdrew _ _ sharesBurned assetsReturned =>
      { audit with
        totalAssets := audit.totalAssets - assetsReturned.toNat
        totalShares := audit.totalShares - sharesBurned.toNat }
  | .advanceIssued _ agent _ principal _ _ _ => audit.lend agent principal.toNat 1
  | .advanceSettled _ agent _ principal lpCut protocolCut _ _ =>
      { audit.lend agent (-principal.toNat) (-1) with
        totalAssets := audit.totalAssets + (lpCut.toNat - principal.toNat)
        accruedProtocolFees := audit.accruedProtocolFees + protocolCut.toNat }
  | .advanceLiquidated _ agent _ loss =>
      { audit.lend agent (-loss.toNat) (-1) with
        totalAssets := audit.totalAssets - loss.toNat
        lostPrincipal := audit.lostPrincipal + loss.toNat }
  | .paramsProposed _ executeAfter => { audit with executeAfter := some executeAfter }
  | .paramsExecuted _ maxAdvancePctBps maxAdvanceAbs agentWindowCap =>
      { audit with
        executeAfter := none
        caps := some (maxAdvancePctBps, maxAdvanceAbs, agentWindowCap) }
  | .protocolFeesSkimmed _ amount _ =>
      { audit with accruedProtocolFees := audit.accruedProtocolFees - amount.toNat }

/-- One event, in the file of the pool at an address. -/
def replay (p : Pubkey) (file : Option PoolAudit) (event : Event) : Option PoolAudit :=
  if event.pool = p then
    match event with
    | .poolInitialized _ assetMint shareMint governance =>
        some (opened assetMint shareMint governance)
    | event => file.map fun audit ↦ audit.record event
  else file

/-- The file of an auditor who looks at a pool once. -/
def snapshot (s : PoolState) : PoolAudit where
  assetMint := s.pool.assetMint
  shareMint := s.pool.shareMint
  governance := s.pool.governance
  totalAssets := s.pool.totalAssets.toNat
  totalShares := s.pool.totalShares.toNat
  deployedAmount := s.pool.deployedAmount.toNat
  accruedProtocolFees := s.pool.accruedProtocolFees.toNat
  livePrincipal agent := s.livePrincipal agent
  liveAdvances agent := s.liveAdvances agent
  lostPrincipal := s.lostPrincipal
  executeAfter := s.pool.pendingParams.map PendingParams.executeAfter
  caps := some (s.pool.maxAdvancePctBps, s.pool.maxAdvanceAbs, s.pool.agentWindowCap)

/-- What is written down is true of a pool. -/
structure Describes (audit : PoolAudit) (s : PoolState) : Prop where
  assetMint : audit.assetMint = s.pool.assetMint
  shareMint : audit.shareMint = s.pool.shareMint
  governance : audit.governance = s.pool.governance
  totalAssets : audit.totalAssets = s.pool.totalAssets.toNat
  totalShares : audit.totalShares = s.pool.totalShares.toNat
  deployedAmount : audit.deployedAmount = s.pool.deployedAmount.toNat
  accruedProtocolFees : audit.accruedProtocolFees = s.pool.accruedProtocolFees.toNat
  livePrincipal : ∀ agent, audit.livePrincipal agent = s.livePrincipal agent
  liveAdvances : ∀ agent, audit.liveAdvances agent = s.liveAdvances agent
  lostPrincipal : audit.lostPrincipal = s.lostPrincipal
  executeAfter : audit.executeAfter = s.pool.pendingParams.map PendingParams.executeAfter
  caps : ∀ caps ∈ audit.caps,
    caps = (s.pool.maxAdvancePctBps, s.pool.maxAdvanceAbs, s.pool.agentWindowCap)

/-- The file of a pool that is not there is empty, any other tells the truth. -/
def Agrees (p : Pubkey) (file : Option PoolAudit) (s : Chain) : Prop :=
  match s.pools.lookup p with
  | none => file = none
  | some ps => ∃ audit, file = some audit ∧ audit.Describes ps

end PoolAudit

/-! ## One instruction -/

theorem PoolAudit.describes_snapshot (s : PoolState) : (PoolAudit.snapshot s).Describes s where
  assetMint := rfl
  shareMint := rfl
  governance := rfl
  totalAssets := rfl
  totalShares := rfl
  deployedAmount := rfl
  accruedProtocolFees := rfl
  livePrincipal _ := rfl
  liveAdvances _ := rfl
  lostPrincipal := rfl
  executeAfter := rfl
  caps _ hcaps := (Option.some.inj hcaps).symm

theorem PoolAudit.describes_initialPool (bump : UInt8) (accounts : InitPool)
    (params : InitPoolParams) :
    (PoolAudit.opened accounts.assetMint accounts.shareMint params.governance).Describes
      ⟨initialPool bump accounts params, ∅, ∅, ∅, ∅⟩ := by
  refine ⟨rfl, rfl, rfl, rfl, rfl, rfl, rfl, fun agent ↦ rfl, fun agent ↦ rfl, rfl, rfl,
    fun caps hcaps ↦ ?_⟩
  cases hcaps

theorem PoolAudit.update_add_apply (count : Pubkey → ℤ) (borrower : Pubkey) (change : ℤ)
    (agent : Pubkey) : Function.update count borrower (count borrower + change) agent =
      count agent + if borrower = agent then change else 0 := by
  rw [Function.update_apply]
  by_cases h : agent = borrower
  · rw [if_pos h, if_pos h.symm, h]
  · rw [if_neg h, if_neg (Ne.symm h), add_zero]

/-- The debt that is written down changes by what the event says. -/
theorem PoolAudit.record_livePrincipal (audit : PoolAudit) (event : Event) (agent : Pubkey) :
    (audit.record event).livePrincipal agent =
      audit.livePrincipal agent + event.exposureChange event.pool agent := by
  cases event with
  | advanceIssued _ borrower _ principal _ _ _ =>
      simp only [Event.exposureChange, Event.pool, true_and]
      exact update_add_apply audit.livePrincipal borrower principal.toNat agent
  | advanceSettled _ borrower _ principal _ _ _ _ =>
      simp only [Event.exposureChange, Event.pool, true_and]
      exact update_add_apply audit.livePrincipal borrower (-principal.toNat) agent
  | advanceLiquidated _ borrower _ loss =>
      simp only [Event.exposureChange, Event.pool, true_and]
      exact update_add_apply audit.livePrincipal borrower (-loss.toNat) agent
  | _ => exact (add_zero _).symm

section Handler

variable {rt : Runtime} {env : Env} {r : Registry.RegistryState} {s : PoolState}
  {t : Spl.TokenLedger} {ix : PoolInstruction} {effect : Effect} {audit : PoolAudit}

/-- The counters of a pool change by what the event says. -/
theorem PoolInstruction.handler_counters (h : ix.handler rt env r s t = .ok effect)
    (hdescribes : audit.Describes s) :
    (audit.record effect.event).totalAssets = effect.state.pool.totalAssets.toNat ∧
    (audit.record effect.event).totalShares = effect.state.pool.totalShares.toNat ∧
    (audit.record effect.event).deployedAmount = effect.state.pool.deployedAmount.toNat ∧
    (audit.record effect.event).accruedProtocolFees =
      effect.state.pool.accruedProtocolFees.toNat := by
  have hassets := hdescribes.totalAssets
  have hshares := hdescribes.totalShares
  have hdeployed := hdescribes.deployedAmount
  have haccrued := hdescribes.accruedProtocolFees
  cases ix with
  | deposit accounts amount =>
      obtain ⟨_, _, shares, _, -, hbuys, -, -⟩ := deposit_eq_ok.mp h
      have hpool := congrArg PoolState.pool hbuys.state
      have hpaid := hbuys.totalAssets
      have hminted := hbuys.totalShares
      rw [hbuys.emitted]
      refine ⟨?_, ?_, ?_, ?_⟩
      · change audit.totalAssets + _ = _
        omega
      · change audit.totalShares + _ = _
        omega
      · rw [hpool]
        exact hdeployed
      · rw [hpool]
        exact haccrued
  | withdraw accounts shares =>
      obtain ⟨_, _, assets, _, -, hredeems, -, -, -⟩ := withdraw_eq_ok.mp h
      have hpool := congrArg PoolState.pool hredeems.state
      have hpaid := hredeems.totalAssets
      have hburned := hredeems.totalShares
      rw [hredeems.emitted]
      refine ⟨?_, ?_, ?_, ?_⟩
      · change audit.totalAssets - _ = _
        omega
      · change audit.totalShares - _ = _
        omega
      · rw [hpool]
        exact hdeployed
      · rw [hpool]
        exact haccrued
  | requestAdvance accounts receivableId amount nonce =>
      obtain ⟨_, _, _, _, _, -, hissues, -, hevent⟩ := requestAdvance_eq_ok.mp h
      have hpool := hissues.pool
      have hlent := hissues.deployed
      rw [hevent]
      refine ⟨?_, ?_, ?_, ?_⟩
      · rw [hpool]
        exact hassets
      · rw [hpool]
        exact hshares
      · change audit.deployedAmount + _ = _
        omega
      · rw [hpool]
        exact haccrued
  | claimAndSettle accounts paymentAmount =>
      obtain ⟨advance, _, _, _, split, _, -, hsettles, -, -, hevent⟩ := claimAndSettle_eq_ok.mp h
      obtain ⟨_, _, -, -, -, hsplit⟩ := waterfall_eq_ok.mp hsettles.divided
      have hpool := hsettles.pool
      have hrepaid := hsettles.closes.deployed
      have hearned := hsettles.assets
      have hcut := hsettles.accrued
      have hlp := hsplit.lpCut
      rw [hevent]
      refine ⟨?_, ?_, ?_, ?_⟩
      · change audit.totalAssets + (_ - _) = _
        omega
      · rw [hpool]
        exact hshares
      · change audit.deployedAmount + -_ = _
        omega
      · change audit.accruedProtocolFees + _ = _
        omega
  | liquidate accounts =>
      obtain ⟨-, advance, _, _, -, hliquidates, hevent⟩ := liquidate_eq_ok.mp h
      have hpool := hliquidates.pool
      have hlost := hliquidates.closes.deployed
      have hbooked := hliquidates.assets
      rw [hevent]
      refine ⟨?_, ?_, ?_, ?_⟩
      · change audit.totalAssets - _ = _
        omega
      · rw [hpool]
        exact hshares
      · change audit.deployedAmount + -_ = _
        omega
      · rw [hpool]
        exact haccrued
  | proposeParams accounts params =>
      have hemits := handler_emits h
      obtain ⟨-, -, -, executeAfter, -, hstate⟩ := proposeParams_effect h
      rw [hstate]
      generalize effect.event = event at hemits
      cases hemits
      exact ⟨hassets, hshares, hdeployed, haccrued⟩
  | executeParams accounts =>
      have hemits := handler_emits h
      obtain ⟨-, pending, -, -, hstate⟩ := executeParams_effect h
      rw [hstate]
      generalize effect.event = event at hemits
      cases hemits
      exact ⟨hassets, hshares, hdeployed, haccrued⟩
  | skimProtocolFees accounts amount =>
      obtain ⟨_, -, hskims, -, hevent⟩ := skimProtocolFees_eq_ok.mp h
      have hpool := congrArg PoolState.pool hskims.state
      have hskimmed := hskims.accrued
      rw [hevent]
      refine ⟨?_, ?_, ?_, ?_⟩
      · rw [hpool]
        exact hassets
      · rw [hpool]
        exact hshares
      · rw [hpool]
        exact hdeployed
      · change audit.accruedProtocolFees - _ = _
        omega

/-- The open advances of an agent and what was written off change by what the event says. -/
theorem PoolInstruction.handler_counted (h : ix.handler rt env r s t = .ok effect)
    (hdescribes : audit.Describes s) :
    (∀ agent, (audit.record effect.event).liveAdvances agent =
      effect.state.liveAdvances agent) ∧
    (audit.record effect.event).lostPrincipal = effect.state.lostPrincipal := by
  have hemits := handler_emits h
  have hchange := handler_advances h
  have hcounted := hdescribes.liveAdvances
  have hlost := hdescribes.lostPrincipal
  generalize effect.event = event at hemits ⊢
  generalize effect.state = s' at hchange ⊢
  -- An advance that ends is the one of the event, and counts for its agent only.
  have hended {advance : Advance} {consumed : ConsumedPayment} {ledger : AgentIssuanceLedger}
      {poolKey : Pubkey} (hlive : Live rt poolKey s advance consumed ledger)
      (hcloses : Closes s advance ledger s') (agent : Pubkey) :
      Function.update audit.liveAdvances advance.agent (audit.liveAdvances advance.agent + -1)
        agent = s'.liveAdvances agent := by
    have htotal := AccountMap.total_erase
      (fun _ (other : Advance) ↦ if other.agent = agent then 1 else 0) hlive.found
    rw [← hcloses.advances] at htotal
    rw [PoolAudit.update_add_apply, hcounted, PoolState.liveAdvances, ← htotal,
      PoolState.liveAdvances]
    split <;> simp
  cases hchange with
  | @issue accounts receivableId _ _ _ _ advance _ hissues =>
      cases hemits
      refine ⟨fun agent ↦ ?_, ?_⟩
      · change Function.update audit.liveAdvances accounts.agent _ agent = _
        have hagent : advance.agent = accounts.agent := congrArg Advance.agent hissues.recorded
        rw [PoolAudit.update_add_apply, hcounted, PoolState.liveAdvances, PoolState.liveAdvances,
          hissues.advances, AccountMap.total_insert_fresh _ _ hissues.unissued, hagent]
        split <;> simp [add_comm]
      · rw [PoolState.lostPrincipal, hissues.tombstones]
        exact hlost
  | settle hsettles =>
      cases hemits with
      | claimAndSettle hstored _ =>
          rw [hsettles.stored] at hstored
          obtain rfl := Option.some.inj hstored
          refine ⟨hended hsettles.live hsettles.closes, ?_⟩
          rw [PoolState.lostPrincipal, hsettles.tombstones]
          exact hlost
  | liquidate hliquidates =>
      cases hemits with
      | liquidate hstored =>
          rw [hliquidates.stored] at hstored
          obtain rfl := Option.some.inj hstored
          refine ⟨hended hliquidates.live hliquidates.closes, ?_⟩
          rw [PoolState.lostPrincipal, hliquidates.tombstones,
            AccountMap.total_insert_fresh _ _ hliquidates.unburied, Nat.add_comm, Nat.cast_add]
          change audit.lostPrincipal + _ = _
          rw [hlost]
          rfl
  | unrelated hnone =>
      cases hemits
      case requestAdvance => cases hnone
      case claimAndSettle => cases hnone
      case liquidate => cases hnone
      all_goals exact ⟨hcounted, hlost⟩

/-- The proposal and the caps change by what the event says. -/
theorem PoolInstruction.handler_governed (h : ix.handler rt env r s t = .ok effect)
    (hdescribes : audit.Describes s) :
    (audit.record effect.event).executeAfter =
      effect.state.pool.pendingParams.map PendingParams.executeAfter ∧
    ∀ caps ∈ (audit.record effect.event).caps,
      caps = (effect.state.pool.maxAdvancePctBps, effect.state.pool.maxAdvanceAbs,
        effect.state.pool.agentWindowCap) := by
  have hpending := hdescribes.executeAfter
  have hcaps := hdescribes.caps
  cases ix with
  | proposeParams accounts params =>
      simp only [handler, Escrow.proposeParams, Outcome.bind_eq_ok, Outcome.pure_eq_ok] at h
      obtain ⟨-, -, -, -, -, -, executeAfter, -, rfl⟩ := h
      exact ⟨rfl, hcaps⟩
  | executeParams accounts =>
      simp only [handler, Escrow.executeParams, Outcome.bind_eq_ok, Outcome.pure_eq_ok] at h
      obtain ⟨pending, -, -, -, rfl⟩ := h
      refine ⟨rfl, fun caps hsome ↦ ?_⟩
      exact (Option.some.inj hsome).symm
  | _ =>
      have hemits := handler_emits h
      have hparams := handler_params h
      generalize effect.event = event at hemits
      generalize effect.state = s' at hparams
      cases hparams with
      | kept _ _ hrisk hkept =>
          rw [hkept]
          have hpct := congrArg RiskParams.maxAdvancePctBps hrisk
          have habs := congrArg RiskParams.maxAdvanceAbs hrisk
          have hcap := congrArg RiskParams.agentWindowCap hrisk
          simp only [Pool.riskParams] at hpct habs hcap
          rw [hpct, habs, hcap]
          cases hemits
          exact ⟨hpending, hcaps⟩

/-- An accepted instruction emits everything that an auditor needs to know of it. -/
theorem PoolInstruction.handler_recorded (h : ix.handler rt env r s t = .ok effect)
    (hdescribes : audit.Describes s) : (audit.record effect.event).Describes effect.state := by
  obtain ⟨hassets, hshares, hdeployed, haccrued⟩ := handler_counters h hdescribes
  obtain ⟨hcounted, hlost⟩ := handler_counted h hdescribes
  obtain ⟨hpending, hcaps⟩ := handler_governed h hdescribes
  have hidentity := handler_identity h
  have hfixed : (audit.record effect.event).assetMint = audit.assetMint ∧
      (audit.record effect.event).shareMint = audit.shareMint ∧
      (audit.record effect.event).governance = audit.governance := by
    cases effect.event <;> exact ⟨rfl, rfl, rfl⟩
  refine ⟨?_, ?_, ?_, hassets, hshares, hdeployed, haccrued, fun agent ↦ ?_, hcounted, hlost,
    hpending, hcaps⟩
  · rw [hfixed.1, hdescribes.assetMint]
    exact (congrArg PoolIdentity.assetMint hidentity).symm
  · rw [hfixed.2.1, hdescribes.shareMint]
    exact (congrArg PoolIdentity.shareMint hidentity).symm
  · rw [hfixed.2.2, hdescribes.governance]
    exact (congrArg PoolIdentity.governance hidentity).symm
  · rw [PoolAudit.record_livePrincipal, (handler_emits h).event_pool, hdescribes.livePrincipal,
      handler_exposureChange h]

end Handler

/-! ## Runs -/

namespace PoolAudit

theorem replay_elsewhere {p : Pubkey} {event : Event} (h : event.pool ≠ p)
    (file : Option PoolAudit) : replay p file event = file := if_neg h

theorem replay_emitted {rt : Runtime} {env : Env} {s : PoolState} {ix : PoolInstruction}
    {event : Event} (h : ix.Emits rt env s event) (audit : PoolAudit) :
    replay ix.pool (some audit) event = some (audit.record event) := by
  have hpool := h.event_pool
  cases h <;> exact if_pos hpool

/-- Every accepted input, of any program, keeps the file of every pool true. -/
theorem follows (rt : Runtime) (p : Pubkey) :
    Journal.Follows (Chain.step rt) Chain.events (replay p) (Agrees p) := by
  intro input s s' file hstep hagrees
  unfold Agrees at hagrees ⊢
  cases Chain.step_cases hstep with
  | @initPool accounts params effect _ hfresh heffect =>
      refine ⟨[effect.event], rfl, ?_⟩
      rw [Chain.commit, AccountMap.lookup_insert_eq, initPool_event heffect,
        (initPool_effect heffect).1, List.foldl_cons, List.foldl_nil]
      by_cases hpool : p = accounts.pool
      · rw [if_pos hpool]
        exact ⟨_, if_pos hpool.symm, describes_initialPool _ accounts params⟩
      · rw [if_neg hpool, replay_elsewhere (Ne.symm hpool)]
        exact hagrees
  | @pool ix ps effect _ _ hfound heffect =>
      have hemits := PoolInstruction.handler_emits heffect
      refine ⟨[effect.event], rfl, ?_⟩
      rw [Chain.commit, AccountMap.lookup_insert_eq, List.foldl_cons, List.foldl_nil]
      by_cases hpool : p = ix.pool
      · subst hpool
        rw [hfound] at hagrees
        obtain ⟨audit, rfl, hdescribes⟩ := hagrees
        rw [if_pos rfl, replay_emitted hemits]
        exact ⟨_, rfl, PoolInstruction.handler_recorded heffect hdescribes⟩
      · have helsewhere : effect.event.pool ≠ p := hemits.event_pool.trans_ne (Ne.symm hpool)
        rw [if_neg hpool, replay_elsewhere helsewhere]
        exact hagrees
  | registry _ _ => exact ⟨[], (List.append_nil _).symm, hagrees⟩
  | token _ _ _ => exact ⟨[], (List.append_nil _).symm, hagrees⟩

end PoolAudit

variable {rt : Runtime} {trace : List Input} {s : Chain}

/-- What a pool took in and paid out since its creation. -/
structure Takings where
  deposited : ℤ
  withdrawn : ℤ
  lost : ℤ
  lpFees : ℤ
  protocolFees : ℤ
  skimmed : ℤ
  settlements : ℤ

namespace Takings

def zero : Takings := ⟨0, 0, 0, 0, 0, 0, 0⟩

def record (takings : Takings) : Event → Takings
  | .deposited _ _ amount _ => { takings with deposited := takings.deposited + amount.toNat }
  | .withdrew _ _ _ assetsReturned =>
      { takings with withdrawn := takings.withdrawn + assetsReturned.toNat }
  | .advanceSettled _ _ _ principal lpCut protocolCut _ _ =>
      { takings with
        lpFees := takings.lpFees + (lpCut.toNat - principal.toNat)
        protocolFees := takings.protocolFees + protocolCut.toNat
        settlements := takings.settlements + 1 }
  | .advanceLiquidated _ _ _ loss => { takings with lost := takings.lost + loss.toNat }
  | .protocolFeesSkimmed _ amount _ => { takings with skimmed := takings.skimmed + amount.toNat }
  | _ => takings

def replay (p : Pubkey) (takings : Takings) (event : Event) : Takings :=
  if event.pool = p then takings.record event else takings

theorem replay_on {p : Pubkey} {event : Event} (h : event.pool = p) (takings : Takings) :
    replay p takings event = takings.record event := if_pos h

theorem replay_elsewhere {p : Pubkey} {event : Event} (h : event.pool ≠ p) (takings : Takings) :
    replay p takings event = takings := if_neg h

/-- The takings account for what a pool has, and for how fees were divided. -/
structure Explains (takings : Takings) (pool : Pool) : Prop where
  assets : takings.deposited + takings.lpFees =
    pool.totalAssets.toNat + takings.withdrawn + takings.lost
  fees : takings.protocolFees = pool.accruedProtocolFees.toNat + takings.skimmed
  lpFees : 0 ≤ takings.lpFees
  /-- The treasury gets 15% of the fees, less what rounding leaves to the pool. -/
  share : 10000 * takings.protocolFees ≤ 1500 * (takings.protocolFees + takings.lpFees)
  rounding : 1500 * (takings.protocolFees + takings.lpFees) ≤
    10000 * takings.protocolFees + 9999 * takings.settlements

def Agrees (p : Pubkey) (takings : Takings) (s : Chain) : Prop :=
  match s.pools.lookup p with
  | none => takings = zero
  | some ps => takings.Explains ps.pool

theorem handler_explained {rt : Runtime} {env : Env} {r : Registry.RegistryState} {s : PoolState}
    {t : Spl.TokenLedger} {ix : PoolInstruction} {effect : Effect} {takings : Takings}
    (h : ix.handler rt env r s t = .ok effect) (hexplains : takings.Explains s.pool) :
    (takings.record effect.event).Explains effect.state.pool := by
  obtain ⟨hassets, hfees, hlpFees, hshare, hrounding⟩ := hexplains
  obtain ⟨htotal, -, -, haccrued⟩ :=
    PoolInstruction.handler_counters h (PoolAudit.describes_snapshot s)
  have hemits := PoolInstruction.handler_emits h
  generalize effect.event = event at hemits htotal haccrued ⊢
  generalize effect.state = s' at htotal haccrued ⊢
  cases hemits with
  | @claimAndSettle accounts paymentAmount advance split hstored hsplit =>
      obtain ⟨latePenalty, _, -, -, -, hcut, hfee, hlp, -⟩ := waterfall_eq_ok.mp hsplit
      simp only [PoolAudit.record, PoolAudit.lend, PoolAudit.snapshot] at htotal haccrued
      constructor <;> simp only [record] <;> omega
  | _ =>
      simp only [PoolAudit.record, PoolAudit.lend, PoolAudit.snapshot] at htotal haccrued
      constructor <;> simp only [record] <;> omega

theorem follows (rt : Runtime) (p : Pubkey) :
    Journal.Follows (Chain.step rt) Chain.events (replay p) (Agrees p) := by
  intro input s s' takings hstep hagrees
  unfold Agrees at hagrees ⊢
  cases Chain.step_cases hstep with
  | @initPool accounts params effect _ hfresh heffect =>
      refine ⟨[effect.event], rfl, ?_⟩
      rw [Chain.commit, AccountMap.lookup_insert_eq, initPool_event heffect,
        (initPool_effect heffect).1, List.foldl_cons, List.foldl_nil]
      by_cases hpool : p = accounts.pool
      · subst hpool
        rw [hfresh] at hagrees
        obtain rfl : takings = zero := hagrees
        rw [if_pos rfl, replay_on]
        · exact ⟨rfl, rfl, le_rfl, le_rfl, le_rfl⟩
        · rfl
      · rw [if_neg hpool, replay_elsewhere (Ne.symm hpool)]
        exact hagrees
  | @pool ix ps effect _ _ hfound heffect =>
      have hevent := (PoolInstruction.handler_emits heffect).event_pool
      refine ⟨[effect.event], rfl, ?_⟩
      rw [Chain.commit, AccountMap.lookup_insert_eq, List.foldl_cons, List.foldl_nil]
      by_cases hpool : p = ix.pool
      · rw [hpool, hfound] at hagrees
        rw [if_pos hpool, replay_on (hevent.trans hpool.symm)]
        exact handler_explained heffect hagrees
      · rw [if_neg hpool, replay_elsewhere (hevent.trans_ne (Ne.symm hpool))]
        exact hagrees
  | registry _ _ => exact ⟨[], (List.append_nil _).symm, hagrees⟩
  | token _ _ _ => exact ⟨[], (List.append_nil _).symm, hagrees⟩

end Takings

/-- At every point of every run, the events of a pool account for its assets to the atom: what was
deposited and the fees of the providers are what it has, what was withdrawn and what was lost. The
treasury was or will be paid 15% of all fees, less at most an atom for each settlement. -/
theorem takings_explained {ps : PoolState} (hrun : Chain.run rt trace = .ok s) {p : Pubkey}
    (hp : s.pools.lookup p = some ps) :
    ((readEvents (s.events.map Event.encode)).foldl (Takings.replay p) Takings.zero).Explains
      ps.pool := by
  have hgenesis : Takings.Agrees p Takings.zero genesis := rfl
  have hagrees := (Takings.follows rt p).of_run hgenesis rfl hrun
  rw [Takings.Agrees, hp] at hagrees
  rw [readEvents_encode]
  exact hagrees

/-- The takings of localnet's pool after its first settlement. -/
theorem takings_explained_localnet : ∃ s ps, ∃ takings : Takings,
    Chain.run Localnet.runtime Localnet.repaid = .ok s ∧
    s.pools.lookup Localnet.pool = some ps ∧ takings.Explains ps.pool ∧
    takings.settlements = 1 := by
  obtain ⟨s, ps, hrun, hp, htest⟩ := Localnet.reaches_iff.mp
    (show Localnet.reaches Localnet.repaid (fun s _ ↦
      ((readEvents (s.events.map Event.encode)).foldl (Takings.replay Localnet.pool)
        Takings.zero).settlements = 1) = true by decide +kernel)
  exact ⟨s, ps, _, hrun, hp, takings_explained hrun hp, of_decide_eq_true htest⟩

end CredMesh
