import CredMesh.Chain.Custody
import CredMesh.Chain.Localnet

/-!
# Exposure

The two counters of outstanding principal, one per pool and one per agent, agree at all times
with the advances that are actually open. The invariant also keeps the records an open advance
needs to be settled or liquidated, which is why neither counter can underflow when it is.
-/

namespace CredMesh

open Escrow AccountMap

/-- What an advance counts for: its principal while it is open. -/
def Escrow.Advance.exposure (advance : Advance) : ℕ :=
  if advance.state = .issued then advance.principal.toNat else 0

/-- What an advance counts for in the ledger of an agent. -/
def Escrow.Advance.exposureOf (agent : Pubkey) (advance : Advance) : ℕ :=
  if advance.agent = agent ∧ advance.state = .issued then advance.principal.toNat else 0

namespace Escrow.PoolState

/-- The principal of all open advances of the pool. -/
def issuedPrincipal (s : PoolState) : ℕ :=
  s.advances.total fun _ advance ↦ advance.exposure

/-- The principal of the open advances of one agent. -/
def issuedPrincipalOf (s : PoolState) (agent : Pubkey) : ℕ :=
  s.advances.total fun _ advance ↦ advance.exposureOf agent

/-- The counter in the agent's ledger, zero before the ledger exists. -/
def livePrincipal (s : PoolState) (agent : Pubkey) : ℕ :=
  ((s.ledgers.lookup agent).map fun ledger ↦ ledger.livePrincipal.toNat).getD 0

end Escrow.PoolState

/-- Issuing adds the principal to the ledger of the agent and leaves those of the others. -/
theorem Escrow.Issues.livePrincipal {rt : Runtime} {env : Env} {accounts : RequestAdvance}
    {receivableId : Bytes 32} {amount : UInt64} {nonce : Bytes 16} {r : Registry.RegistryState}
    {s s' : PoolState} {attestation : Attestation} {ledger : AgentIssuanceLedger}
    {advance : Advance}
    (h : Issues rt env accounts receivableId amount nonce r s attestation ledger advance s')
    (agent : Pubkey) :
    s'.livePrincipal agent =
      s.livePrincipal agent + if accounts.agent = agent then amount.toNat else 0 := by
  have hcharged := h.charges.live
  simp only [rollWindow_livePrincipal, bindLedger_livePrincipal] at hcharged
  rw [PoolState.livePrincipal, PoolState.livePrincipal, h.ledgers, lookup_insert_eq]
  by_cases hagent : accounts.agent = agent
  · subst hagent
    cases hledger : s.ledgers.lookup accounts.agent <;>
      simp [hledger, zeroedLedger] at hcharged ⊢ <;> omega
  · simp [hagent, Ne.symm hagent]

/-- Closing takes the principal out of the ledger of the agent. -/
theorem Escrow.Closes.livePrincipal {rt : Runtime} {p : Pubkey} {s s' : PoolState}
    {advance : Advance} {consumed : ConsumedPayment} {ledger : AgentIssuanceLedger}
    (h : Closes s advance ledger s') (hlive : Live rt p s advance consumed ledger)
    (agent : Pubkey) :
    s'.livePrincipal agent + (if advance.agent = agent then advance.principal.toNat else 0) =
      s.livePrincipal agent := by
  obtain ⟨livePrincipal, hprincipal, hledgers⟩ := h.ledgers
  rw [PoolState.livePrincipal, PoolState.livePrincipal, hledgers, lookup_insert_eq]
  by_cases hagent : advance.agent = agent
  · subst hagent
    simpa [hlive.ledgerFound] using hprincipal
  · simp [hagent, Ne.symm hagent]

/-- The stored advance agrees with its key and has the records that end it. -/
structure Recorded (rt : Runtime) (p : Pubkey) (consumed : AccountMap AdvanceKey ConsumedPayment)
    (ledgers : AccountMap Pubkey AgentIssuanceLedger) (key : AdvanceKey) (advance : Advance) :
    Prop where
  keyed : key = (advance.agent, advance.receivableId)
  bump : advance.bump = (rt.advancePda p advance.agent advance.receivableId).2
  issued : advance.state = .issued
  floor : minAdvanceAtoms ≤ advance.principal
  payment : ∃ payment, consumed.lookup key = some payment ∧
    payment.bump = (rt.consumedPda p advance.agent advance.receivableId).2 ∧
    payment.agent = advance.agent
  ledger : ledgers.lookup advance.agent ≠ none

/-- The records of an advance survive a change to some ledger and to other consumed payments. -/
theorem Recorded.insert_ledger {rt : Runtime} {p : Pubkey}
    {consumed consumed' : AccountMap AdvanceKey ConsumedPayment}
    {ledgers : AccountMap Pubkey AgentIssuanceLedger} {key : AdvanceKey} {advance : Advance}
    (h : Recorded rt p consumed ledgers key advance)
    (hconsumed : consumed'.lookup key = consumed.lookup key) (agent : Pubkey)
    (ledger : AgentIssuanceLedger) :
    Recorded rt p consumed' (ledgers.insert agent ledger) key advance := by
  refine ⟨h.keyed, h.bump, h.issued, h.floor, ?_, ?_⟩
  · rw [hconsumed]
    exact h.payment
  · rw [lookup_insert_eq]
    split
    · simp
    · exact h.ledger

/-- The invariant of the advances of a pool. -/
structure Exposure (rt : Runtime) (p : Pubkey) (s : PoolState) : Prop where
  recorded : ∀ key advance, s.advances.lookup key = some advance →
    Recorded rt p s.consumed s.ledgers key advance
  bound : ∀ agent ledger, s.ledgers.lookup agent = some ledger →
    ledger.bump = (rt.issuanceLedgerPda p agent).2 ∧ ledger.agent = agent ∧ ledger.pool = p
  buried : ∀ key, s.tombstones.lookup key ≠ none →
    s.advances.lookup key = none ∧ s.consumed.lookup key ≠ none
  deployed : s.pool.deployedAmount.toNat = s.issuedPrincipal
  live : ∀ agent, s.livePrincipal agent = s.issuedPrincipalOf agent

namespace Exposure

variable {rt : Runtime} {p : Pubkey} {s s' : PoolState}

/-- Every stored advance can be loaded. -/
theorem exists_live (h : Exposure rt p s) {key : AdvanceKey} {advance : Advance}
    (hfound : s.advances.lookup key = some advance) :
    ∃ consumed ledger, Live rt p s advance consumed ledger := by
  have hrecorded := h.recorded key advance hfound
  obtain ⟨consumed, hconsumed, hbump, hagent⟩ := hrecorded.payment
  obtain ⟨ledger, hledger⟩ := Option.ne_none_iff_exists'.mp hrecorded.ledger
  obtain ⟨hledgerBump, hledgerAgent, hledgerPool⟩ := h.bound _ ledger hledger
  rw [hrecorded.keyed] at hfound hconsumed
  exact ⟨consumed, ledger, hfound, hrecorded.bump, hrecorded.issued, hconsumed, hbump, hagent,
    hledger, hledgerBump, hledgerAgent, hledgerPool⟩

/-- A live advance is counted in both counters. -/
theorem principal_le (h : Exposure rt p s) {advance : Advance} {consumed : ConsumedPayment}
    {ledger : AgentIssuanceLedger} (hlive : Live rt p s advance consumed ledger) :
    advance.principal.toNat ≤ s.pool.deployedAmount.toNat ∧
    advance.principal.toNat ≤ ledger.livePrincipal.toNat := by
  have hledger := h.live advance.agent
  simp only [PoolState.livePrincipal, hlive.ledgerFound, Option.map_some, Option.getD_some]
    at hledger
  rw [h.deployed, hledger]
  have hpool := weight_le_total (fun _ other ↦ Advance.exposure other) hlive.found
  have hagent := weight_le_total (fun _ other ↦ other.exposureOf advance.agent) hlive.found
  simp only [Advance.exposure, Advance.exposureOf, hlive.issued, and_self, if_true]
    at hpool hagent
  exact ⟨hpool, hagent⟩

/-- A liquidation is accepted exactly if its accounts are those of a stored advance past its grace
period and the total assets hold the principal. The other counters cannot refuse it. -/
theorem liquidate_iff {env : Env} {accounts : Liquidate} (h : Exposure rt accounts.pool s)
    (t : Spl.TokenLedger) : (∃ effect, liquidate rt env accounts s t = .ok effect) ↔
      ∃ advance, s.advances.lookup accounts.advance.key = some advance ∧
        Overdue env.now accounts advance ∧
        advance.principal.toNat ≤ s.pool.totalAssets.toNat := by
  constructor
  · rintro ⟨effect, heffect⟩
    exact overdue_of_liquidate heffect
  · rintro ⟨advance, hstored, hoverdue, hassets⟩
    obtain ⟨consumed, ledger, hlive⟩ := h.exists_live hstored
    obtain ⟨hdeployed, hprincipal⟩ := h.principal_le hlive
    have hunburied : s.tombstones.lookup (advance.agent, advance.receivableId) = none := by
      by_contra hburied
      have habsent := (h.buried _ hburied).1
      simp [hlive.found] at habsent
    exact exists_liquidate hlive hoverdue hunburied hprincipal hdeployed hassets

theorem initial (pool : Pool) (hdeployed : pool.deployedAmount = 0) :
    Exposure rt p ⟨pool, ∅, ∅, ∅, ∅⟩ where
  recorded key advance h := by simp at h
  bound agent ledger h := by simp at h
  buried key h := by simp at h
  deployed := by
    dsimp only
    rw [hdeployed]
    rfl
  live agent := rfl

/-- Nothing else of the pool matters to its exposure. -/
theorem congr (h : Exposure rt p s) (hadvances : s'.advances = s.advances)
    (hconsumed : s'.consumed = s.consumed) (hledgers : s'.ledgers = s.ledgers)
    (htombstones : s'.tombstones = s.tombstones)
    (hdeployed : s'.pool.deployedAmount = s.pool.deployedAmount) : Exposure rt p s' := by
  obtain ⟨pool, advances, consumed, ledgers, tombstones⟩ := s
  obtain ⟨pool', advances', consumed', ledgers', tombstones'⟩ := s'
  dsimp only at hadvances hconsumed hledgers htombstones hdeployed
  subst hadvances hconsumed hledgers htombstones
  exact ⟨h.recorded, h.bound, h.buried, (congrArg UInt64.toNat hdeployed).trans h.deployed, h.live⟩

/-- The ledger that an issuance finds or creates belongs to the agent and the pool. -/
theorem boundLedger (h : Exposure rt p s) (agent : Pubkey) (now : Int64) :
    let opened := rollWindow now (bindLedger (rt.issuanceLedgerPda p agent).2 agent p now
      ((s.ledgers.lookup agent).getD zeroedLedger))
    opened.bump = (rt.issuanceLedgerPda p agent).2 ∧ opened.agent = agent ∧ opened.pool = p := by
  simp only [rollWindow_bump, rollWindow_agent, rollWindow_pool]
  cases hledger : s.ledgers.lookup agent with
  | none => exact ⟨rfl, rfl, rfl⟩
  | some ledger =>
      have hbound := h.bound agent ledger hledger
      have hne : ledger.bump ≠ 0 := by
        rw [hbound.1]
        exact rt.bump_ne_zero _ _
      simpa only [Option.getD_some, bindLedger, if_neg hne] using hbound

/-- Issuing adds the principal to both counters and to the open advances. -/
theorem issue (h : Exposure rt p s) {env : Env} {accounts : RequestAdvance}
    {receivableId : Bytes 32} {amount : UInt64} {nonce : Bytes 16} {r : Registry.RegistryState}
    {attestation : Attestation} {ledger : AgentIssuanceLedger} {advance : Advance}
    (hpool : accounts.pool = p)
    (hissues : Issues rt env accounts receivableId amount nonce r s attestation ledger advance
      s') : Exposure rt p s' := by
  subst hpool
  have hagent : advance.agent = accounts.agent := congrArg Advance.agent hissues.recorded
  have hreceivable : advance.receivableId = receivableId :=
    congrArg Advance.receivableId hissues.recorded
  have hprincipal : advance.principal = amount := congrArg Advance.principal hissues.recorded
  have hissued : advance.state = .issued := congrArg Advance.state hissues.recorded
  have hbump := congrArg Advance.bump hissues.recorded
  have hcharges := hissues.charges
  have hbound := h.boundLedger accounts.agent env.now
  constructor
  case recorded =>
    intro key other hother
    rw [hissues.advances, lookup_insert_eq] at hother
    rw [hissues.consumed, hissues.ledgers]
    split at hother
    case isTrue hkey =>
      obtain rfl : advance = other := by simpa using hother
      exact {
        keyed := by rw [hkey, hagent, hreceivable]
        bump := by rw [hbump, hagent, hreceivable]; rfl
        issued := hissued
        floor := by rw [hprincipal]; exact hissues.floor
        payment := ⟨_, by rw [hkey]; exact Finmap.lookup_insert _,
          by rw [hagent, hreceivable]; rfl, hagent.symm⟩
        ledger := by rw [hagent]; simp }
    case isFalse hkey =>
      apply (h.recorded key other hother).insert_ledger
      rw [lookup_insert_eq, if_neg hkey]
  case bound =>
    intro agent other hother
    rw [hissues.ledgers, lookup_insert_eq] at hother
    split at hother
    case isTrue hsame =>
      obtain rfl : ledger = other := by simpa using hother
      subst hsame
      obtain ⟨hbump, hagent, hpool⟩ := hcharges.bound
      rw [hbump, hagent, hpool]
      exact hbound
    case isFalse => exact h.bound agent other hother
  case buried =>
    intro key hkey
    rw [hissues.tombstones] at hkey
    obtain ⟨hadvance, hconsumed⟩ := h.buried key hkey
    have hne : key ≠ (accounts.agent, receivableId) := by
      rintro rfl
      exact hconsumed hissues.unconsumed
    rw [hissues.advances, hissues.consumed, lookup_insert_eq, lookup_insert_eq, if_neg hne,
      if_neg hne]
    exact ⟨hadvance, hconsumed⟩
  case deployed =>
    rw [hissues.deployed, h.deployed, PoolState.issuedPrincipal, PoolState.issuedPrincipal,
      hissues.advances, total_insert_fresh _ _ hissues.unissued, Advance.exposure,
      if_pos hissued, hprincipal, add_comm]
  case live =>
    intro agent
    rw [hissues.livePrincipal, h.live agent, PoolState.issuedPrincipalOf,
      PoolState.issuedPrincipalOf, hissues.advances, total_insert_fresh _ _ hissues.unissued,
      Advance.exposureOf, hagent, hprincipal, add_comm]
    simp [hissued]

/-- Closing an advance takes its principal out of both counters. -/
theorem close (h : Exposure rt p s) {advance : Advance} {consumed : ConsumedPayment}
    {ledger : AgentIssuanceLedger} (hlive : Live rt p s advance consumed ledger)
    (hcloses : Closes s advance ledger s')
    (htombstones : ∀ key, s'.tombstones.lookup key ≠ none →
      s.tombstones.lookup key ≠ none ∨ key = (advance.agent, advance.receivableId)) :
    Exposure rt p s' := by
  obtain ⟨livePrincipal, hprincipal, hledgers⟩ := hcloses.ledgers
  have hclosed := hcloses.advances
  constructor
  case recorded =>
    intro key other hother
    rw [hclosed, lookup_erase_eq] at hother
    split at hother
    · cases hother
    · rw [hledgers, hcloses.consumed]
      exact (h.recorded key other hother).insert_ledger rfl _ _
  case bound =>
    intro agent other hother
    rw [hledgers, lookup_insert_eq] at hother
    split at hother
    case isTrue hsame =>
      obtain rfl : _ = other := by simpa using hother
      rw [hsame]
      exact ⟨hlive.ledgerBump, hlive.ledgerAgent, hlive.ledgerPool⟩
    case isFalse => exact h.bound agent other hother
  case buried =>
    intro key hkey
    rw [hclosed, hcloses.consumed, lookup_erase_eq]
    obtain hold | rfl := htombstones key hkey
    · obtain ⟨hadvance, hconsumed⟩ := h.buried key hold
      exact ⟨by rw [hadvance, ite_self], hconsumed⟩
    · exact ⟨if_pos rfl, by simp [hlive.consumedFound]⟩
  case deployed =>
    have htotal : s'.issuedPrincipal + advance.exposure = s.issuedPrincipal := by
      rw [PoolState.issuedPrincipal, hclosed]
      exact total_erase _ hlive.found
    have hdeployed := hcloses.deployed
    rw [Advance.exposure, if_pos hlive.issued] at htotal
    rw [h.deployed] at hdeployed
    omega
  case live =>
    intro agent
    have htotal : s'.issuedPrincipalOf agent + advance.exposureOf agent =
        s.issuedPrincipalOf agent := by
      rw [PoolState.issuedPrincipalOf, hclosed]
      exact total_erase _ hlive.found
    have hclosing := hcloses.livePrincipal hlive agent
    have hagent := h.live agent
    simp only [Advance.exposureOf, hlive.issued, and_true] at htotal
    omega

end Exposure

/-- Every step of the books keeps the exposure invariant. -/
theorem PoolStep.exposure {rt : Runtime} {r : Registry.RegistryState} {env : Env} {p : Pubkey}
    {action : Action} {b b' : Books} (h : PoolStep rt r env p action b b')
    (hexposure : Exposure rt p b.state) : Exposure rt p b'.state := by
  cases h with
  | issue hpool hissues _ => exact hexposure.issue hpool hissues
  | settle hpool hsettles =>
      subst hpool
      refine hexposure.close hsettles.live hsettles.closes fun key hkey ↦ .inl ?_
      rwa [hsettles.tombstones] at hkey
  | liquidate hpool hliquidates =>
      subst hpool
      refine hexposure.close hliquidates.live hliquidates.closes fun key hkey ↦ ?_
      rw [hliquidates.tombstones, lookup_insert_eq] at hkey
      split at hkey
      case isTrue heq => exact .inr heq
      case isFalse => exact .inl hkey
  | _ => exact hexposure.congr rfl rfl rfl rfl rfl

theorem PoolRun.exposure {rt : Runtime} {p : Pubkey} {trace : List Input} {b : Books}
    (h : PoolRun rt p trace b) : Exposure rt p b.state := by
  induction h with
  | create _ _ _ _ _ => exact Exposure.initial _ rfl
  | step _ hstep ih => exact hstep.exposure ih

/-! ## The counters of every reachable pool -/

variable {rt : Runtime} {trace : List Input} {s : Chain} {p : Pubkey} {ps : PoolState}

theorem Chain.run_exposure (hrun : Chain.run rt trace = .ok s) (hp : s.pools.lookup p = some ps) :
    Exposure rt p ps :=
  (Chain.run_poolRun hrun hp).exposure

/-- The deployed amount is the principal of all open advances, each ledger's live principal is
that of its agent's, and taking an open advance out of either cannot underflow. -/
theorem exposure_exact (hrun : Chain.run rt trace = .ok s) (hp : s.pools.lookup p = some ps) :
    ps.pool.deployedAmount.toNat = ps.issuedPrincipal ∧
    (∀ agent, ps.livePrincipal agent = ps.issuedPrincipalOf agent) ∧
    ∀ key advance, ps.advances.lookup key = some advance →
      (ps.pool.deployedAmount.checkedSub advance.principal).isSome ∧
      ∃ ledger, ps.ledgers.lookup advance.agent = some ledger ∧
        (ledger.livePrincipal.checkedSub advance.principal).isSome := by
  have hexposure := Chain.run_exposure hrun hp
  refine ⟨hexposure.deployed, hexposure.live, fun key advance hfound ↦ ?_⟩
  obtain ⟨consumed, ledger, hlive⟩ := hexposure.exists_live hfound
  obtain ⟨hpool, hledger⟩ := hexposure.principal_le hlive
  exact ⟨UInt64.checkedSub_isSome.mpr hpool, ledger, hlive.ledgerFound,
    UInt64.checkedSub_isSome.mpr hledger⟩

/-- One open advance of 100 USDC. -/
theorem exposure_exact_localnet : ∃ s ps,
    Chain.run Localnet.runtime (Localnet.opening ++ [Localnet.firstRequest 100000000]) = .ok s ∧
    s.pools.lookup Localnet.pool = some ps ∧ ps.issuedPrincipal = 100000000 ∧
    ps.pool.deployedAmount.toNat = ps.issuedPrincipal ∧
    ps.livePrincipal Localnet.agent = ps.issuedPrincipalOf Localnet.agent := by
  obtain ⟨s, ps, hrun, hp, htest⟩ := Localnet.reaches_iff.mp
    (show Localnet.reaches (Localnet.opening ++ [Localnet.firstRequest 100000000])
      (fun _ ps ↦ ps.issuedPrincipal = 100000000) = true by decide +kernel)
  obtain ⟨hdeployed, hlive, -⟩ := exposure_exact hrun hp
  exact ⟨s, ps, hrun, hp, of_decide_eq_true htest, hdeployed, hlive Localnet.agent⟩

/-- Right after an accepted `request_advance`, the outstanding debt named by the verified message
and the agent's open advances together are within the limit it names. -/
theorem no_capacity_reuse {input : Input} {accounts : RequestAdvance} {receivableId : Bytes 32}
    {amount : UInt64} {nonce : Bytes 16} (hrun : Chain.run rt (trace ++ [input]) = .ok s)
    (haction : input.action = .pool (.requestAdvance accounts receivableId amount nonce)) :
    ∃ signer message ps,
      IxIntrospection.verifyPrevEd25519 input.env.sysvar = .ok (signer, message) ∧
      s.pools.lookup accounts.pool = some ps ∧
      (CreditMessage.u64Le message CreditMessage.outstandingOffset).toNat +
          ps.issuedPrincipalOf accounts.agent ≤
        (CreditMessage.u64Le message CreditMessage.creditLimitOffset).toNat := by
  obtain ⟨before, hbefore, hstep⟩ := Execution.run_snoc.mp hrun
  obtain ⟨ps, ps', attestation, ledger, advance, -, hfound, hissues⟩ :=
    Chain.step_issues hstep haction
  obtain ⟨allowed, -, hread⟩ := hissues.attested
  obtain ⟨message, hverified, hcarries, -⟩ := readAttestation_carries hread
  refine ⟨attestation.signer, message, ps', hverified, hfound, ?_⟩
  have hlive := (Chain.run_exposure hrun hfound).live accounts.agent
  have hcharged := hissues.charges.live
  have hunderwritten := hissues.charges.underwritten
  rw [PoolState.livePrincipal, hissues.ledgers, Finmap.lookup_insert] at hlive
  simp only [Option.map_some, Option.getD_some] at hlive
  rw [hcarries.outstanding, hcarries.creditLimit, ← hlive]
  omega

theorem no_capacity_reuse_localnet : ∃ s,
    Chain.run Localnet.runtime (Localnet.opening ++ [Localnet.firstRequest 100000000]) = .ok s ∧
    ∃ signer message ps,
      IxIntrospection.verifyPrevEd25519 (Localnet.firstRequest 100000000).env.sysvar =
        .ok (signer, message) ∧
      s.pools.lookup Localnet.pool = some ps ∧
      (CreditMessage.u64Le message CreditMessage.outstandingOffset).toNat +
          ps.issuedPrincipalOf Localnet.agent ≤
        (CreditMessage.u64Le message CreditMessage.creditLimitOffset).toNat := by
  obtain ⟨s, ps, hrun, -⟩ := Localnet.reaches_iff.mp
    (show Localnet.reaches (Localnet.opening ++ [Localnet.firstRequest 100000000])
      (fun _ _ ↦ true) = true by decide +kernel)
  exact ⟨s, hrun, no_capacity_reuse hrun rfl⟩

end CredMesh
