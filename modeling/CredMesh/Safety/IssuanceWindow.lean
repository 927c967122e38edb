import CredMesh.Foundation.TumblingWindow
import CredMesh.Safety.Exposure

/-!
# The issuance window

The ledger of an agent is a tumbling-window counter of the principal issued to it. It caps every
window that it keeps. A trailing day that begins in one window and ends in the next is within the
cap if the reset between them forgot nothing. The last part exhibits a reset that does, and a day
on which an agent draws almost twice the cap.
-/

namespace CredMesh

open Escrow AccountMap TumblingWindow

/-- The principal that an action issues to an agent of a pool, if it is a `request_advance`. -/
def Action.issuedTo (poolKey agent : Pubkey) : Action → Option UInt64
  | pool (.requestAdvance accounts _ amount _) =>
      if accounts.pool = poolKey ∧ accounts.agent = agent then some amount else none
  | _ => none

/-- The advances issued to an agent of a pool: when, and how much. -/
def issuances (p agent : Pubkey) (trace : List Input) : List (ℤ × ℕ) :=
  trace.filterMap fun input ↦
    (input.action.issuedTo p agent).map fun amount ↦ (input.env.now.toInt, amount.toNat)

theorem Action.issuedTo_of_not_isOn {p : Pubkey} {action : Action} (h : ¬ action.IsOn p)
    (agent : Pubkey) : action.issuedTo p agent = none := by
  unfold issuedTo
  split
  case h_1 accounts receivableId amount nonce =>
    exact if_neg fun hsame ↦ h ⟨.requestAdvance accounts receivableId amount nonce, rfl, hsame.1⟩
  case h_2 => rfl

theorem issuances_snoc_none {p agent : Pubkey} (trace : List Input) {input : Input}
    (h : input.action.issuedTo p agent = none) :
    issuances p agent (trace ++ [input]) = issuances p agent trace := by
  simp [issuances, h]

theorem issuances_snoc_some {p agent : Pubkey} (trace : List Input) {input : Input}
    {amount : UInt64} (h : input.action.issuedTo p agent = some amount) :
    issuances p agent (trace ++ [input]) =
      issuances p agent trace ++ [(input.env.now.toInt, amount.toNat)] := by
  simp [issuances, h]

/-- No issuance lies ahead of the clock. -/
theorem issuances_past (p agent : Pubkey) {trace : List Input} {now : Int64}
    (hclock : ∀ earlier ∈ trace, earlier.env.now ≤ now) :
    ∀ event ∈ issuances p agent trace, event.1 ≤ now.toInt := by
  intro event hevent
  obtain ⟨earlier, hearlier, hmade⟩ := List.mem_filterMap.mp hevent
  obtain ⟨_, -, rfl⟩ := Option.map_eq_some_iff.mp hmade
  exact Int64.le_iff_toInt_le.mp (hclock earlier hearlier)

/-! ## The ledger as a counter -/

def Escrow.AgentIssuanceLedger.window (ledger : AgentIssuanceLedger) : Window :=
  ⟨ledger.windowStart.toInt, ledger.issuedInWindow.toNat⟩

def Escrow.PoolState.window (s : PoolState) (agent : Pubkey) : Option Window :=
  (s.ledgers.lookup agent).map AgentIssuanceLedger.window

/-- The agent's counter, which does not exist before its pool does. -/
def Chain.window (s : Chain) (p agent : Pubkey) : Option Window :=
  (s.pools.lookup p).bind fun ps ↦ ps.window agent

/-- The saturating difference is compared as the exact one is. -/
theorem rollWindow_window (now : Int64) (ledger : AgentIssuanceLedger) :
    (rollWindow now ledger).window =
      current agentWindowSeconds.toInt now.toInt (some ledger.window) := by
  have hwidth : agentWindowSeconds.toInt = 86400 := by decide
  have hcompare : agentWindowSeconds ≤ now.saturatingSub ledger.windowStart ↔
      agentWindowSeconds.toInt ≤ now.toInt - ledger.windowStart.toInt := by
    rw [Int64.le_iff_toInt_le, Int64.toInt_saturatingSub]
    omega
  simp only [rollWindow, current, hcompare]
  split <;> simp_all [AgentIssuanceLedger.window]

/-- A ledger that is created starts its first window now. -/
theorem Exposure.openedWindow {rt : Runtime} {p : Pubkey} {s : PoolState}
    (h : Exposure rt p s) (agent : Pubkey) (now : Int64) :
    (rollWindow now (bindLedger (rt.issuanceLedgerPda p agent).2 agent p now
      ((s.ledgers.lookup agent).getD zeroedLedger))).window =
      current agentWindowSeconds.toInt now.toInt (s.window agent) := by
  rw [rollWindow_window, PoolState.window]
  cases hledger : s.ledgers.lookup agent with
  | none =>
      simp [bindLedger, zeroedLedger, AgentIssuanceLedger.window, current]
  | some ledger =>
      have hne : ledger.bump ≠ 0 := by
        rw [(h.bound agent ledger hledger).1]
        exact rt.bump_ne_zero _ _
      simp [bindLedger, if_neg hne]

/-- Issuing charges the agent's counter, and leaves it within the cap of the pool. -/
theorem Exposure.issueWindow {rt : Runtime} {s s' : PoolState} {env : Env}
    {accounts : RequestAdvance} {receivableId : Bytes 32} {amount : UInt64} {nonce : Bytes 16}
    {r : Registry.RegistryState} {attestation : Attestation} {ledger : AgentIssuanceLedger}
    {advance : Advance} (h : Exposure rt accounts.pool s)
    (hissues : Issues rt env accounts receivableId amount nonce r s attestation ledger advance
      s') :
    let charged := charge agentWindowSeconds.toInt env.now.toInt amount.toNat
      (s.window accounts.agent)
    s'.window accounts.agent = some charged ∧
      (0 < s.pool.agentWindowCap → charged.count ≤ s.pool.agentWindowCap.toNat) := by
  have hcharges := hissues.charges
  have hopened := h.openedWindow accounts.agent env.now
  have hledger : ledger.window =
      charge agentWindowSeconds.toInt env.now.toInt amount.toNat (s.window accounts.agent) := by
    rw [charge, ← hopened]
    simp [AgentIssuanceLedger.window, hcharges.windowStart, hcharges.issued]
  dsimp only
  rw [← hledger]
  refine ⟨by rw [PoolState.window, hissues.ledgers, Finmap.lookup_insert]; rfl, fun hcap ↦ ?_⟩
  exact UInt64.le_iff_toNat_le.mp (hcharges.capped hcap)

/-- Closing an advance rewrites the ledger, but not its window. -/
theorem window_of_closes {s s' : PoolState} {advance : Advance} {ledger : AgentIssuanceLedger}
    (hfound : s.ledgers.lookup advance.agent = some ledger) (hcloses : Closes s advance ledger s')
    (agent : Pubkey) : s'.window agent = s.window agent := by
  obtain ⟨livePrincipal, -, hledgers⟩ := hcloses.ledgers
  rw [PoolState.window, PoolState.window, hledgers, lookup_insert_eq]
  split
  case isTrue hsame =>
    rw [hsame, hfound]
    rfl
  case isFalse => rfl

/-- What a step does to the counter of an agent: it charges it, or leaves it alone. -/
theorem PoolStep.window {rt : Runtime} {r : Registry.RegistryState} {env : Env} {p : Pubkey}
    {action : Action} {b b' : Books} (h : PoolStep rt r env p action b b')
    (hexposure : Exposure rt p b.state) (agent : Pubkey) :
    (action.issuedTo p agent = none ∧ b'.state.window agent = b.state.window agent) ∨
    ∃ amount : UInt64, action.issuedTo p agent = some amount ∧
      let charged := charge agentWindowSeconds.toInt env.now.toInt amount.toNat
        (b.state.window agent)
      b'.state.window agent = some charged ∧
        (0 < b.state.pool.agentWindowCap →
          charged.count ≤ b.state.pool.agentWindowCap.toNat) := by
  cases h with
  | @issue _ accounts _ amount _ _ _ _ _ _ hpool hissues _ =>
      subst hpool
      by_cases hagent : accounts.agent = agent
      · subst hagent
        exact .inr ⟨amount, by simp [Action.issuedTo], hexposure.issueWindow hissues⟩
      · refine .inl ⟨by simp [Action.issuedTo, hagent], ?_⟩
        rw [PoolState.window, PoolState.window, hissues.ledgers, lookup_insert_eq,
          if_neg (Ne.symm hagent)]
  | settle _ hsettles =>
      exact .inl ⟨rfl, window_of_closes hsettles.live.ledgerFound hsettles.closes agent⟩
  | liquidate _ hliquidates =>
      exact .inl ⟨rfl, window_of_closes hliquidates.live.ledgerFound hliquidates.closes agent⟩
  | outside helsewhere _ => exact .inl ⟨Action.issuedTo_of_not_isOn helsewhere agent, rfl⟩
  | _ => exact .inl ⟨rfl, rfl⟩

/-! ## Every trailing day -/

variable {rt : Runtime} {trace : List Input} {s : Chain} {p agent : Pubkey}

theorem Chain.step_window {input : Input} {s' : Chain} (hrun : Chain.run rt trace = .ok s)
    (hstep : Chain.step rt input s = .ok s') (p agent : Pubkey) :
    (input.action.issuedTo p agent = none ∧ s'.window p agent = s.window p agent) ∨
    ∃ (amount : UInt64) (ps : PoolState), input.action.issuedTo p agent = some amount ∧
      s.pools.lookup p = some ps ∧
      let charged := charge agentWindowSeconds.toInt input.env.now.toInt amount.toNat
        (s.window p agent)
      s'.window p agent = some charged ∧
        (0 < ps.pool.agentWindowCap → charged.count ≤ ps.pool.agentWindowCap.toNat) := by
  cases hp : s.pools.lookup p with
  | none =>
      refine .inl ⟨Action.issuedTo_of_not_isOn (Chain.step_elsewhere hstep hp) agent, ?_⟩
      cases hp' : s'.pools.lookup p with
      | none => simp [Chain.window, hp, hp']
      | some ps' =>
          obtain ⟨_, _, -, -, rfl, -⟩ :=
            Chain.step_create (Chain.run_custodial hrun).minted hstep hp hp'
          simp [Chain.window, hp, hp', PoolState.window]
  | some ps =>
      obtain ⟨ps', hp', hbooks⟩ := Chain.step_books (Chain.run_custodial hrun) hstep hp
      have hwindow := hbooks.window (Chain.run_exposure hrun hp) agent
      simp only [Chain.window, hp, hp', Option.bind_some]
      obtain hsame | ⟨amount, hissued, hcharged⟩ := hwindow
      · exact .inl hsame
      · exact .inr ⟨amount, ps, hissued, rfl, hcharged⟩

/-- The agent's counter accounts for all issuances, and no trailing day exceeds the cap. -/
structure Paced (p agent : Pubkey) (cap : ℕ) (trace : List Input) (s : Chain) : Prop where
  accounts : Accounts agentWindowSeconds.toInt (issuances p agent trace) (s.window p agent)
  capped : ∀ t, totalDuring (trailing agentWindowSeconds.toInt t) (issuances p agent trace) ≤ cap

theorem Chain.step_paced {input : Input} {s' : Chain} {cap : UInt64} (hpositive : 0 < cap)
    (hrun : Chain.run rt trace = .ok s) (hstep : Chain.step rt input s = .ok s')
    (hclock : ∀ earlier ∈ trace, earlier.env.now ≤ input.env.now)
    (hcap : ∀ ps, s.pools.lookup p = some ps → ps.pool.agentWindowCap = cap)
    (hclean : input.action.issuedTo p agent ≠ none → ResetsClean agentWindowSeconds.toInt
      (issuances p agent trace) input.env.now.toInt (s.window p agent))
    (hpaced : Paced p agent cap.toNat trace s) :
    Paced p agent cap.toNat (trace ++ [input]) s' := by
  obtain ⟨hnone, hwindow⟩ | ⟨amount, ps, hissued, hp, hwindow, hcharged⟩ :=
    Chain.step_window hrun hstep p agent
  · have hissuances := issuances_snoc_none trace hnone
    exact ⟨by rw [hissuances, hwindow]; exact hpaced.accounts,
      by rw [hissuances]; exact hpaced.capped⟩
  · have hissuances := issuances_snoc_some trace hissued
    have hpast := issuances_past p agent hclock
    have hcounts : Counts agentWindowSeconds.toInt
        (issuances p agent trace ++ [(input.env.now.toInt, amount.toNat)])
        (charge agentWindowSeconds.toInt input.env.now.toInt amount.toNat (s.window p agent)) :=
      hpaced.accounts.charge (by decide) hpast (hclean (by simp [hissued]))
    rw [hcap ps hp] at hcharged
    constructor
    · rw [hissuances, hwindow]
      exact hcounts
    · rw [hissuances]
      exact hcounts.trailing_le hpast (hcharged hpositive) hpaced.capped

/-- While the clock does not go back and the cap stays the same, and as long as the agent's
window is reset only after a day without issuances, no trailing day exceeds the cap. -/
theorem issuance_window_capped {cap : UInt64} (hrun : Chain.run rt trace = .ok s)
    (hclock : trace.Pairwise fun earlier later ↦ earlier.env.now ≤ later.env.now)
    (hpositive : 0 < cap)
    (hcap : ∀ part state ps, part <+: trace → Chain.run rt part = .ok state →
      state.pools.lookup p = some ps → ps.pool.agentWindowCap = cap)
    (hclean : ∀ part input state, part ++ [input] <+: trace → Chain.run rt part = .ok state →
      input.action.issuedTo p agent ≠ none → ResetsClean agentWindowSeconds.toInt
        (issuances p agent part) input.env.now.toInt (state.window p agent))
    (t : ℤ) :
    totalDuring (trailing agentWindowSeconds.toInt t) (issuances p agent trace) ≤ cap.toNat := by
  have hpaced : ∀ part state, part <+: trace → Chain.run rt part = .ok state →
      Paced p agent cap.toNat part state := by
    refine Execution.prefix_induction ⟨rfl, fun t ↦ Nat.zero_le _⟩ ?_
    intro part input state next hpart hstate hbefore hstep
    have hordered := (List.pairwise_append.mp (hclock.sublist hpart.sublist)).2.2
    have hinitial : part <+: trace := (List.prefix_append part [input]).trans hpart
    exact Chain.step_paced hpositive hstate hstep
      (fun earlier hearlier ↦ hordered earlier hearlier input (by simp))
      (fun ps ↦ hcap part state ps hinitial hstate) (hclean part input state hpart hstate) hbefore
  exact (hpaced trace s (List.prefix_refl trace) hrun).capped t

namespace Localnet

/-- The second attestation, used one day after the first advance or just before. -/
def nextRequest (id : UInt8) (amount : UInt64) (now : Int64) : Input :=
  request id amount now (t₀ + 172800) (t₀ + 86399) textNonce signatureSecond

/-- An advance at the end of the first day, when the window is reset. -/
def nextDay : List Input :=
  opening ++ [firstRequest 100000000, nextRequest 2 150000000 (t₀ + 86400)]

/-- A small advance opens the window, and the cap is drawn right before and after its end. -/
def straddling : List Input :=
  opening ++ [firstRequest 1000000, nextRequest 2 140000000 (t₀ + 86399),
    nextRequest 3 150000000 (t₀ + 86400)]

end Localnet

/-- The reset on the next day forgets only an advance that is a day old. -/
theorem issuance_window_capped_localnet : ∃ s,
    Chain.run Localnet.runtime Localnet.nextDay = .ok s ∧
    totalDuring (trailing agentWindowSeconds.toInt (Localnet.t₀.toInt + 86400))
      (issuances Localnet.pool Localnet.agent Localnet.nextDay) = 150000000 ∧
    ∀ t : ℤ, totalDuring (trailing agentWindowSeconds.toInt t)
      (issuances Localnet.pool Localnet.agent Localnet.nextDay) ≤ 150000000 := by
  obtain ⟨s, -, hrun, -⟩ := Localnet.reaches_iff.mp
    (show Localnet.reaches Localnet.nextDay (fun _ _ ↦ true) = true by decide +kernel)
  have hcap : Localnet.everyState Localnet.nextDay
      (fun ps ↦ ps.pool.agentWindowCap = 150000000) = true := by decide +kernel
  have hclean : Localnet.everyStep Localnet.nextDay (fun part input state ↦
      ResetsClean agentWindowSeconds.toInt (issuances Localnet.pool Localnet.agent part)
        input.env.now.toInt (state.window Localnet.pool Localnet.agent)) = true := by
    decide +kernel
  refine ⟨s, hrun, by decide +kernel, fun t ↦ ?_⟩
  exact issuance_window_capped hrun (by decide +kernel) (show (0 : UInt64) < 150000000 by decide)
    (fun part state ps hpart hstate hp ↦
      of_decide_eq_true (Localnet.everyState_spec hcap hpart hstate hp))
    (fun part input state hpart hstate _ ↦
      of_decide_eq_true (Localnet.everyStep_spec hclean hpart hstate)) t

/-- With the same cap of 150 USDC, 290 USDC are drawn in one second. -/
theorem reset_forgets_issuance : ∃ s,
    Chain.run Localnet.runtime Localnet.straddling = .ok s ∧
    Localnet.straddling.Pairwise (fun earlier later ↦ earlier.env.now ≤ later.env.now) ∧
    (∀ part state ps, part <+: Localnet.straddling →
      Chain.run Localnet.runtime part = .ok state →
      state.pools.lookup Localnet.pool = some ps → ps.pool.agentWindowCap = 150000000) ∧
    ¬ totalDuring (trailing agentWindowSeconds.toInt (Localnet.t₀.toInt + 86400))
      (issuances Localnet.pool Localnet.agent Localnet.straddling) ≤ 150000000 := by
  obtain ⟨s, -, hrun, -⟩ := Localnet.reaches_iff.mp
    (show Localnet.reaches Localnet.straddling (fun _ _ ↦ true) = true by decide +kernel)
  have hcap : Localnet.everyState Localnet.straddling
      (fun ps ↦ ps.pool.agentWindowCap = 150000000) = true := by decide +kernel
  exact ⟨s, hrun, by decide +kernel, fun part state ps hpart hstate hp ↦
    of_decide_eq_true (Localnet.everyState_spec hcap hpart hstate hp), by decide +kernel⟩

end CredMesh
