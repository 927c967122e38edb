import CredMesh.Safety.Repayment
import CredMesh.Safety.Terms

/-!
# The settlement waterfall

What a settlement moves is determined by the advance and the time alone: the agent pays the
principal with fee and late penalty, 15 percent of the fees go to the treasury and the rest to the
vault. Inside the claim window the days are counted exactly, since the clamp lies far beyond it, and
for an advance issued under a valid curve no arithmetic step of the division can fail.
-/

namespace CredMesh

open Escrow Outcome Spl IxIntrospection Client

namespace Escrow.Advance

variable (advance : Advance) (now : ℤ)

/-- The whole days past expiry. -/
def lateDaysAt : ℕ := ((now - advance.expiresAt.toInt) / 86400).toNat

/-- The fee with a penalty for every day past expiry. -/
def feesDue : ℕ := advance.feeOwed.toNat + advance.lateDaysAt now * advance.latePenaltyPerDay.toNat

/-- The part of the fees for the treasury. -/
def protocolDue : ℕ := advance.feesDue now * 1500 / 10000

variable {advance now}

/-- Two weeks of grace leave at most thirteen whole days. -/
theorem lateDaysAt_le (hwindow : now < advance.expiresAt.toInt + liquidationGraceSeconds.toInt) :
    advance.lateDaysAt now ≤ 13 := by
  have hgrace : liquidationGraceSeconds.toInt = 1209600 := rfl
  unfold lateDaysAt
  omega

theorem chargedDays_eq (hwindow : now < advance.expiresAt.toInt + liquidationGraceSeconds.toInt) :
    advance.chargedDays now = advance.lateDaysAt now := by
  have hdays := lateDaysAt_le hwindow
  unfold lateDaysAt at hdays
  unfold chargedDays lateDaysAt
  omega

theorem feesAt_eq (hwindow : now < advance.expiresAt.toInt + liquidationGraceSeconds.toInt) :
    advance.feesAt now = advance.feesDue now := by
  rw [feesAt, chargedDays_eq hwindow, feesDue]

theorem protocolShareAt_eq
    (hwindow : now < advance.expiresAt.toInt + liquidationGraceSeconds.toInt) :
    advance.protocolShareAt now = advance.protocolDue now := by
  rw [protocolShareAt, feesAt_eq hwindow, protocolDue]

end Escrow.Advance

/-- Any payment accepted in the claim window is divided by what is due. -/
theorem Escrow.Settles.divides {rt : Runtime} {env : Env} {accounts : ClaimAndSettle}
    {paymentAmount : UInt64} {s s' : PoolState} {advance : Advance} {consumed : ConsumedPayment}
    {ledger : AgentIssuanceLedger} {split : Waterfall}
    (h : Settles rt env accounts paymentAmount s advance consumed ledger split s') :
    split.lateDays.toNat = advance.lateDaysAt env.now.toInt ∧
    split.protocolCut.toNat = advance.protocolDue env.now.toInt ∧
    split.lpFee.toNat + split.protocolCut.toNat = advance.feesDue env.now.toInt ∧
    split.lpCut.toNat = advance.principal.toNat + split.lpFee.toNat ∧
    split.protocolCut.toNat + split.lpCut.toNat + split.agentNet.toNat = paymentAmount.toNat := by
  obtain ⟨_, _, hdays, -, -, hsplits⟩ := waterfall_eq_ok.mp h.divided
  obtain ⟨-, hcut, hfee⟩ := waterfall_shares h.divided
  rw [Advance.protocolShareAt_eq h.window] at hcut
  rw [Advance.feesAt_eq h.window] at hfee
  have hlate : split.lateDays.toNat = advance.chargedDays env.now.toInt :=
    (lateDays_eq_ok.mp hdays).2
  rw [Advance.chargedDays_eq h.window] at hlate
  exact ⟨hlate, hcut, hfee, hsplits.lpCut, hsplits.agentNet⟩

/-- The token accounts of a settlement are three different ones. -/
structure Distinct (accounts : ClaimAndSettle) (pool : Pool) : Prop where
  agent_treasury : accounts.agentUsdcAta ≠ pool.treasuryAta
  agent_vault : accounts.agentUsdcAta ≠ pool.usdcVault
  treasury_vault : pool.treasuryAta ≠ pool.usdcVault

instance (accounts : ClaimAndSettle) (pool : Pool) : Decidable (Distinct accounts pool) :=
  decidable_of_iff (accounts.agentUsdcAta ≠ pool.treasuryAta ∧
      accounts.agentUsdcAta ≠ pool.usdcVault ∧ pool.treasuryAta ≠ pool.usdcVault)
    ⟨fun ⟨h₁, h₂, h₃⟩ ↦ ⟨h₁, h₂, h₃⟩, fun ⟨h₁, h₂, h₃⟩ ↦ ⟨h₁, h₂, h₃⟩⟩

/-- What a settlement moves out of the agent's account, into the treasury's and into the vault. -/
structure Pays (accounts : ClaimAndSettle) (pool : Pool) (t t' : TokenLedger)
    (total protocol lp : ℕ) : Prop where
  agent : t'.balance accounts.agentUsdcAta + total = t.balance accounts.agentUsdcAta
  treasury : t'.balance pool.treasuryAta = t.balance pool.treasuryAta + protocol
  vault : t'.balance pool.usdcVault = t.balance pool.usdcVault + lp
  others : ∀ address, address ≠ accounts.agentUsdcAta → address ≠ pool.treasuryAta →
    address ≠ pool.usdcVault → t'.balance address = t.balance address

theorem pays_of_flow {accounts : ClaimAndSettle} {pool : Pool} {t t' : TokenLedger}
    {protocol lp : ℕ}
    (hflow : Flow t t'
      (Pi.single accounts.agentUsdcAta protocol + Pi.single accounts.agentUsdcAta lp)
      (Pi.single pool.treasuryAta protocol + Pi.single pool.usdcVault lp) 0 0)
    (hdistinct : Distinct accounts pool) : Pays accounts pool t t' (lp + protocol) protocol lp := by
  obtain ⟨hagentTreasury, hagentVault, htreasuryVault⟩ := hdistinct
  constructor
  case agent =>
    have hbalance := hflow.balance accounts.agentUsdcAta
    simp only [Pi.add_apply, Pi.single_eq_same, Pi.single_eq_of_ne hagentTreasury,
      Pi.single_eq_of_ne hagentVault] at hbalance
    omega
  case treasury =>
    have hbalance := hflow.balance pool.treasuryAta
    simp only [Pi.add_apply, Pi.single_eq_same, Pi.single_eq_of_ne hagentTreasury.symm,
      Pi.single_eq_of_ne htreasuryVault] at hbalance
    omega
  case vault =>
    have hbalance := hflow.balance pool.usdcVault
    simp only [Pi.add_apply, Pi.single_eq_same, Pi.single_eq_of_ne hagentVault.symm,
      Pi.single_eq_of_ne htreasuryVault.symm] at hbalance
    omega
  case others =>
    intro address hagent htreasury hvault
    have hbalance := hflow.balance address
    simp only [Pi.add_apply, Pi.single_eq_of_ne hagent, Pi.single_eq_of_ne htreasury,
      Pi.single_eq_of_ne hvault] at hbalance
    omega

variable {rt : Runtime} {trace : List Input} {p : Pubkey} {key : AdvanceKey} {now : Int64}

/-- A settlement of the advance under a key, accepted after any further inputs. -/
structure SettlesAfter (rt : Runtime) (s₀ : Chain) (p : Pubkey) (key : AdvanceKey) (now : Int64)
    (accounts : ClaimAndSettle) (paymentAmount : UInt64) (s s' : Chain) : Prop where
  later : ∃ trace, Execution.run (Chain.step rt) s₀ trace = .ok s
  pool : accounts.pool = p
  key : accounts.advance.key = key
  accepted : ∃ sysvar,
    Chain.step rt ⟨⟨now, sysvar⟩, .pool (.claimAndSettle accounts paymentAmount)⟩ s = .ok s'

/-- What a settlement leaves of the pool, with the event that tells of it. -/
structure Waterfalls (rt : Runtime) (p : Pubkey) (advance : Advance) (now : ℤ)
    (paymentAmount : UInt64) (accounts : ClaimAndSettle) (s : Chain) (ps : PoolState) (s' : Chain)
    (ps' : PoolState) (split : Waterfall) : Prop where
  days : split.lateDays.toNat = advance.lateDaysAt now
  protocolCut : split.protocolCut.toNat = advance.protocolDue now
  lpCut : split.protocolCut.toNat + split.lpCut.toNat =
    advance.principal.toNat + advance.feesDue now
  payment : split.protocolCut.toNat + split.lpCut.toNat + split.agentNet.toNat =
    paymentAmount.toNat
  event : s'.events = s.events ++ [.advanceSettled p advance.agent
    (rt.advancePda p advance.agent advance.receivableId).1 advance.principal split.lpCut
    split.protocolCut split.agentNet split.lateDays.toUInt32]
  pays : Distinct accounts ps.pool → Pays accounts ps.pool s.tokens s'.tokens
    (advance.principal.toNat + advance.feesDue now) split.protocolCut.toNat split.lpCut.toNat
  assets : ps'.pool.totalAssets.toNat + advance.protocolDue now =
    ps.pool.totalAssets.toNat + advance.feesDue now
  accrued : ps'.pool.accruedProtocolFees.toNat =
    ps.pool.accruedProtocolFees.toNat + advance.protocolDue now
  deployed : ps'.pool.deployedAmount.toNat + advance.principal.toNat =
    ps.pool.deployedAmount.toNat
  live : ps'.livePrincipal advance.agent + advance.principal.toNat =
    ps.livePrincipal advance.agent
  pool : ps'.pool = { ps.pool with
    deployedAmount := ps'.pool.deployedAmount
    totalAssets := ps'.pool.totalAssets
    accruedProtocolFees := ps'.pool.accruedProtocolFees }

/-- The event tells the division of the payment. -/
theorem settlement_event {env : Env} {r : Registry.RegistryState} {s : PoolState}
    {t : TokenLedger} {accounts : ClaimAndSettle} {paymentAmount : UInt64} {advance : Advance}
    {split : Waterfall} {effect : Effect}
    (h : PoolInstruction.handler rt env r s t (.claimAndSettle accounts paymentAmount) = .ok effect)
    (hstored : s.advances.lookup accounts.advance.key = some advance)
    (hdivided : waterfall advance env.now paymentAmount = .ok split) :
    effect.event = .advanceSettled accounts.pool advance.agent
      (rt.advancePda accounts.pool advance.agent advance.receivableId).1 advance.principal
      split.lpCut split.protocolCut split.agentNet split.lateDays.toUInt32 := by
  have hemits := PoolInstruction.handler_emits h
  generalize effect.event = event at hemits ⊢
  cases hemits with
  | @claimAndSettle _ _ other parts hother hparts =>
      obtain rfl : other = advance := by simpa [hstored] using hother.symm
      obtain rfl : parts = split := Except.ok.inj (hparts.symm.trans hdivided)
      rfl

/-- An accepted settlement of a stored advance, in any state. -/
theorem Chain.step_waterfalls {s s' : Chain} {env : Env} {accounts : ClaimAndSettle}
    {paymentAmount : UInt64}
    (hstep : Chain.step rt ⟨env, .pool (.claimAndSettle accounts paymentAmount)⟩ s = .ok s') :
    ∃ ps ps' advance split, s.pools.lookup accounts.pool = some ps ∧
      s'.pools.lookup accounts.pool = some ps' ∧
      ps.advances.lookup accounts.advance.key = some advance ∧
      Waterfalls rt accounts.pool advance env.now.toInt paymentAmount accounts s ps s' ps'
        split := by
  obtain ⟨ps, effect, hp, hp', heffect, rfl⟩ := Chain.step_handled hstep rfl
  obtain ⟨advance, consumed, ledger, split, hsettles, -, -, hflow⟩ := claimAndSettle_effect heffect
  obtain ⟨hdays, hcut, hfee, hlp, hnet⟩ := hsettles.divides
  dsimp only at hdays hcut hfee
  have hassets := hsettles.assets
  have haccrued := hsettles.accrued
  have hlive := hsettles.closes.livePrincipal hsettles.live advance.agent
  rw [if_pos rfl] at hlive
  refine ⟨ps, effect.state, advance, split, hp, hp', hsettles.stored, ?_⟩
  constructor
  case days => exact hdays
  case protocolCut => exact hcut
  case lpCut => omega
  case payment => exact hnet
  case event =>
    rw [Chain.commit, settlement_event heffect hsettles.stored hsettles.divided]
  case pays =>
    intro hdistinct
    have hpays := pays_of_flow hflow hdistinct
    rwa [show split.lpCut.toNat + split.protocolCut.toNat =
      advance.principal.toNat + advance.feesDue env.now.toInt by omega] at hpays
  case assets => omega
  case accrued => omega
  case deployed => exact hsettles.closes.deployed
  case live => exact hlive
  case pool => exact hsettles.pool

/-- A settlement accepted later is of the advance as it was stored before. -/
theorem SettlesAfter.waterfalls {s₀ s s' : Chain} {ps₀ : PoolState} {advance : Advance}
    {accounts : ClaimAndSettle} {paymentAmount : UInt64} (hrun : Chain.run rt trace = .ok s₀)
    (hp₀ : s₀.pools.lookup p = some ps₀) (hfound : ps₀.advances.lookup key = some advance)
    (h : SettlesAfter rt s₀ p key now accounts paymentAmount s s') :
    ∃ ps ps' split, s.pools.lookup p = some ps ∧ s'.pools.lookup p = some ps' ∧
      Waterfalls rt p advance now.toInt paymentAmount accounts s ps s' ps' split := by
  obtain ⟨⟨later, hlater⟩, rfl, rfl, sysvar, hstep⟩ := h
  obtain ⟨ps, ps', other, split, hp, hp', hother, hwaterfalls⟩ := Chain.step_waterfalls hstep
  obtain ⟨found, hfound', hkept⟩ := Chain.advance_fixed (List.prefix_append trace later)
    (Execution.run_append.mpr ⟨s₀, hrun, hlater⟩) hrun hp₀ hfound
  obtain rfl : ps = found := by simpa [hp] using hfound'
  obtain rfl : other = advance := by simpa [hother] using hkept
  exact ⟨ps, ps', split, hp, hp', hwaterfalls⟩

/-- In every run, whatever happens between the issuance of an advance and its settlement and
whatever payment is offered, the settlement moves what is due for the advance at that time. Two
such settlements at one time, after different inputs or with different payments, debit the same
and divide it in the same way. -/
theorem settlement_waterfall {s₀ : Chain} {ps₀ : PoolState} {advance : Advance}
    (hrun : Chain.run rt trace = .ok s₀) (hp₀ : s₀.pools.lookup p = some ps₀)
    (hfound : ps₀.advances.lookup key = some advance) (now : Int64) :
    (∀ accounts paymentAmount s s', SettlesAfter rt s₀ p key now accounts paymentAmount s s' →
      ∃ ps ps' split, s.pools.lookup p = some ps ∧ s'.pools.lookup p = some ps' ∧
        Waterfalls rt p advance now.toInt paymentAmount accounts s ps s' ps' split) ∧
    ∀ accounts₁ accounts₂ paymentAmount₁ paymentAmount₂ s₁ s₁' s₂ s₂',
      SettlesAfter rt s₀ p key now accounts₁ paymentAmount₁ s₁ s₁' →
      SettlesAfter rt s₀ p key now accounts₂ paymentAmount₂ s₂ s₂' →
      ∃ ps₁ ps₂ total protocol lp, s₁.pools.lookup p = some ps₁ ∧
        s₂.pools.lookup p = some ps₂ ∧
        (Distinct accounts₁ ps₁.pool →
          Pays accounts₁ ps₁.pool s₁.tokens s₁'.tokens total protocol lp) ∧
        (Distinct accounts₂ ps₂.pool →
          Pays accounts₂ ps₂.pool s₂.tokens s₂'.tokens total protocol lp) := by
  have hsettles (accounts paymentAmount s s')
      (h : SettlesAfter rt s₀ p key now accounts paymentAmount s s') :
      ∃ ps ps' split, s.pools.lookup p = some ps ∧ s'.pools.lookup p = some ps' ∧
        Waterfalls rt p advance now.toInt paymentAmount accounts s ps s' ps' split :=
    h.waterfalls hrun hp₀ hfound
  refine ⟨hsettles, ?_⟩
  intro accounts₁ accounts₂ paymentAmount₁ paymentAmount₂ s₁ s₁' s₂ s₂' h₁ h₂
  obtain ⟨ps₁, _, split₁, hp₁, -, hfirst⟩ := hsettles _ _ _ _ h₁
  obtain ⟨ps₂, _, split₂, hp₂, -, hsecond⟩ := hsettles _ _ _ _ h₂
  have hcut : split₁.protocolCut.toNat = split₂.protocolCut.toNat :=
    hfirst.protocolCut.trans hsecond.protocolCut.symm
  have hlp : split₁.lpCut.toNat = split₂.lpCut.toNat := by
    have := hfirst.lpCut
    have := hsecond.lpCut
    omega
  refine ⟨ps₁, ps₂, _, _, _, hp₁, hp₂, hfirst.pays, ?_⟩
  rw [hcut, hlp]
  exact hsecond.pays

namespace Localnet

/-- Four days after the first advance was made, that is three days past its expiry. -/
def threeDaysLate : Int64 := t₀ + 345600

/-- The agent's settlement of an advance then. -/
def lateSettlement (ps : PoolState) (advance : Advance) (payment : UInt64) : Input where
  env := ⟨threeDaysLate, companioned (memoInstruction textNonce.toList)⟩
  action := .pool (.claimAndSettle (settlementOf pool ps.pool advance agentUsdc) payment)

end Localnet

theorem settlement_waterfall_localnet : ∃ s ps advance s₁ s₂ total protocol lp,
    Chain.run Localnet.runtime (Localnet.borrowed Localnet.textNonce Localnet.signatureFirst) =
      .ok s ∧
    s.pools.lookup Localnet.pool = some ps ∧
    ps.advances.lookup (Localnet.agent, Localnet.keyOf 1) = some advance ∧
    advance.lateDaysAt Localnet.threeDaysLate.toInt = 3 ∧
    Chain.step Localnet.runtime (Localnet.lateSettlement ps advance 110000000) s = .ok s₁ ∧
    Chain.step Localnet.runtime (Localnet.lateSettlement ps advance 150000000) s = .ok s₂ ∧
    Pays (settlementOf Localnet.pool ps.pool advance Localnet.agentUsdc) ps.pool s.tokens
      s₁.tokens total protocol lp ∧
    Pays (settlementOf Localnet.pool ps.pool advance Localnet.agentUsdc) ps.pool s.tokens
      s₂.tokens total protocol lp := by
  obtain ⟨s, ps, advance, hrun, hp, hfound, hrest⟩ := Localnet.reaches_advance
    (show Localnet.reaches (Localnet.borrowed Localnet.textNonce Localnet.signatureFirst)
      (fun s ps ↦ (ps.advances.lookup (Localnet.agent, Localnet.keyOf 1)).any fun advance ↦ decide (
        advance.agent = Localnet.agent ∧ advance.receivableId = Localnet.keyOf 1 ∧
        advance.lateDaysAt Localnet.threeDaysLate.toInt = 3 ∧
        Distinct (settlementOf Localnet.pool ps.pool advance Localnet.agentUsdc) ps.pool ∧
        Localnet.returns (Chain.step Localnet.runtime
          (Localnet.lateSettlement ps advance 110000000) s) (fun _ ↦ true) = true ∧
        Localnet.returns (Chain.step Localnet.runtime
          (Localnet.lateSettlement ps advance 150000000) s) (fun _ ↦ true) = true)) = true by
      decide +kernel)
  obtain ⟨hagent, hreceivable, hlate, hdistinct, hfirst, hsecond⟩ := of_decide_eq_true hrest
  obtain ⟨s₁, hstep₁, -⟩ := Localnet.returns_iff.mp hfirst
  obtain ⟨s₂, hstep₂, -⟩ := Localnet.returns_iff.mp hsecond
  have hkey : (settlementOf Localnet.pool ps.pool advance Localnet.agentUsdc).advance.key =
      (Localnet.agent, Localnet.keyOf 1) := by
    rw [← hagent, ← hreceivable]
    rfl
  obtain ⟨ps₁, ps₂, total, protocol, lp, hp₁, hp₂, hpays₁, hpays₂⟩ :=
    (settlement_waterfall hrun hp hfound Localnet.threeDaysLate).2 _ _ _ _ s s₁ s s₂
      ⟨⟨[], rfl⟩, rfl, hkey, _, hstep₁⟩ ⟨⟨[], rfl⟩, rfl, hkey, _, hstep₂⟩
  obtain rfl : ps = ps₁ := by simpa [hp] using hp₁
  obtain rfl : ps = ps₂ := by simpa [hp] using hp₂
  exact ⟨s, ps, advance, s₁, s₂, total, protocol, lp, hrun, hp, hfound, hlate, hstep₁, hstep₂,
    hpays₁ hdistinct, hpays₂ hdistinct⟩

/-! ## No advance is locked -/

section Issued

variable {env : Env} {request : RequestAdvance} {receivableId : Bytes 32} {amount : UInt64}
  {nonce : Bytes 16} {r : Registry.RegistryState} {s s' : PoolState} {attestation : Attestation}
  {issued : AgentIssuanceLedger} {advance : Advance}

/-- A surcharge that fills its field makes a day cost less than 0.76 percent. -/
theorem Escrow.Issues.latePenaltyPerDay_le
    (h : Issues rt env request receivableId amount nonce r s attestation issued advance s') :
    advance.latePenaltyPerDay.toNat ≤ advance.principal.toNat / 1000 * 75535 / 10000 := by
  have hpriced := h.priced
  simp only [priceAdvance, bind_eq_ok, pure_eq_ok, Prod.mk.injEq] at hpriced
  obtain ⟨_, -, _, -, _, hpenalty, -, rfl⟩ := hpriced
  rw [congrArg Advance.principal h.recorded]
  exact computeLatePenaltyPerDay_le hpenalty

/-- The fee stays within the principal, and thirteen penalties within a tenth of it. -/
theorem Escrow.Issues.due_le
    (h : Issues rt env request receivableId amount nonce r s attestation issued advance s')
    (hvalid : s.pool.feeCurve.validate = .ok ()) {now : ℤ}
    (hwindow : now < advance.expiresAt.toInt + liquidationGraceSeconds.toInt) :
    10 * (advance.principal.toNat + advance.feesDue now) ≤ 21 * advance.principal.toNat := by
  have hterms := h.termsWithin hvalid
  have hfee : advance.feeOwed.toNat ≤ advance.principal.toNat :=
    hterms.fee_le_max.trans hterms.max_le_principal
  have hpenalty := h.latePenaltyPerDay_le
  have hlate : advance.lateDaysAt now * advance.latePenaltyPerDay.toNat ≤
      13 * advance.latePenaltyPerDay.toNat :=
    Nat.mul_le_mul_right _ (Advance.lateDaysAt_le hwindow)
  unfold Advance.feesDue
  omega

/-- The days, the penalty and everything owed inside the claim window fit their fields. -/
theorem exists_amountOwed
    (hwindow : now.toInt < advance.expiresAt.toInt + liquidationGraceSeconds.toInt)
    (hwindowEnd : advance.expiresAt.toInt + liquidationGraceSeconds.toInt < 2 ^ 63)
    (hnow : 0 ≤ now.toInt)
    (hfits : advance.principal.toNat + advance.feesDue now.toInt < 2 ^ 64) :
    ∃ days latePenalty totalOwed, lateDays now advance.expiresAt = .ok days ∧
      days.toNat = advance.lateDaysAt now.toInt ∧
      amountOwed advance days = .ok (latePenalty, totalOwed) ∧
      totalOwed.toNat = advance.principal.toNat + advance.feesDue now.toInt := by
  have hgrace : liquidationGraceSeconds.toInt = 1209600 := rfl
  have hexpires := advance.expiresAt.le_toInt
  have hcount := Advance.lateDaysAt_le hwindow
  have hfees : advance.feesDue now.toInt = advance.feeOwed.toNat +
      advance.lateDaysAt now.toInt * advance.latePenaltyPerDay.toNat := rfl
  obtain ⟨days, hdays⟩ := UInt64.exists_toNat_eq
    (show advance.lateDaysAt now.toInt < 2 ^ 64 by omega)
  obtain ⟨latePenalty, hpenalty⟩ := UInt64.exists_toNat_eq
    (show advance.lateDaysAt now.toInt * advance.latePenaltyPerDay.toNat < 2 ^ 64 by omega)
  obtain ⟨totalOwed, howed⟩ := UInt64.exists_toNat_eq hfits
  refine ⟨days, latePenalty, totalOwed, lateDays_eq_ok.mpr ⟨by omega, ?_⟩, hdays,
    amountOwed_eq_ok.mpr ⟨by rw [hpenalty, hdays], by omega⟩, howed⟩
  rw [hdays, ← Advance.chargedDays_eq hwindow, Advance.chargedDays]

/-- A payment is divided exactly if it covers what is owed. -/
theorem exists_waterfall_iff {days latePenalty totalOwed : UInt64}
    (hdays : lateDays now advance.expiresAt = .ok days)
    (howed : amountOwed advance days = .ok (latePenalty, totalOwed)) (paymentAmount : UInt64) :
    (∃ split, waterfall advance now paymentAmount = .ok split) ↔ totalOwed ≤ paymentAmount := by
  constructor
  · rintro ⟨split, hsplit⟩
    obtain ⟨_, other, hother, hamount, hpaid, -⟩ := waterfall_eq_ok.mp hsplit
    obtain rfl : days = split.lateDays := Except.ok.inj (hdays.symm.trans hother)
    have hsame := Except.ok.inj (howed.symm.trans hamount)
    rwa [(Prod.mk.inj hsame).2]
  · intro hpaid
    obtain ⟨⟨hlow, hhigh⟩, hcharged⟩ := lateDays_eq_ok.mp hdays
    obtain ⟨hpenalty, htotal⟩ := amountOwed_eq_ok.mp howed
    have hcovers : advance.owedAt now.toInt ≤ paymentAmount.toNat := by
      rw [Advance.owedAt, Advance.feesAt, Advance.chargedDays, ← hcharged, ← hpenalty,
        ← Nat.add_assoc, ← htotal]
      exact UInt64.le_iff_toNat_le.mp hpaid
    obtain ⟨split, hsplit, -⟩ := exists_waterfall hlow hhigh hcovers
    exact ⟨split, hsplit⟩

/-- What is left of a settlement that its accounts admit, once the arithmetic is settled. -/
theorem Escrow.Admits.settles_iff_covered {accounts : ClaimAndSettle} {later : PoolState}
    {t : TokenLedger} {consumed : ConsumedPayment} {ledger : AgentIssuanceLedger} {mint : Mint}
    {sysvar : InstructionsSysvar} {paymentAmount totalOwed : UInt64}
    (h : Admits rt accounts later t advance consumed ledger mint)
    (hwindow : now.toInt < advance.expiresAt.toInt + liquidationGraceSeconds.toInt)
    (hwindowEnd : advance.expiresAt.toInt + liquidationGraceSeconds.toInt < 2 ^ 63)
    (hdivided : (∃ split, waterfall advance now paymentAmount = .ok split) ↔
      totalOwed ≤ paymentAmount) :
    (∃ effect, claimAndSettle rt ⟨now, sysvar⟩ accounts paymentAmount later t = .ok effect) ↔
      requireMemoNonce sysvar consumed.nonce.toList = .ok () ∧ totalOwed ≤ paymentAmount ∧
      ∀ split, waterfall advance now paymentAmount = .ok split →
        Payable accounts mint.decimals split t ∧ HasRoom later.pool ledger advance split := by
  refine (h.settles_iff ⟨now, sysvar⟩ hwindow hwindowEnd).trans ?_
  rw [← hdivided]
  constructor
  · rintro ⟨hmemo, split, hsplit, hpayable, hroom⟩
    refine ⟨hmemo, ⟨split, hsplit⟩, fun other hother ↦ ?_⟩
    obtain rfl : split = other := Except.ok.inj (hsplit.symm.trans hother)
    exact ⟨hpayable, hroom⟩
  · rintro ⟨hmemo, ⟨split, hsplit⟩, hpays⟩
    exact ⟨hmemo, split, hsplit, hpays split hsplit⟩

/-- For an advance issued under a valid curve, at every time in its claim window, the days are
counted without the clamp, at most 2.1 times the principal is owed, every payment of that much is
divided, and a settlement that its accounts admit fails only by its memo, its payment, the balances
or the counters. -/
theorem settlement_never_locks
    (h : Issues rt env request receivableId amount nonce r s attestation issued advance s')
    (hvalid : s.pool.feeCurve.validate = .ok ())
    (hfits : 21 * advance.principal.toNat ≤ 10 * (2 ^ 64 - 1))
    (hwindowEnd : advance.expiresAt.toInt + liquidationGraceSeconds.toInt < 2 ^ 63)
    (hnow : 0 ≤ now.toInt)
    (hwindow : now.toInt < advance.expiresAt.toInt + liquidationGraceSeconds.toInt) :
    ∃ days latePenalty totalOwed, lateDays now advance.expiresAt = .ok days ∧
      days.toNat = advance.lateDaysAt now.toInt ∧ days.toNat ≤ 13 ∧
      amountOwed advance days = .ok (latePenalty, totalOwed) ∧
      totalOwed.toNat = advance.principal.toNat + advance.feesDue now.toInt ∧
      10 * totalOwed.toNat ≤ 21 * advance.principal.toNat ∧
      (∀ paymentAmount, (∃ split, waterfall advance now paymentAmount = .ok split) ↔
        totalOwed ≤ paymentAmount) ∧
      ∀ sysvar accounts paymentAmount later t consumed ledger mint,
        Admits rt accounts later t advance consumed ledger mint →
        ((∃ effect, claimAndSettle rt ⟨now, sysvar⟩ accounts paymentAmount later t = .ok effect) ↔
          requireMemoNonce sysvar consumed.nonce.toList = .ok () ∧ totalOwed ≤ paymentAmount ∧
          ∀ split, waterfall advance now paymentAmount = .ok split →
            Payable accounts mint.decimals split t ∧
            HasRoom later.pool ledger advance split) := by
  have hdue := h.due_le hvalid hwindow
  obtain ⟨days, latePenalty, totalOwed, hdays, hcount, hcounted, howed⟩ :=
    exists_amountOwed hwindow hwindowEnd hnow (by omega)
  have hdivided := exists_waterfall_iff hdays hcounted
  refine ⟨days, latePenalty, totalOwed, hdays, hcount, ?_, hcounted, howed, ?_, hdivided, ?_⟩
  · rw [hcount]
    exact Advance.lateDaysAt_le hwindow
  · rw [howed]
    exact hdue
  · intro sysvar accounts paymentAmount later t consumed ledger mint hadmits
    exact hadmits.settles_iff_covered hwindow hwindowEnd (hdivided paymentAmount)

end Issued

theorem settlement_never_locks_localnet : ∃ s ps advance totalOwed,
    Chain.run Localnet.runtime (Localnet.opening ++ [Localnet.firstRequest 100000000]) = .ok s ∧
    s.pools.lookup Localnet.pool = some ps ∧
    ps.advances.lookup (Localnet.agent, Localnet.keyOf 1) = some advance ∧
    10 * UInt64.toNat totalOwed ≤ 21 * advance.principal.toNat ∧
    ∀ paymentAmount, (∃ split, waterfall advance Localnet.threeDaysLate paymentAmount = .ok split) ↔
      totalOwed ≤ paymentAmount := by
  obtain ⟨s, ps, advance, hrun, hp, hfound, hrest⟩ := Localnet.reaches_advance
    (show Localnet.reaches (Localnet.opening ++ [Localnet.firstRequest 100000000])
      (fun _ ps ↦ (ps.advances.lookup (Localnet.agent, Localnet.keyOf 1)).any fun advance ↦ decide (
        21 * advance.principal.toNat ≤ 10 * (2 ^ 64 - 1) ∧
        advance.expiresAt.toInt + liquidationGraceSeconds.toInt < 2 ^ 63 ∧
        Localnet.threeDaysLate.toInt <
          advance.expiresAt.toInt + liquidationGraceSeconds.toInt)) = true by
      decide +kernel)
  obtain ⟨hfits, hend, hwindow⟩ := of_decide_eq_true hrest
  cases Chain.run_issued hrun hp hfound with
  | by_request hpart hbefore haction hpool hkey hp₀ hissues =>
      obtain ⟨_, _, totalOwed, -, -, -, -, -, hbound, hdivided, -⟩ := settlement_never_locks hissues
        (Chain.run_validCurves hbefore hp₀).current hfits hend (by decide) hwindow
      exact ⟨s, ps, advance, totalOwed, hrun, hp, hfound, hbound, hdivided⟩

end CredMesh
