import CredMesh.Safety.Lifecycle

/-!
# The terms of an advance

Every curve that a pool stores or waits to adopt was validated, so every fee was computed from a
valid curve: the one in force when the advance was issued. The terms recorded then are those of the
stored account until it is closed, whatever governance does in the meantime.
-/

namespace CredMesh

open Outcome Escrow

/-- The curve in force and the one proposed are valid. -/
structure ValidCurves (pool : Pool) : Prop where
  current : pool.feeCurve.validate = .ok ()
  pending : ∀ pending, pool.pendingParams = some pending → pending.feeCurve.validate = .ok ()

theorem initPool_validCurves {rt : Runtime} {accounts : InitPool} {params : InitPoolParams}
    {t : Spl.TokenLedger} {effect : Effect} (h : initPool rt accounts params t = .ok effect) :
    ValidCurves effect.state.pool := by
  simp only [initPool, bind_eq_ok, pure_eq_ok] at h
  obtain ⟨-, -, _, -, _, -, _, -, -, -, -, -, -, -, ⟨⟩, hvalid, rfl⟩ := h
  exact ⟨hvalid, fun pending hpending ↦ by cases hpending⟩

theorem PoolInstruction.ParamsChange.validCurves {env : Env} {pool pool' : Pool}
    {ix : PoolInstruction} (h : ix.ParamsChange env pool pool') (hvalid : ValidCurves pool) :
    ValidCurves pool' := by
  cases h with
  | propose _ hproposed _ hsame hparams hpending =>
      have hcurve := congrArg RiskParams.feeCurve hparams
      have hwaiting := congrArg RiskParams.feeCurve hsame
      simp only [Pool.riskParams, PendingParams.riskParams] at hcurve hwaiting
      refine ⟨by rw [hcurve]; exact hvalid.current, fun pending hfound ↦ ?_⟩
      obtain rfl : _ = pending := by simpa [hpending] using hfound
      rw [hwaiting]
      exact hproposed
  | execute hfound _ hparams hpending =>
      have hcurve := congrArg RiskParams.feeCurve hparams
      simp only [Pool.riskParams, PendingParams.riskParams] at hcurve
      refine ⟨by rw [hcurve]; exact hvalid.pending _ hfound, fun pending hnone ↦ ?_⟩
      simp [hpending] at hnone
  | kept _ _ hparams hpending =>
      have hcurve := congrArg RiskParams.feeCurve hparams
      simp only [Pool.riskParams] at hcurve
      exact ⟨by rw [hcurve]; exact hvalid.current, by rw [hpending]; exact hvalid.pending⟩

theorem Chain.run_validCurves {rt : Runtime} {trace : List Input} {s : Chain} {p : Pubkey}
    {ps : PoolState} (hrun : Chain.run rt trace = .ok s) (hp : s.pools.lookup p = some ps) :
    ValidCurves ps.pool :=
  pool_invariant (motive := fun ps ↦ ValidCurves ps.pool)
    (fun _ _ _ _ h ↦ initPool_validCurves h)
    (fun _ _ _ _ _ _ h hvalid ↦ (PoolInstruction.handler_params h).validCurves hvalid) hrun hp

/-- The terms of an advance, measured against a curve. -/
structure TermsWithin (curve : FeeCurve) (advance : Advance) : Prop where
  floor : minAdvanceAtoms ≤ advance.principal
  base_le_fee :
    advance.principal.toNat * curve.baseRateBps.toNat / 10000 ≤ advance.feeOwed.toNat
  fee_le_max :
    advance.feeOwed.toNat ≤ advance.principal.toNat * curve.maxRateBps.toNat / 10000
  max_le_principal :
    advance.principal.toNat * curve.maxRateBps.toNat / 10000 ≤ advance.principal.toNat
  penalty : advance.principal.toNat / 1000 ≤ advance.latePenaltyPerDay.toNat
  penalty_floor : 1000 ≤ advance.principal.toNat / 1000
  expiry : advance.issuedAt < advance.expiresAt

theorem Escrow.Issues.termsWithin {rt : Runtime} {env : Env} {accounts : RequestAdvance}
    {receivableId : Bytes 32} {amount : UInt64} {nonce : Bytes 16} {r : Registry.RegistryState}
    {s s' : PoolState} {attestation : Attestation} {ledger : AgentIssuanceLedger}
    {advance : Advance}
    (h : Issues rt env accounts receivableId amount nonce r s attestation ledger advance s')
    (hvalid : s.pool.feeCurve.validate = .ok ()) : TermsWithin s.pool.feeCurve advance := by
  obtain ⟨allowed, -, hread⟩ := h.attested
  obtain ⟨_, -, -, -, -, -, -, hexpiry⟩ := readAttestation_carries hread
  have hpriced := h.priced
  simp only [priceAdvance, bind_eq_ok, pure_eq_ok, Prod.mk.injEq] at hpriced
  obtain ⟨_, -, _, hfee, _, hpenalty, rfl, rfl⟩ := hpriced
  have hprincipal : advance.principal = amount := congrArg Advance.principal h.recorded
  have hissuedAt : advance.issuedAt = env.now := congrArg Advance.issuedAt h.recorded
  have hexpiresAt : advance.expiresAt = attestation.expiresAt :=
    congrArg Advance.expiresAt h.recorded
  have hmin : 1000000 ≤ amount.toNat := UInt64.le_iff_toNat_le.mp h.floor
  have hmax := (FeeCurve.validate_eq_ok.mp hvalid).2.2.2
  obtain ⟨hlow, hhigh⟩ := computeFeeAmount_bounds hvalid hfee
  constructor
  case floor => rw [hprincipal]; exact h.floor
  case base_le_fee => rw [hprincipal]; exact hlow
  case fee_le_max => rw [hprincipal]; exact hhigh
  case max_le_principal =>
    apply Nat.div_le_of_le_mul
    rw [Nat.mul_comm 10000]
    exact Nat.mul_le_mul_left _ hmax
  case penalty => rw [hprincipal]; exact le_computeLatePenaltyPerDay hpenalty
  case penalty_floor => rw [hprincipal]; omega
  case expiry =>
    rw [hissuedAt, hexpiresAt]
    exact Int64.lt_iff_toInt_lt.mpr hexpiry

variable {rt : Runtime} {trace : List Input} {s : Chain} {p : Pubkey} {ps : PoolState}

/-- In every reachable state the curve of a pool and the one proposed for it are valid. Every stored
advance was issued by one step of the run with terms within the curve then in force, and whenever
there was an advance under its key in this run, it was this one. -/
theorem terms_within_curve (hrun : Chain.run rt trace = .ok s)
    (hp : s.pools.lookup p = some ps) :
    ps.pool.feeCurve.validate = .ok () ∧
    (∀ pending, ps.pool.pendingParams = some pending → pending.feeCurve.validate = .ok ()) ∧
    ∀ agent receivableId advance, ps.advances.lookup (agent, receivableId) = some advance →
      (∃ part input before ps₀ accounts amount nonce, part ++ [input] <+: trace ∧
        Chain.run rt part = .ok before ∧ before.pools.lookup p = some ps₀ ∧
        input.action = .pool (.requestAdvance accounts receivableId amount nonce) ∧
        accounts.pool = p ∧ accounts.agent = agent ∧ TermsWithin ps₀.pool.feeCurve advance) ∧
      ∀ part before ps₀ other, part <+: trace → Chain.run rt part = .ok before →
        before.pools.lookup p = some ps₀ →
        ps₀.advances.lookup (agent, receivableId) = some other → other = advance := by
  have hvalid := Chain.run_validCurves hrun hp
  refine ⟨hvalid.current, hvalid.pending, fun agent receivableId advance hstored ↦ ⟨?_, ?_⟩⟩
  · cases Chain.run_issued hrun hp hstored with
    | by_request hpart hbefore haction hpool hkey hp₀ hissues =>
        obtain ⟨rfl, rfl⟩ := Prod.mk.inj hkey
        exact ⟨_, _, _, _, _, _, _, hpart, hbefore, hp₀, haction, hpool, rfl,
          hissues.termsWithin (Chain.run_validCurves hbefore hp₀).current⟩
  · intro part before ps₀ other hpart hbefore hp₀ hother
    obtain ⟨found, hfound, hkept⟩ := Chain.advance_fixed hpart hrun hbefore hp₀ hother
    obtain rfl : found = ps := by simpa [hp] using hfound.symm
    simpa [hstored, eq_comm] using hkept

theorem terms_within_curve_localnet : ∃ s ps advance,
    Chain.run Localnet.runtime (Localnet.opening ++ [Localnet.firstRequest 100000000]) = .ok s ∧
    s.pools.lookup Localnet.pool = some ps ∧
    ps.advances.lookup (Localnet.agent, Localnet.keyOf 1) = some advance ∧
    TermsWithin Localnet.feeCurve advance := by
  obtain ⟨s, ps, hrun, hp, htest⟩ := Localnet.reaches_iff.mp
    (show Localnet.reaches (Localnet.opening ++ [Localnet.firstRequest 100000000])
      (fun _ ps ↦ (ps.advances.lookup (Localnet.agent, Localnet.keyOf 1)).isSome) = true by
      decide +kernel)
  have hcurve : Localnet.everyState (Localnet.opening ++ [Localnet.firstRequest 100000000])
      (fun ps ↦ ps.pool.feeCurve = Localnet.feeCurve) = true := by decide +kernel
  obtain ⟨advance, hstored⟩ := Option.isSome_iff_exists.mp htest
  obtain ⟨-, -, hterms⟩ := terms_within_curve hrun hp
  obtain ⟨⟨part, input, before, ps₀, _, _, _, hpart, hbefore, hp₀, -, -, -, hwithin⟩, -⟩ :=
    hterms Localnet.agent (Localnet.keyOf 1) advance hstored
  have hinitial := (List.prefix_append part [input]).trans hpart
  have hforce := of_decide_eq_true (Localnet.everyState_spec hcurve hinitial hbefore hp₀)
  exact ⟨s, ps, advance, hrun, hp, hstored, hforce ▸ hwithin⟩

end CredMesh
