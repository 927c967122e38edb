import CredMesh.Safety.Lifecycle

/-!
# The time gates of settlement and liquidation

An advance can be settled until its grace period ends and liquidated from then on. Both handlers
compute the end of the grace period with checked arithmetic from the expiry that the bridge
signed. Where the sum exceeds the range of a timestamp both of them fail, at all times, and the
advance can never be closed.
-/

namespace CredMesh

open Outcome Escrow IxIntrospection CreditMessage

section Windows

variable {advance : Advance} {now : Int64}

/-- At every time exactly one of the gates is open, if the end of the grace period fits. -/
theorem windows_xor_iff :
    Xor (claimWindow advance now = .ok ()) (liquidationWindow advance now = .ok ()) ↔
      advance.GraceFits := by
  rw [claimWindow_eq_ok, liquidationWindow_eq_ok]
  constructor
  · rintro (⟨⟨hfits, -⟩, -⟩ | ⟨⟨hfits, -⟩, -⟩)
    · exact hfits
    · exact hfits
  · intro hfits
    by_cases hnow : now.toInt < advance.expiresAt.toInt + liquidationGraceSeconds.toInt
    · exact .inl ⟨⟨hfits, hnow⟩, fun hother ↦ by omega⟩
    · exact .inr ⟨⟨hfits, by omega⟩, fun hother ↦ hnow hother.2⟩

/-- A settlement has passed its gate. -/
theorem Escrow.Settles.claimWindow {rt : Runtime} {env : Env} {accounts : ClaimAndSettle}
    {paymentAmount : UInt64} {s s' : PoolState} {consumed : ConsumedPayment}
    {ledger : AgentIssuanceLedger} {split : Waterfall}
    (h : Settles rt env accounts paymentAmount s advance consumed ledger split s') :
    claimWindow advance env.now = .ok () :=
  claimWindow_eq_ok.mpr ⟨h.windowEnd, h.window⟩

/-- A liquidation has passed its gate. -/
theorem Escrow.Liquidates.liquidationWindow {rt : Runtime} {env : Env} {accounts : Liquidate}
    {s s' : PoolState} {consumed : ConsumedPayment} {ledger : AgentIssuanceLedger}
    (h : Liquidates rt env accounts s advance consumed ledger s') :
    liquidationWindow advance env.now = .ok () :=
  liquidationWindow_eq_ok.mpr ⟨lt_of_le_of_lt h.window env.now.toInt_lt, h.window⟩

end Windows

/-- The expiry in the signed message leaves room for the grace period. -/
def Input.SignsFittingExpiry (input : Input) : Prop :=
  ∀ key message, verifyPrevEd25519 input.env.sysvar = .ok (key, message) →
    (i64Le message expiresAtOffset).toInt + liquidationGraceSeconds.toInt < 2 ^ 63

instance (input : Input) : Decidable input.SignsFittingExpiry :=
  match h : verifyPrevEd25519 input.env.sysvar with
  | .ok (_, message) =>
      decidable_of_iff ((i64Le message expiresAtOffset).toInt +
        liquidationGraceSeconds.toInt < 2 ^ 63) (by simp [Input.SignsFittingExpiry, h])
  | .error _ => .isTrue (by simp [Input.SignsFittingExpiry, h])

/-- The recorded expiry is the signed one. -/
theorem Escrow.Issues.graceFits_iff {rt : Runtime} {input : Input} {accounts : RequestAdvance}
    {receivableId : Bytes 32} {amount : UInt64} {nonce : Bytes 16} {r : Registry.RegistryState}
    {s s' : PoolState} {attestation : Attestation} {ledger : AgentIssuanceLedger}
    {advance : Advance}
    (h : Issues rt input.env accounts receivableId amount nonce r s attestation ledger advance
      s') : advance.GraceFits ↔ input.SignsFittingExpiry := by
  obtain ⟨allowed, -, hread⟩ := h.attested
  obtain ⟨message, hverified, hcarries, -⟩ := readAttestation_carries hread
  have hexpiry : advance.expiresAt = i64Le message expiresAtOffset := by
    rw [h.recorded, hcarries.expiresAt]
    rfl
  unfold Advance.GraceFits Input.SignsFittingExpiry
  constructor
  · intro hfits key other hother
    obtain ⟨-, rfl⟩ : attestation.signer = key ∧ message = other := by
      simpa [hverified] using hother
    rwa [← hexpiry]
  · intro hsigned
    rw [hexpiry]
    exact hsigned _ message hverified

variable {rt : Runtime} {trace : List Input} {s : Chain}

/-- Along a run, at every time from its issuance on exactly one gate is open for every advance of a
pool, if and only if each expiry that the pool accepted leaves room for the grace period. -/
theorem time_gates_exclusive_iff (hrun : Chain.run rt trace = .ok s) (p : Pubkey) :
    (∀ part state ps key advance (now : Int64), part <+: trace → Chain.run rt part = .ok state →
      state.pools.lookup p = some ps → ps.advances.lookup key = some advance →
      advance.issuedAt ≤ now →
      Xor (claimWindow advance now = .ok ()) (liquidationWindow advance now = .ok ())) ↔
    ∀ part input accounts receivableId amount nonce, part ++ [input] <+: trace →
      input.action = .pool (.requestAdvance accounts receivableId amount nonce) →
      accounts.pool = p → input.SignsFittingExpiry := by
  constructor
  · rintro hexclusive part input accounts receivableId amount nonce hpart haction rfl
    obtain ⟨before, next, -, hstep, hnext⟩ := Execution.exists_step hpart hrun
    obtain ⟨ps, ps', attestation, ledger, advance, -, hp', hissues⟩ :=
      Chain.step_issues hstep haction
    have hstored : ps'.advances.lookup (accounts.agent, receivableId) = some advance := by
      rw [hissues.advances, Finmap.lookup_insert]
    exact hissues.graceFits_iff.mp (windows_xor_iff.mp
      (hexclusive _ next ps' _ advance advance.issuedAt hpart hnext hp' hstored (Int64.le_refl _)))
  · intro hsigned part state ps key advance now hpart hstate hp hstored _
    cases Chain.run_issued hstate hp hstored with
    | by_request hissued _ haction hpool _ _ hissues =>
        exact windows_xor_iff.mpr (hissues.graceFits_iff.mpr
          (hsigned _ _ _ _ _ _ (hissued.trans hpart) haction hpool))

/-- An advance whose grace period does not fit is never closed, whatever happens. -/
theorem stored_forever {s' : Chain} {p : Pubkey} {ps : PoolState} {key : AdvanceKey}
    {advance : Advance} (hp : s.pools.lookup p = some ps)
    (hstored : ps.advances.lookup key = some advance) (hunfit : ¬ advance.GraceFits)
    (hrun : Execution.run (Chain.step rt) s trace = .ok s') :
    ∃ ps', s'.pools.lookup p = some ps' ∧ ps'.advances.lookup key = some advance := by
  refine Execution.run_induction (motive := fun _ state ↦ ∃ ps', state.pools.lookup p = some ps' ∧
    ps'.advances.lookup key = some advance) ⟨ps, hp, hstored⟩ ?_ hrun
  intro _ state input next _ hbefore hstep
  obtain ⟨ps, hp, hstored⟩ := hbefore
  obtain ⟨ps', hp', hchange⟩ := Chain.step_change hstep hp
  refine ⟨ps', hp', ?_⟩
  cases hchange with
  | elsewhere _ => exact hstored
  | handled _ _ _ heffect =>
      cases (PoolInstruction.handler_advances heffect).at_key key with
      | issue hkey hissues =>
          rw [hkey, hissues.unissued] at hstored
          cases hstored
      | settle hkey hsettles =>
          rw [hkey, hsettles.live.found] at hstored
          cases hstored
          exact absurd (claimWindow_eq_ok.mp hsettles.claimWindow).1 hunfit
      | liquidate hkey hliquidates =>
          rw [hkey, hliquidates.live.found] at hstored
          cases hstored
          exact absurd (liquidationWindow_eq_ok.mp hliquidates.liquidationWindow).1 hunfit
      | untouched _ hadvance _ _ => rwa [hadvance]

namespace Localnet

/-- The bridge's signature, made at `t₀`, over an attestation that never expires. -/
def signatureEndless : Bytes 64 :=
  ⟨[152, 126, 89, 122, 64, 10, 7, 197, 167, 155, 21, 217, 171, 211, 1, 176, 234, 248, 220, 19, 52,
    55, 159, 189, 226, 196, 96, 53, 59, 43, 207, 131, 187, 79, 21, 228, 10, 65, 102, 100, 63, 121,
    245, 250, 235, 78, 220, 132, 106, 56, 42, 237, 135, 0, 162, 70, 145, 123, 249, 203, 121, 180,
    44, 9], rfl⟩

/-- An advance that expires at the last timestamp there is. -/
def endless : List Input := opening ++ [
  request 1 100000000 t₀ Int64.maxValue t₀ textNonce signatureEndless]

end Localnet

/-- The expiry of the first request leaves room for the grace period, so there is a gate open for
it at all times. -/
theorem time_gates_exclusive_iff_localnet : ∃ s ps advance,
    Chain.run Localnet.runtime (Localnet.opening ++ [Localnet.firstRequest 100000000]) = .ok s ∧
    s.pools.lookup Localnet.pool = some ps ∧
    ps.advances.lookup (Localnet.agent, Localnet.keyOf 1) = some advance ∧
    Xor (claimWindow advance advance.issuedAt = .ok ())
      (liquidationWindow advance advance.issuedAt = .ok ()) := by
  obtain ⟨s, ps, hrun, hp, htest⟩ := Localnet.reaches_iff.mp
    (show Localnet.reaches (Localnet.opening ++ [Localnet.firstRequest 100000000])
      (fun _ ps ↦ (ps.advances.lookup (Localnet.agent, Localnet.keyOf 1)).isSome) = true by
      decide +kernel)
  obtain ⟨advance, hstored⟩ := Option.isSome_iff_exists.mp htest
  refine ⟨s, ps, advance, hrun, hp, hstored, ?_⟩
  refine (time_gates_exclusive_iff hrun Localnet.pool).mpr ?_ _ s ps _ advance _
    (List.prefix_refl _) hrun hp hstored (Int64.le_refl _)
  intro part input _ _ _ _ hpart _ _
  have hsigned : ∀ input ∈ Localnet.opening ++ [Localnet.firstRequest 100000000],
      input.SignsFittingExpiry := by decide +kernel
  exact hsigned input (hpart.subset (by simp))

/-- The endless advance is issued; both gates are closed for it at all times, and whatever happens
it stays open. -/
theorem endless_advance_never_closed : ∃ s ps advance,
    Chain.run Localnet.runtime Localnet.endless = .ok s ∧
    s.pools.lookup Localnet.pool = some ps ∧
    ps.advances.lookup (Localnet.agent, Localnet.keyOf 1) = some advance ∧
    (∀ now, claimWindow advance now ≠ .ok () ∧ liquidationWindow advance now ≠ .ok ()) ∧
    ∀ later s', Execution.run (Chain.step Localnet.runtime) s later = .ok s' →
      ∃ ps', s'.pools.lookup Localnet.pool = some ps' ∧
        ps'.advances.lookup (Localnet.agent, Localnet.keyOf 1) = some advance := by
  obtain ⟨s, ps, advance, hrun, hp, hstored, hexpiry⟩ := Localnet.reaches_advance
    (show Localnet.reaches Localnet.endless (fun _ ps ↦
      (ps.advances.lookup (Localnet.agent, Localnet.keyOf 1)).any
        fun advance ↦ advance.expiresAt = Int64.maxValue) = true by decide +kernel)
  have hunfit : ¬ advance.GraceFits := by
    rw [Advance.GraceFits, of_decide_eq_true hexpiry]
    decide
  refine ⟨s, ps, advance, hrun, hp, hstored, fun now ↦ ⟨?_, ?_⟩, fun later s' hlater ↦ ?_⟩
  · exact fun hopen ↦ hunfit (claimWindow_eq_ok.mp hopen).1
  · exact fun hopen ↦ hunfit (liquidationWindow_eq_ok.mp hopen).1
  · exact stored_forever hp hstored hunfit hlater

end CredMesh
