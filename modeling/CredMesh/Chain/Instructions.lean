import CredMesh.Chain.System

/-!
# What the instructions of a pool change

One inversion for each part of a pool that later results follow along runs: its identity, its
parameters, the advances with their records, and the event. None of them assumes anything about the
state that an instruction meets. `step_change` carries them from the handlers to accepted inputs,
and `pool_induction` from these to runs.
-/

namespace CredMesh

open Escrow Registry IxIntrospection

/-- What is fixed when a pool is created. -/
structure Escrow.PoolIdentity where
  bump : UInt8
  assetMint : Pubkey
  usdcVault : Pubkey
  shareMint : Pubkey
  treasuryAta : Pubkey
  governance : Pubkey
  timelockSeconds : Int64
  chainId : UInt64

def Escrow.Pool.identity (pool : Pool) : PoolIdentity where
  bump := pool.bump
  assetMint := pool.assetMint
  usdcVault := pool.usdcVault
  shareMint := pool.shareMint
  treasuryAta := pool.treasuryAta
  governance := pool.governance
  timelockSeconds := pool.timelockSeconds
  chainId := pool.chainId

/-- No instruction changes the identity of its pool. -/
theorem PoolInstruction.handler_identity {rt : Runtime} {env : Env} {r : RegistryState}
    {s : PoolState} {t : Spl.TokenLedger} {ix : PoolInstruction} {effect : Effect}
    (h : ix.handler rt env r s t = .ok effect) :
    effect.state.pool.identity = s.pool.identity := by
  cases ix with
  | deposit accounts amount =>
      obtain ⟨-, _, _, _, -, -, -, -, hstate, -⟩ := deposit_effect h
      rw [hstate]
      rfl
  | withdraw accounts shares =>
      obtain ⟨-, _, _, _, -, -, -, hstate, -⟩ := withdraw_effect h
      rw [hstate]
      rfl
  | requestAdvance accounts receivableId amount nonce =>
      obtain ⟨_, _, _, hissues, -⟩ := requestAdvance_effect h
      rw [hissues.pool]
      rfl
  | claimAndSettle accounts paymentAmount =>
      obtain ⟨_, _, _, _, hsettles, -⟩ := claimAndSettle_effect h
      rw [hsettles.pool]
      rfl
  | liquidate accounts =>
      obtain ⟨-, _, _, _, hliquidates⟩ := liquidate_effect h
      rw [hliquidates.pool]
      rfl
  | proposeParams accounts params =>
      obtain ⟨-, -, -, _, -, hstate⟩ := proposeParams_effect h
      rw [hstate]
      rfl
  | executeParams accounts =>
      obtain ⟨-, _, -, -, hstate⟩ := executeParams_effect h
      rw [hstate]
      rfl
  | skimProtocolFees accounts amount =>
      obtain ⟨-, ⟨_, -, hstate⟩, -⟩ := skimProtocolFees_effect h
      rw [hstate]
      rfl

/-- What governance can set. -/
structure Escrow.RiskParams where
  feeCurve : FeeCurve
  maxAdvancePctBps : UInt16
  maxAdvanceAbs : UInt64
  agentWindowCap : UInt64
  deriving DecidableEq

def Escrow.Pool.riskParams (pool : Pool) : RiskParams where
  feeCurve := pool.feeCurve
  maxAdvancePctBps := pool.maxAdvancePctBps
  maxAdvanceAbs := pool.maxAdvanceAbs
  agentWindowCap := pool.agentWindowCap

def Escrow.PendingParams.riskParams (params : PendingParams) : RiskParams where
  feeCurve := params.feeCurve
  maxAdvancePctBps := params.maxAdvancePctBps
  maxAdvanceAbs := params.maxAdvanceAbs
  agentWindowCap := params.agentWindowCap

/-- What an accepted instruction does to the parameters of its pool and to the proposal for
them. -/
inductive PoolInstruction.ParamsChange (env : Env) (pool : Pool) : PoolInstruction → Pool → Prop
  | propose {accounts : ProposeParams} {params pending : PendingParams} {pool' : Pool}
      (hgate : requireSquadsGovernanceCpi env.sysvar pool.governance = .ok ())
      (hvalid : params.feeCurve.validate = .ok ())
      (htime : pending.executeAfter.toInt = env.now.toInt + pool.timelockSeconds.toInt)
      (hproposed : pending.riskParams = params.riskParams)
      (hparams : pool'.riskParams = pool.riskParams)
      (hpending : pool'.pendingParams = some pending) :
      ParamsChange env pool (.proposeParams accounts params) pool'
  | execute {accounts : ExecuteParams} {pending : PendingParams} {pool' : Pool}
      (hfound : pool.pendingParams = some pending) (htime : pending.executeAfter ≤ env.now)
      (hparams : pool'.riskParams = pending.riskParams) (hpending : pool'.pendingParams = none) :
      ParamsChange env pool (.executeParams accounts) pool'
  | kept {ix : PoolInstruction} {pool' : Pool}
      (hpropose : ∀ accounts params, ix ≠ .proposeParams accounts params)
      (hexecute : ∀ accounts, ix ≠ .executeParams accounts)
      (hparams : pool'.riskParams = pool.riskParams)
      (hpending : pool'.pendingParams = pool.pendingParams) :
      ParamsChange env pool ix pool'

theorem PoolInstruction.handler_params {rt : Runtime} {env : Env} {r : RegistryState}
    {s : PoolState} {t : Spl.TokenLedger} {ix : PoolInstruction} {effect : Effect}
    (h : ix.handler rt env r s t = .ok effect) :
    ix.ParamsChange env s.pool effect.state.pool := by
  cases ix with
  | deposit accounts amount =>
      obtain ⟨-, _, _, _, -, -, -, -, hstate, -⟩ := deposit_effect h
      rw [hstate]
      exact .kept (by simp) (by simp) rfl rfl
  | withdraw accounts shares =>
      obtain ⟨-, _, _, _, -, -, -, hstate, -⟩ := withdraw_effect h
      rw [hstate]
      exact .kept (by simp) (by simp) rfl rfl
  | requestAdvance accounts receivableId amount nonce =>
      obtain ⟨_, _, _, hissues, -⟩ := requestAdvance_effect h
      rw [hissues.pool]
      exact .kept (by simp) (by simp) rfl rfl
  | claimAndSettle accounts paymentAmount =>
      obtain ⟨_, _, _, _, hsettles, -⟩ := claimAndSettle_effect h
      rw [hsettles.pool]
      exact .kept (by simp) (by simp) rfl rfl
  | liquidate accounts =>
      obtain ⟨-, _, _, _, hliquidates⟩ := liquidate_effect h
      rw [hliquidates.pool]
      exact .kept (by simp) (by simp) rfl rfl
  | proposeParams accounts params =>
      obtain ⟨hgate, hvalid, -, executeAfter, htime, hstate⟩ := proposeParams_effect h
      rw [hstate]
      have hpending : (⟨params.feeCurve, params.maxAdvancePctBps, params.maxAdvanceAbs,
        params.agentWindowCap, executeAfter⟩ : PendingParams).riskParams = params.riskParams := rfl
      exact .propose hgate hvalid htime hpending rfl rfl
  | executeParams accounts =>
      obtain ⟨-, pending, hfound, htime, hstate⟩ := executeParams_effect h
      rw [hstate]
      exact .execute hfound htime rfl rfl
  | skimProtocolFees accounts amount =>
      obtain ⟨-, ⟨_, -, hstate⟩, -⟩ := skimProtocolFees_effect h
      rw [hstate]
      exact .kept (by simp) (by simp) rfl rfl

/-- The event of an instruction, accepted on a pool in the given state. -/
inductive PoolInstruction.Emits (rt : Runtime) (env : Env) (s : PoolState) :
    PoolInstruction → Event → Prop
  | deposit {accounts : Deposit} {amount shares : UInt64} :
      Emits rt env s (.deposit accounts amount)
        (.deposited accounts.pool accounts.lp amount shares)
  | withdraw {accounts : Withdraw} {shares assets : UInt64} :
      Emits rt env s (.withdraw accounts shares)
        (.withdrew accounts.pool accounts.lp shares assets)
  | requestAdvance {accounts : RequestAdvance} {receivableId : Bytes 32} {amount : UInt64}
      {nonce : Bytes 16} {feeOwed : UInt64} {expiresAt : Int64} {attestor : Pubkey} :
      Emits rt env s (.requestAdvance accounts receivableId amount nonce)
        (.advanceIssued accounts.pool accounts.agent
          (rt.advancePda accounts.pool accounts.agent receivableId).1 amount feeOwed expiresAt
          attestor)
  | claimAndSettle {accounts : ClaimAndSettle} {paymentAmount : UInt64} {advance : Advance}
      {split : Waterfall} (hstored : s.advances.lookup accounts.advance.key = some advance)
      (hsplit : waterfall advance env.now paymentAmount = .ok split) :
      Emits rt env s (.claimAndSettle accounts paymentAmount)
        (.advanceSettled accounts.pool advance.agent
          (rt.advancePda accounts.pool advance.agent advance.receivableId).1 advance.principal
          split.lpCut split.protocolCut split.agentNet split.lateDays.toUInt32)
  | liquidate {accounts : Liquidate} {advance : Advance}
      (hstored : s.advances.lookup accounts.advance.key = some advance) :
      Emits rt env s (.liquidate accounts)
        (.advanceLiquidated accounts.pool advance.agent
          (rt.advancePda accounts.pool advance.agent advance.receivableId).1 advance.principal)
  | proposeParams {accounts : ProposeParams} {params : PendingParams} {executeAfter : Int64} :
      Emits rt env s (.proposeParams accounts params) (.paramsProposed accounts.pool executeAfter)
  | executeParams {accounts : ExecuteParams} {maxAdvancePctBps : UInt16}
      {maxAdvanceAbs agentWindowCap : UInt64} :
      Emits rt env s (.executeParams accounts)
        (.paramsExecuted accounts.pool maxAdvancePctBps maxAdvanceAbs agentWindowCap)
  | skimProtocolFees {accounts : SkimProtocolFees} {amount : UInt64} :
      Emits rt env s (.skimProtocolFees accounts amount)
        (.protocolFeesSkimmed accounts.pool amount accounts.recipientAta)

theorem PoolInstruction.handler_emits {rt : Runtime} {env : Env} {r : RegistryState}
    {s : PoolState} {t : Spl.TokenLedger} {ix : PoolInstruction} {effect : Effect}
    (h : ix.handler rt env r s t = .ok effect) : ix.Emits rt env s effect.event := by
  cases ix with
  | deposit accounts amount =>
      obtain ⟨_, _, shares, _, -, hbuys, -, -⟩ := deposit_eq_ok.mp h
      rw [hbuys.emitted]
      exact .deposit
  | withdraw accounts shares =>
      obtain ⟨_, _, assets, _, -, hredeems, -, -, -⟩ := withdraw_eq_ok.mp h
      rw [hredeems.emitted]
      exact .withdraw
  | requestAdvance accounts receivableId amount nonce =>
      obtain ⟨_, _, _, _, _, -, -, -, hevent⟩ := requestAdvance_eq_ok.mp h
      rw [hevent]
      exact .requestAdvance
  | claimAndSettle accounts paymentAmount =>
      obtain ⟨advance, _, _, _, split, _, -, hsettles, -, -, hevent⟩ := claimAndSettle_eq_ok.mp h
      rw [hevent]
      exact .claimAndSettle hsettles.stored hsettles.divided
  | liquidate accounts =>
      obtain ⟨-, advance, _, _, -, hliquidates, hevent⟩ := liquidate_eq_ok.mp h
      rw [hevent]
      exact .liquidate hliquidates.stored
  | proposeParams accounts params =>
      simp only [handler, Escrow.proposeParams, Outcome.bind_eq_ok, Outcome.pure_eq_ok] at h
      obtain ⟨-, -, -, -, -, -, _, -, rfl⟩ := h
      exact .proposeParams
  | executeParams accounts =>
      simp only [handler, Escrow.executeParams, Outcome.bind_eq_ok, Outcome.pure_eq_ok] at h
      obtain ⟨_, -, -, -, rfl⟩ := h
      exact .executeParams
  | skimProtocolFees accounts amount =>
      obtain ⟨_, -, -, -, hevent⟩ := skimProtocolFees_eq_ok.mp h
      rw [hevent]
      exact .skimProtocolFees

/-- What an instruction can do to an advance. -/
inductive Operation
  | issue
  | settle
  | liquidate
  deriving DecidableEq

/-- The advance that an instruction is about, and what it does to it. -/
def PoolInstruction.operation : PoolInstruction → Option (Operation × AdvanceKey)
  | requestAdvance accounts receivableId _ _ => some (.issue, (accounts.agent, receivableId))
  | claimAndSettle accounts _ => some (.settle, accounts.advance.key)
  | liquidate accounts => some (.liquidate, accounts.advance.key)
  | _ => none

/-- What an accepted instruction does to the advances of its pool and to their records. -/
inductive PoolInstruction.AdvanceChange (rt : Runtime) (env : Env) (r : RegistryState)
    (s : PoolState) : PoolInstruction → PoolState → Prop
  | issue {accounts : RequestAdvance} {receivableId : Bytes 32} {amount : UInt64}
      {nonce : Bytes 16} {attestation : Attestation} {ledger : AgentIssuanceLedger}
      {advance : Advance} {s' : PoolState}
      (hissues : Issues rt env accounts receivableId amount nonce r s attestation ledger advance
        s') :
      AdvanceChange rt env r s (.requestAdvance accounts receivableId amount nonce) s'
  | settle {accounts : ClaimAndSettle} {paymentAmount : UInt64} {advance : Advance}
      {consumed : ConsumedPayment} {ledger : AgentIssuanceLedger} {split : Waterfall}
      {s' : PoolState}
      (hsettles : Settles rt env accounts paymentAmount s advance consumed ledger split s') :
      AdvanceChange rt env r s (.claimAndSettle accounts paymentAmount) s'
  | liquidate {accounts : Liquidate} {advance : Advance} {consumed : ConsumedPayment}
      {ledger : AgentIssuanceLedger} {s' : PoolState}
      (hliquidates : Liquidates rt env accounts s advance consumed ledger s') :
      AdvanceChange rt env r s (.liquidate accounts) s'
  | unrelated {ix : PoolInstruction} {pool : Pool} (hnone : ix.operation = none) :
      AdvanceChange rt env r s ix { s with pool }

theorem PoolInstruction.handler_advances {rt : Runtime} {env : Env} {r : RegistryState}
    {s : PoolState} {t : Spl.TokenLedger} {ix : PoolInstruction} {effect : Effect}
    (h : ix.handler rt env r s t = .ok effect) : ix.AdvanceChange rt env r s effect.state := by
  cases ix with
  | deposit accounts amount =>
      obtain ⟨-, _, _, _, -, -, -, -, hstate, -⟩ := deposit_effect h
      rw [hstate]
      exact .unrelated rfl
  | withdraw accounts shares =>
      obtain ⟨-, _, _, _, -, -, -, hstate, -⟩ := withdraw_effect h
      rw [hstate]
      exact .unrelated rfl
  | requestAdvance accounts receivableId amount nonce =>
      obtain ⟨_, _, _, hissues, -⟩ := requestAdvance_effect h
      exact .issue hissues
  | claimAndSettle accounts paymentAmount =>
      obtain ⟨_, _, _, _, hsettles, -⟩ := claimAndSettle_effect h
      exact .settle hsettles
  | liquidate accounts =>
      obtain ⟨-, _, _, _, hliquidates⟩ := liquidate_effect h
      exact .liquidate hliquidates
  | proposeParams accounts params =>
      obtain ⟨-, -, -, _, -, hstate⟩ := proposeParams_effect h
      rw [hstate]
      exact .unrelated rfl
  | executeParams accounts =>
      obtain ⟨-, _, -, -, hstate⟩ := executeParams_effect h
      rw [hstate]
      exact .unrelated rfl
  | skimProtocolFees accounts amount =>
      obtain ⟨-, ⟨_, -, hstate⟩, -⟩ := skimProtocolFees_effect h
      rw [hstate]
      exact .unrelated rfl

/-- The action is an escrow instruction on the pool. -/
def Action.IsOn (poolKey : Pubkey) (action : Action) : Prop :=
  ∃ ix, action = pool ix ∧ ix.pool = poolKey

/-- What an accepted input does to the accounts of a pool: nothing, or what one of its own
instructions computes from them. -/
inductive PoolChange (rt : Runtime) (input : Input) (s : Chain) (p : Pubkey) (ps : PoolState) :
    Chain → PoolState → Prop
  | elsewhere {s' : Chain} (helsewhere : ¬ input.action.IsOn p) : PoolChange rt input s p ps s' ps
  | handled {ix : PoolInstruction} {effect : Effect} (haction : input.action = .pool ix)
      (hpool : ix.pool = p) (hsigner : s.pools.lookup ix.signer = none)
      (heffect : ix.handler rt input.env s.registry ps s.tokens = .ok effect) :
      PoolChange rt input s p ps (s.commit p effect) effect.state

theorem Chain.step_change {rt : Runtime} {input : Input} {s s' : Chain} {p : Pubkey}
    {ps : PoolState} (h : step rt input s = .ok s') (hp : s.pools.lookup p = some ps) :
    ∃ ps', s'.pools.lookup p = some ps' ∧ PoolChange rt input s p ps s' ps' := by
  cases step_cases h with
  | @initPool accounts params effect haction hfresh _ =>
      have hne : p ≠ accounts.pool := by
        rintro rfl
        simp [hfresh] at hp
      exact ⟨ps, by simpa [commit, AccountMap.lookup_insert_eq, hne] using hp,
        .elsewhere (by simp [haction, Action.IsOn])⟩
  | @pool ix state effect haction hsigner hfound heffect =>
      by_cases hpool : ix.pool = p
      · subst hpool
        obtain rfl : state = ps := by simpa [hfound] using hp
        exact ⟨effect.state, by simp [commit], .handled haction rfl hsigner heffect⟩
      · refine ⟨ps, by simpa [commit, AccountMap.lookup_insert_eq, Ne.symm hpool] using hp,
          .elsewhere ?_⟩
        rintro ⟨other, hother, rfl⟩
        rw [haction] at hother
        exact hpool (by injection hother with hix; rw [hix])
  | registry haction _ => exact ⟨ps, hp, .elsewhere (by simp [haction, Action.IsOn])⟩
  | token haction _ _ => exact ⟨ps, hp, .elsewhere (by simp [haction, Action.IsOn])⟩

/-- A pool that was not there before has just been created. -/
theorem Chain.step_new {rt : Runtime} {input : Input} {s s' : Chain} {p : Pubkey}
    {ps : PoolState} (h : step rt input s = .ok s') (hp : s.pools.lookup p = none)
    (hp' : s'.pools.lookup p = some ps) :
    ∃ accounts params effect, input.action = .initPool accounts params ∧ accounts.pool = p ∧
      Escrow.initPool rt accounts params s.tokens = .ok effect ∧ effect.state = ps ∧
      s' = s.commit p effect := by
  cases step_cases h with
  | @initPool accounts params effect haction hfresh heffect =>
      have hpool : accounts.pool = p := by
        by_contra hne
        simp [commit, Ne.symm hne, hp] at hp'
      obtain rfl : effect.state = ps := by simpa [commit, hpool] using hp'
      exact ⟨accounts, params, effect, haction, hpool, heffect, rfl, by rw [hpool]⟩
  | @pool ix state effect haction hsigner hfound heffect =>
      by_cases hpool : ix.pool = p
      · rw [← hpool, hfound] at hp
        cases hp
      · simp [commit, Ne.symm hpool, hp] at hp'
  | registry _ _ => simp [hp] at hp'
  | token _ _ _ => simp [hp] at hp'

/-- A run as one pool sees it: it is created once, and from then on only its own instructions
change it. -/
theorem Chain.pool_induction {motive : List Input → PoolState → Prop} {rt : Runtime}
    {trace : List Input} {s : Chain} {p : Pubkey} {ps : PoolState}
    (created : ∀ trace input accounts params t effect,
      Escrow.initPool rt accounts params t = .ok effect → motive (trace ++ [input]) effect.state)
    (elsewhere : ∀ trace input ps, ¬ input.action.IsOn p → motive trace ps →
      motive (trace ++ [input]) ps)
    (handled : ∀ trace input s ps ix effect, run rt trace = .ok s →
      s.pools.lookup p = some ps → input.action = .pool ix → ix.pool = p →
      ix.handler rt input.env s.registry ps s.tokens = .ok effect → motive trace ps →
      motive (trace ++ [input]) effect.state)
    (hrun : run rt trace = .ok s) (hp : s.pools.lookup p = some ps) : motive trace ps := by
  refine Execution.run_induction (motive := fun trace state ↦ ∀ ps,
    state.pools.lookup p = some ps → motive trace ps) (fun ps hp ↦ by simp [genesis] at hp) ?_
    hrun ps hp
  intro trace s input s' hrun ih hstep ps' hp'
  cases hp : s.pools.lookup p with
  | none =>
      obtain ⟨accounts, params, effect, -, -, heffect, rfl, -⟩ := step_new hstep hp hp'
      exact created trace input accounts params s.tokens effect heffect
  | some ps =>
      obtain ⟨found, hfound, hchange⟩ := step_change hstep hp
      obtain rfl : found = ps' := by simpa [hp'] using hfound.symm
      cases hchange with
      | elsewhere helsewhere => exact elsewhere trace input ps helsewhere (ih ps hp)
      | handled haction hpool _ heffect =>
          exact handled trace input s ps _ _ hrun hp haction hpool heffect (ih ps hp)

/-- What `init_pool` establishes and every handler keeps holds of every pool of every run. -/
theorem Chain.pool_invariant {motive : PoolState → Prop} {rt : Runtime} {trace : List Input}
    {s : Chain} {p : Pubkey} {ps : PoolState}
    (created : ∀ accounts params t effect, Escrow.initPool rt accounts params t = .ok effect →
      motive effect.state)
    (handled : ∀ ix env r ps t effect, PoolInstruction.handler rt env r ps t ix = .ok effect →
      motive ps → motive effect.state)
    (hrun : run rt trace = .ok s) (hp : s.pools.lookup p = some ps) : motive ps := by
  refine pool_induction (motive := fun _ ps ↦ motive ps) ?_ ?_ ?_ hrun hp
  · intro _ _ accounts params t effect heffect
    exact created accounts params t effect heffect
  · intro _ _ ps _ ih
    exact ih
  · intro _ input s ps ix effect _ _ _ _ heffect ih
    exact handled ix input.env s.registry ps s.tokens effect heffect ih

/-- No pool issues shares of the mint it holds. -/
theorem Chain.run_mints_ne {rt : Runtime} {trace : List Input} {s : Chain} {p : Pubkey}
    {ps : PoolState} (hrun : run rt trace = .ok s) (hp : s.pools.lookup p = some ps) :
    ps.pool.assetMint ≠ ps.pool.shareMint := by
  refine pool_invariant (motive := fun ps ↦ ps.pool.identity.assetMint ≠ ps.pool.identity.shareMint)
    (fun _ _ _ _ h ↦ initPool_mints_ne h) ?_ hrun hp
  intro ix env r ps t effect heffect hne
  rw [PoolInstruction.handler_identity heffect]
  exact hne

end CredMesh
