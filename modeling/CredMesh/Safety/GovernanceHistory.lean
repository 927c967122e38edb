import CredMesh.Chain.Acceptance
import CredMesh.Foundation.Projection
import CredMesh.Foundation.Timelock
import CredMesh.Safety.Timelock

/-!
# The history of governance

A pool is a timelock for its parameters, and a run of the chain is a run of this timelock. So the
history alone decides what governance can do: a proposal is accepted whenever the transaction passes
the gate with a valid curve, and an execution, by anybody, exactly when the last move was a
proposal and its time has come, whatever else the pool and the chain did since.
-/

namespace CredMesh

open Outcome Escrow IxIntrospection Execution

/-! ## The pool as a timelock -/

def Escrow.Pool.timelock (pool : Pool) : Timelock RiskParams where
  delay := pool.timelockSeconds.toInt
  inForce := pool.riskParams
  waiting := pool.pendingParams.map fun pending ↦
    (pending.riskParams, pending.executeAfter.toInt)

def Escrow.InitPoolParams.riskParams (params : InitPoolParams) : RiskParams where
  feeCurve := params.feeCurve
  maxAdvancePctBps := params.maxAdvancePctBps
  maxAdvanceAbs := params.maxAdvanceAbs
  agentWindowCap := params.agentWindowCap

def PoolInstruction.move (time : ℤ) : PoolInstruction → Option (Timelock.Move RiskParams)
  | proposeParams _ params => some (.propose params.riskParams time)
  | executeParams _ => some (.adopt time)
  | _ => none

/-- What an input does to the parameters of a pool. -/
def Input.move (p : Pubkey) (input : Input) : Option (Timelock.Move RiskParams) :=
  match input.action with
  | .initPool accounts params =>
      if accounts.pool = p then some (.create params.timelockSeconds.toInt params.riskParams)
      else none
  | .pool ix => if ix.pool = p then ix.move input.env.now.toInt else none
  | _ => none

def Chain.timelock (p : Pubkey) (s : Chain) : Option (Timelock RiskParams) :=
  (s.pools.lookup p).map fun ps ↦ ps.pool.timelock

namespace PoolInstruction.ParamsChange

variable {env : Env} {ix : PoolInstruction} {pool pool' : Pool}

/-- What an accepted instruction does to the parameters is a move of the timelock. -/
theorem seenAs (h : ix.ParamsChange env pool pool')
    (hdelay : pool'.timelockSeconds = pool.timelockSeconds) :
    SeenAs Timelock.step (some pool.timelock) (some pool'.timelock) (ix.move env.now.toInt) := by
  cases h with
  | propose _ _ htime hproposed hparams hpending =>
      refine Timelock.step_propose.mpr ⟨_, rfl, congrArg some ?_⟩
      simp [Pool.timelock, hdelay, hparams, hpending, hproposed, htime]
  | @execute _ pending _ hfound htime hparams hpending =>
      refine Timelock.step_adopt.mpr ⟨pool.timelockSeconds.toInt, pool.riskParams,
        pending.riskParams, _, ?_, Int64.le_iff_toInt_le.mp htime, ?_⟩
      · simp [Pool.timelock, hfound]
      · simp [Pool.timelock, hdelay, hparams, hpending]
  | kept hpropose hexecute hparams hpending =>
      have hmove : ix.move env.now.toInt = none := by
        unfold PoolInstruction.move
        split
        case h_1 accounts params => exact absurd rfl (hpropose accounts params)
        case h_2 accounts => exact absurd rfl (hexecute accounts)
        case h_3 => rfl
      rw [hmove]
      simp [SeenAs, Pool.timelock, hdelay, hparams, hpending]

end PoolInstruction.ParamsChange

namespace Chain

variable {rt : Runtime} {trace : List Input} {s s' : Chain} {input : Input} {p : Pubkey}
  {ps : PoolState}

theorem timelock_commit_of_ne {address : Pubkey} {effect : Effect} (h : address ≠ p) :
    (s.commit address effect).timelock p = s.timelock p := by
  rw [timelock, timelock, commit, Finmap.lookup_insert_of_ne _ (Ne.symm h)]

theorem step_seenAs (p : Pubkey) (hstep : step rt input s = .ok s') :
    SeenAs Timelock.step (s.timelock p) (s'.timelock p) (input.move p) := by
  cases step_cases hstep with
  | @initPool accounts params effect haction hfresh heffect =>
      rw [Input.move, haction]
      by_cases hpool : accounts.pool = p
      · subst hpool
        have hbefore : s.timelock accounts.pool = none := by rw [timelock, hfresh, Option.map_none]
        have hafter : (s.commit accounts.pool effect).timelock accounts.pool =
            some effect.state.pool.timelock := by
          rw [timelock, commit, Finmap.lookup_insert, Option.map_some]
        rw [hbefore, hafter, (initPool_effect heffect).1]
        simp only [if_true]
        rfl
      · simp only [if_neg hpool]
        exact timelock_commit_of_ne hpool
  | @pool ix ps effect haction _ hfound heffect =>
      rw [Input.move, haction]
      by_cases hpool : ix.pool = p
      · subst hpool
        have hbefore : s.timelock ix.pool = some ps.pool.timelock := by
          rw [timelock, hfound, Option.map_some]
        have hafter : (s.commit ix.pool effect).timelock ix.pool =
            some effect.state.pool.timelock := by
          rw [timelock, commit, Finmap.lookup_insert, Option.map_some]
        have hdelay := congrArg PoolIdentity.timelockSeconds
          (PoolInstruction.handler_identity heffect)
        rw [hbefore, hafter]
        simp only [if_true]
        exact (PoolInstruction.handler_params heffect).seenAs hdelay
      · simp only [if_neg hpool]
        exact timelock_commit_of_ne hpool
  | registry haction _ =>
      rw [Input.move, haction]
      rfl
  | token haction _ _ =>
      rw [Input.move, haction]
      rfl

/-- A run of the chain is a run of the timelock of each pool. -/
theorem run_timelock (hrun : run rt trace = .ok s) (p : Pubkey) :
    Execution.run Timelock.step none (trace.filterMap (Input.move p)) = .ok (s.timelock p) := by
  have hgenesis : genesis.timelock p = none := rfl
  rw [← hgenesis]
  exact run_observed (fun _ _ _ hstep ↦ step_seenAs p hstep) hrun

theorem timelock_eq (hp : s.pools.lookup p = some ps) : s.timelock p = some ps.pool.timelock := by
  rw [timelock, hp, Option.map_some]

/-- A proposal is refused only for its accounts, its transaction, its curve or its time. -/
theorem proposes_iff (hrun : run rt trace = .ok s) (hp : s.pools.lookup p = some ps) {env : Env}
    {accounts : ProposeParams} {params : PendingParams} (hpool : accounts.pool = p) :
    (∃ s', step rt ⟨env, .pool (.proposeParams accounts params)⟩ s = .ok s') ↔
      s.pools.lookup accounts.cranker = none ∧ accounts.governance = ps.pool.governance ∧
      requireSquadsGovernanceCpi env.sysvar ps.pool.governance = .ok () ∧
      params.feeCurve.validate = .ok () ∧
      ∃ time : Int64, time.toInt = env.now.toInt + ps.pool.timelockSeconds.toInt := by
  have hpool : (PoolInstruction.proposeParams accounts params).pool = p := hpool
  rw [accepts_iff hrun hp hpool]
  simp only [PoolInstruction.signer, PoolInstruction.handler, proposeParams, bind_eq_ok, okOr_eq_ok,
    requireGovernance_eq_ok, requireGovernanceCpi_eq_ok, pure_eq_ok, Int64.checkedAdd_eq_some]
  constructor
  · rintro ⟨hsigner, _, -, hgovernance, -, hgate, ⟨⟩, hvalid, time, htime, -⟩
    exact ⟨hsigner, hgovernance, hgate, hvalid, time, htime⟩
  · rintro ⟨hsigner, hgovernance, hgate, hvalid, time, htime⟩
    exact ⟨hsigner, _, (), hgovernance, (), hgate, (), hvalid, time, htime, rfl⟩

/-- An execution is accepted exactly if the timelock can be adopted. -/
theorem executes_iff (hrun : run rt trace = .ok s) (hp : s.pools.lookup p = some ps) {env : Env}
    {cranker : Pubkey} :
    (∃ s', step rt ⟨env, .pool (.executeParams ⟨cranker, p⟩)⟩ s = .ok s') ↔
      s.pools.lookup cranker = none ∧
      ∃ next, Timelock.step (.adopt env.now.toInt) (some ps.pool.timelock) = .ok next := by
  have hpool : (PoolInstruction.executeParams ⟨cranker, p⟩).pool = p := rfl
  rw [accepts_iff hrun hp hpool]
  simp only [PoolInstruction.signer, PoolInstruction.handler, executeParams, bind_eq_ok, okOr_eq_ok,
    require_eq_ok, pure_eq_ok, Timelock.step_adopt, Option.some.injEq]
  constructor
  · rintro ⟨hsigner, _, pending, hpending, -, htime, -⟩
    refine ⟨hsigner, _, ps.pool.timelockSeconds.toInt, ps.pool.riskParams, pending.riskParams, _,
      ?_, Int64.le_iff_toInt_le.mp htime, rfl⟩
    simp [Pool.timelock, hpending]
  · rintro ⟨hsigner, _, delay, old, value, ready, hlock, hready, -⟩
    have hwaiting := congrArg Timelock.waiting hlock
    obtain ⟨pending, hpending, hsame⟩ := Option.map_eq_some_iff.mp hwaiting
    obtain ⟨-, rfl⟩ := Prod.mk.inj hsame
    exact ⟨hsigner, _, pending, hpending, (), Int64.le_iff_toInt_le.mpr hready, rfl⟩

end Chain

/-- What the last move for the parameters of a pool was. -/
theorem Input.move_eq_propose {p : Pubkey} {input : Input} {value : RiskParams} {time : ℤ} :
    input.move p = some (.propose value time) ↔ ∃ accounts params,
      input.action = .pool (.proposeParams accounts params) ∧ accounts.pool = p ∧
      params.riskParams = value ∧ input.env.now.toInt = time := by
  unfold Input.move
  split
  case h_1 accounts params haction => simp [haction]
  case h_2 ix haction =>
    by_cases hpool : ix.pool = p
    · cases ix <;> simp_all [PoolInstruction.move, PoolInstruction.pool]
    · cases ix <;> simp_all [PoolInstruction.pool]
  case h_3 hother =>
    simp only [reduceCtorEq, false_iff]
    rintro ⟨accounts, params, haction, -⟩
    exact hother _ haction

variable {rt : Runtime} {trace : List Input} {s : Chain} {p : Pubkey} {ps : PoolState}

/-- In every run, each pool is the timelock that its history makes it: created once, with a delay
for good. At every point of the run anybody can execute exactly if the last move for the parameters
was a proposal and the timelock has run since, whatever else happened meanwhile, and this puts the
proposed parameters in force. A proposal is accepted exactly if the transaction passes the gate for
the vault of the pool and the curve is valid. -/
theorem governance_history_exact (hrun : Chain.run rt trace = .ok s)
    (hp : s.pools.lookup p = some ps) :
    Execution.run Timelock.step none (trace.filterMap (Input.move p)) =
      .ok (some ps.pool.timelock) ∧
    (∀ env cranker, (∃ s', Chain.step rt ⟨env, .pool (.executeParams ⟨cranker, p⟩)⟩ s = .ok s') ↔
      s.pools.lookup cranker = none ∧ ∃ earlier proposal accounts params,
        LastOf (fun input ↦ (input.move p).isSome) trace earlier proposal ∧
        proposal.action = .pool (.proposeParams accounts params) ∧
        proposal.env.now.toInt + ps.pool.timelockSeconds.toInt ≤ env.now.toInt) ∧
    (∀ env cranker s' earlier proposal accounts params,
      Chain.step rt ⟨env, .pool (.executeParams ⟨cranker, p⟩)⟩ s = .ok s' →
      LastOf (fun input ↦ (input.move p).isSome) trace earlier proposal →
      proposal.action = .pool (.proposeParams accounts params) →
      s'.timelock p = some ⟨ps.pool.timelockSeconds.toInt, params.riskParams, none⟩) ∧
    ∀ env accounts params, accounts.pool = p →
      ((∃ s', Chain.step rt ⟨env, .pool (.proposeParams accounts params)⟩ s = .ok s') ↔
        s.pools.lookup accounts.cranker = none ∧ accounts.governance = ps.pool.governance ∧
        requireSquadsGovernanceCpi env.sysvar ps.pool.governance = .ok () ∧
        params.feeCurve.validate = .ok () ∧
        ∃ time : Int64, time.toInt = env.now.toInt + ps.pool.timelockSeconds.toInt) := by
  have hlock := Chain.run_timelock hrun p
  rw [Chain.timelock_eq hp] at hlock
  have hmove {earlier : List Input} {proposal : Input} {accounts : ProposeParams}
      {params : PendingParams} (hlast : LastOf (fun input ↦ (input.move p).isSome) trace earlier
        proposal) (haction : proposal.action = .pool (.proposeParams accounts params)) :
      trace.filterMap (Input.move p) = earlier.filterMap (Input.move p) ++
        [.propose params.riskParams proposal.env.now.toInt] := by
    apply hlast.filterMap
    have hsome := hlast.isKind
    simp only [Input.move, haction] at hsome ⊢
    split at hsome
    case isTrue hpool =>
      rw [if_pos hpool]
      rfl
    case isFalse => cases hsome
  refine ⟨hlock, ?_, ?_, fun env accounts params hpool ↦ Chain.proposes_iff hrun hp hpool⟩
  · intro env cranker
    rw [Chain.executes_iff hrun hp]
    refine and_congr_right fun _ ↦ ?_
    simp only [Timelock.adopts_iff hlock]
    constructor
    · rintro ⟨_, earlier, value, time, hmoves, htime, -⟩
      obtain ⟨before, proposal, hlast, hseen⟩ := exists_lastOf hmoves
      obtain ⟨accounts, params, haction, -, -, rfl⟩ := Input.move_eq_propose.mp hseen
      exact ⟨before, proposal, accounts, params, hlast, haction, htime⟩
    · rintro ⟨earlier, proposal, accounts, params, hlast, haction, htime⟩
      exact ⟨_, _, _, _, hmove hlast haction, htime, rfl⟩
  · intro env cranker s' earlier proposal accounts params hstep hlast haction
    have hseen := Chain.step_seenAs p hstep
    have hadopt : Input.move p ⟨env, .pool (.executeParams ⟨cranker, p⟩)⟩ =
        some (.adopt env.now.toInt) := if_pos rfl
    rw [hadopt, Chain.timelock_eq hp] at hseen
    obtain ⟨before, value, time, hmoves, -, hnext⟩ := (Timelock.adopts_iff hlock _ _).mp hseen
    obtain ⟨-, hsame⟩ := List.append_singleton_inj.mp (hmoves.symm.trans (hmove hlast haction))
    obtain ⟨rfl, -⟩ := Timelock.Move.propose.inj hsame
    exact hnext

/-- On localnet a stranger executes the proposal as soon as its day is over, and not before. -/
theorem governance_history_exact_localnet : ∃ s ps s',
    Chain.run Localnet.runtime (Localnet.opening ++ [Localnet.proposal]) = .ok s ∧
    s.pools.lookup Localnet.pool = some ps ∧
    Chain.step Localnet.runtime Localnet.execution s = .ok s' ∧
    (∀ s', Chain.step Localnet.runtime (Localnet.plain (Localnet.t₀ + 100 + 86399)
      (.pool (.executeParams ⟨Localnet.cranker, Localnet.pool⟩))) s ≠ .ok s') ∧
    s'.timelock Localnet.pool = some ⟨86400, Localnet.proposedParams.riskParams, none⟩ := by
  obtain ⟨s, ps, hrun, hp, htest⟩ := Localnet.reaches_iff.mp
    (show Localnet.reaches (Localnet.opening ++ [Localnet.proposal]) (fun s ps ↦
      ps.pool.timelockSeconds = 86400 ∧ s.pools.lookup Localnet.cranker = none) = true by
      decide +kernel)
  obtain ⟨htimelock, hcranker⟩ := of_decide_eq_true htest
  obtain ⟨-, hexecutes, hadopts, -⟩ := governance_history_exact hrun hp
  have hproposes : (Localnet.proposal.move Localnet.pool).isSome = true := rfl
  have hlast : LastOf (fun input : Input ↦ (input.move Localnet.pool).isSome)
      (Localnet.opening ++ [Localnet.proposal]) Localnet.opening Localnet.proposal :=
    LastOf.now Localnet.opening hproposes
  have htime : Localnet.proposal.env.now.toInt + ps.pool.timelockSeconds.toInt =
      (Localnet.t₀ + 100 + 86400).toInt := by
    rw [htimelock]
    decide
  obtain ⟨s', hstep⟩ := (hexecutes Localnet.execution.env Localnet.cranker).mpr
    ⟨hcranker, Localnet.opening, Localnet.proposal, _, _, hlast, rfl, htime.le⟩
  refine ⟨s, ps, s', hrun, hp, hstep, ?_, ?_⟩
  · intro early hearly
    obtain ⟨-, earlier, proposal, _, _, hother, -, hready⟩ :=
      (hexecutes _ Localnet.cranker).mp ⟨early, hearly⟩
    obtain ⟨-, rfl⟩ := hlast.unique hother
    rw [htime] at hready
    exact absurd hready (by decide)
  · rw [hadopts _ _ _ _ _ _ _ hstep hlast rfl, htimelock]
    rfl

end CredMesh
