import CredMesh.Chain.Custody
import CredMesh.Chain.Localnet
import CredMesh.Foundation.History

/-!
# The timelock

The parameters of a pool change only when a proposal is executed. The pool keeps no more than the
pending proposal; the history shows that it is the last one made, that it passed the governance
gate, that it waited for the timelock of the pool, whatever time it named itself, and that it is
used up when it is executed.
-/

namespace CredMesh

open Escrow IxIntrospection Execution

/-- The action proposes or executes parameters of the pool. -/
def Action.Governs (p : Pubkey) : Action → Prop
  | .pool (.proposeParams accounts _) => accounts.pool = p
  | .pool (.executeParams accounts) => accounts.pool = p
  | _ => False

theorem Action.not_governs_of_not_isOn {p : Pubkey} {action : Action} (h : ¬ action.IsOn p) :
    ¬ action.Governs p := by
  unfold Action.Governs
  split
  case h_1 accounts params => exact fun heq ↦ h ⟨_, rfl, heq⟩
  case h_2 accounts => exact fun heq ↦ h ⟨_, rfl, heq⟩
  case h_3 => exact id

/-- The proposal that a pool waits to adopt is the last one of its history: it passed the gate for
the governance vault and may be executed once the timelock has run. -/
structure Proposed (rt : Runtime) (p : Pubkey) (pending : PendingParams)
    (trace earlier : List Input) (proposal : Input) (ps : PoolState) : Prop where
  last : LastOf (fun input ↦ input.action.Governs p) trace earlier proposal
  action : ∃ accounts params, proposal.action = .pool (.proposeParams accounts params) ∧
    accounts.pool = p ∧ params.riskParams = pending.riskParams
  found : ∃ before, Chain.run rt earlier = .ok before ∧ before.pools.lookup p = some ps
  gate : requireSquadsGovernanceCpi proposal.env.sysvar ps.pool.governance = .ok ()
  wait : pending.executeAfter.toInt = proposal.env.now.toInt + ps.pool.timelockSeconds.toInt

namespace Proposed

variable {rt : Runtime} {p : Pubkey} {pending : PendingParams} {trace earlier : List Input}
  {proposal input : Input} {ps : PoolState}

theorem snoc (h : Proposed rt p pending trace earlier proposal ps)
    (hother : ¬ input.action.Governs p) :
    Proposed rt p pending (trace ++ [input]) earlier proposal ps :=
  ⟨h.last.snoc hother, h.action, h.found, h.gate, h.wait⟩

end Proposed

namespace Chain

variable {rt : Runtime} {trace : List Input} {s : Chain} {p : Pubkey} {ps : PoolState}

/-- In every reachable state a pending proposal is the last one made. -/
theorem run_proposed {pending : PendingParams} (hrun : run rt trace = .ok s)
    (hp : s.pools.lookup p = some ps) (hpending : ps.pool.pendingParams = some pending) :
    ∃ earlier proposal ps₀, Proposed rt p pending trace earlier proposal ps₀ := by
  refine pool_induction (motive := fun trace ps ↦ ps.pool.pendingParams = some pending →
    ∃ earlier proposal ps₀, Proposed rt p pending trace earlier proposal ps₀) ?_ ?_ ?_ hrun hp
    hpending
  · intro trace input accounts params t effect heffect hpending
    rw [(initPool_effect heffect).1] at hpending
    cases hpending
  · intro trace input ps helsewhere ih hpending
    obtain ⟨earlier, proposal, ps₀, hproposed⟩ := ih hpending
    have hother := Action.not_governs_of_not_isOn helsewhere
    exact ⟨earlier, proposal, ps₀, hproposed.snoc hother⟩
  · intro trace input s ps ix effect hrun hp haction hpool heffect ih hpending
    cases PoolInstruction.handler_params heffect with
    | @propose accounts params _ _ hgate _ htime hsame _ hwaiting =>
        obtain rfl : _ = pending := by simpa [hpending] using hwaiting.symm
        refine ⟨trace, input, ps, .now trace ?_, ?_, ⟨s, hrun, hp⟩, hgate, htime⟩
        · rw [haction]
          exact hpool
        · exact ⟨accounts, params, haction, hpool, hsame.symm⟩
    | execute _ _ _ hnone => simp [hpending] at hnone
    | kept hpropose hexecute _ hsame =>
        rw [hsame] at hpending
        obtain ⟨earlier, proposal, ps₀, hproposed⟩ := ih hpending
        refine ⟨earlier, proposal, ps₀, hproposed.snoc ?_⟩
        rw [haction]
        unfold Action.Governs
        split
        case h_1 accounts params heq => exact absurd (Action.pool.inj heq) (hpropose _ _)
        case h_2 accounts heq => exact absurd (Action.pool.inj heq) (hexecute _)
        case h_3 => exact id

/-- The identity of a pool is the same at all points of a run. -/
theorem run_identity {part : List Input} {before : Chain} {ps₀ : PoolState}
    (hpart : part <+: trace) (hrun : run rt trace = .ok s) (hbefore : run rt part = .ok before)
    (hp₀ : before.pools.lookup p = some ps₀) :
    ∃ ps, s.pools.lookup p = some ps ∧ ps.pool.identity = ps₀.pool.identity := by
  refine invariant_of_isPrefix (motive := fun state ↦ ∃ ps, state.pools.lookup p = some ps ∧
    ps.pool.identity = ps₀.pool.identity) hpart hrun hbefore ⟨ps₀, hp₀, rfl⟩ ?_
  intro state input next hstate hstep
  obtain ⟨ps, hp, hidentity⟩ := hstate
  obtain ⟨ps', hp', hchange⟩ := step_change hstep hp
  refine ⟨ps', hp', ?_⟩
  cases hchange with
  | elsewhere _ => exact hidentity
  | handled _ _ _ heffect => rw [PoolInstruction.handler_identity heffect, hidentity]

/-- Only an execution changes the parameters. -/
theorem step_riskParams {input : Input} {s' : Chain} (h : step rt input s = .ok s')
    (hp : s.pools.lookup p = some ps) :
    ∃ ps', s'.pools.lookup p = some ps' ∧
      (ps'.pool.riskParams = ps.pool.riskParams ∨
        ∃ accounts, input.action = .pool (.executeParams accounts) ∧ accounts.pool = p) := by
  obtain ⟨ps', hp', hchange⟩ := step_change h hp
  refine ⟨ps', hp', ?_⟩
  cases hchange with
  | elsewhere _ => exact .inl rfl
  | handled haction hpool _ heffect =>
      cases PoolInstruction.handler_params heffect with
      | propose _ _ _ _ hparams _ => exact .inl hparams
      | @execute accounts _ _ _ _ _ _ => exact .inr ⟨accounts, haction, hpool⟩
      | kept _ _ hparams _ => exact .inl hparams

end Chain

variable {rt : Runtime} {trace : List Input} {s : Chain}

/-- In every run, the parameters of a pool change only when a proposal is executed. The proposal is
the last one made, it passed the gate for the governance vault, the timelock of the pool has run
since, and it is executed once. The identity of a pool never changes. -/
theorem timelock_enforced (hrun : Chain.run rt trace = .ok s) (p : Pubkey) :
    (∀ part input before next ps ps', part ++ [input] <+: trace →
      Chain.run rt part = .ok before → Chain.run rt (part ++ [input]) = .ok next →
      before.pools.lookup p = some ps → next.pools.lookup p = some ps' →
      ps'.pool.riskParams ≠ ps.pool.riskParams →
      ∃ accounts, input.action = .pool (.executeParams accounts) ∧ accounts.pool = p) ∧
    (∀ part input accounts, part ++ [input] <+: trace →
      input.action = .pool (.executeParams accounts) → accounts.pool = p →
      ∃ earlier proposal proposer params before next ps ps',
        LastOf (fun input ↦ input.action.Governs p) part earlier proposal ∧
        proposal.action = .pool (.proposeParams proposer params) ∧ proposer.pool = p ∧
        Chain.run rt earlier = .ok before ∧ before.pools.lookup p = some ps ∧
        requireSquadsGovernanceCpi proposal.env.sysvar ps.pool.governance = .ok () ∧
        Chain.run rt (part ++ [input]) = .ok next ∧ next.pools.lookup p = some ps' ∧
        ps'.pool.riskParams = params.riskParams ∧
        proposal.env.now.toInt + ps'.pool.timelockSeconds.toInt ≤ input.env.now.toInt) ∧
    (∀ earlier proposal first second a b, first ++ [a] <+: trace → second ++ [b] <+: trace →
      a.action.Governs p → b.action.Governs p →
      LastOf (fun input ↦ input.action.Governs p) first earlier proposal →
      LastOf (fun input ↦ input.action.Governs p) second earlier proposal → first = second) ∧
    (∀ part before ps, part <+: trace → Chain.run rt part = .ok before →
      before.pools.lookup p = some ps →
      ∃ ps', s.pools.lookup p = some ps' ∧ ps'.pool.identity = ps.pool.identity) := by
  refine ⟨?_, ?_, ?_, ?_⟩
  · intro part input before next ps ps' hpart hbefore hnext hp hp' hchanged
    obtain ⟨_, hnext', hstep⟩ := step_of_isPrefix hpart hrun hbefore
    obtain rfl : next = _ := Except.ok.inj (hnext.symm.trans hnext')
    obtain ⟨found, hfound, hkept | hexecutes⟩ := Chain.step_riskParams hstep hp
    · obtain rfl : found = ps' := by simpa [hp'] using hfound.symm
      exact absurd hkept hchanged
    · exact hexecutes
  · rintro part input accounts hpart haction rfl
    obtain ⟨before, next, hbefore, hstep, hnext⟩ := exists_step hpart hrun
    obtain ⟨ps, effect, hp, hp', heffect, -⟩ := Chain.step_handled hstep haction
    cases PoolInstruction.handler_params heffect with
    | @execute _ pending _ hfound htime hparams _ =>
        obtain ⟨earlier, proposal, ps₀, hproposed⟩ := Chain.run_proposed hbefore hp hfound
        obtain ⟨proposer, params, hproposal, hpool, hsame⟩ := hproposed.action
        obtain ⟨origin, horigin, hp₀⟩ := hproposed.found
        obtain ⟨found, hfound', hidentity⟩ := Chain.run_identity
          ((List.prefix_append earlier [proposal]).trans hproposed.last.isPrefix) hbefore horigin
          hp₀
        obtain rfl : found = ps := by simpa [hp] using hfound'.symm
        have htimelock : effect.state.pool.timelockSeconds = ps₀.pool.timelockSeconds := by
          have hkept := (PoolInstruction.handler_identity heffect).trans hidentity
          exact congrArg PoolIdentity.timelockSeconds hkept
        have hwaited := Int64.le_iff_toInt_le.mp htime
        rw [hproposed.wait, ← htimelock] at hwaited
        exact ⟨earlier, proposal, proposer, params, origin, next, ps₀, effect.state,
          hproposed.last, hproposal, hpool, horigin, hp₀, hproposed.gate, hnext, hp',
          hparams.trans hsame.symm, hwaited⟩
    | kept _ hexecute _ _ => exact absurd rfl (hexecute accounts)
  · intro earlier proposal first second a b hfirst hsecond ha hb hlast hlast'
    exact hlast.part_unique hfirst hsecond ha hb hlast'
  · intro part before ps hpart hbefore hp
    exact Chain.run_identity hpart hrun hbefore hp

namespace Localnet

open Client

/-- A higher cap on issuance, proposed for immediate execution. -/
def proposedParams : PendingParams where
  feeCurve
  maxAdvancePctBps := 3000
  maxAdvanceAbs := 200000000
  agentWindowCap := 300000000
  executeAfter := 0

def proposal : Input where
  env := ⟨t₀ + 100, companioned (squadsInstruction vaultTransactionExecute governance)⟩
  action := .pool (.proposeParams ⟨cranker, governance, pool⟩ proposedParams)

/-- The execution, a day later. -/
def execution : Input := plain (t₀ + 100 + 86400) (.pool (.executeParams ⟨cranker, pool⟩))

def reformed : List Input := opening ++ [proposal, execution]

end Localnet

/-- The execution on localnet waited for a day. -/
theorem timelock_enforced_localnet : ∃ s ps,
    Chain.run Localnet.runtime Localnet.reformed = .ok s ∧
    s.pools.lookup Localnet.pool = some ps ∧
    ∃ (earlier : List Input) (proposal : Input) (proposer : ProposeParams)
      (params : PendingParams),
      LastOf (fun input ↦ input.action.Governs Localnet.pool)
        (Localnet.opening ++ [Localnet.proposal]) earlier proposal ∧
      proposal.action = .pool (.proposeParams proposer params) ∧
      ps.pool.riskParams = params.riskParams ∧
      proposal.env.now.toInt + ps.pool.timelockSeconds.toInt ≤
        Localnet.execution.env.now.toInt := by
  obtain ⟨s, ps, hrun, hp, -⟩ := Localnet.reaches_iff.mp
    (show Localnet.reaches Localnet.reformed (fun _ _ ↦ true) = true by decide +kernel)
  obtain ⟨-, hexecution, -⟩ := timelock_enforced hrun Localnet.pool
  obtain ⟨earlier, proposal, proposer, params, _, next, _, ps', hlast, hproposal, -, -, -, -, hnext,
    hp', hparams, hwaited⟩ := hexecution (Localnet.opening ++ [Localnet.proposal])
      Localnet.execution _ ⟨[], rfl⟩ rfl rfl
  obtain rfl : s = next := Except.ok.inj (hrun.symm.trans hnext)
  obtain rfl : ps = ps' := by simpa [hp] using hp'
  exact ⟨s, ps, hrun, hp, earlier, proposal, proposer, params, hlast, hproposal, hparams, hwaited⟩

end CredMesh
