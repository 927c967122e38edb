import CredMesh.Safety.Timelock

/-!
# The percentage bound under governance

`init_pool` refuses a `max_advance_pct_bps` above one. A proposal carries the same parameter, and
neither the proposal nor its execution looks at it, so the bound lasts exactly as long as governance
adopts nothing else.
-/

namespace CredMesh

open Outcome Escrow Execution

/-- The check of `init_pool`. -/
def Escrow.RiskParams.PctBounded (params : RiskParams) : Prop :=
  params.maxAdvancePctBps.toUInt64 ≤ bpsDenominator

instance (params : RiskParams) : Decidable params.PctBounded :=
  inferInstanceAs (Decidable (_ ≤ _))

/-- After the inputs `part`, the input executes the parameters on the pool: they are those of the
last proposal made for it. -/
structure Adopts (p : Pubkey) (part : List Input) (input : Input) (params : PendingParams) :
    Prop where
  executes : ∃ accounts, input.action = .pool (.executeParams accounts) ∧ accounts.pool = p
  proposed : ∃ earlier proposal accounts,
    LastOf (fun input ↦ input.action.Governs p) part earlier proposal ∧
    proposal.action = .pool (.proposeParams accounts params)

/-- The parameters of the pool, if it exists, are bounded. -/
def Chain.PctBounded (p : Pubkey) (s : Chain) : Prop :=
  ∀ ps, s.pools.lookup p = some ps → ps.pool.riskParams.PctBounded

/-- The input executes only bounded parameters on the pool. -/
def Chain.ExecutesBounded (p : Pubkey) (s : Chain) (input : Input) : Prop :=
  ∀ ps, s.pools.lookup p = some ps → ∀ accounts pending,
    input.action = .pool (.executeParams accounts) → accounts.pool = p →
    ps.pool.pendingParams = some pending → pending.riskParams.PctBounded

theorem Escrow.initPool_pctBounded {rt : Runtime} {accounts : InitPool} {params : InitPoolParams}
    {t : Spl.TokenLedger} {effect : Effect} (h : initPool rt accounts params t = .ok effect) :
    effect.state.pool.riskParams.PctBounded := by
  have hstate := (initPool_effect h).1
  simp only [initPool, bind_eq_ok, require_eq_ok] at h
  obtain ⟨-, -, -, -, -, -, -, -, -, hbounded, -⟩ := h
  rw [hstate]
  exact hbounded

section Run

variable {rt : Runtime} {trace : List Input} {s : Chain} {p : Pubkey}

/-- A step keeps the bound exactly if what it executes meets it. -/
theorem Chain.step_pctBounded_iff {input : Input} {s' : Chain} (hbounded : s.PctBounded p)
    (hstep : step rt input s = .ok s') : s'.PctBounded p ↔ s.ExecutesBounded p input := by
  cases hp : s.pools.lookup p with
  | none =>
      refine iff_of_true (fun ps' hp' ↦ ?_) (fun ps hfound ↦ ?_)
      · obtain ⟨_, _, _, -, -, heffect, rfl, -⟩ := step_new hstep hp hp'
        exact initPool_pctBounded heffect
      · rw [hp] at hfound
        cases hfound
  | some ps =>
      obtain ⟨ps', hp', hchange⟩ := step_change hstep hp
      have hbefore := hbounded ps hp
      simp only [PctBounded, hp', ExecutesBounded, hp, Option.some_inj, forall_eq']
      cases hchange with
      | elsewhere helsewhere =>
          refine iff_of_true hbefore fun accounts pending haction hpool _ ↦ ?_
          exact absurd ⟨_, haction, hpool⟩ helsewhere
      | @handled ix effect haction hpool _ heffect =>
          simp only [haction, Action.pool.injEq]
          cases PoolInstruction.handler_params heffect with
          | propose _ _ _ _ hparams _ =>
              rw [hparams]
              exact iff_of_true hbefore (by simp)
          | @execute accounts pending _ hfound _ hparams _ =>
              rw [hparams, hfound]
              constructor
              · intro hpending _ other _ _ hother
                rwa [← Option.some.inj hother]
              · intro hexecutes
                exact hexecutes accounts pending rfl hpool rfl
          | kept _ hexecute hparams _ =>
              rw [hparams]
              exact iff_of_true hbefore fun accounts _ hix ↦ absurd hix (hexecute accounts)

/-- What an execution finds pending is what it adopts. -/
theorem Chain.executesBounded_iff {part : List Input} {input : Input} {s' : Chain}
    (hrun : run rt part = .ok s) (hstep : step rt input s = .ok s') :
    s.ExecutesBounded p input ↔
      ∀ params, Adopts p part input params → params.riskParams.PctBounded := by
  constructor
  · rintro hbounded params ⟨⟨accounts, haction, rfl⟩, earlier, proposal, proposer, hlast,
      hproposal⟩
    obtain ⟨ps, effect, hp, -, heffect, -⟩ := step_handled hstep haction
    cases PoolInstruction.handler_params heffect with
    | @execute _ pending _ hfound _ _ _ =>
        obtain ⟨_, _, _, hproposed⟩ := run_proposed hrun hp hfound
        obtain ⟨-, rfl⟩ := hlast.unique hproposed.last
        obtain ⟨_, found, hfound', -, hsame⟩ := hproposed.action
        obtain ⟨-, rfl⟩ : _ ∧ params = found := by simpa [hproposal] using hfound'
        rw [hsame]
        exact hbounded ps hp accounts pending haction rfl hfound
    | kept _ hexecute _ _ => exact absurd rfl (hexecute accounts)
  · intro hadopts ps hp accounts pending haction hpool hfound
    obtain ⟨earlier, proposal, _, hproposed⟩ := run_proposed hrun hp hfound
    obtain ⟨proposer, params, hproposal, -, hsame⟩ := hproposed.action
    rw [← hsame]
    exact hadopts params ⟨⟨accounts, haction, hpool⟩, earlier, proposal, proposer, hproposed.last,
      hproposal⟩

end Run

variable {rt : Runtime} {trace : List Input} {s : Chain}

/-- Along a run, the `max_advance_pct_bps` of a pool stays at most one in every state exactly if
every proposal that is adopted carries no more. -/
theorem config_bound_iff (hrun : Chain.run rt trace = .ok s) (p : Pubkey) :
    (∀ part state ps, part <+: trace → Chain.run rt part = .ok state →
      state.pools.lookup p = some ps →
      ps.pool.maxAdvancePctBps.toUInt64 ≤ bpsDenominator) ↔
    ∀ part input params, part ++ [input] <+: trace → Adopts p part input params →
      params.maxAdvancePctBps.toUInt64 ≤ bpsDenominator := by
  have hstates := forall_states_iff (Chain.PctBounded p) (Chain.ExecutesBounded p)
    (fun ps hp ↦ by simp [genesis] at hp)
    (fun _ _ _ _ _ hbounded hstep ↦ Chain.step_pctBounded_iff hbounded hstep) hrun
  constructor
  · intro hbounded part input params hpart hadopts
    obtain ⟨state, hstate⟩ := run_of_isPrefix ((List.prefix_append part [input]).trans hpart) hrun
    obtain ⟨next, -, hstep⟩ := step_of_isPrefix hpart hrun hstate
    have hexecutes := hstates.mp (fun part state hpart hstate ps hp ↦
      hbounded part state ps hpart hstate hp) part input state hpart hstate
    exact (Chain.executesBounded_iff hstate hstep).mp hexecutes params hadopts
  · intro hadopts part state ps hpart hstate hp
    refine hstates.mpr (fun part input state hpart hstate ↦ ?_) part state hpart hstate ps hp
    obtain ⟨next, -, hstep⟩ := step_of_isPrefix hpart hrun hstate
    exact (Chain.executesBounded_iff hstate hstep).mpr fun params hadopted ↦
      hadopts part input params hpart hadopted

/-- Localnet's reform keeps the bound. -/
theorem config_bound_iff_localnet : ∃ s ps,
    Chain.run Localnet.runtime Localnet.reformed = .ok s ∧
    s.pools.lookup Localnet.pool = some ps ∧
    ps.pool.maxAdvancePctBps.toUInt64 ≤ bpsDenominator := by
  obtain ⟨s, ps, hrun, hp, -⟩ := Localnet.reaches_iff.mp
    (show Localnet.reaches Localnet.reformed (fun _ _ ↦ true) = true by decide +kernel)
  refine ⟨s, ps, hrun, hp, ?_⟩
  refine (config_bound_iff hrun Localnet.pool).mpr ?_ _ s ps (List.prefix_refl _) hrun hp
  intro part input params hpart hadopts
  have hproposals : ∀ input ∈ Localnet.reformed, ∀ accounts params,
      input.action = .pool (.proposeParams accounts params) →
      params = Localnet.proposedParams := by
    simp [Localnet.reformed, Localnet.opening, Localnet.plain, Localnet.proposal,
      Localnet.execution]
  obtain ⟨earlier, proposal, accounts, hlast, hproposal⟩ := hadopts.proposed
  have hmem : proposal ∈ Localnet.reformed := by
    refine ((hlast.isPrefix.trans (List.prefix_append part [input])).trans hpart).subset ?_
    simp
  rw [hproposals proposal hmem accounts params hproposal]
  decide

namespace Localnet

open Client

/-- Governance proposes twice the whole. -/
def excessiveProposal : Input where
  env := ⟨t₀ + 100, companioned (squadsInstruction vaultTransactionExecute governance)⟩
  action := .pool (.proposeParams ⟨cranker, governance, pool⟩
    { proposedParams with maxAdvancePctBps := 20000 })

end Localnet

/-- The proposal of 20000 basis points is accepted and, a day later, executed. -/
theorem excessive_proposal_adopted : ∃ s ps,
    Chain.run Localnet.runtime
      (Localnet.opening ++ [Localnet.excessiveProposal, Localnet.execution]) = .ok s ∧
    s.pools.lookup Localnet.pool = some ps ∧
    ¬ ps.pool.maxAdvancePctBps.toUInt64 ≤ bpsDenominator := by
  obtain ⟨s, ps, hrun, hp, htest⟩ := Localnet.reaches_iff.mp
    (show Localnet.reaches
      (Localnet.opening ++ [Localnet.excessiveProposal, Localnet.execution])
      (fun _ ps ↦ !decide (ps.pool.maxAdvancePctBps.toUInt64 ≤ bpsDenominator)) = true by
      decide +kernel)
  exact ⟨s, ps, hrun, hp, by simpa using htest⟩

end CredMesh
