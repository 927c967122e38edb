import CredMesh.Chain.Instructions

/-!
# The books of one pool

What a run does to a single pool, apart from everything else on the chain. The books are the
accounts of the pool, the balance of its vault and the supply of its share mint. `PoolStep` lists
all that an accepted instruction can do to them; `PoolRun` is the history of a pool from its
creation on. The chain is shown to refine this model in `CredMesh.Chain.Custody`.
-/

namespace CredMesh

open Escrow Registry

structure Books where
  state : PoolState
  vault : ℕ
  supply : ℕ

namespace TokenInstruction

/-- The tokens that a direct call of the token program brings into an account. -/
def sentTo (account : Pubkey) : TokenInstruction → ℕ
  | mintTo _ destination _ amount => if destination = account then amount.toNat else 0
  | transfer _ _ destination _ amount _ => if destination = account then amount.toNat else 0
  | _ => 0

/-- The tokens of a mint that a direct call of the token program burns. -/
def burnedOf (mint : Pubkey) : TokenInstruction → ℕ
  | burn _ burnedMint _ amount => if burnedMint = mint then amount.toNat else 0
  | _ => 0

def closes (account : Pubkey) : TokenInstruction → Bool
  | closeAccount address _ => address = account
  | _ => false

end TokenInstruction

namespace Action

def directlySent (account : Pubkey) : Action → ℕ
  | token ix => ix.sentTo account
  | _ => 0

def directlyBurned (mint : Pubkey) : Action → ℕ
  | token ix => ix.burnedOf mint
  | _ => 0

/-- The action closes a token account. -/
def closes (account : Pubkey) : Action → Bool
  | token ix => ix.closes account
  | _ => false

/-- The fees that the action skims from a pool. -/
def skimmed (poolKey : Pubkey) : Action → ℕ
  | pool (.skimProtocolFees accounts amount) => if accounts.pool = poolKey then amount.toNat else 0
  | _ => 0

end Action

/-- A quantity of the actions, added up over a trace. -/
def totalOver (quantity : Action → ℕ) (trace : List Input) : ℕ :=
  (trace.map fun input ↦ quantity input.action).sum

theorem totalOver_snoc (quantity : Action → ℕ) (trace : List Input) (input : Input) :
    totalOver quantity (trace ++ [input]) =
      totalOver quantity trace + quantity input.action := by
  simp [totalOver]

/-- Everything sent to an account by direct calls of the token program. A closed account was empty,
and one opened later at its address is another account. -/
def totalSent (account : Pubkey) (trace : List Input) : ℕ :=
  trace.foldl (fun sent input ↦
    if input.action.closes account then 0 else sent + input.action.directlySent account) 0

/-- Everything burned of a mint by direct calls of the token program. -/
def totalBurned (mint : Pubkey) (trace : List Input) : ℕ :=
  totalOver (Action.directlyBurned mint) trace

/-- Everything skimmed from a pool. -/
def totalSkimmed (poolKey : Pubkey) (trace : List Input) : ℕ :=
  totalOver (Action.skimmed poolKey) trace

section Totals

variable (key : Pubkey) (trace : List Input) (input : Input)

theorem totalSent_snoc : totalSent key (trace ++ [input]) =
    if input.action.closes key then 0 else totalSent key trace + input.action.directlySent key := by
  rw [totalSent, List.foldl_append]
  rfl

theorem totalSent_snoc_open (h : input.action.closes key = false) :
    totalSent key (trace ++ [input]) = totalSent key trace + input.action.directlySent key := by
  rw [totalSent_snoc, h, if_neg Bool.false_ne_true]

@[simp]
theorem totalBurned_snoc : totalBurned key (trace ++ [input]) =
    totalBurned key trace + input.action.directlyBurned key :=
  totalOver_snoc _ trace input

@[simp]
theorem totalSkimmed_snoc : totalSkimmed key (trace ++ [input]) =
    totalSkimmed key trace + input.action.skimmed key :=
  totalOver_snoc _ trace input

end Totals

/-- What a payment to the treasury leaves in the vault: nothing, unless they are one account. -/
def Escrow.Pool.looped (pool : Pool) (amount : ℕ) : ℕ :=
  if pool.usdcVault = pool.treasuryAta then amount else 0

/-- All that an accepted action can do to the books of a pool. -/
inductive PoolStep (rt : Runtime) (r : RegistryState) (env : Env) (p : Pubkey) :
    Action → Books → Books → Prop
  | deposit {b : Books} {accounts : Deposit} {amount shares totalAssets totalShares : UInt64}
      (hpool : accounts.pool = p) (hpositive : 0 < amount)
      (hshares : previewDeposit amount b.state.pool.totalAssets b.state.pool.totalShares =
        .ok shares)
      (hassets : totalAssets.toNat = b.state.pool.totalAssets.toNat + amount.toNat)
      (htotal : totalShares.toNat = b.state.pool.totalShares.toNat + shares.toNat) :
      PoolStep rt r env p (.pool (.deposit accounts amount)) b
        ⟨{ b.state with pool := { b.state.pool with totalAssets, totalShares } },
          b.vault + amount.toNat, b.supply + shares.toNat⟩
  | withdraw {b : Books} {accounts : Withdraw} {shares assets totalAssets totalShares : UInt64}
      {vault supply : ℕ} (hpool : accounts.pool = p)
      (hassets : previewRedeem shares b.state.pool.totalAssets b.state.pool.totalShares =
        .ok assets)
      (hbooked : totalAssets.toNat + assets.toNat = b.state.pool.totalAssets.toNat)
      (htotal : totalShares.toNat + shares.toNat = b.state.pool.totalShares.toNat)
      (hvault : vault + assets.toNat = b.vault) (hsupply : supply + shares.toNat = b.supply) :
      PoolStep rt r env p (.pool (.withdraw accounts shares)) b
        ⟨{ b.state with pool := { b.state.pool with totalAssets, totalShares } }, vault, supply⟩
  | issue {b : Books} {accounts : RequestAdvance} {receivableId : Bytes 32} {amount : UInt64}
      {nonce : Bytes 16} {attestation : Attestation} {ledger : AgentIssuanceLedger}
      {advance : Advance} {s' : PoolState} {vault : ℕ} (hpool : accounts.pool = p)
      (hissues : Issues rt env accounts receivableId amount nonce r b.state attestation ledger
        advance s')
      (hvault : vault + amount.toNat = b.vault) :
      PoolStep rt r env p (.pool (.requestAdvance accounts receivableId amount nonce)) b
        ⟨s', vault, b.supply⟩
  | settle {b : Books} {accounts : ClaimAndSettle} {paymentAmount : UInt64} {advance : Advance}
      {consumed : ConsumedPayment} {ledger : AgentIssuanceLedger} {split : Waterfall}
      {s' : PoolState} (hpool : accounts.pool = p)
      (hsettles : Settles rt env accounts paymentAmount b.state advance consumed ledger split s') :
      PoolStep rt r env p (.pool (.claimAndSettle accounts paymentAmount)) b
        ⟨s', b.vault + split.lpCut.toNat + b.state.pool.looped split.protocolCut.toNat, b.supply⟩
  | liquidate {b : Books} {accounts : Liquidate} {advance : Advance}
      {consumed : ConsumedPayment} {ledger : AgentIssuanceLedger} {s' : PoolState}
      (hpool : accounts.pool = p)
      (hliquidates : Liquidates rt env accounts b.state advance consumed ledger s') :
      PoolStep rt r env p (.pool (.liquidate accounts)) b ⟨s', b.vault, b.supply⟩
  | propose {b : Books} {accounts : ProposeParams} {params : PendingParams}
      {executeAfter : Int64} (hpool : accounts.pool = p)
      (hvalid : params.feeCurve.validate = .ok ())
      (htime : executeAfter.toInt = env.now.toInt + b.state.pool.timelockSeconds.toInt) :
      PoolStep rt r env p (.pool (.proposeParams accounts params)) b
        ⟨{ b.state with pool :=
          { b.state.pool with pendingParams := some { params with executeAfter } } },
          b.vault, b.supply⟩
  | execute {b : Books} {accounts : ExecuteParams} {pending : PendingParams}
      (hpool : accounts.pool = p) (hpending : b.state.pool.pendingParams = some pending)
      (htime : pending.executeAfter ≤ env.now) :
      PoolStep rt r env p (.pool (.executeParams accounts)) b
        ⟨{ b.state with pool := { b.state.pool with
            feeCurve := pending.feeCurve
            maxAdvancePctBps := pending.maxAdvancePctBps
            maxAdvanceAbs := pending.maxAdvanceAbs
            agentWindowCap := pending.agentWindowCap
            pendingParams := none } }, b.vault, b.supply⟩
  | skim {b : Books} {accounts : SkimProtocolFees} {amount accruedProtocolFees : UInt64}
      {vault : ℕ} (hpool : accounts.pool = p)
      (haccrued : accruedProtocolFees.toNat + amount.toNat =
        b.state.pool.accruedProtocolFees.toNat)
      (hvault : vault + amount.toNat = b.vault + b.state.pool.looped amount.toNat) :
      PoolStep rt r env p (.pool (.skimProtocolFees accounts amount)) b
        ⟨{ b.state with pool := { b.state.pool with accruedProtocolFees } }, vault, b.supply⟩
  /-- Everything else: other pools, the registry, and direct calls of the token program. -/
  | outside {b : Books} {action : Action} {supply : ℕ} (helsewhere : ¬ action.IsOn p)
      (hopen : action.closes b.state.pool.usdcVault = false)
      (hsupply : supply + action.directlyBurned b.state.pool.shareMint = b.supply) :
      PoolStep rt r env p action b
        ⟨b.state, b.vault + action.directlySent b.state.pool.usdcVault, supply⟩

/-- The history of a pool: what led to its creation does not touch it, and every later action is a
step of its books. -/
inductive PoolRun (rt : Runtime) (p : Pubkey) : List Input → Books → Prop
  | create {before : List Input} {input : Input} {accounts : InitPool} {params : InitPoolParams}
      (haction : input.action = .initPool accounts params) (hpool : accounts.pool = p)
      (hsent : totalSent accounts.usdcVault before = 0)
      (hburned : totalBurned accounts.shareMint before = 0)
      (helsewhere : ∀ earlier ∈ before, ¬ earlier.action.IsOn p) :
      PoolRun rt p (before ++ [input])
        ⟨⟨initialPool (rt.poolPda accounts.assetMint).2 accounts params, ∅, ∅, ∅, ∅⟩, 0, 0⟩
  | step {trace : List Input} {input : Input} {r : RegistryState} {b b' : Books}
      (hrun : PoolRun rt p trace b) (hstep : PoolStep rt r input.env p input.action b b') :
      PoolRun rt p (trace ++ [input]) b'

namespace PoolStep

variable {rt : Runtime} {r : RegistryState} {env : Env} {p : Pubkey} {action : Action}
  {b b' : Books}

/-- The vault is never closed. -/
theorem closes_eq_false (h : PoolStep rt r env p action b b') :
    action.closes b.state.pool.usdcVault = false := by
  cases h with
  | outside _ hopen _ => exact hopen
  | _ => rfl

/-- The addresses and keys of a pool never change. -/
theorem identity (h : PoolStep rt r env p action b b') :
    b'.state.pool.assetMint = b.state.pool.assetMint ∧
    b'.state.pool.usdcVault = b.state.pool.usdcVault ∧
    b'.state.pool.shareMint = b.state.pool.shareMint ∧
    b'.state.pool.treasuryAta = b.state.pool.treasuryAta ∧
    b'.state.pool.governance = b.state.pool.governance ∧
    b'.state.pool.bump = b.state.pool.bump := by
  cases h with
  | issue _ hissues _ =>
      dsimp only
      rw [hissues.pool]
      exact ⟨rfl, rfl, rfl, rfl, rfl, rfl⟩
  | settle _ hsettles =>
      dsimp only
      rw [hsettles.pool]
      exact ⟨rfl, rfl, rfl, rfl, rfl, rfl⟩
  | liquidate _ hliquidates =>
      dsimp only
      rw [hliquidates.pool]
      exact ⟨rfl, rfl, rfl, rfl, rfl, rfl⟩
  | _ => exact ⟨rfl, rfl, rfl, rfl, rfl, rfl⟩

end PoolStep

end CredMesh
