import CredMesh.Escrow.Governance
import CredMesh.Escrow.RequestAdvance
import CredMesh.Escrow.Settlement
import CredMesh.Foundation.Execution

/-!
# The system

All pools, the token program and the registry together. A step is one accepted instruction, of
one of the programs, sent by anyone at any time; a run is any interleaving of them. Keys derived
from the escrow sign only from inside it, so no pool appears as the signer of an instruction.
-/

namespace CredMesh

open Outcome Escrow Registry Spl

/-- An escrow instruction on an existing pool. -/
inductive PoolInstruction
  | deposit (accounts : Deposit) (amount : UInt64)
  | withdraw (accounts : Withdraw) (shares : UInt64)
  | requestAdvance (accounts : RequestAdvance) (receivableId : Bytes 32) (amount : UInt64)
      (nonce : Bytes 16)
  | claimAndSettle (accounts : ClaimAndSettle) (paymentAmount : UInt64)
  | liquidate (accounts : Liquidate)
  | proposeParams (accounts : ProposeParams) (params : PendingParams)
  | executeParams (accounts : ExecuteParams)
  | skimProtocolFees (accounts : SkimProtocolFees) (amount : UInt64)
  deriving DecidableEq

namespace PoolInstruction

def pool : PoolInstruction → Pubkey
  | deposit accounts _ => accounts.pool
  | withdraw accounts _ => accounts.pool
  | requestAdvance accounts _ _ _ => accounts.pool
  | claimAndSettle accounts _ => accounts.pool
  | liquidate accounts => accounts.pool
  | proposeParams accounts _ => accounts.pool
  | executeParams accounts => accounts.pool
  | skimProtocolFees accounts _ => accounts.pool

def signer : PoolInstruction → Pubkey
  | deposit accounts _ => accounts.lp
  | withdraw accounts _ => accounts.lp
  | requestAdvance accounts _ _ _ => accounts.agent
  | claimAndSettle accounts _ => accounts.agent
  | liquidate accounts => accounts.cranker
  | proposeParams accounts _ => accounts.cranker
  | executeParams accounts => accounts.cranker
  | skimProtocolFees accounts _ => accounts.cranker

/-- The records of an advance that an instruction names and that have to exist already. -/
def records : PoolInstruction → Option (AdvanceSeeds × AdvanceSeeds × LedgerSeeds)
  | claimAndSettle accounts _ =>
      some (accounts.advance, accounts.consumed, accounts.issuanceLedger)
  | liquidate accounts => some (accounts.advance, accounts.consumed, accounts.issuanceLedger)
  | _ => none

def handler (rt : Runtime) (env : Env) (r : RegistryState) (s : PoolState) (t : TokenLedger) :
    PoolInstruction → Except Error Effect
  | deposit accounts amount => Escrow.deposit accounts amount s t
  | withdraw accounts shares => Escrow.withdraw accounts shares s t
  | requestAdvance accounts receivableId amount nonce =>
      Escrow.requestAdvance rt env accounts receivableId amount nonce r s t
  | claimAndSettle accounts paymentAmount =>
      Escrow.claimAndSettle rt env accounts paymentAmount s t
  | liquidate accounts => Escrow.liquidate rt env accounts s t
  | proposeParams accounts params => Escrow.proposeParams env accounts params s t
  | executeParams accounts => Escrow.executeParams env accounts s t
  | skimProtocolFees accounts amount => Escrow.skimProtocolFees env accounts amount s t

end PoolInstruction

/-- A direct call of the token program. -/
inductive TokenInstruction
  | createMint (address authority : Pubkey) (freezeAuthority : Option Pubkey) (decimals : UInt8)
  | createAccount (address mint owner : Pubkey)
  | mintTo (mint destination authority : Pubkey) (amount : UInt64)
  | transfer (source mint destination authority : Pubkey) (amount : UInt64) (decimals : UInt8)
  | burn (source mint authority : Pubkey) (amount : UInt64)
  | approve (source delegate owner : Pubkey) (amount : UInt64)
  | revoke (source owner : Pubkey)
  | setAuthority (address : Pubkey) (authorityType : AuthorityType) (authority : Pubkey)
      (newAuthority : Option Pubkey)
  | closeAccount (address authority : Pubkey)
  | freezeAccount (address mint authority : Pubkey)
  | thawAccount (address mint authority : Pubkey)
  deriving DecidableEq

namespace TokenInstruction

/-- The key that has to sign. The address of a new account signs for its allocation, or the
associated token program does. -/
def signer : TokenInstruction → Pubkey
  | createMint address _ _ _ => address
  | createAccount address _ _ => address
  | mintTo _ _ authority _ => authority
  | transfer _ _ _ authority _ _ => authority
  | burn _ _ authority _ => authority
  | approve _ _ owner _ => owner
  | revoke _ owner => owner
  | setAuthority _ _ authority _ => authority
  | closeAccount _ authority => authority
  | freezeAccount _ _ authority => authority
  | thawAccount _ _ authority => authority

def handler (t : TokenLedger) : TokenInstruction → Except TokenError TokenLedger
  | createMint address authority freezeAuthority decimals =>
      initializeMint address authority freezeAuthority decimals t
  | createAccount address mint owner => initializeAccount address mint owner t
  | mintTo mint destination authority amount => Spl.mintTo mint destination authority amount t
  | transfer source mint destination authority amount decimals =>
      transferChecked source mint destination authority amount decimals t
  | burn source mint authority amount => Spl.burn source mint authority amount t
  | approve source delegate owner amount => Spl.approve source delegate owner amount t
  | revoke source owner => Spl.revoke source owner t
  | setAuthority address authorityType authority newAuthority =>
      Spl.setAuthority address authorityType authority newAuthority t
  | closeAccount address authority => Spl.closeAccount address authority t
  | freezeAccount address mint authority => toggleFreezeAccount true address mint authority t
  | thawAccount address mint authority => toggleFreezeAccount false address mint authority t

end TokenInstruction

inductive Action
  | initPool (accounts : InitPool) (params : InitPoolParams)
  | pool (ix : PoolInstruction)
  | registry (ix : RegistryInstruction)
  | token (ix : TokenInstruction)
  deriving DecidableEq

/-- One instruction in the transaction and at the time in which it runs. -/
structure Input where
  env : Env
  action : Action
  deriving DecidableEq

structure Chain where
  pools : AccountMap Pubkey PoolState
  tokens : TokenLedger
  registry : RegistryState
  events : List Event

def genesis : Chain where
  pools := ∅
  tokens := .empty
  registry := .empty
  events := []

namespace Chain

/-- A signer is never a pool. -/
def requireSigner (s : Chain) (key : Pubkey) : Except Error Unit :=
  require (s.pools.lookup key).isNone (.anchor .accountNotSigner)

def requireSigners (s : Chain) (keys : List Pubkey) : Except Error Unit :=
  keys.forM s.requireSigner

/-- The pool at an address, found at the address derived from its asset mint. -/
def loadPool (rt : Runtime) (s : Chain) (address : Pubkey) : Except Error PoolState := do
  let state ← okOr (s.pools.lookup address) (.anchor .accountNotInitialized)
  require (rt.poolPda state.pool.assetMint = (address, state.pool.bump)) (.anchor .constraintSeeds)
  pure state

/-- A record of the pool that its seeds name. -/
def loadRecord {α : Type} (s : Chain) (pool : Pubkey) (record : PoolState → Option α) :
    Except Error Unit := do
  let _ ← okOr ((s.pools.lookup pool).bind record) (.anchor .accountNotInitialized)

/-- The records that an instruction names exist, in whichever pool. -/
def loadRecords (s : Chain) (ix : PoolInstruction) : Except Error Unit :=
  match ix.records with
  | some (advance, consumed, ledger) => do
      s.loadRecord advance.pool fun ps ↦ ps.advances.lookup advance.key
      s.loadRecord consumed.pool fun ps ↦ ps.consumed.lookup consumed.key
      s.loadRecord ledger.pool fun ps ↦ ps.ledgers.lookup ledger.agent
  | none => pure ()

/-- Write back what an escrow handler left. -/
def commit (s : Chain) (address : Pubkey) (effect : Effect) : Chain :=
  { s with
    pools := s.pools.insert address effect.state
    tokens := effect.tokens
    events := s.events ++ [effect.event] }

def step (rt : Runtime) (input : Input) (s : Chain) : Except Error Chain :=
  match input.action with
  | .initPool accounts params => do
      s.requireSigners [accounts.deployer, accounts.shareMint, accounts.usdcVault]
      require (s.pools.lookup accounts.pool).isNone (.anchor .accountAlreadyInUse)
      let effect ← Escrow.initPool rt accounts params s.tokens
      pure (s.commit accounts.pool effect)
  | .pool ix => do
      s.requireSigner ix.signer
      s.loadRecords ix
      let state ← s.loadPool rt ix.pool
      let effect ← ix.handler rt input.env s.registry state s.tokens
      pure (s.commit ix.pool effect)
  | .registry ix => do
      s.requireSigner ix.signer
      let registry ← ix.handler rt input.env s.registry
      pure { s with registry }
  | .token ix => do
      s.requireSigner ix.signer
      let tokens ← (ix.handler s.tokens).mapError .token
      pure { s with tokens }

/-- The state after a list of accepted instructions, from an empty chain. -/
def run (rt : Runtime) (trace : List Input) : Except Error Chain :=
  Execution.run (step rt) genesis trace

/-- The four kinds of accepted instructions and what each leaves behind. -/
inductive Stepped (rt : Runtime) (input : Input) (s : Chain) : Chain → Prop
  | initPool {accounts : InitPool} {params : InitPoolParams} {effect : Effect}
      (haction : input.action = .initPool accounts params)
      (hfresh : s.pools.lookup accounts.pool = none)
      (heffect : Escrow.initPool rt accounts params s.tokens = .ok effect) :
      Stepped rt input s (s.commit accounts.pool effect)
  | pool {ix : PoolInstruction} {state : PoolState} {effect : Effect}
      (haction : input.action = .pool ix) (hsigner : s.pools.lookup ix.signer = none)
      (hfound : s.pools.lookup ix.pool = some state)
      (heffect : ix.handler rt input.env s.registry state s.tokens = .ok effect) :
      Stepped rt input s (s.commit ix.pool effect)
  | registry {ix : RegistryInstruction} {registry : RegistryState}
      (haction : input.action = .registry ix)
      (heffect : ix.handler rt input.env s.registry = .ok registry) :
      Stepped rt input s { s with registry }
  | token {ix : TokenInstruction} {tokens : TokenLedger} (haction : input.action = .token ix)
      (hsigner : s.pools.lookup ix.signer = none)
      (heffect : ix.handler s.tokens = .ok tokens) :
      Stepped rt input s { s with tokens }

variable {rt : Runtime} {input : Input} {s s' : Chain}

theorem requireSigner_eq_ok {key : Pubkey} {u : Unit} :
    s.requireSigner key = .ok u ↔ s.pools.lookup key = none := by
  simp [requireSigner]

theorem requireSigners_eq_ok {keys : List Pubkey} {u : Unit} :
    s.requireSigners keys = .ok u ↔ ∀ key ∈ keys, s.pools.lookup key = none := by
  induction keys with
  | nil => simp [requireSigners, pure_eq_ok]
  | cons key keys ih =>
      simp only [requireSigners, List.forM_eq_forM, List.forM_cons, bind_eq_ok,
        requireSigner_eq_ok, List.forall_mem_cons] at ih ⊢
      rw [exists_const, ih]

theorem loadPool_eq_ok {address : Pubkey} {state : PoolState} :
    s.loadPool rt address = .ok state ↔
      s.pools.lookup address = some state ∧
      rt.poolPda state.pool.assetMint = (address, state.pool.bump) := by
  simp only [loadPool, bind_eq_ok, okOr_eq_ok, require_eq_ok, pure_eq_ok]
  constructor
  · rintro ⟨_, hfound, -, hseeds, rfl⟩
    exact ⟨hfound, hseeds⟩
  · rintro ⟨hfound, hseeds⟩
    exact ⟨state, hfound, (), hseeds, rfl⟩

theorem step_cases (h : step rt input s = .ok s') : Stepped rt input s s' := by
  unfold step at h
  split at h
  case h_1 accounts params haction =>
    simp only [bind_eq_ok, require_eq_ok, pure_eq_ok, Option.isNone_iff_eq_none] at h
    obtain ⟨-, -, -, hfresh, effect, heffect, rfl⟩ := h
    exact .initPool haction hfresh heffect
  case h_2 ix haction =>
    simp only [bind_eq_ok, requireSigner_eq_ok, loadPool_eq_ok, pure_eq_ok] at h
    obtain ⟨-, hsigner, -, -, state, ⟨hfound, -⟩, effect, heffect, rfl⟩ := h
    exact .pool haction hsigner hfound heffect
  case h_3 ix haction =>
    simp only [bind_eq_ok, pure_eq_ok] at h
    obtain ⟨-, -, registry, heffect, rfl⟩ := h
    exact .registry haction heffect
  case h_4 ix haction =>
    simp only [bind_eq_ok, requireSigner_eq_ok, mapError_eq_ok, pure_eq_ok] at h
    obtain ⟨-, hsigner, tokens, heffect, rfl⟩ := h
    exact .token haction hsigner heffect

theorem loadRecord_of {α : Type} {pool : Pubkey} {ps : PoolState} {record : PoolState → Option α}
    {found : α} (hp : s.pools.lookup pool = some ps) (hfound : record ps = some found) :
    s.loadRecord pool record = .ok () := by
  rw [loadRecord, hp, Option.bind_some, hfound]
  rfl

/-- A handler that succeeds has found its records in its own pool. -/
theorem loadRecords_of_handler {env : Env} {r : RegistryState} {t : TokenLedger}
    {ix : PoolInstruction} {ps : PoolState} {effect : Effect}
    (hfound : s.pools.lookup ix.pool = some ps) (heffect : ix.handler rt env r ps t = .ok effect) :
    s.loadRecords ix = .ok () := by
  have hlive {poolKey : Pubkey} {seeds : AdvanceSeeds} {ledgerSeeds : LedgerSeeds}
      {advance : Advance} {consumed : ConsumedPayment} {ledger : AgentIssuanceLedger}
      (hpool : s.pools.lookup poolKey = some ps)
      (hseeds : seeds = ⟨poolKey, advance.agent, advance.receivableId⟩)
      (hledger : ledgerSeeds = ⟨poolKey, advance.agent⟩)
      (h : Live rt poolKey ps advance consumed ledger) :
      (do
        s.loadRecord seeds.pool fun ps ↦ ps.advances.lookup seeds.key
        s.loadRecord seeds.pool fun ps ↦ ps.consumed.lookup seeds.key
        s.loadRecord ledgerSeeds.pool fun ps ↦ ps.ledgers.lookup ledgerSeeds.agent) =
        .ok () := by
    rw [hseeds, hledger, loadRecord_of hpool h.found, ok_bind, loadRecord_of hpool h.consumedFound,
      ok_bind, loadRecord_of hpool h.ledgerFound]
  cases ix with
  | claimAndSettle accounts paymentAmount =>
      obtain ⟨_, _, _, _, _, _, hadmits, -⟩ := claimAndSettle_eq_ok.mp heffect
      have hloaded := hlive hfound hadmits.named hadmits.ledgerNamed hadmits.live
      simp only [loadRecords, PoolInstruction.records]
      rwa [hadmits.consumedNamed, ← hadmits.named]
  | liquidate accounts =>
      obtain ⟨-, _, _, _, hoverdue, hliquidates, -⟩ := liquidate_eq_ok.mp heffect
      have hloaded := hlive hfound hoverdue.named hoverdue.ledgerNamed hliquidates.live
      simp only [loadRecords, PoolInstruction.records]
      rwa [hoverdue.consumedNamed, ← hoverdue.named]
  | _ => rfl

/-- An instruction on an existing pool is accepted if its handler accepts it. -/
theorem step_pool {env : Env} {ix : PoolInstruction} {ps : PoolState} {effect : Effect}
    (hsigner : s.pools.lookup ix.signer = none) (hfound : s.pools.lookup ix.pool = some ps)
    (hseeds : rt.poolPda ps.pool.assetMint = (ix.pool, ps.pool.bump))
    (heffect : ix.handler rt env s.registry ps s.tokens = .ok effect) :
    step rt ⟨env, .pool ix⟩ s = .ok (s.commit ix.pool effect) := by
  simp only [step, bind_eq_ok, requireSigner_eq_ok, loadPool_eq_ok, pure_eq_ok]
  exact ⟨(), hsigner, (), loadRecords_of_handler hfound heffect, ps, ⟨hfound, hseeds⟩, effect,
    heffect, rfl⟩

/-- An accepted escrow instruction is what its handler computes from the pool it names. -/
theorem step_handled {ix : PoolInstruction} (h : step rt input s = .ok s')
    (haction : input.action = .pool ix) :
    ∃ ps effect, s.pools.lookup ix.pool = some ps ∧ s'.pools.lookup ix.pool = some effect.state ∧
      ix.handler rt input.env s.registry ps s.tokens = .ok effect ∧
      s' = s.commit ix.pool effect := by
  cases step_cases h with
  | @pool handled ps effect hix _ hfound heffect =>
      obtain rfl : ix = handled := by simpa [haction] using hix
      exact ⟨ps, effect, hfound, Finmap.lookup_insert s.pools, heffect, rfl⟩
  | initPool hother _ _ => simp [haction] at hother
  | registry hother _ => simp [haction] at hother
  | token hother _ _ => simp [haction] at hother

/-- An accepted `request_advance` issues on the pool it names. -/
theorem step_issues {accounts : RequestAdvance} {receivableId : Bytes 32} {amount : UInt64}
    {nonce : Bytes 16} (h : step rt input s = .ok s')
    (haction : input.action = .pool (.requestAdvance accounts receivableId amount nonce)) :
    ∃ ps ps' attestation ledger advance, s.pools.lookup accounts.pool = some ps ∧
      s'.pools.lookup accounts.pool = some ps' ∧
      Issues rt input.env accounts receivableId amount nonce s.registry ps attestation ledger
        advance ps' := by
  obtain ⟨ps, effect, hp, hp', heffect, -⟩ := step_handled h haction
  obtain ⟨attestation, ledger, advance, hissues, -⟩ := requestAdvance_effect heffect
  exact ⟨ps, effect.state, attestation, ledger, advance, hp, hp', hissues⟩

/-- An accepted `liquidate` writes off an advance of the pool it names. -/
theorem step_liquidates {accounts : Liquidate} (h : step rt input s = .ok s')
    (haction : input.action = .pool (.liquidate accounts)) :
    ∃ ps ps' advance consumed ledger, s.pools.lookup accounts.pool = some ps ∧
      s'.pools.lookup accounts.pool = some ps' ∧
      Liquidates rt input.env accounts ps advance consumed ledger ps' := by
  obtain ⟨ps, effect, hp, hp', heffect, -⟩ := step_handled h haction
  obtain ⟨-, advance, consumed, ledger, hliquidates⟩ := liquidate_effect heffect
  exact ⟨ps, effect.state, advance, consumed, ledger, hp, hp', hliquidates⟩

end Chain

end CredMesh
