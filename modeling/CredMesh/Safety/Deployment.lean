import CredMesh.Chain.Localnet
import CredMesh.Keeper.Tick
import CredMesh.Scripts.Deployment

/-!
# From a script to the chain

What the clients encode by hand is what the programs read. The checks of a script stand in for those
of the program, all but one: a pool is refused for its parameters only if the timelock is negative,
and a registry and its bridge signers never are.
-/

namespace CredMesh

open Outcome Escrow Registry EcmaScript

/-- Data calls a method of a program exactly if it begins with the bytes of the method and its
arguments in Borsh. No data calls methods of both programs, and what the keeper sends is a
liquidation. -/
theorem call_data_exact :
    (∀ (method : EscrowMethod) args data, EscrowMethod.dispatch data = some ⟨method, args⟩ ↔
      method.callData args <+: data) ∧
    (∀ (method : RegistryMethod) args data, RegistryMethod.dispatch data = some ⟨method, args⟩ ↔
      method.callData args <+: data) ∧
    (∀ data call, EscrowMethod.dispatch data = some call → RegistryMethod.dispatch data = none) ∧
    EscrowMethod.dispatch Keeper.liquidateDiscriminator = some ⟨.liquidate, ()⟩ := by
  refine ⟨fun _ _ _ ↦ EscrowMethod.dispatch_eq_some, fun _ _ _ ↦ RegistryMethod.dispatch_eq_some,
    ?_, EscrowMethod.dispatch_eq_some.mpr (List.prefix_refl _)⟩
  rintro data ⟨method, args⟩ h
  by_contra hsome
  obtain ⟨⟨method', args'⟩, h'⟩ := Option.ne_none_iff_exists'.mp hsome
  obtain ⟨rest, hrest⟩ := EscrowMethod.dispatch_eq_some.mp h
  obtain ⟨rest', hrest'⟩ := RegistryMethod.dispatch_eq_some.mp h'
  have hsame := hrest.trans hrest'.symm
  simp only [EscrowMethod.callData, RegistryMethod.callData, List.append_assoc] at hsame
  have htags : method.sighash = method'.sighash :=
    List.Vector.toList_injective (List.append_inj hsame (by simp)).1
  cases method <;> cases method' <;> cases htags

/-! ## `init_pool.ts` -/

/-- What a new pool needs of the chain: fresh keys, and a mint of its asset. -/
structure Chain.Vacant (s : Chain) (accounts : InitPool) : Prop where
  signers : ∀ key ∈ [accounts.deployer, accounts.shareMint, accounts.usdcVault],
    s.pools.lookup key = none
  pool : s.pools.lookup accounts.pool = none
  asset : ∃ mint, s.tokens.mints.lookup accounts.assetMint = some mint
  shareMint : s.tokens.mints.lookup accounts.shareMint = none ∧
    s.tokens.accounts.lookup accounts.shareMint = none
  usdcVault : s.tokens.mints.lookup accounts.usdcVault = none ∧
    s.tokens.accounts.lookup accounts.usdcVault = none
  distinct : accounts.usdcVault ≠ accounts.shareMint

/-- The parameters that `init_pool` accepts. -/
structure Escrow.InitPoolParams.Valid (params : InitPoolParams) : Prop where
  maxAdvancePctBps : params.maxAdvancePctBps.toUInt64 ≤ bpsDenominator
  timelockSeconds : 0 ≤ params.timelockSeconds
  chainId : params.chainId = CreditMessage.chainIdMainnet ∨
    params.chainId = CreditMessage.chainIdDevnet
  feeCurve : params.feeCurve.validate = .ok ()

/-- A pool is created exactly at its own address, where it finds what it needs, with valid
parameters. -/
theorem Chain.step_initPool_iff {rt : Runtime} {s : Chain} {env : Env} {accounts : InitPool}
    {params : InitPoolParams} :
    (∃ s', Chain.step rt ⟨env, .initPool accounts params⟩ s = .ok s') ↔
      accounts.pool = (rt.poolPda accounts.assetMint).1 ∧ s.Vacant accounts ∧ params.Valid := by
  simp only [Chain.step, Chain.requireSigners_eq_ok, require_eq_ok, Option.isNone_iff_eq_none,
    exists_const, Escrow.initPool, mintAccount, okOr_eq_ok, mapError_eq_ok, bind_eq_ok, pure_eq_ok,
    Spl.initializeMint, Spl.initializeAccount, Spl.TokenLedger.mint, Spl.TokenLedger.setMint]
  constructor
  · rintro ⟨_, hsigners, hpool, _, ⟨hpda, mint, hasset, _, ⟨hshareMint, hshareAccount, rfl⟩, _,
      ⟨hvaultMint, hvaultAccount, -⟩, hpct, htimelock, hchain, ⟨⟩, hcurve, -⟩, -⟩
    rw [AccountMap.lookup_insert_eq] at hvaultMint
    split at hvaultMint
    case isTrue => cases hvaultMint
    case isFalse hne =>
      exact ⟨hpda, ⟨hsigners, hpool, ⟨mint, hasset⟩, ⟨hshareMint, hshareAccount⟩,
        ⟨hvaultMint, hvaultAccount⟩, hne⟩, ⟨hpct, htimelock, hchain, hcurve⟩⟩
  · rintro ⟨hpda, hvacant, hvalid⟩
    obtain ⟨mint, hasset⟩ := hvacant.asset
    have hassetMint : accounts.assetMint ≠ accounts.shareMint := by
      intro hsame
      rw [hsame, hvacant.shareMint.1] at hasset
      cases hasset
    refine ⟨_, hvacant.signers, hvacant.pool, _, ⟨hpda, mint, hasset, _,
      ⟨hvacant.shareMint.1, hvacant.shareMint.2, rfl⟩, _, ⟨?_, hvacant.usdcVault.2, mint, ?_, rfl⟩,
      hvalid.maxAdvancePctBps, hvalid.timelockSeconds, hvalid.chainId, (), hvalid.feeCurve, rfl⟩,
      rfl⟩
    · rw [AccountMap.lookup_insert_eq, if_neg hvacant.distinct]
      exact hvacant.usdcVault.1
    · rw [AccountMap.lookup_insert_eq, if_neg hassetMint]
      exact hasset

namespace Scripts

/-- The number that is stored of a number within a bound is within it as well. -/
theorem toUInt16_le {value : Number} {stored : UInt16} {bound : ℕ}
    (h : toUInt16 value = some stored) (hbound : exceeds value bound = false) :
    stored.toNat ≤ bound := by
  cases value with
  | nan =>
      obtain rfl : 0 = stored := Option.some.inj h
      exact Nat.zero_le bound
  | negInfinity => cases h
  | posInfinity => cases h
  | finite value =>
      obtain ⟨⟨hlow, hhigh⟩, hstored⟩ := Option.ite_none_right_eq_some.mp h
      have hle : value ≤ bound := not_lt.mp (of_decide_eq_false hbound)
      have hfloor : ⌊value⌋ ≤ bound := by
        have hcast : ((⌊value⌋ : ℤ) : ℚ) ≤ ((bound : ℤ) : ℚ) := (Int.floor_le value).trans hle
        exact_mod_cast hcast
      have hfits : ⌊value⌋ ≤ 65535 := by
        have hcast : ((⌊value⌋ : ℤ) : ℚ) ≤ ((65535 : ℤ) : ℚ) := (Int.floor_le value).trans hhigh
        exact_mod_cast hcast
      rw [← Option.some.inj hstored, UInt16.toNat_ofNat_of_lt' (by simp only [UInt16.size]; omega)]
      omega

/-- The default curve of the script is a valid one. -/
theorem validate_of_denotes {curve : Escrow.FeeCurve} (h : defaultFeeCurve.Denotes curve) :
    curve.validate = .ok () := by
  have hcurve : curve = ⟨8000, 200, 1000, 5000, 5, 100, 0⟩ := by
    obtain ⟨kinkBps, base, kink, max, perDay, premium, surcharge⟩ := curve
    obtain ⟨hkinkBps, hbase, hkink, hmax, hperDay, hpremium, hsurcharge⟩ := h
    have hstored : toUInt16 (.finite 8000) = some 8000 ∧ toUInt16 (.finite 200) = some 200 ∧
        toUInt16 (.finite 1000) = some 1000 ∧ toUInt16 (.finite 5000) = some 5000 ∧
        toUInt16 (.finite 5) = some 5 ∧ toUInt16 (.finite 100) = some 100 ∧
        toUInt16 (.finite 0) = some 0 := by
      decide +kernel
    obtain ⟨h₁, h₂, h₃, h₄, h₅, h₆, h₇⟩ := hstored
    rw [Option.some.inj (h₁.symm.trans hkinkBps), Option.some.inj (h₂.symm.trans hbase),
      Option.some.inj (h₃.symm.trans hkink), Option.some.inj (h₄.symm.trans hmax),
      Option.some.inj (h₅.symm.trans hperDay), Option.some.inj (h₆.symm.trans hpremium),
      Option.some.inj (h₇.symm.trans hsurcharge)]
  rw [hcurve]
  decide +kernel

/-- The checks of the script are those of the program, but for the sign of the timelock. -/
theorem valid_iff {args : InitPoolArgs} {params : Escrow.InitPoolParams}
    (hdenotes : args.params.Denotes params) (hchain : args.chainId = 1 ∨ args.chainId = 2)
    (hpct : exceeds args.maxAdvancePctBps 10000 = false) :
    params.Valid ↔ 0 ≤ args.timelockSeconds := by
  have htimelock : args.timelockSeconds = params.timelockSeconds.toInt := hdenotes.timelockSeconds
  have hsign : 0 ≤ params.timelockSeconds ↔ 0 ≤ args.timelockSeconds := by
    rw [htimelock, Int64.le_iff_toInt_le]
    rfl
  have hbound : params.maxAdvancePctBps.toNat ≤ 10000 :=
    toUInt16_le hdenotes.maxAdvancePctBps hpct
  have hcluster : args.chainId = params.chainId.toNat := hdenotes.chainId
  constructor
  · intro hvalid
    exact hsign.mp hvalid.timelockSeconds
  · intro hnonneg
    refine ⟨?_, hsign.mpr hnonneg, ?_, validate_of_denotes hdenotes.feeCurve⟩
    · rw [UInt64.le_iff_toNat_le, UInt16.toNat_toUInt64]
      exact hbound
    · refine hchain.imp (fun hmainnet ↦ ?_) fun hdevnet ↦ ?_
      · apply UInt64.toNat_inj.mp
        rw [hmainnet] at hcluster
        exact_mod_cast hcluster.symm
      · apply UInt64.toNat_inj.mp
        rw [hdevnet] at hcluster
        exact_mod_cast hcluster.symm

/-- Whatever `init_pool.ts` sends, the escrow reads as the creation of a pool with the parameters
that were asked for, number by number. On any chain it accepts this exactly if the timelock is not
negative and the chain has what the pool needs, and the new pool stores these parameters, at the
address and over the mint and accounts that the script names. -/
theorem init_pool_script_exact {rt : Runtime} {deployer shareMint usdcVault : Pubkey}
    {existing : Bool} {args : InitPoolArgs} {ix : Instruction}
    (h : initPool rt deployer shareMint usdcVault existing args = .ok ix) :
    ∃ params, args.params.Denotes params ∧
      let accounts : Escrow.InitPool :=
        ⟨deployer, (rt.poolPda args.assetMint).1, args.assetMint, shareMint, usdcVault⟩
      Action.ofInstruction rt ix = some (.initPool accounts params) ∧
      ∀ env (s : Chain),
        ((∃ s', Chain.step rt ⟨env, .initPool accounts params⟩ s = .ok s') ↔
          0 ≤ args.timelockSeconds ∧ s.Vacant accounts) ∧
        ∀ s', Chain.step rt ⟨env, .initPool accounts params⟩ s = .ok s' →
          s'.pools.lookup accounts.pool =
            some ⟨initialPool (rt.poolPda args.assetMint).2 accounts params, ∅, ∅, ∅, ∅⟩ := by
  simp only [initPool, bind_eq_ok, require_eq_ok, pure_eq_ok, exists_const] at h
  obtain ⟨-, -, hchain, hpct, _, hencoded, rfl⟩ := h
  obtain ⟨params, hdenotes, rfl⟩ := encodeInitPoolParams_eq_ok hencoded
  refine ⟨params, hdenotes, ?_, fun env s ↦ ⟨?_, ?_⟩⟩
  · have hcall : EscrowMethod.dispatch ([116, 233, 199, 204, 115, 159, 171, 36] ++
        Escrow.InitPoolParams.codec.encode params) = some ⟨.initPool, params⟩ :=
      EscrowMethod.dispatch_eq_some.mpr (List.prefix_refl _)
    simp only [Action.ofInstruction, if_true, hcall]
    rfl
  · rw [Chain.step_initPool_iff, valid_iff hdenotes hchain hpct]
    constructor
    · rintro ⟨-, hvacant, htimelock⟩
      exact ⟨htimelock, hvacant⟩
    · rintro ⟨htimelock, hvacant⟩
      exact ⟨rfl, hvacant, htimelock⟩
  · intro s' hstep
    cases Chain.step_cases hstep with
    | initPool haction _ heffect =>
        cases haction
        rw [Chain.commit, Finmap.lookup_insert, (initPool_effect heffect).1]
    | pool haction _ _ _ => cases haction
    | registry haction _ => cases haction
    | token haction _ _ => cases haction

end Scripts

namespace Localnet

/-- A chain on which the asset and the accounts of the future parties exist. -/
def founding : List Input := opening.take 4

def initPoolArgs : Scripts.InitPoolArgs where
  assetMint := usdcMint
  governance := governance
  treasuryAta := treasury
  maxAdvancePctBps := .finite 3000
  maxAdvanceAbs := 200000000
  timelockSeconds := 86400
  chainId := 2
  agentWindowCap := 150000000

end Localnet

theorem init_pool_script_exact_localnet : ∃ ix s s' params,
    Scripts.initPool Localnet.runtime Localnet.deployer Localnet.shareMint Localnet.usdcVault false
      Localnet.initPoolArgs = .ok ix ∧
    Chain.run Localnet.runtime Localnet.founding = .ok s ∧
    Chain.step Localnet.runtime ⟨⟨Localnet.t₀, ⟨[], 0⟩⟩,
      .initPool ⟨Localnet.deployer, Localnet.pool, Localnet.usdcMint, Localnet.shareMint,
        Localnet.usdcVault⟩ params⟩ s = .ok s' ∧
    (s'.pools.lookup Localnet.pool).isSome := by
  obtain ⟨ix, hix, -⟩ := Localnet.returns_iff.mp (show Localnet.returns
    (Scripts.initPool Localnet.runtime Localnet.deployer Localnet.shareMint Localnet.usdcVault false
      Localnet.initPoolArgs) (fun _ ↦ true) = true by decide +kernel)
  obtain ⟨s, hrun, hvacant⟩ := Localnet.returns_iff.mp (show Localnet.returns
    (Chain.run Localnet.runtime Localnet.founding) (fun s ↦
      (s.pools.lookup Localnet.deployer = none) ∧ (s.pools.lookup Localnet.shareMint = none) ∧
      (s.pools.lookup Localnet.usdcVault = none) ∧ (s.pools.lookup Localnet.pool = none) ∧
      (s.tokens.mints.lookup Localnet.usdcMint).isSome ∧
      (s.tokens.mints.lookup Localnet.shareMint = none) ∧
      (s.tokens.accounts.lookup Localnet.shareMint = none) ∧
      (s.tokens.mints.lookup Localnet.usdcVault = none) ∧
      (s.tokens.accounts.lookup Localnet.usdcVault = none)) = true by decide +kernel)
  obtain ⟨hdeployer, hshare, hvault, hpool, hasset, hshareMint, hshareAccount, hvaultMint,
    hvaultAccount⟩ := of_decide_eq_true hvacant
  have haddress : (Localnet.runtime.poolPda Localnet.initPoolArgs.assetMint).1 = Localnet.pool := by
    decide +kernel
  obtain ⟨params, -, -, hexact⟩ := Scripts.init_pool_script_exact hix
  obtain ⟨haccepted, hstored⟩ := hexact ⟨Localnet.t₀, ⟨[], 0⟩⟩ s
  rw [haddress] at haccepted hstored
  obtain ⟨s', hstep⟩ := haccepted.mpr ⟨by decide, {
    signers := by simp [hdeployer, hshare, hvault]
    pool := hpool
    asset := Option.isSome_iff_exists.mp hasset
    shareMint := ⟨hshareMint, hshareAccount⟩
    usdcVault := ⟨hvaultMint, hvaultAccount⟩
    distinct := by decide }⟩
  exact ⟨ix, s, s', params, hix, hrun, hstep, Option.isSome_of_eq_some (hstored s' hstep)⟩

/-! ## The registry -/

/-- The config of the registry keeps the bump of its address. -/
theorem Chain.run_config_bump {rt : Runtime} {trace : List Input} {s : Chain}
    {config : AttestorConfig} (hrun : Chain.run rt trace = .ok s)
    (hconfig : s.registry.config = some config) : config.bump = rt.attestorConfigPda.2 := by
  refine Execution.run_invariant (motive := fun s : Chain ↦ ∀ config,
    s.registry.config = some config → config.bump = rt.attestorConfigPda.2)
    (fun config hconfig ↦ by cases hconfig) ?_ hrun config hconfig
  intro s input s' ih hstep config hconfig
  cases step_cases hstep with
  | initPool _ _ _ => exact ih config hconfig
  | pool _ _ _ _ => exact ih config hconfig
  | token _ _ _ => exact ih config hconfig
  | registry _ heffect =>
      cases handler_change heffect with
      | init _ _ =>
          obtain rfl := Option.some.inj hconfig
          rfl
      | @setGovernance _ _ old hold _ _ =>
          obtain rfl := Option.some.inj hconfig
          exact ih old hold
      | add _ _ _ => exact ih config hconfig
      | remove _ _ _ => exact ih config hconfig

/-- A registry instruction is accepted exactly if its signer is no pool and its handler accepts. -/
theorem Chain.step_registry_eq_ok {rt : Runtime} {s s' : Chain} {env : Env}
    {ix : RegistryInstruction} :
    Chain.step rt ⟨env, .registry ix⟩ s = .ok s' ↔ s.pools.lookup ix.signer = none ∧
      ∃ registry, ix.handler rt env s.registry = .ok registry ∧ s' = { s with registry } := by
  simp only [Chain.step, bind_eq_ok, Chain.requireSigner_eq_ok, pure_eq_ok, exists_const,
    @eq_comm _ s']

namespace Scripts

/-- What `init_registry.ts` sends creates the registry under the vault that was asked for, on any
chain that has none. What `add_allowed_signer.ts` prints is accepted, at any point of any run, from
any cranker who is no pool, exactly if the signer is not listed and the transaction passes the gate
for the vault in force; afterwards the escrow loads the signer as a bridge. -/
theorem registry_scripts_exact {rt : Runtime} :
    (∀ deployer existing governance ix,
      initRegistry rt deployer existing governance = .ok ix →
      Action.ofInstruction rt ix = some (.registry (.initRegistry deployer governance)) ∧
      ∀ env (s s' : Chain), Chain.step rt ⟨env, .registry (.initRegistry deployer governance)⟩ s =
          .ok s' ↔
        s.pools.lookup deployer = none ∧ s.registry.config = none ∧
        s' = { s with registry :=
          { s.registry with config := some ⟨rt.attestorConfigPda.2, governance⟩ } }) ∧
    (∀ signer kind cranker ix, addAllowedSigner rt signer kind cranker = .ok ix →
      Action.ofInstruction rt ix =
        some (.registry (.addAllowedSigner (cranker.getD ProgramIds.system) signer 0)) ∧
      ∀ trace (s : Chain), Chain.run rt trace = .ok s → ∀ env cranker,
        ((∃ s', Chain.step rt ⟨env, .registry (.addAllowedSigner cranker signer 0)⟩ s = .ok s') ↔
          s.pools.lookup cranker = none ∧ s.registry.allowedSigners.lookup signer = none ∧
          ∃ config, s.registry.config = some config ∧
            IxIntrospection.requireSquadsGovernanceCpi env.sysvar config.governance = .ok ()) ∧
        ∀ s', Chain.step rt ⟨env, .registry (.addAllowedSigner cranker signer 0)⟩ s = .ok s' →
          loadAllowedSigner rt signer s'.registry = .ok ⟨(rt.allowedSignerPda signer).2, signer,
            AttestorKind.creditBridge.asU8, env.now⟩) := by
  constructor
  · intro deployer _ governance ix h
    simp only [initRegistry, bind_eq_ok, require_eq_ok, pure_eq_ok, exists_const] at h
    obtain ⟨hgovernance, -, -, rfl⟩ := h
    constructor
    · have hcall : RegistryMethod.dispatch ([131, 22, 4, 103, 24, 94, 163, 239] ++
          governance.toList) = some ⟨.initRegistry, governance⟩ := by
        rw [← keyCodec_encode]
        exact RegistryMethod.dispatch_eq_some.mpr (List.prefix_refl _)
      have hescrow : ProgramIds.attestorRegistry ≠ ProgramIds.escrow := by decide
      simp only [Action.ofInstruction, if_neg hescrow, if_true, hcall]
      simp [initRegistryAccounts]
    · intro env s s'
      rw [Chain.step_registry_eq_ok]
      simp only [RegistryInstruction.signer, RegistryInstruction.handler, Registry.initRegistry,
        bind_eq_ok, require_eq_ok, pure_eq_ok, exists_const]
      constructor
      · rintro ⟨hsigner, _, ⟨hnone, -, rfl⟩, rfl⟩
        exact ⟨hsigner, hnone, rfl⟩
      · rintro ⟨hsigner, hnone, rfl⟩
        exact ⟨hsigner, _, ⟨hnone, hgovernance, rfl⟩, rfl⟩
  · intro signer kind cranker ix h
    simp only [addAllowedSigner, bind_eq_ok, require_eq_ok, pure_eq_ok, exists_const] at h
    obtain ⟨-, -, rfl⟩ := h
    refine ⟨?_, fun trace s hrun env cranker ↦ ⟨?_, ?_⟩⟩
    · have hcall : RegistryMethod.dispatch ([161, 49, 31, 187, 122, 45, 33, 245] ++
          signer.toList ++ [0]) = some ⟨.addAllowedSigner, (signer, 0)⟩ := by
        rw [List.append_assoc, ← keyCodec_encode]
        exact RegistryMethod.dispatch_eq_some.mpr (List.prefix_refl _)
      have hescrow : ProgramIds.attestorRegistry ≠ ProgramIds.escrow := by decide
      simp only [Action.ofInstruction, if_neg hescrow, if_true, hcall]
      simp [addAllowedSignerAccounts]
    · simp only [Chain.step_registry_eq_ok, RegistryInstruction.signer, RegistryInstruction.handler,
        Registry.addAllowedSigner, bind_eq_ok, require_eq_ok, pure_eq_ok, exists_const,
        loadConfig_eq_ok, Registry.requireGovernanceCpi_eq_ok]
      constructor
      · rintro ⟨_, hsigner, _, ⟨config, ⟨hconfig, -⟩, hfresh, ⟨⟩, hgate, -, -⟩, -⟩
        exact ⟨hsigner, hfresh, config, hconfig, hgate⟩
      · rintro ⟨hsigner, hfresh, config, hconfig, hgate⟩
        exact ⟨_, hsigner, _, ⟨config, ⟨hconfig, Chain.run_config_bump hrun hconfig⟩, hfresh, (),
          hgate, by decide, rfl⟩, rfl⟩
    · intro s' hstep
      obtain ⟨-, registry, heffect, rfl⟩ := Chain.step_registry_eq_ok.mp hstep
      cases handler_change heffect with
      | add _ _ _ =>
          exact loadAllowedSigner_eq_ok.mpr ⟨Finmap.lookup_insert _, rfl, rfl⟩

end Scripts

end CredMesh
