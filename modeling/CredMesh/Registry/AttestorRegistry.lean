import CredMesh.Shared.CreditMessage
import CredMesh.Shared.Errors

/-!
# The attestor registry

A whitelist of bridge signers under a governance vault. Every instruction that changes it runs
the Squads gate against the vault stored in the config.
-/

namespace CredMesh.Registry

open Outcome IxIntrospection

structure AttestorConfig where
  bump : UInt8
  governance : Pubkey
  deriving DecidableEq

structure AllowedSigner where
  bump : UInt8
  signer : Pubkey
  kind : UInt8
  addedAt : Int64
  deriving DecidableEq

/-- The accounts of the registry. An `AllowedSigner` is stored under the key in its seeds. -/
structure RegistryState where
  config : Option AttestorConfig
  allowedSigners : AccountMap Pubkey AllowedSigner

def RegistryState.empty : RegistryState := ⟨none, ∅⟩

variable (rt : Runtime)

def requireGovernanceCpi (sysvar : InstructionsSysvar) (expectedVault : Pubkey) :
    Except Error Unit :=
  (requireSquadsGovernanceCpi sysvar expectedVault).mapError
    fun _ ↦ .registry .governanceRequired

/-- The config account, found at its derived address. -/
def loadConfig (r : RegistryState) : Except Error AttestorConfig := do
  let config ← okOr r.config (.anchor .accountNotInitialized)
  require (config.bump = rt.attestorConfigPda.2) (.anchor .constraintSeeds)
  pure config

/-- The account of a whitelisted signer, found at the address derived from the signer it names. -/
def loadAllowedSigner (key : Pubkey) (r : RegistryState) : Except Error AllowedSigner := do
  let allowed ← okOr (r.allowedSigners.lookup key) (.anchor .accountNotInitialized)
  require (allowed.signer = key) (.anchor .constraintSeeds)
  require (allowed.bump = (rt.allowedSignerPda key).2) (.anchor .constraintSeeds)
  pure allowed

def initRegistry (governance : Pubkey) (r : RegistryState) : Except Error RegistryState := do
  require (r.config = none) (.anchor .accountAlreadyInUse)
  require (governance ≠ defaultPubkey) (.registry .governanceRequired)
  pure { r with config := some ⟨rt.attestorConfigPda.2, governance⟩ }

def addAllowedSigner (env : Env) (signer : Pubkey) (kind : UInt8) (r : RegistryState) :
    Except Error RegistryState := do
  let config ← loadConfig rt r
  require (r.allowedSigners.lookup signer = none) (.anchor .accountAlreadyInUse)
  requireGovernanceCpi env.sysvar config.governance
  require ((AttestorKind.fromU8 kind).isSome) (.registry .invalidKind)
  let allowed := ⟨(rt.allowedSignerPda signer).2, signer, kind, env.now⟩
  pure { r with allowedSigners := r.allowedSigners.insert signer allowed }

def removeAllowedSigner (env : Env) (key : Pubkey) (r : RegistryState) :
    Except Error RegistryState := do
  let config ← loadConfig rt r
  let _ ← loadAllowedSigner rt key r
  requireGovernanceCpi env.sysvar config.governance
  pure { r with allowedSigners := r.allowedSigners.erase key }

def setGovernance (env : Env) (newGovernance : Pubkey) (r : RegistryState) :
    Except Error RegistryState := do
  let config ← loadConfig rt r
  requireGovernanceCpi env.sysvar config.governance
  require (newGovernance ≠ defaultPubkey) (.registry .governanceRequired)
  pure { r with config := some { config with governance := newGovernance } }

/-- An instruction of the registry. -/
inductive RegistryInstruction
  | initRegistry (deployer governance : Pubkey)
  | addAllowedSigner (cranker signer : Pubkey) (kind : UInt8)
  | removeAllowedSigner (cranker allowedSigner : Pubkey)
  | setGovernance (cranker newGovernance : Pubkey)
  deriving DecidableEq

namespace RegistryInstruction

def signer : RegistryInstruction → Pubkey
  | initRegistry deployer _ => deployer
  | addAllowedSigner cranker _ _ => cranker
  | removeAllowedSigner cranker _ => cranker
  | setGovernance cranker _ => cranker

def handler (env : Env) (r : RegistryState) : RegistryInstruction → Except Error RegistryState
  | initRegistry _ governance => Registry.initRegistry rt governance r
  | addAllowedSigner _ signer kind => Registry.addAllowedSigner rt env signer kind r
  | removeAllowedSigner _ allowedSigner => Registry.removeAllowedSigner rt env allowedSigner r
  | setGovernance _ newGovernance => Registry.setGovernance rt env newGovernance r

end RegistryInstruction

/-! ## The gate -/

theorem requireGovernanceCpi_eq_ok {sysvar : InstructionsSysvar} {vault : Pubkey} {u : Unit} :
    requireGovernanceCpi sysvar vault = .ok u ↔
      requireSquadsGovernanceCpi sysvar vault = .ok u :=
  mapError_eq_ok

variable {rt}

theorem loadConfig_eq_ok {r : RegistryState} {config : AttestorConfig} :
    loadConfig rt r = .ok config ↔
      r.config = some config ∧ config.bump = rt.attestorConfigPda.2 := by
  simp only [loadConfig, bind_eq_ok, okOr_eq_ok, require_eq_ok, pure_eq_ok]
  constructor
  · rintro ⟨_, hconfig, -, hbump, rfl⟩
    exact ⟨hconfig, hbump⟩
  · rintro ⟨hconfig, hbump⟩
    exact ⟨config, hconfig, (), hbump, rfl⟩

theorem loadAllowedSigner_eq_ok {key : Pubkey} {r : RegistryState} {allowed : AllowedSigner} :
    loadAllowedSigner rt key r = .ok allowed ↔
      r.allowedSigners.lookup key = some allowed ∧ allowed.signer = key ∧
      allowed.bump = (rt.allowedSignerPda key).2 := by
  simp only [loadAllowedSigner, bind_eq_ok, okOr_eq_ok, require_eq_ok, pure_eq_ok]
  constructor
  · rintro ⟨_, hfound, -, hsigner, -, hbump, rfl⟩
    exact ⟨hfound, hsigner, hbump⟩
  · rintro ⟨hfound, hsigner, hbump⟩
    exact ⟨allowed, hfound, (), hsigner, (), hbump, rfl⟩

/-- All that an accepted instruction can do to the registry. -/
inductive RegistryInstruction.Change (rt : Runtime) (env : Env) (r : RegistryState) :
    RegistryInstruction → RegistryState → Prop
  | init {deployer governance : Pubkey} (hnone : r.config = none)
      (hgovernance : governance ≠ defaultPubkey) :
      Change rt env r (.initRegistry deployer governance)
        { r with config := some ⟨rt.attestorConfigPda.2, governance⟩ }
  | add {cranker signer : Pubkey} {kind : UInt8} {config : AttestorConfig}
      (hconfig : r.config = some config)
      (hgate : requireSquadsGovernanceCpi env.sysvar config.governance = .ok ())
      (hfresh : r.allowedSigners.lookup signer = none) :
      Change rt env r (.addAllowedSigner cranker signer kind)
        { r with
          allowedSigners := r.allowedSigners.insert signer
            ⟨(rt.allowedSignerPda signer).2, signer, kind, env.now⟩ }
  | remove {cranker key : Pubkey} {config : AttestorConfig} {allowed : AllowedSigner}
      (hconfig : r.config = some config)
      (hgate : requireSquadsGovernanceCpi env.sysvar config.governance = .ok ())
      (hfound : r.allowedSigners.lookup key = some allowed) :
      Change rt env r (.removeAllowedSigner cranker key)
        { r with allowedSigners := r.allowedSigners.erase key }
  | setGovernance {cranker newGovernance : Pubkey} {config : AttestorConfig}
      (hconfig : r.config = some config)
      (hgate : requireSquadsGovernanceCpi env.sysvar config.governance = .ok ())
      (hgovernance : newGovernance ≠ defaultPubkey) :
      Change rt env r (.setGovernance cranker newGovernance)
        { r with config := some { config with governance := newGovernance } }

theorem handler_change {env : Env} {r r' : RegistryState} {ix : RegistryInstruction}
    (h : ix.handler rt env r = .ok r') : ix.Change rt env r r' := by
  cases ix with
  | initRegistry deployer governance =>
      simp only [RegistryInstruction.handler, Registry.initRegistry, bind_eq_ok, require_eq_ok,
        pure_eq_ok] at h
      obtain ⟨-, hnone, -, hgovernance, rfl⟩ := h
      exact .init hnone hgovernance
  | addAllowedSigner cranker signer kind =>
      simp only [RegistryInstruction.handler, Registry.addAllowedSigner, bind_eq_ok, require_eq_ok,
        pure_eq_ok, loadConfig_eq_ok, requireGovernanceCpi_eq_ok] at h
      obtain ⟨config, ⟨hconfig, -⟩, -, hfresh, ⟨⟩, hgate, -, -, rfl⟩ := h
      exact .add hconfig hgate hfresh
  | removeAllowedSigner cranker key =>
      simp only [RegistryInstruction.handler, Registry.removeAllowedSigner, bind_eq_ok, pure_eq_ok,
        loadConfig_eq_ok, loadAllowedSigner_eq_ok, requireGovernanceCpi_eq_ok] at h
      obtain ⟨config, ⟨hconfig, -⟩, allowed, ⟨hfound, -⟩, ⟨⟩, hgate, rfl⟩ := h
      exact .remove hconfig hgate hfound
  | setGovernance cranker newGovernance =>
      simp only [RegistryInstruction.handler, Registry.setGovernance, bind_eq_ok, require_eq_ok,
        pure_eq_ok, loadConfig_eq_ok, requireGovernanceCpi_eq_ok] at h
      obtain ⟨config, ⟨hconfig, -⟩, ⟨⟩, hgate, -, hgovernance, rfl⟩ := h
      exact .setGovernance hconfig hgate hgovernance

/-- Whatever changes the registry after its creation passed the gate for the stored vault. -/
theorem handler_gated {env : Env} {r r' : RegistryState} {ix : RegistryInstruction}
    (h : ix.handler rt env r = .ok r') (hinit : ∀ deployer governance,
      ix ≠ .initRegistry deployer governance) :
    ∃ config, r.config = some config ∧
      requireSquadsGovernanceCpi env.sysvar config.governance = .ok () := by
  cases handler_change h with
  | init _ _ => exact absurd rfl (hinit _ _)
  | add hconfig hgate _ => exact ⟨_, hconfig, hgate⟩
  | remove hconfig hgate _ => exact ⟨_, hconfig, hgate⟩
  | setGovernance hconfig hgate _ => exact ⟨_, hconfig, hgate⟩

end CredMesh.Registry
