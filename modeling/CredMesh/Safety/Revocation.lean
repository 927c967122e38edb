import CredMesh.Chain.Localnet
import CredMesh.Foundation.History

/-!
# Revocation of a bridge signer

The escrow reads the whitelist of another program at the moment of issuance, from an account that
the caller chooses. The account must be the one derived from the key that signed, so a key that
was removed cannot be used again before it is added again, however fresh its signatures are.
-/

namespace CredMesh

open Outcome Escrow Registry IxIntrospection Execution

/-- The action adds a key to the whitelist or removes it. -/
def Action.Lists (key : Pubkey) : Action → Prop
  | .registry (.addAllowedSigner _ signer _) => signer = key
  | .registry (.removeAllowedSigner _ allowedSigner) => allowedSigner = key
  | _ => False

/-- The last time the key was listed it was added. -/
def LastAdded (key : Pubkey) (trace : List Input) : Prop :=
  ∃ earlier input cranker kind, LastOf (fun input ↦ input.action.Lists key) trace earlier input ∧
    input.action = .registry (.addAllowedSigner cranker key kind)

section LastAdded

variable {key : Pubkey} {trace : List Input} {input : Input}

theorem lastAdded_snoc (h : ¬ input.action.Lists key) :
    LastAdded key (trace ++ [input]) ↔ LastAdded key trace := by
  unfold LastAdded
  simp only [LastOf.snoc_iff (fun input : Input ↦ input.action.Lists key) h]

theorem lastAdded_now (h : input.action.Lists key) :
    LastAdded key (trace ++ [input]) ↔
      ∃ cranker kind, input.action = .registry (.addAllowedSigner cranker key kind) := by
  unfold LastAdded
  simp only [LastOf.now_iff (fun input : Input ↦ input.action.Lists key) h]
  constructor
  · rintro ⟨_, _, cranker, kind, ⟨rfl, rfl⟩, haction⟩
    exact ⟨cranker, kind, haction⟩
  · rintro ⟨cranker, kind, haction⟩
    exact ⟨trace, input, cranker, kind, ⟨rfl, rfl⟩, haction⟩

end LastAdded

namespace Chain

variable {rt : Runtime} {input : Input} {trace : List Input} {s s' : Chain}

/-- Only instructions of the registry change it. -/
theorem step_registry (h : step rt input s = .ok s') :
    (∃ ix registry, input.action = .registry ix ∧ ix.Change rt input.env s.registry registry ∧
      s'.registry = registry) ∨
    (∀ ix, input.action ≠ .registry ix) ∧ s'.registry = s.registry := by
  cases step_cases h with
  | initPool haction _ _ => exact .inr ⟨by simp [haction], rfl⟩
  | pool haction _ _ _ => exact .inr ⟨by simp [haction], rfl⟩
  | registry haction heffect => exact .inl ⟨_, _, haction, handler_change heffect, rfl⟩
  | token haction _ _ => exact .inr ⟨by simp [haction], rfl⟩

/-- A key is on the whitelist exactly if it was added the last time it was listed. -/
theorem run_lastAdded (hrun : run rt trace = .ok s) (key : Pubkey) :
    s.registry.allowedSigners.lookup key ≠ none ↔ LastAdded key trace := by
  refine run_induction (motive := fun trace state ↦
    state.registry.allowedSigners.lookup key ≠ none ↔ LastAdded key trace) ?_ ?_ hrun
  · constructor
    · intro h
      exact absurd (Finmap.lookup_empty key) h
    · rintro ⟨earlier, input, _, _, hlast, -⟩
      obtain ⟨_, hsplit, -⟩ := hlast.since
      simp at hsplit
  · intro trace s input s' _ ih hstep
    obtain ⟨ix, registry, haction, hchange, hregistry⟩ | ⟨hother, hkept⟩ := step_registry hstep
    · rw [hregistry]
      cases hchange with
      | init _ _ =>
          have hunlisted : ¬ input.action.Lists key := by rw [haction]; exact id
          rw [lastAdded_snoc hunlisted]
          exact ih
      | @add cranker signer kind _ _ _ _ =>
          by_cases hkey : signer = key
          · have hlisted : input.action.Lists key := by rw [haction]; exact hkey
            rw [lastAdded_now hlisted, ← hkey]
            simp [haction]
          · have hunlisted : ¬ input.action.Lists key := by rw [haction]; exact hkey
            rw [lastAdded_snoc hunlisted, ← ih]
            simp [Ne.symm hkey]
      | @remove cranker removed _ _ _ _ _ =>
          by_cases hkey : removed = key
          · have hlisted : input.action.Lists key := by rw [haction]; exact hkey
            rw [lastAdded_now hlisted, ← hkey]
            simp [haction]
          · have hunlisted : ¬ input.action.Lists key := by rw [haction]; exact hkey
            rw [lastAdded_snoc hunlisted, ← ih]
            simp [Ne.symm hkey]
      | setGovernance _ _ _ =>
          have hunlisted : ¬ input.action.Lists key := by rw [haction]; exact id
          rw [lastAdded_snoc hunlisted]
          exact ih
    · have hunlisted : ¬ input.action.Lists key := by
        unfold Action.Lists
        split
        case h_1 heq => exact absurd heq (hother _)
        case h_2 heq => exact absurd heq (hother _)
        case h_3 => exact id
      rw [lastAdded_snoc hunlisted, hkept]
      exact ih

/-- The governance vault of the registry is never the zero key. -/
theorem run_governance {config : AttestorConfig} (hrun : run rt trace = .ok s)
    (hconfig : s.registry.config = some config) : config.governance ≠ defaultPubkey := by
  refine run_invariant (motive := fun state ↦ ∀ config, state.registry.config = some config →
    config.governance ≠ defaultPubkey) (fun config hconfig ↦ by cases hconfig) ?_ hrun config
    hconfig
  intro s input s' ih hstep config hconfig
  obtain ⟨ix, registry, -, hchange, hregistry⟩ | ⟨-, hkept⟩ := step_registry hstep
  · rw [hregistry] at hconfig
    cases hchange with
    | init _ hgovernance =>
        cases hconfig
        exact hgovernance
    | add _ _ _ => exact ih config hconfig
    | remove _ _ _ => exact ih config hconfig
    | setGovernance _ _ hgovernance =>
        cases hconfig
        exact hgovernance
  · rw [hkept] at hconfig
    exact ih config hconfig

/-- A listing passed the gate for the vault in force. -/
theorem step_lists {key : Pubkey} (h : step rt input s = .ok s')
    (hlists : input.action.Lists key) :
    ∃ config, s.registry.config = some config ∧
      requireSquadsGovernanceCpi input.env.sysvar config.governance = .ok () := by
  obtain ⟨ix, _, haction, hchange, -⟩ | ⟨hother, -⟩ := step_registry h
  · rw [haction] at hlists
    cases hchange with
    | init _ _ => exact hlists.elim
    | add hconfig hgate _ => exact ⟨_, hconfig, hgate⟩
    | remove hconfig hgate _ => exact ⟨_, hconfig, hgate⟩
    | setGovernance _ _ _ => exact hlists.elim
  · unfold Action.Lists at hlists
    split at hlists
    case h_1 heq => exact absurd heq (hother _)
    case h_2 heq => exact absurd heq (hother _)
    case h_3 => exact hlists.elim

end Chain

/-- The key that signed the attestation of an issuance is on the whitelist as a bridge. -/
theorem Escrow.Issues.whitelisted {rt : Runtime} {env : Env} {accounts : RequestAdvance}
    {receivableId : Bytes 32} {amount : UInt64} {nonce : Bytes 16} {r : RegistryState}
    {s s' : PoolState} {attestation : Attestation} {ledger : AgentIssuanceLedger}
    {advance : Advance}
    (h : Issues rt env accounts receivableId amount nonce r s attestation ledger advance s') :
    ∃ message allowed, verifyPrevEd25519 env.sysvar = .ok (advance.attestor, message) ∧
      r.allowedSigners.lookup advance.attestor = some allowed ∧
      allowed.kind = AttestorKind.creditBridge.asU8 := by
  obtain ⟨allowed, hallowed, hread⟩ := h.attested
  obtain ⟨hfound, hseed, -⟩ := loadAllowedSigner_eq_ok.mp hallowed
  obtain ⟨message, hverified, -, hsigner, hkind, -⟩ := readAttestation_carries hread
  have hattestor : advance.attestor = attestation.signer :=
    congrArg Advance.attestor h.recorded
  rw [← hseed, ← hsigner, ← hattestor] at hfound
  rw [← hattestor] at hverified
  exact ⟨message, allowed, hverified, hfound, hkind⟩

variable {rt : Runtime} {trace : List Input} {s : Chain}

/-- Along a run, the advance of every issuance names a key that was whitelisted right before. -/
theorem Chain.run_whitelisted {part : List Input} {input : Input} {accounts : RequestAdvance}
    {receivableId : Bytes 32} {amount : UInt64} {nonce : Bytes 16}
    (hrun : Chain.run rt trace = .ok s) (hpart : part ++ [input] <+: trace)
    (haction : input.action = .pool (.requestAdvance accounts receivableId amount nonce)) :
    ∃ before next ps advance message allowed, Chain.run rt part = .ok before ∧
      Chain.run rt (part ++ [input]) = .ok next ∧ next.pools.lookup accounts.pool = some ps ∧
      ps.advances.lookup (accounts.agent, receivableId) = some advance ∧
      verifyPrevEd25519 input.env.sysvar = .ok (advance.attestor, message) ∧
      before.registry.allowedSigners.lookup advance.attestor = some allowed ∧
      allowed.kind = AttestorKind.creditBridge.asU8 := by
  obtain ⟨before, next, hbefore, hstep, hnext⟩ := exists_step hpart hrun
  obtain ⟨_, ps, _, _, advance, -, hp, hissues⟩ := Chain.step_issues hstep haction
  obtain ⟨message, allowed, hverified, hfound, hkind⟩ := hissues.whitelisted
  have hstored : ps.advances.lookup (accounts.agent, receivableId) = some advance := by
    rw [hissues.advances, Finmap.lookup_insert]
  exact ⟨before, next, ps, advance, message, allowed, hbefore, hnext, hp, hstored, hverified,
    hfound, hkind⟩

/-- In every run over both programs: a `request_advance` is accepted with an attestation of a key
only if the key was added the last time it was listed, never after its removal; the attestor of
every advance was then on the whitelist as a bridge. The whitelist is what the listings left, each
of them passed the gate for the vault then stored, and that vault is never the zero key. -/
theorem revocation_immediate (hrun : Chain.run rt trace = .ok s) :
    (∀ part input accounts receivableId amount nonce key message, part ++ [input] <+: trace →
      input.action = .pool (.requestAdvance accounts receivableId amount nonce) →
      verifyPrevEd25519 input.env.sysvar = .ok (key, message) →
      LastAdded key part ∧
      ∀ earlier revocation cranker,
        LastOf (fun input ↦ input.action.Lists key) part earlier revocation →
        revocation.action ≠ .registry (.removeAllowedSigner cranker key)) ∧
    (∀ part input accounts receivableId amount nonce, part ++ [input] <+: trace →
      input.action = .pool (.requestAdvance accounts receivableId amount nonce) →
      ∃ before next ps advance allowed, Chain.run rt part = .ok before ∧
        Chain.run rt (part ++ [input]) = .ok next ∧
        next.pools.lookup accounts.pool = some ps ∧
        ps.advances.lookup (accounts.agent, receivableId) = some advance ∧
        before.registry.allowedSigners.lookup advance.attestor = some allowed ∧
        allowed.kind = AttestorKind.creditBridge.asU8) ∧
    (∀ key, s.registry.allowedSigners.lookup key ≠ none ↔ LastAdded key trace) ∧
    (∀ key part input, part ++ [input] <+: trace → input.action.Lists key →
      ∃ before config, Chain.run rt part = .ok before ∧ before.registry.config = some config ∧
        requireSquadsGovernanceCpi input.env.sysvar config.governance = .ok ()) ∧
    (∀ config, s.registry.config = some config → config.governance ≠ defaultPubkey) := by
  refine ⟨?_, ?_, Chain.run_lastAdded hrun, ?_, fun config ↦ Chain.run_governance hrun⟩
  · intro part input accounts receivableId amount nonce key message hpart haction hverified
    obtain ⟨before, _, _, advance, _, allowed, hbefore, -, -, -, hverified', hfound, -⟩ :=
      Chain.run_whitelisted hrun hpart haction
    obtain ⟨rfl, -⟩ : key = advance.attestor ∧ _ := by simpa [hverified] using hverified'
    have hadded := (Chain.run_lastAdded hbefore advance.attestor).mp (by simp [hfound])
    refine ⟨hadded, fun earlier revocation cranker hlast hremoved ↦ ?_⟩
    obtain ⟨_, _, _, _, hlast', haction'⟩ := hadded
    obtain ⟨-, rfl⟩ := hlast.unique hlast'
    simp [hremoved] at haction'
  · intro part input accounts receivableId amount nonce hpart haction
    obtain ⟨before, next, ps, advance, _, allowed, hbefore, hnext, hp, hstored, -, hfound, hkind⟩ :=
      Chain.run_whitelisted hrun hpart haction
    exact ⟨before, next, ps, advance, allowed, hbefore, hnext, hp, hstored, hfound, hkind⟩
  · intro key part input hpart hlists
    obtain ⟨before, next, hbefore, hstep, hnext⟩ := exists_step hpart hrun
    obtain ⟨config, hconfig, hgate⟩ := Chain.step_lists hstep hlists
    exact ⟨before, config, hbefore, hconfig, hgate⟩

namespace Localnet

open Client

/-- The bridge is used once and then removed from the whitelist. -/
def revoked : List Input := opening ++ [
  firstRequest 100000000,
  ⟨⟨t₀ + 100, companioned (squadsInstruction vaultTransactionExecute governance)⟩,
    .registry (.removeAllowedSigner cranker bridge)⟩]

end Localnet

theorem revocation_immediate_localnet : ∃ s,
    Chain.run Localnet.runtime Localnet.revoked = .ok s ∧
    LastAdded Localnet.bridge Localnet.opening ∧ ¬ LastAdded Localnet.bridge Localnet.revoked := by
  obtain ⟨s, ps, hrun, hp, htest⟩ := Localnet.reaches_iff.mp
    (show Localnet.reaches Localnet.revoked (fun s _ ↦
      s.registry.allowedSigners.lookup Localnet.bridge = none) = true by decide +kernel)
  obtain ⟨hrequest, -, hlisted, -⟩ := revocation_immediate hrun
  have hverified := Client.verifyPrevEd25519_companioned Localnet.bridge Localnet.signatureFirst
    (Localnet.attestationBytes (Localnet.t₀ + 86400) Localnet.t₀ Localnet.textNonce)
    (by decide +kernel)
  obtain ⟨hadded, -⟩ := hrequest Localnet.opening (Localnet.firstRequest 100000000) _ _ _ _
    Localnet.bridge _ ⟨[_], rfl⟩ rfl hverified
  refine ⟨s, hrun, hadded, fun hrevoked ↦ ?_⟩
  exact (hlisted Localnet.bridge).mpr hrevoked (of_decide_eq_true htest)

end CredMesh
