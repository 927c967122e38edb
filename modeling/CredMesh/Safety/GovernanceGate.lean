import CredMesh.Chain.Custody
import CredMesh.Chain.Localnet

/-!
# The governance gate

The five privileged instructions run the same check: some Squads instruction of the transaction
names the governing vault as writable. Which Squads instructions exercise the authority of a vault
is a parameter. The check establishes an exercise of that authority exactly as far as no other
Squads instruction is given the vault as a writable account, and whoever assembles a transaction
is free to do so.
-/

namespace CredMesh

open Escrow Registry IxIntrospection

/-- The instructions behind the gate. -/
def Action.Privileged : Action → Prop
  | pool (.proposeParams _ _) => True
  | pool (.skimProtocolFees _ _) => True
  | registry (.initRegistry _ _) => False
  | registry _ => True
  | _ => False

/-- The vault that the state names for a privileged instruction. -/
def Chain.vaultFor (s : Chain) : Action → Option Pubkey
  | .pool ix => (s.pools.lookup ix.pool).map fun ps ↦ ps.pool.governance
  | .registry _ => s.registry.config.map AttestorConfig.governance
  | _ => none

/-- Every accepted privileged instruction passed the gate for the vault on record. -/
theorem Chain.step_gated {rt : Runtime} {input : Input} {s s' : Chain}
    (hstep : Chain.step rt input s = .ok s') (hprivileged : input.action.Privileged) :
    ∃ vault, s.vaultFor input.action = some vault ∧
      requireSquadsGovernanceCpi input.env.sysvar vault = .ok () := by
  cases Chain.step_cases hstep with
  | @pool ix state effect haction _ hfound heffect =>
      refine ⟨state.pool.governance, by simp [vaultFor, haction, hfound], ?_⟩
      rw [haction] at hprivileged
      cases ix with
      | proposeParams accounts params => exact (proposeParams_effect heffect).1
      | skimProtocolFees accounts amount => exact (skimProtocolFees_effect heffect).1
      | _ => exact hprivileged.elim
  | @registry ix registry haction heffect =>
      rw [haction] at hprivileged
      obtain ⟨config, hconfig, hgate⟩ := handler_gated heffect fun deployer governance hix ↦ by
        rw [hix] at hprivileged
        exact hprivileged
      exact ⟨config.governance, by simp [vaultFor, haction, hconfig], hgate⟩
  | initPool haction _ _ =>
      rw [haction] at hprivileged
      exact hprivileged.elim
  | token haction _ _ =>
      rw [haction] at hprivileged
      exact hprivileged.elim

section Squads

variable (Exercises : Instruction → Pubkey → Prop)

/-- The transaction runs a Squads instruction that exercises the authority of the vault. -/
def Exercised (sysvar : InstructionsSysvar) (vault : Pubkey) : Prop :=
  ∃ ix ∈ sysvar.instructions, ix.programId = ProgramIds.squadsV4 ∧ Exercises ix vault

/-- Among the instructions that are scanned, Squads is given the vault as a writable account only
to exercise its authority. -/
def NamedOnlyToExercise (sysvar : InstructionsSysvar) (vault : Pubkey) : Prop :=
  ∀ ix ∈ sysvar.instructions.take maxIxScan, ix.programId = ProgramIds.squadsV4 →
    (∃ account ∈ ix.accounts, account.pubkey = vault ∧ account.isWritable) → Exercises ix vault

variable {Exercises} {sysvar : InstructionsSysvar} {vault : Pubkey}

theorem isSquadsWriting_iff {ix : Instruction} :
    isSquadsWriting vault ix = true ↔ ix.programId = ProgramIds.squadsV4 ∧
      ∃ account ∈ ix.accounts, account.pubkey = vault ∧ account.isWritable := by
  simp [isSquadsWriting, List.any_eq_true]

/-- Given such a transaction, the gate is passed only with the authority of the vault. -/
theorem exercised_of_gate (hnamed : NamedOnlyToExercise Exercises sysvar vault)
    (hgate : requireSquadsGovernanceCpi sysvar vault = .ok ()) :
    Exercised Exercises sysvar vault := by
  obtain ⟨ix, hix, hwriting⟩ := requireSquadsGovernanceCpi_eq_ok.mp hgate
  obtain ⟨hprogram, haccount⟩ := isSquadsWriting_iff.mp hwriting
  exact ⟨ix, List.mem_of_mem_take hix, hprogram, hnamed ix hix hprogram haccount⟩

/-- The gate rejects a transaction that exercises nothing exactly if none of its Squads
instructions names the vault as writable. -/
theorem gate_rejects_iff (hnone : ¬ Exercised Exercises sysvar vault) :
    requireSquadsGovernanceCpi sysvar vault = .error .prevIxNotFound ↔
      NamedOnlyToExercise Exercises sysvar vault := by
  constructor
  · intro hrejects ix hix hprogram haccount
    have hgate : requireSquadsGovernanceCpi sysvar vault = .ok () :=
      requireSquadsGovernanceCpi_eq_ok.mpr ⟨ix, hix, isSquadsWriting_iff.mpr ⟨hprogram, haccount⟩⟩
    rw [hrejects] at hgate
    cases hgate
  · intro hnamed
    by_contra hpasses
    refine hnone (exercised_of_gate hnamed ?_)
    unfold requireSquadsGovernanceCpi Outcome.require at hpasses ⊢
    split
    · rfl
    · simp_all

end Squads

/-- Without an exercise of the vault's authority, the gate rejects a transaction exactly if its
Squads instructions do not name the vault as writable. In a run in which they never do so except
to exercise that authority, no privileged instruction is accepted without it. -/
theorem governance_gate_exact (Exercises : Instruction → Pubkey → Prop) :
    (∀ sysvar vault, ¬ Exercised Exercises sysvar vault →
      (requireSquadsGovernanceCpi sysvar vault = .error .prevIxNotFound ↔
        NamedOnlyToExercise Exercises sysvar vault)) ∧
    ∀ (rt : Runtime) (trace : List Input) (s : Chain), Chain.run rt trace = .ok s →
      (∀ part input state vault, part ++ [input] <+: trace → Chain.run rt part = .ok state →
        input.action.Privileged → state.vaultFor input.action = some vault →
        NamedOnlyToExercise Exercises input.env.sysvar vault) →
      ∀ part input state, part ++ [input] <+: trace → Chain.run rt part = .ok state →
        input.action.Privileged →
        ∃ vault, state.vaultFor input.action = some vault ∧
          Exercised Exercises input.env.sysvar vault := by
  refine ⟨fun sysvar vault ↦ gate_rejects_iff, ?_⟩
  intro rt trace s hrun hnamed part input state hpart hstate hprivileged
  obtain ⟨next, -, hstep⟩ := Execution.step_of_isPrefix hpart hrun hstate
  obtain ⟨vault, hvault, hgate⟩ := Chain.step_gated hstep hprivileged
  have honly := hnamed part input state vault hpart hstate hprivileged hvault
  exact ⟨vault, hvault, exercised_of_gate honly hgate⟩

namespace Localnet

open Client

/-- Only the execution of an approved vault transaction exercises the authority of a vault. -/
def Executes (ix : Instruction) (vault : Pubkey) : Prop :=
  ix.data.take 8 = vaultTransactionExecute ∧ ∃ account ∈ ix.accounts, account.pubkey = vault

instance (ix : Instruction) (vault : Pubkey) : Decidable (Executes ix vault) :=
  inferInstanceAs (Decidable (_ ∧ _))

instance (sysvar : InstructionsSysvar) (vault : Pubkey) :
    Decidable (Exercised Executes sysvar vault) :=
  inferInstanceAs (Decidable (∃ ix ∈ sysvar.instructions, _ ∧ _))

instance (sysvar : InstructionsSysvar) (vault : Pubkey) :
    Decidable (NamedOnlyToExercise Executes sysvar vault) :=
  inferInstanceAs (Decidable (∀ ix ∈ _, _ → _ → Executes ix vault))

/-- Squads' `multisig_create_v2`, by which anyone opens a multisig of their own, with one more
account at the end of its list. -/
def multisigCreateV2 (creator createKey multisig programConfig squadsTreasury trailing : Pubkey) :
    Instruction where
  programId := ProgramIds.squadsV4
  accounts := [
    { pubkey := programConfig, isSigner := false, isWritable := false },
    { pubkey := squadsTreasury, isSigner := false, isWritable := true },
    { pubkey := multisig, isSigner := false, isWritable := true },
    { pubkey := createKey, isSigner := true, isWritable := false },
    { pubkey := creator, isSigner := true, isWritable := true },
    { pubkey := defaultPubkey, isSigner := false, isWritable := false },
    { pubkey := trailing, isSigner := false, isWritable := true }]
  -- no config authority, a threshold of one, the creator as the only member with all permissions,
  -- and no time lock, rent collector or memo
  data := [50, 221, 199, 93, 40, 245, 139, 233] ++ [0] ++ [1, 0] ++ [1, 0, 0, 0] ++
    creator.toList ++ [7] ++ [0, 0, 0, 0] ++ [0] ++ [0]

def intruder : Pubkey := keyOf 66

/-- A new multisig that happens to list the governance vault. -/
def unrelatedMultisig : InstructionsSysvar :=
  companioned (multisigCreateV2 intruder (keyOf 67) (keyOf 68) (keyOf 69) (keyOf 70) governance)

/-- The intruder whitelists its own key as a bridge signer. -/
def intrusion : List Input := opening ++ [
  ⟨⟨t₀ + 100, unrelatedMultisig⟩, .registry (.addAllowedSigner intruder intruder 0)⟩]

end Localnet

/-- Along the opening, the bridge is whitelisted by the governance vault. -/
theorem governance_gate_exact_localnet : ∃ s,
    Chain.run Localnet.runtime Localnet.opening = .ok s ∧
    ∀ part input state, part ++ [input] <+: Localnet.opening →
      Chain.run Localnet.runtime part = .ok state → input.action.Privileged →
      ∃ vault, state.vaultFor input.action = some vault ∧
        Exercised Localnet.Executes input.env.sysvar vault := by
  obtain ⟨s, -, hrun, -⟩ := Localnet.reaches_iff.mp
    (show Localnet.reaches Localnet.opening (fun _ _ ↦ true) = true by decide +kernel)
  have hnamed : Localnet.everyStep Localnet.opening (fun _ input state ↦
      (state.vaultFor input.action).all fun vault ↦
        NamedOnlyToExercise Localnet.Executes input.env.sysvar vault) = true := by
    decide +kernel
  refine ⟨s, hrun, (governance_gate_exact Localnet.Executes).2 _ _ s hrun ?_⟩
  intro part input state vault hpart hstate _ hvault
  have htest := Localnet.everyStep_spec hnamed hpart hstate
  rw [hvault] at htest
  exact of_decide_eq_true htest

/-- A Squads instruction that takes no one's approval passes the gate for the vault listed at its
end, and with it the intruder's key gets onto the whitelist. -/
theorem unrelated_squads_instruction_passes :
    ¬ Exercised Localnet.Executes Localnet.unrelatedMultisig Localnet.governance ∧
    requireSquadsGovernanceCpi Localnet.unrelatedMultisig Localnet.governance = .ok () ∧
    ∃ s ps, Chain.run Localnet.runtime Localnet.intrusion = .ok s ∧
      s.pools.lookup Localnet.pool = some ps ∧
      (s.registry.allowedSigners.lookup Localnet.intruder).any
        (fun allowed ↦ allowed.kind = AttestorKind.creditBridge.asU8) = true := by
  have hreaches : Localnet.reaches Localnet.intrusion (fun s _ ↦
      (s.registry.allowedSigners.lookup Localnet.intruder).any
        fun allowed ↦ allowed.kind = AttestorKind.creditBridge.asU8) = true := by
    decide +kernel
  exact ⟨by decide +kernel, by decide +kernel, Localnet.reaches_iff.mp hreaches⟩

end CredMesh
