import CredMesh.Chain.System

/-!
# Transactions

The instructions of a transaction run one after another, each with the whole list of them in view,
and all of them succeed or none. Those of the escrow, the registry and the token program are actions
of the chain. A program outside the chain may call for such actions in its turn; whether its own
part succeeds is not known here.
-/

namespace CredMesh

open Outcome Escrow Registry IxIntrospection

/-- The programs whose instructions are actions of the chain. -/
def ProgramIds.onChain : List Pubkey :=
  [ProgramIds.escrow, ProgramIds.attestorRegistry, ProgramIds.token]

/-- The program that carries out an action. -/
def Action.program : Action → Pubkey
  | initPool _ _ => ProgramIds.escrow
  | pool _ => ProgramIds.escrow
  | registry _ => ProgramIds.attestorRegistry
  | token _ => ProgramIds.token

/-- An instruction of a transaction: one of a program of the chain, or one of another program with
the actions that this program calls for. -/
inductive Invocation
  | own (action : Action) (accounts : List AccountMeta) (data : List UInt8)
  | foreign (instruction : Instruction) (actions : List Action)

namespace Invocation

/-- The instruction as the others see it. -/
def instruction : Invocation → Instruction
  | own action accounts data => ⟨action.program, accounts, data⟩
  | foreign instruction _ => instruction

def actions : Invocation → List Action
  | own action _ _ => [action]
  | foreign _ actions => actions

/-- The part of an instruction that the chain does not run succeeds. The memo program and the
signature verification call nobody. -/
def Passes (Succeeds : Instruction → Prop) : Invocation → Prop
  | own _ _ _ => True
  | foreign instruction actions => instruction.programId ∉ ProgramIds.onChain ∧
      Succeeds instruction ∧
      (instruction.programId ∈ [ProgramIds.memo, ProgramIds.ed25519] → actions = [])

/-- An instruction of another program with fewer actions. -/
def withActions (actions : List Action) : Invocation → Option Invocation
  | own _ _ _ => none
  | foreign instruction _ => some (foreign instruction actions)

/-- What the chain runs of some instructions, the first of them at the given position. -/
def inputs (now : Int64) (instructions : List Instruction) : ℕ → List Invocation → List Input
  | _, [] => []
  | position, call :: calls =>
      call.actions.map (fun action ↦ ⟨⟨now, ⟨instructions, UInt16.ofNat position⟩⟩, action⟩) ++
        inputs now instructions (position + 1) calls

end Invocation

/-- A transaction of the given instructions succeeds and takes the chain to another state. -/
structure Completes (rt : Runtime) (Succeeds : Instruction → Prop) (now : Int64)
    (calls : List Invocation) (s s' : Chain) : Prop where
  passes : ∀ call ∈ calls, call.Passes Succeeds
  runs : Execution.run (Chain.step rt) s
    (Invocation.inputs now (calls.map Invocation.instruction) 0 calls) = .ok s'

/-! ## What an instruction reads of its transaction -/

section Shows

variable {rt : Runtime} {now : Int64} {sysvar sysvar' : InstructionsSysvar} {r r' : RegistryState}

theorem Escrow.readAttestation_of_shows (h : Shows sysvar sysvar') {allowed : AllowedSigner}
    {agent pool : Pubkey} {chainId : UInt64} {nonce : Bytes 16} {attestation : Attestation}
    (hread : readAttestation ⟨now, sysvar⟩ allowed agent pool chainId nonce = .ok attestation) :
    readAttestation ⟨now, sysvar'⟩ allowed agent pool chainId nonce = .ok attestation := by
  simp only [readAttestation, bind_eq_ok, mapError_eq_ok] at hread ⊢
  obtain ⟨verified, hverified, hrest⟩ := hread
  exact ⟨verified, h.verifyPrevEd25519 hverified, hrest⟩

theorem PoolInstruction.handler_of_shows (h : Shows sysvar sysvar') {s : PoolState}
    {t : Spl.TokenLedger} {ix : PoolInstruction} {effect : Effect}
    (heffect : ix.handler rt ⟨now, sysvar⟩ r s t = .ok effect) :
    ix.handler rt ⟨now, sysvar'⟩ r s t = .ok effect := by
  cases ix with
  | requestAdvance accounts receivableId amount nonce =>
      simp only [handler, Escrow.requestAdvance, bind_eq_ok] at heffect ⊢
      obtain ⟨loaded, hloaded, u, hfloor, attestation, hread, hrest⟩ := heffect
      exact ⟨loaded, hloaded, u, hfloor, attestation, readAttestation_of_shows h hread, hrest⟩
  | claimAndSettle accounts paymentAmount =>
      simp only [handler, Escrow.claimAndSettle, bind_eq_ok, mapError_eq_ok] at heffect ⊢
      obtain ⟨loaded, hloaded, u, hwindow, u', hmemo, hrest⟩ := heffect
      exact ⟨loaded, hloaded, u, hwindow, u', h.requireMemoNonce hmemo, hrest⟩
  | proposeParams accounts params =>
      simp only [handler, Escrow.proposeParams, bind_eq_ok, Escrow.requireGovernanceCpi_eq_ok]
        at heffect ⊢
      obtain ⟨u, hgovernance, u', hgate, hrest⟩ := heffect
      exact ⟨u, hgovernance, u', h.requireSquadsGovernanceCpi hgate, hrest⟩
  | skimProtocolFees accounts amount =>
      obtain ⟨mint, hready, hskims, htransfer, hevent⟩ := skimProtocolFees_eq_ok.mp heffect
      exact skimProtocolFees_eq_ok.mpr ⟨mint, hready,
        { hskims with companioned := h.requireSquadsGovernanceCpi hskims.companioned }, htransfer,
        hevent⟩
  | _ => exact heffect

theorem RegistryInstruction.handler_of_shows (h : Shows sysvar sysvar') {ix : RegistryInstruction}
    (heffect : ix.handler rt ⟨now, sysvar⟩ r = .ok r') :
    ix.handler rt ⟨now, sysvar'⟩ r = .ok r' := by
  cases ix with
  | initRegistry deployer governance => exact heffect
  | addAllowedSigner cranker signer kind =>
      simp only [RegistryInstruction.handler, Registry.addAllowedSigner, bind_eq_ok,
        Registry.requireGovernanceCpi_eq_ok] at heffect ⊢
      obtain ⟨config, hconfig, u, hfresh, u', hgate, hrest⟩ := heffect
      exact ⟨config, hconfig, u, hfresh, u', h.requireSquadsGovernanceCpi hgate, hrest⟩
  | removeAllowedSigner cranker key =>
      simp only [RegistryInstruction.handler, Registry.removeAllowedSigner, bind_eq_ok,
        Registry.requireGovernanceCpi_eq_ok] at heffect ⊢
      obtain ⟨config, hconfig, allowed, hallowed, u, hgate, hrest⟩ := heffect
      exact ⟨config, hconfig, allowed, hallowed, u, h.requireSquadsGovernanceCpi hgate, hrest⟩
  | setGovernance cranker newGovernance =>
      simp only [RegistryInstruction.handler, Registry.setGovernance, bind_eq_ok,
        Registry.requireGovernanceCpi_eq_ok] at heffect ⊢
      obtain ⟨config, hconfig, u, hgate, hrest⟩ := heffect
      exact ⟨config, hconfig, u, h.requireSquadsGovernanceCpi hgate, hrest⟩

/-- An action is accepted in every transaction that shows it what it looks for. -/
theorem Chain.step_of_shows (h : Shows sysvar sysvar') {action : Action} {s s' : Chain}
    (hstep : Chain.step rt ⟨⟨now, sysvar⟩, action⟩ s = .ok s') :
    Chain.step rt ⟨⟨now, sysvar'⟩, action⟩ s = .ok s' := by
  cases action with
  | initPool accounts params => exact hstep
  | pool ix =>
      simp only [step, bind_eq_ok] at hstep ⊢
      obtain ⟨u, hsigner, u', hrecords, state, hstate, effect, heffect, hcommit⟩ := hstep
      exact ⟨u, hsigner, u', hrecords, state, hstate, effect,
        PoolInstruction.handler_of_shows h heffect, hcommit⟩
  | registry ix =>
      simp only [step, bind_eq_ok] at hstep ⊢
      obtain ⟨u, hsigner, registry, heffect, hcommit⟩ := hstep
      exact ⟨u, hsigner, registry, RegistryInstruction.handler_of_shows h heffect, hcommit⟩
  | token ix => exact hstep

end Shows

/-! ## Prolonging and cutting off -/

/-- Two lists of instructions agree before a position, and the second has all that the checks look
for in the first. -/
structure Extends (instructions instructions' : List Instruction) (position : ℕ) : Prop where
  before : ∀ earlier < position, instructions'[earlier]? = instructions[earlier]?
  scanned : ∀ ix ∈ instructions.take maxIxScan,
    ix.programId = ProgramIds.memo ∨ ix.programId = ProgramIds.squadsV4 →
      ix ∈ instructions'.take maxIxScan

theorem Extends.shows {instructions instructions' : List Instruction} {position current : ℕ}
    (h : Extends instructions instructions' position) (hle : current ≤ position) :
    Shows ⟨instructions, UInt16.ofNat current⟩ ⟨instructions', UInt16.ofNat current⟩ where
  index := rfl
  previous hne := by
    refine h.before _ ?_
    have hpositive : (UInt16.ofNat current).toNat ≠ 0 := fun hzero ↦ hne (UInt16.toNat_inj.mp hzero)
    have hcurrent : (UInt16.ofNat current).toNat ≤ current := by
      rw [UInt16.toNat_ofNat']
      exact Nat.mod_le _ _
    have hprevious : (UInt16.ofNat current - 1).toNat = (UInt16.ofNat current).toNat - 1 := by
      have hone : (1 : UInt16) ≤ UInt16.ofNat current :=
        UInt16.le_iff_toNat_le.mpr (Nat.one_le_iff_ne_zero.mpr hpositive)
      rw [UInt16.toNat_sub_of_le _ _ hone]
      rfl
    dsimp only
    omega
  scanned := h.scanned

namespace Invocation

variable {rt : Runtime} {Succeeds : Instruction → Prop} {now : Int64}
  {instructions instructions' : List Instruction}

theorem inputs_append (position : ℕ) (first second : List Invocation) :
    inputs now instructions position (first ++ second) =
      inputs now instructions position first ++
        inputs now instructions (position + first.length) second := by
  induction first generalizing position with
  | nil => rfl
  | cons call calls ih =>
      rw [List.cons_append, inputs, ih, inputs, List.append_assoc, List.length_cons,
        Nat.add_right_comm, Nat.add_assoc]

theorem run_inputs_of_extends {position start : ℕ} {calls : List Invocation} {s s' : Chain}
    (h : Extends instructions instructions' position) (hle : start + calls.length ≤ position + 1)
    (hrun : Execution.run (Chain.step rt) s (inputs now instructions start calls) = .ok s') :
    Execution.run (Chain.step rt) s (inputs now instructions' start calls) = .ok s' := by
  induction calls generalizing start s with
  | nil => exact hrun
  | cons call calls ih =>
      rw [List.length_cons] at hle
      obtain ⟨middle, hfirst, hrest⟩ := Execution.run_append.mp hrun
      refine Execution.run_append.mpr ⟨middle, ?_, ih (by omega) hrest⟩
      exact Execution.run_map_of_step (fun action _ _ hstep ↦
        Chain.step_of_shows (h.shows (by omega)) hstep) hfirst

variable {calls : List Invocation} {call : Invocation} {action : Action}

@[simp]
theorem inputs_withActions_nil (position : ℕ) (calls : List Invocation) :
    inputs now instructions position (calls.filterMap (withActions [])) = [] := by
  induction calls generalizing position with
  | nil => rfl
  | cons call calls ih =>
      cases call with
      | own action accounts data => exact ih position
      | foreign instruction actions => exact ih (position + 1)

/-- An instruction of a program of the chain has no actions before its own. -/
theorem inputs_withActions {before after : List Action} (position : ℕ)
    (hactions : call.actions = before ++ action :: after) :
    inputs now instructions position ([call].filterMap (withActions before)) =
      before.map fun action ↦ ⟨⟨now, ⟨instructions, UInt16.ofNat position⟩⟩, action⟩ := by
  cases call with
  | own action accounts data =>
      cases before with
      | nil => rfl
      | cons first before => simp [actions] at hactions
  | foreign instruction actions =>
      simp [withActions, inputs, Invocation.actions]

theorem program_mem_onChain (action : Action) : action.program ∈ ProgramIds.onChain := by
  cases action <;> simp [Action.program, ProgramIds.onChain]

/-- The instructions of other programs are what is left when those of the chain are taken out. -/
theorem map_instruction_withActions (actions : List Action)
    (hpasses : ∀ call ∈ calls, call.Passes Succeeds) :
    (calls.filterMap (withActions actions)).map instruction =
      (calls.map instruction).filter fun ix ↦ ix.programId ∉ ProgramIds.onChain := by
  induction calls with
  | nil => rfl
  | cons call calls ih =>
      have hrest := ih fun other hother ↦ hpasses other (List.mem_cons_of_mem call hother)
      cases call with
      | own action accounts data =>
          rw [List.map_cons, List.filter_cons_of_neg
            (by simp [instruction, program_mem_onChain action]), ← hrest]
          rfl
      | foreign ix others =>
          have hforeign : (foreign ix others).instruction.programId ∉ ProgramIds.onChain :=
            (hpasses _ List.mem_cons_self).1
          rw [List.map_cons, List.filter_cons, if_pos (decide_eq_true hforeign), ← hrest]
          rfl

theorem passes_of_mem_withActions {actions : List Action} {kept : Invocation}
    (hpasses : ∀ call ∈ calls, call.Passes Succeeds)
    (hfewer : ∀ call ∈ calls, call.actions = [] → actions = [])
    (hkept : kept ∈ calls.filterMap (withActions actions)) : kept.Passes Succeeds := by
  obtain ⟨call, hcall, hsome⟩ := List.mem_filterMap.mp hkept
  cases call with
  | own action accounts data => cases hsome
  | foreign ix others =>
      obtain rfl := Option.some.inj hsome
      obtain ⟨hforeign, hsucceeds, hsilent⟩ := hpasses _ hcall
      exact ⟨hforeign, hsucceeds, fun hprogram ↦ hfewer _ hcall (hsilent hprogram)⟩

end Invocation

theorem mem_take_filter {α : Type} {p : α → Bool} {l : List α} {n : ℕ} {a : α}
    (ha : a ∈ l.take n) (hp : p a = true) : a ∈ (l.filter p).take n := by
  induction l generalizing n with
  | nil => simp at ha
  | cons b l ih =>
      cases n with
      | zero => simp at ha
      | succ n =>
          rw [List.take_succ_cons, List.mem_cons] at ha
          by_cases hb : p b = true
          · rw [List.filter_cons_of_pos hb, List.take_succ_cons, List.mem_cons]
            exact ha.imp_right ih
          · have hkept := ih (ha.resolve_left fun heq ↦ hb (heq ▸ hp))
            rw [List.filter_cons_of_neg hb]
            exact (List.take_prefix_take_left (Nat.le_succ n)).subset hkept

namespace Completes

variable {rt : Runtime} {Succeeds : Instruction → Prop} {now : Int64} {calls : List Invocation}
  {s s' s'' : Chain} {call : Invocation} {action : Action}

theorem nil (s : Chain) : Completes rt Succeeds now [] s s :=
  ⟨fun _ hmem ↦ absurd hmem List.not_mem_nil, rfl⟩

/-- One more instruction at the end. -/
theorem snoc (h : Completes rt Succeeds now calls s s') (hpasses : call.Passes Succeeds)
    (hruns : Execution.run (Chain.step rt) s' (Invocation.inputs now
      ((calls ++ [call]).map Invocation.instruction) calls.length [call]) = .ok s'') :
    Completes rt Succeeds now (calls ++ [call]) s s'' := by
  have hextends : Extends (calls.map Invocation.instruction)
      ((calls ++ [call]).map Invocation.instruction) calls.length := by
    rw [List.map_append]
    refine ⟨fun earlier hearlier ↦ ?_, fun ix hix _ ↦ ?_⟩
    · exact List.getElem?_append_left (by rwa [List.length_map])
    · exact ((List.prefix_append _ _).take maxIxScan).subset hix
  refine ⟨?_, ?_⟩
  · simpa only [List.forall_mem_append, List.forall_mem_singleton] using ⟨h.passes, hpasses⟩
  · rw [Invocation.inputs_append, Nat.zero_add, Execution.run_append]
    exact ⟨s', Invocation.run_inputs_of_extends hextends (by omega) h.runs, hruns⟩

/-- What comes before an action of a transaction that completes, together with the instructions of
other programs behind it, completes as well, and leads to the state that accepts the action. -/
theorem exists_prior (h : Completes rt Succeeds now calls s s') (hcall : call ∈ calls)
    (haction : action ∈ call.actions) :
    ∃ prior middle sysvar next, Completes rt Succeeds now prior s middle ∧
      Chain.step rt ⟨⟨now, sysvar⟩, action⟩ middle = .ok next ∧
      ∀ ix ∈ sysvar.instructions.take maxIxScan,
        ix.programId = ProgramIds.memo ∨ ix.programId = ProgramIds.squadsV4 →
          ix ∈ (prior.map Invocation.instruction).take maxIxScan := by
  obtain ⟨earlier, later, rfl⟩ := List.append_of_mem hcall
  obtain ⟨before, after, hactions⟩ := List.append_of_mem haction
  obtain ⟨hearlier, hpasses, hlater⟩ : (∀ call ∈ earlier, call.Passes Succeeds) ∧
      call.Passes Succeeds ∧ ∀ call ∈ later, call.Passes Succeeds := by
    simpa only [List.forall_mem_append, List.forall_mem_cons] using h.passes
  let instructions := (earlier ++ call :: later).map Invocation.instruction
  let rest := [call].filterMap (Invocation.withActions before) ++
    later.filterMap (Invocation.withActions [])
  have hrest : rest.map Invocation.instruction = ((call :: later).map Invocation.instruction).filter
      fun ix ↦ ix.programId ∉ ProgramIds.onChain := by
    rw [List.map_append, Invocation.map_instruction_withActions before
      (List.forall_mem_singleton.mpr hpasses), Invocation.map_instruction_withActions [] hlater,
      ← List.filter_append]
    rfl
  have hextends : Extends instructions ((earlier ++ rest).map Invocation.instruction)
      earlier.length := by
    rw [List.map_append, hrest]
    refine ⟨fun position hposition ↦ ?_, fun ix hix hprogram ↦ ?_⟩
    · rw [← List.length_map Invocation.instruction] at hposition
      simp only [instructions, List.map_append, List.getElem?_append_left hposition]
    · have hforeign : ix.programId ∉ ProgramIds.onChain := by
        obtain hprogram | hprogram := hprogram <;> rw [hprogram] <;> decide
      simp only [instructions, List.map_append, List.take_append, List.mem_append] at hix ⊢
      exact hix.imp_right fun hix ↦ mem_take_filter hix (decide_eq_true hforeign)
  have hruns : Execution.run (Chain.step rt) s
    (Invocation.inputs now instructions 0 (earlier ++ call :: later)) = .ok s' := h.runs
  rw [Invocation.inputs_append, Invocation.inputs, hactions, List.map_append, List.append_assoc,
    Execution.run_append] at hruns
  obtain ⟨start, hstart, hruns⟩ := hruns
  obtain ⟨middle, hbefore, hruns⟩ := Execution.run_append.mp hruns
  rw [List.map_cons, List.cons_append, Execution.run_cons] at hruns
  obtain ⟨next, hstep, -⟩ := hruns
  rw [← Invocation.inputs_withActions _ hactions] at hbefore
  refine ⟨earlier ++ rest, middle, ⟨instructions, UInt16.ofNat (0 + earlier.length)⟩, next,
    ⟨?_, ?_⟩, hstep, hextends.scanned⟩
  · rw [List.forall_mem_append, List.forall_mem_append]
    refine ⟨hearlier, fun kept hkept ↦ ?_, fun kept hkept ↦ ?_⟩
    · refine Invocation.passes_of_mem_withActions (List.forall_mem_singleton.mpr hpasses) ?_ hkept
      rw [List.forall_mem_singleton, hactions]
      exact fun hnil ↦ absurd hnil (by simp)
    · exact Invocation.passes_of_mem_withActions hlater (fun _ _ _ ↦ rfl) hkept
  · rw [Invocation.inputs_append, Invocation.inputs_append, Invocation.inputs_withActions_nil,
      List.append_nil, Execution.run_append]
    exact ⟨start, Invocation.run_inputs_of_extends hextends (by omega) hstart,
      Invocation.run_inputs_of_extends hextends (by
        have hlength := List.length_filterMap_le (Invocation.withActions before) [call]
        rw [List.length_singleton] at hlength
        omega) hbefore⟩

end Completes

end CredMesh
