import CredMesh.Chain.Custody
import CredMesh.Chain.Localnet

/-!
# The life of an advance

An advance is named by its pool, its agent and its receivable. Over a whole run it is issued at
most once and then either settled or liquidated, at most once. Its account is deleted when it
ends; what forbids a second life are the two records that are never closed, the consumed payment
written with the issuance and the tombstone written with a liquidation.
-/

namespace CredMesh

open Escrow AccountMap

/-- What an action does to the advance under a key of the pool. -/
def Action.operationOn (p : Pubkey) (key : AdvanceKey) : Action → Option Operation
  | .pool ix => if ix.pool = p then
      ix.operation.bind fun (operation, on) ↦ if on = key then some operation else none
    else none
  | _ => none

/-- Everything that happened to an advance, in order. -/
def operations (p : Pubkey) (key : AdvanceKey) (trace : List Input) : List Operation :=
  trace.filterMap fun input ↦ input.action.operationOn p key

theorem operations_snoc (p : Pubkey) (key : AdvanceKey) (trace : List Input) (input : Input) :
    operations p key (trace ++ [input]) =
      operations p key trace ++ (input.action.operationOn p key).toList := by
  cases h : input.action.operationOn p key <;> simp [operations, h]

theorem Action.operationOn_of_not_isOn {p : Pubkey} {action : Action} (h : ¬ action.IsOn p)
    (key : AdvanceKey) : action.operationOn p key = none := by
  unfold Action.operationOn
  split
  case h_1 ix => exact if_neg fun heq ↦ h ⟨ix, rfl, heq⟩
  case h_2 => rfl

/-- The accounts under a key of the pool, by what happened to the advance. -/
inductive Stage (s : PoolState) (key : AdvanceKey) : List Operation → Prop
  | unused (hadvance : s.advances.lookup key = none) (hconsumed : s.consumed.lookup key = none)
      (htombstone : s.tombstones.lookup key = none) : Stage s key []
  | outstanding {advance : Advance} (hadvance : s.advances.lookup key = some advance)
      (hconsumed : s.consumed.lookup key ≠ none) (htombstone : s.tombstones.lookup key = none) :
      Stage s key [.issue]
  | settled (hadvance : s.advances.lookup key = none) (hconsumed : s.consumed.lookup key ≠ none)
      (htombstone : s.tombstones.lookup key = none) : Stage s key [.issue, .settle]
  | liquidated (hadvance : s.advances.lookup key = none)
      (hconsumed : s.consumed.lookup key ≠ none) (htombstone : s.tombstones.lookup key ≠ none) :
      Stage s key [.issue, .liquidate]

namespace Stage

variable {s s' : PoolState} {key : AdvanceKey} {before : List Operation}

/-- The stage depends on the three accounts only. -/
theorem congr (h : Stage s key before) (hadvance : s'.advances.lookup key = s.advances.lookup key)
    (hconsumed : s'.consumed.lookup key = s.consumed.lookup key)
    (htombstone : s'.tombstones.lookup key = s.tombstones.lookup key) : Stage s' key before := by
  cases h with
  | unused h₁ h₂ h₃ => exact .unused (hadvance ▸ h₁) (hconsumed ▸ h₂) (htombstone ▸ h₃)
  | outstanding h₁ h₂ h₃ => exact .outstanding (hadvance ▸ h₁) (hconsumed ▸ h₂) (htombstone ▸ h₃)
  | settled h₁ h₂ h₃ => exact .settled (hadvance ▸ h₁) (hconsumed ▸ h₂) (htombstone ▸ h₃)
  | liquidated h₁ h₂ h₃ => exact .liquidated (hadvance ▸ h₁) (hconsumed ▸ h₂) (htombstone ▸ h₃)

/-- A payment that is not consumed was never issued against. -/
theorem eq_nil (h : Stage s key before) (hconsumed : s.consumed.lookup key = none) :
    before = [] ∧ s.tombstones.lookup key = none := by
  cases h with
  | unused _ _ htombstone => exact ⟨rfl, htombstone⟩
  | outstanding _ hused _ => exact absurd hconsumed hused
  | settled _ hused _ => exact absurd hconsumed hused
  | liquidated _ hused _ => exact absurd hconsumed hused

/-- An advance that is there has been issued, and that is all. -/
theorem eq_issue {advance : Advance} (h : Stage s key before)
    (hadvance : s.advances.lookup key = some advance) :
    before = [.issue] ∧ s.consumed.lookup key ≠ none ∧ s.tombstones.lookup key = none := by
  cases h with
  | unused habsent _ _ => simp [habsent] at hadvance
  | outstanding _ hused htombstone => exact ⟨rfl, hused, htombstone⟩
  | settled habsent _ _ => simp [habsent] at hadvance
  | liquidated habsent _ _ => simp [habsent] at hadvance

theorem tombstone_iff (h : Stage s key before) :
    s.tombstones.lookup key ≠ none ↔ Operation.liquidate ∈ before := by
  cases h with
  | unused _ _ htombstone => simp [htombstone]
  | outstanding _ _ htombstone => simp [htombstone]
  | settled _ _ htombstone => simp [htombstone]
  | liquidated _ _ htombstone => simp [htombstone]

theorem isPrefix (h : Stage s key before) :
    before <+: [.issue, .settle] ∨ before <+: [.issue, .liquidate] := by
  cases h with
  | unused _ _ _ => exact .inl List.nil_prefix
  | outstanding _ _ _ => exact .inl ⟨[.settle], rfl⟩
  | settled _ _ _ => exact .inl (List.prefix_refl _)
  | liquidated _ _ _ => exact .inr (List.prefix_refl _)

end Stage

namespace PoolInstruction

variable {rt : Runtime} {env : Env} {r : Registry.RegistryState} {s s' : PoolState}
  {ix : PoolInstruction} {key : AdvanceKey}

/-- What an accepted instruction does to the accounts under one key: one of the three operations,
or nothing at all. -/
inductive KeyChange (rt : Runtime) (env : Env) (r : Registry.RegistryState) (s : PoolState)
    (key : AdvanceKey) : PoolInstruction → PoolState → Prop
  | issue {accounts : RequestAdvance} {receivableId : Bytes 32} {amount : UInt64}
      {nonce : Bytes 16} {attestation : Attestation} {ledger : AgentIssuanceLedger}
      {advance : Advance} {s' : PoolState} (hkey : key = (accounts.agent, receivableId))
      (hissues : Issues rt env accounts receivableId amount nonce r s attestation ledger advance
        s') :
      KeyChange rt env r s key (.requestAdvance accounts receivableId amount nonce) s'
  | settle {accounts : ClaimAndSettle} {paymentAmount : UInt64} {advance : Advance}
      {consumed : ConsumedPayment} {ledger : AgentIssuanceLedger} {split : Waterfall}
      {s' : PoolState} (hkey : key = (advance.agent, advance.receivableId))
      (hsettles : Settles rt env accounts paymentAmount s advance consumed ledger split s') :
      KeyChange rt env r s key (.claimAndSettle accounts paymentAmount) s'
  | liquidate {accounts : Liquidate} {advance : Advance} {consumed : ConsumedPayment}
      {ledger : AgentIssuanceLedger} {s' : PoolState}
      (hkey : key = (advance.agent, advance.receivableId))
      (hliquidates : Liquidates rt env accounts s advance consumed ledger s') :
      KeyChange rt env r s key (.liquidate accounts) s'
  | untouched {ix : PoolInstruction} {s' : PoolState}
      (hquiet : (Action.pool ix).operationOn ix.pool key = none)
      (hadvance : s'.advances.lookup key = s.advances.lookup key)
      (hconsumed : s'.consumed.lookup key = s.consumed.lookup key)
      (htombstone : s'.tombstones.lookup key = s.tombstones.lookup key) :
      KeyChange rt env r s key ix s'

theorem operationOn_of_ne {operation : Operation} {on : AdvanceKey}
    (hoperation : ix.operation = some (operation, on)) (hne : key ≠ on) :
    (Action.pool ix).operationOn ix.pool key = none := by
  simp [Action.operationOn, hoperation, hne.symm]

theorem AdvanceChange.at_key (h : ix.AdvanceChange rt env r s s') (key : AdvanceKey) :
    ix.KeyChange rt env r s key s' := by
  cases h with
  | @issue accounts receivableId _ _ _ _ _ _ hissues =>
      by_cases hkey : key = (accounts.agent, receivableId)
      · exact .issue hkey hissues
      · refine .untouched (operationOn_of_ne rfl hkey) ?_ ?_ ?_
        · rw [hissues.advances, lookup_insert_eq, if_neg hkey]
        · rw [hissues.consumed, lookup_insert_eq, if_neg hkey]
        · rw [hissues.tombstones]
  | @settle accounts _ advance _ _ _ _ hsettles =>
      have hon := hsettles.key_eq
      by_cases hkey : key = (advance.agent, advance.receivableId)
      · exact .settle hkey hsettles
      · refine .untouched (operationOn_of_ne rfl (hon ▸ hkey)) ?_ ?_ ?_
        · rw [hsettles.closes.advances, lookup_erase_eq, if_neg hkey]
        · rw [hsettles.closes.consumed]
        · rw [hsettles.tombstones]
  | @liquidate accounts advance _ _ _ hliquidates =>
      have hon := hliquidates.key_eq
      by_cases hkey : key = (advance.agent, advance.receivableId)
      · exact .liquidate hkey hliquidates
      · refine .untouched (operationOn_of_ne rfl (hon ▸ hkey)) ?_ ?_ ?_
        · rw [hliquidates.closes.advances, lookup_erase_eq, if_neg hkey]
        · rw [hliquidates.closes.consumed]
        · rw [hliquidates.tombstones, lookup_insert_eq, if_neg hkey]
  | unrelated hnone =>
      exact .untouched (by simp [Action.operationOn, hnone]) rfl rfl rfl

namespace KeyChange

/-- One instruction takes an advance from one stage to the next. -/
theorem stage {before : List Operation} (h : ix.KeyChange rt env r s key s')
    (hstage : Stage s key before) :
    Stage s' key (before ++ ((Action.pool ix).operationOn ix.pool key).toList) := by
  cases h with
  | @issue accounts receivableId amount nonce _ _ advance _ hkey hissues =>
      subst hkey
      obtain ⟨rfl, htombstone⟩ := hstage.eq_nil hissues.unconsumed
      have hadvance : s'.advances.lookup (accounts.agent, receivableId) = some advance := by
        rw [hissues.advances, Finmap.lookup_insert]
      have hconsumed : s'.consumed.lookup (accounts.agent, receivableId) ≠ none := by
        simp [hissues.consumed]
      have hoperation : (Action.pool (.requestAdvance accounts receivableId amount
          nonce)).operationOn accounts.pool (accounts.agent, receivableId) = some .issue := by
        simp [Action.operationOn, operation, PoolInstruction.pool]
      rw [PoolInstruction.pool, hoperation]
      exact .outstanding hadvance hconsumed (by rw [hissues.tombstones, htombstone])
  | @settle accounts paymentAmount advance _ _ _ _ hkey hsettles =>
      subst hkey
      obtain ⟨rfl, hused, htombstone⟩ := hstage.eq_issue hsettles.live.found
      have hadvance : s'.advances.lookup (advance.agent, advance.receivableId) = none := by
        rw [hsettles.closes.advances, Finmap.lookup_erase]
      have hoperation : (Action.pool (.claimAndSettle accounts paymentAmount)).operationOn
          accounts.pool (advance.agent, advance.receivableId) = some .settle := by
        simp [Action.operationOn, operation, PoolInstruction.pool, hsettles.key_eq]
      rw [PoolInstruction.pool, hoperation]
      exact .settled hadvance (by rwa [hsettles.closes.consumed])
        (by rw [hsettles.tombstones, htombstone])
  | @liquidate accounts advance _ _ _ hkey hliquidates =>
      subst hkey
      obtain ⟨rfl, hused, -⟩ := hstage.eq_issue hliquidates.live.found
      have hadvance : s'.advances.lookup (advance.agent, advance.receivableId) = none := by
        rw [hliquidates.closes.advances, Finmap.lookup_erase]
      have htombstone : s'.tombstones.lookup (advance.agent, advance.receivableId) ≠ none := by
        simp [hliquidates.tombstones]
      have hoperation : (Action.pool (.liquidate accounts)).operationOn accounts.pool
          (advance.agent, advance.receivableId) = some .liquidate := by
        simp [Action.operationOn, operation, PoolInstruction.pool, hliquidates.key_eq]
      rw [PoolInstruction.pool, hoperation]
      exact .liquidated hadvance (by rwa [hliquidates.closes.consumed]) htombstone
  | untouched hquiet hadvance hconsumed htombstone =>
      rw [hquiet, Option.toList_none, List.append_nil]
      exact hstage.congr hadvance hconsumed htombstone

/-- A consumed payment is never rewritten. -/
theorem consumed_kept {payment : ConsumedPayment} (h : ix.KeyChange rt env r s key s')
    (hfound : s.consumed.lookup key = some payment) : s'.consumed.lookup key = some payment := by
  cases h with
  | issue hkey hissues =>
      rw [hkey, hissues.unconsumed] at hfound
      cases hfound
  | settle _ hsettles => rwa [hsettles.closes.consumed]
  | liquidate _ hliquidates => rwa [hliquidates.closes.consumed]
  | untouched _ _ hconsumed _ => rwa [hconsumed]

/-- Once issued, an advance is left alone until it is closed. -/
theorem advance_kept {advance : Advance} (h : ix.KeyChange rt env r s key s')
    (hconsumed : s.consumed.lookup key ≠ none)
    (hfound : s.advances.lookup key = some advance ∨ s.advances.lookup key = none) :
    s'.advances.lookup key = some advance ∨ s'.advances.lookup key = none := by
  cases h with
  | issue hkey hissues => exact absurd (hkey ▸ hissues.unconsumed) hconsumed
  | settle hkey hsettles =>
      rw [hsettles.closes.advances, hkey]
      exact .inr (Finmap.lookup_erase _ _)
  | liquidate hkey hliquidates =>
      rw [hliquidates.closes.advances, hkey]
      exact .inr (Finmap.lookup_erase _ _)
  | untouched _ hadvance _ _ => rwa [hadvance]

/-- A tombstone is never rewritten. -/
theorem tombstone_kept {tombstone : LiquidationTombstone} (h : ix.KeyChange rt env r s key s')
    (hfound : s.tombstones.lookup key = some tombstone) :
    s'.tombstones.lookup key = some tombstone := by
  cases h with
  | issue _ hissues => rwa [hissues.tombstones]
  | settle _ hsettles => rwa [hsettles.tombstones]
  | liquidate hkey hliquidates =>
      rw [hkey, hliquidates.unburied] at hfound
      cases hfound
  | untouched _ _ _ htombstone => rwa [htombstone]

end KeyChange

end PoolInstruction

namespace Chain

variable {rt : Runtime} {input : Input} {trace : List Input} {s s' : Chain} {p : Pubkey}
  {ps ps' : PoolState} {key : AdvanceKey}

/-- An accepted input takes an advance from one stage to the next. -/
theorem step_stage {before : List Operation} (h : step rt input s = .ok s')
    (hp : s.pools.lookup p = some ps) (hstage : Stage ps key before) :
    ∃ ps', s'.pools.lookup p = some ps' ∧
      Stage ps' key (before ++ (input.action.operationOn p key).toList) := by
  obtain ⟨ps', hp', hchange⟩ := step_change h hp
  refine ⟨ps', hp', ?_⟩
  cases hchange with
  | elsewhere helsewhere =>
      rw [Action.operationOn_of_not_isOn helsewhere, Option.toList_none, List.append_nil]
      exact hstage
  | handled haction hpool _ heffect =>
      subst hpool
      rw [haction]
      exact ((PoolInstruction.handler_advances heffect).at_key key).stage hstage

/-- In every reachable state the accounts under a key show what happened to its advance. -/
theorem run_stage (hrun : run rt trace = .ok s) (key : AdvanceKey) :
    (s.pools.lookup p = none ∧ operations p key trace = []) ∨
      ∃ ps, s.pools.lookup p = some ps ∧ Stage ps key (operations p key trace) := by
  refine Execution.run_induction (motive := fun trace s ↦
    (s.pools.lookup p = none ∧ operations p key trace = []) ∨
      ∃ ps, s.pools.lookup p = some ps ∧ Stage ps key (operations p key trace))
    (.inl ⟨rfl, rfl⟩) ?_ hrun
  intro trace s input s' hrun ih hstep
  rw [operations_snoc]
  obtain ⟨hp, hnothing⟩ | ⟨ps, hp, hstage⟩ := ih
  · rw [hnothing, Action.operationOn_of_not_isOn (step_elsewhere hstep hp)]
    cases hp' : s'.pools.lookup p with
    | none => exact .inl ⟨rfl, rfl⟩
    | some ps' =>
        obtain ⟨_, _, -, -, rfl, -⟩ := step_create (run_custodial hrun).minted hstep hp hp'
        exact .inr ⟨_, rfl, .unused (Finmap.lookup_empty key) (Finmap.lookup_empty key)
          (Finmap.lookup_empty key)⟩
  · exact .inr (step_stage hstep hp hstage)

/-- The consumed payment and the tombstone under a key stay as they are for ever. -/
theorem step_records_kept (h : step rt input s = .ok s') (hp : s.pools.lookup p = some ps) :
    ∃ ps', s'.pools.lookup p = some ps' ∧
      (∀ payment, ps.consumed.lookup key = some payment →
        ps'.consumed.lookup key = some payment) ∧
      ∀ tombstone, ps.tombstones.lookup key = some tombstone →
        ps'.tombstones.lookup key = some tombstone := by
  obtain ⟨ps', hp', hchange⟩ := step_change h hp
  refine ⟨ps', hp', ?_⟩
  cases hchange with
  | elsewhere _ => exact ⟨fun _ hfound ↦ hfound, fun _ hfound ↦ hfound⟩
  | handled _ _ _ heffect =>
      have hkey := (PoolInstruction.handler_advances heffect).at_key key
      exact ⟨fun _ hfound ↦ hkey.consumed_kept hfound, fun _ hfound ↦ hkey.tombstone_kept hfound⟩

/-- A payment consumed at some point of a run is there, unchanged, from then on. -/
theorem consumed_forever {part : List Input} {payment : ConsumedPayment} (hpart : part <+: trace)
    (hrun : run rt trace = .ok s') (hstate : run rt part = .ok s)
    (hp : s.pools.lookup p = some ps) (hfound : ps.consumed.lookup key = some payment) :
    ∃ ps', s'.pools.lookup p = some ps' ∧ ps'.consumed.lookup key = some payment := by
  refine Execution.invariant_of_isPrefix
    (motive := fun state ↦ ∃ ps', state.pools.lookup p = some ps' ∧
      ps'.consumed.lookup key = some payment) hpart hrun hstate ⟨ps, hp, hfound⟩ ?_
  intro state input next hstate hstep
  obtain ⟨ps, hp, hfound⟩ := hstate
  obtain ⟨ps', hp', hkept, -⟩ := step_records_kept hstep hp
  exact ⟨ps', hp', hkept payment hfound⟩

theorem tombstone_forever {part : List Input} {tombstone : LiquidationTombstone}
    (hpart : part <+: trace) (hrun : run rt trace = .ok s') (hstate : run rt part = .ok s)
    (hp : s.pools.lookup p = some ps) (hfound : ps.tombstones.lookup key = some tombstone) :
    ∃ ps', s'.pools.lookup p = some ps' ∧ ps'.tombstones.lookup key = some tombstone := by
  refine Execution.invariant_of_isPrefix
    (motive := fun state ↦ ∃ ps', state.pools.lookup p = some ps' ∧
      ps'.tombstones.lookup key = some tombstone) hpart hrun hstate ⟨ps, hp, hfound⟩ ?_
  intro state input next hstate hstep
  obtain ⟨ps, hp, hfound⟩ := hstate
  obtain ⟨ps', hp', -, hkept⟩ := step_records_kept hstep hp
  exact ⟨ps', hp', hkept tombstone hfound⟩

/-- From its issuance on, the account of an advance holds the same data until it is closed, and is
not opened again. -/
theorem advance_fixed {part : List Input} {advance : Advance} (hpart : part <+: trace)
    (hrun : run rt trace = .ok s') (hstate : run rt part = .ok s)
    (hp : s.pools.lookup p = some ps) (hfound : ps.advances.lookup key = some advance) :
    ∃ ps', s'.pools.lookup p = some ps' ∧
      (ps'.advances.lookup key = some advance ∨ ps'.advances.lookup key = none) := by
  have hconsumed : ps.consumed.lookup key ≠ none := by
    obtain ⟨hnone, -⟩ | ⟨found, hfound', hstage⟩ := run_stage (p := p) hstate key
    · simp [hp] at hnone
    · obtain rfl : found = ps := by simpa [hp] using hfound'.symm
      exact (hstage.eq_issue hfound).2.1
  obtain ⟨payment, hpayment⟩ := Option.ne_none_iff_exists'.mp hconsumed
  obtain ⟨ps', hp', hkept, -⟩ := Execution.invariant_of_isPrefix
    (motive := fun state ↦ ∃ ps', state.pools.lookup p = some ps' ∧
      (ps'.advances.lookup key = some advance ∨ ps'.advances.lookup key = none) ∧
      ps'.consumed.lookup key = some payment) hpart hrun hstate ⟨ps, hp, .inl hfound, hpayment⟩ (by
    intro state input next hstate hstep
    obtain ⟨ps, hp, hfound, hpayment⟩ := hstate
    obtain ⟨ps', hp', hchange⟩ := step_change hstep hp
    refine ⟨ps', hp', ?_⟩
    cases hchange with
    | elsewhere _ => exact ⟨hfound, hpayment⟩
    | handled _ _ _ heffect =>
        have hkey := (PoolInstruction.handler_advances heffect).at_key key
        exact ⟨hkey.advance_kept (by simp [hpayment]) hfound, hkey.consumed_kept hpayment⟩)
  exact ⟨ps', hp', hkept⟩

end Chain

/-- The advance under a key was recorded by an accepted `request_advance` of the trace. -/
inductive Issued (rt : Runtime) (p : Pubkey) (key : AdvanceKey) (advance : Advance)
    (trace : List Input) : Prop
  | by_request {part : List Input} {input : Input} {before : Chain} {ps ps' : PoolState}
      {accounts : RequestAdvance} {receivableId : Bytes 32} {amount : UInt64} {nonce : Bytes 16}
      {attestation : Attestation} {ledger : AgentIssuanceLedger}
      (hpart : part ++ [input] <+: trace) (hbefore : Chain.run rt part = .ok before)
      (haction : input.action = .pool (.requestAdvance accounts receivableId amount nonce))
      (hpool : accounts.pool = p) (hkey : key = (accounts.agent, receivableId))
      (hp : before.pools.lookup p = some ps)
      (hissues : Issues rt input.env accounts receivableId amount nonce before.registry ps
        attestation ledger advance ps') :
      Issued rt p key advance trace

variable {rt : Runtime} {trace : List Input} {s : Chain}

theorem Issued.snoc {p : Pubkey} {key : AdvanceKey} {advance : Advance}
    (h : Issued rt p key advance trace) (input : Input) :
    Issued rt p key advance (trace ++ [input]) := by
  cases h with
  | by_request hpart hbefore haction hpool hkey hp hissues =>
      exact .by_request (hpart.trans (List.prefix_append trace [input])) hbefore haction hpool
        hkey hp hissues

/-- Every stored advance is as its issuance recorded it. -/
theorem Chain.run_issued {p : Pubkey} {ps : PoolState} {key : AdvanceKey} {advance : Advance}
    (hrun : Chain.run rt trace = .ok s) (hp : s.pools.lookup p = some ps)
    (hfound : ps.advances.lookup key = some advance) : Issued rt p key advance trace := by
  refine Chain.pool_induction (motive := fun trace ps ↦ ps.advances.lookup key = some advance →
    Issued rt p key advance trace) ?_ ?_ ?_ hrun hp hfound
  · intro trace input accounts params t effect heffect hfound
    rw [(initPool_effect heffect).1] at hfound
    simp at hfound
  · intro trace input ps _ ih hfound
    exact (ih hfound).snoc input
  · intro trace input s ps ix effect hrun hp haction hpool heffect ih hfound
    cases (PoolInstruction.handler_advances heffect).at_key key with
    | issue hkey hissues =>
        have hwritten := hissues.advances
        rw [hwritten, hkey, Finmap.lookup_insert] at hfound
        cases hfound
        exact .by_request (List.prefix_refl _) hrun haction hpool hkey hp hissues
    | settle hkey hsettles =>
        rw [hsettles.closes.advances, hkey, Finmap.lookup_erase] at hfound
        cases hfound
    | liquidate hkey hliquidates =>
        rw [hliquidates.closes.advances, hkey, Finmap.lookup_erase] at hfound
        cases hfound
    | untouched _ hadvance _ _ =>
        rw [hadvance] at hfound
        exact (ih hfound).snoc input

/-- In every run, what happens to the advance of an agent on a receivable is an initial part of
its issuance followed by one settlement or one liquidation. From the issuance on its consumed
payment is there with the nonce and the agent; a tombstone is there exactly if it was liquidated,
with the terms of the advance that was closed and the time of the liquidation. -/
theorem advance_lifecycle (hrun : Chain.run rt trace = .ok s) (p agent : Pubkey)
    (receivableId : Bytes 32) :
    (operations p (agent, receivableId) trace <+: [.issue, .settle] ∨
      operations p (agent, receivableId) trace <+: [.issue, .liquidate]) ∧
    (∀ part input accounts amount nonce, part ++ [input] <+: trace →
      input.action = .pool (.requestAdvance accounts receivableId amount nonce) →
      accounts.pool = p → accounts.agent = agent →
      ∃ ps payment, s.pools.lookup p = some ps ∧
        ps.consumed.lookup (agent, receivableId) = some payment ∧ payment.nonce = nonce ∧
        payment.agent = agent) ∧
    (∀ ps, s.pools.lookup p = some ps →
      (ps.tombstones.lookup (agent, receivableId) ≠ none ↔
        .liquidate ∈ operations p (agent, receivableId) trace)) ∧
    (∀ part input accounts, part ++ [input] <+: trace →
      input.action = .pool (.liquidate accounts) → accounts.pool = p →
      accounts.advance.key = (agent, receivableId) →
      ∃ before ps advance ps' tombstone, Chain.run rt part = .ok before ∧
        before.pools.lookup p = some ps ∧
        ps.advances.lookup (agent, receivableId) = some advance ∧
        s.pools.lookup p = some ps' ∧
        ps'.tombstones.lookup (agent, receivableId) = some tombstone ∧
        tombstone.agent = agent ∧ tombstone.principal = advance.principal ∧
        tombstone.expiresAt = advance.expiresAt ∧ tombstone.liquidatedAt = input.env.now) := by
  refine ⟨?_, ?_, ?_, ?_⟩
  · obtain ⟨-, hnothing⟩ | ⟨ps, -, hstage⟩ := Chain.run_stage (p := p) hrun (agent, receivableId)
    · rw [hnothing]
      exact .inl List.nil_prefix
    · exact hstage.isPrefix
  · rintro part input accounts amount nonce hpart haction rfl rfl
    obtain ⟨before, next, -, hstep, hnext⟩ := Execution.exists_step hpart hrun
    obtain ⟨ps, ps', attestation, ledger, advance, -, hp', hissues⟩ :=
      Chain.step_issues hstep haction
    have hconsumed : ps'.consumed.lookup (accounts.agent, receivableId) =
        some (consumedPayment rt input.env.now accounts receivableId nonce) := by
      rw [hissues.consumed, Finmap.lookup_insert]
    obtain ⟨last, hlast, hkept⟩ := Chain.consumed_forever hpart hrun hnext hp' hconsumed
    exact ⟨last, _, hlast, hkept, rfl, rfl⟩
  · intro ps hp
    obtain ⟨hnone, -⟩ | ⟨found, hfound, hstage⟩ :=
      Chain.run_stage (p := p) hrun (agent, receivableId)
    · simp [hp] at hnone
    · obtain rfl : found = ps := by simpa [hp] using hfound.symm
      exact hstage.tombstone_iff
  · rintro part input accounts hpart haction rfl hkey
    obtain ⟨before, next, hbefore, hstep, hnext⟩ := Execution.exists_step hpart hrun
    obtain ⟨ps, ps', advance, _, _, hp, hp', hliquidates⟩ := Chain.step_liquidates hstep haction
    have hnamed : (agent, receivableId) = (advance.agent, advance.receivableId) :=
      hkey.symm.trans hliquidates.key_eq
    have hstored := hliquidates.live.found
    have htombstone : ps'.tombstones.lookup (advance.agent, advance.receivableId) =
        some (tombstoneOf rt input.env.now accounts.pool advance) := by
      rw [hliquidates.tombstones, Finmap.lookup_insert]
    rw [← hnamed] at hstored htombstone
    obtain ⟨last, hlast, hkept⟩ := Chain.tombstone_forever hpart hrun hnext hp' htombstone
    exact ⟨before, ps, advance, last, _, hbefore, hp, hstored, hlast, hkept,
      (congrArg Prod.fst hnamed).symm, rfl, rfl, rfl⟩

/-- The first advance is issued and written off: its payment stays consumed, and it has a
tombstone. -/
theorem advance_lifecycle_localnet : ∃ s ps payment,
    Chain.run Localnet.runtime Localnet.defaulted = .ok s ∧
    s.pools.lookup Localnet.pool = some ps ∧
    operations Localnet.pool (Localnet.agent, Localnet.keyOf 1) Localnet.defaulted =
      [.issue, .liquidate] ∧
    ps.consumed.lookup (Localnet.agent, Localnet.keyOf 1) = some payment ∧
    payment.nonce = Localnet.textNonce ∧
    ps.tombstones.lookup (Localnet.agent, Localnet.keyOf 1) ≠ none := by
  obtain ⟨s, ps, hrun, hp, -⟩ := Localnet.reaches_iff.mp
    (show Localnet.reaches Localnet.defaulted (fun _ _ ↦ true) = true by decide +kernel)
  have hoperations : operations Localnet.pool (Localnet.agent, Localnet.keyOf 1)
      Localnet.defaulted = [.issue, .liquidate] := by decide +kernel
  obtain ⟨-, hconsumed, htombstone, -⟩ :=
    advance_lifecycle hrun Localnet.pool Localnet.agent (Localnet.keyOf 1)
  obtain ⟨found, payment, hfound, hpayment, hnonce, -⟩ :=
    hconsumed Localnet.opening (Localnet.firstRequest 100000000) _ _ _
      ⟨[Localnet.liquidation 1 _], rfl⟩ rfl rfl rfl
  obtain rfl : ps = found := by simpa [hp] using hfound
  refine ⟨s, ps, payment, hrun, hp, hoperations, hpayment, hnonce, (htombstone ps hp).mpr ?_⟩
  rw [hoperations]
  decide

end CredMesh
