import CredMesh.Bridge.ProgramLog
import CredMesh.Safety.Exposure

/-!
# Exposure from events

The EVM side knows the credit state of an agent only from the events that the bridge decodes. Adding
the principal of the issued advances and subtracting that of the settled and the liquidated ones
gives the live principal of the agent's ledger, because each instruction that changes the ledger
emits an event with exactly the change.
-/

namespace CredMesh

open Bridge Escrow

/-- What the bridge reads from the line in which the escrow logs an event. -/
def decoded (event : Event) : Option (EventName × Except TailError EventPayload) :=
  (recognise (LogEntry.data [event.encode]).render).map fun (_, kind, data) ↦
    (kind, decodeEvent kind data)

/-- The events that the bridge decodes, in order. -/
def received (events : List Event) : List (EventName × EventPayload) :=
  events.filterMap fun event ↦
    match decoded event with
    | some (kind, .ok payload) => some (kind, payload)
    | _ => none

/-- The sum of a field over the events of one kind about an agent of a pool. -/
def tally (kind : EventName) (field : EventPayload → Option ℕ) (pool agent : List Char)
    (events : List (EventName × EventPayload)) : ℕ :=
  ((events.filter fun (found, payload) ↦
    found = kind ∧ payload.pool = pool ∧ payload.agentSolanaPubkey = agent).map
      fun (_, payload) ↦ (field payload).getD 0).sum

/-- The exposure of an agent, rebuilt from decoded events. -/
def replayedExposure (pool agent : List Char) (events : List (EventName × EventPayload)) : ℤ :=
  tally .advanceIssued EventPayload.principalAtoms pool agent events -
    tally .advanceSettled EventPayload.principalAtoms pool agent events -
    tally .advanceLiquidated EventPayload.lossAtoms pool agent events

/-- The live principal of an agent, none where there is no pool. -/
def Chain.livePrincipal (s : Chain) (p agent : Pubkey) : ℕ :=
  ((s.pools.lookup p).map fun ps ↦ ps.livePrincipal agent).getD 0

/-! ## One event -/

/-- Every field of an event comes back. -/
theorem decoded_eq (event : Event) :
    decoded event =
      (nameOf event).bind fun kind ↦ (payloadOf event).map fun payload ↦ (kind, .ok payload) := by
  have hfields := decodeEvent_fields event
  rw [decoded, recognise_emitted]
  cases hname : nameOf event with
  | none => rfl
  | some kind =>
      rw [hname] at hfields
      obtain ⟨payload, hpayload, hread⟩ := Option.map_eq_some_iff.mp hfields.symm
      simp [hpayload, ← hread]

theorem decoded_eq_some {event : Event} {kind : EventName} {payload : EventPayload} :
    decoded event = some (kind, .ok payload) ↔
      nameOf event = some kind ∧ payloadOf event = some payload := by
  rw [decoded_eq]
  cases nameOf event <;> cases payloadOf event <;> simp

/-- What an event says about the live principal of an agent. -/
def Escrow.Event.exposureChange (p agent : Pubkey) : Event → ℤ
  | advanceIssued pool borrower _ principal _ _ _ =>
      if pool = p ∧ borrower = agent then principal.toNat else 0
  | advanceSettled pool borrower _ principal _ _ _ _ =>
      if pool = p ∧ borrower = agent then -principal.toNat else 0
  | advanceLiquidated pool borrower _ loss =>
      if pool = p ∧ borrower = agent then -loss.toNat else 0
  | _ => 0

theorem tally_append (kind : EventName) (field : EventPayload → Option ℕ) (pool agent : List Char)
    (first second : List (EventName × EventPayload)) :
    tally kind field pool agent (first ++ second) =
      tally kind field pool agent first + tally kind field pool agent second := by
  simp [tally]

theorem received_append (first second : List Event) :
    received (first ++ second) = received first ++ received second :=
  List.filterMap_append

theorem replayedExposure_append (pool agent : List Char)
    (first second : List (EventName × EventPayload)) :
    replayedExposure pool agent (first ++ second) =
      replayedExposure pool agent first + replayedExposure pool agent second := by
  simp only [replayedExposure, tally_append, Nat.cast_add]
  ring

/-- Texts of keys can be compared instead of keys, so one event is replayed as what it says. -/
theorem replayedExposure_singleton (p agent : Pubkey) (event : Event) :
    replayedExposure (bytesToBase58 p.toList) (bytesToBase58 agent.toList) (received [event]) =
      event.exposureChange p agent := by
  rw [received, List.filterMap_cons, decoded_eq]
  cases event <;>
    simp only [nameOf, payloadOf, Option.bind_some, Option.map_some, Option.bind_none,
      List.filterMap_nil, replayedExposure, tally, List.filter_cons, List.filter_nil,
      bytesToBase58_inj, Event.exposureChange]
  case advanceIssued pool borrower _ _ _ _ _ =>
    by_cases h : pool = p ∧ borrower = agent <;> simp [h]
  case advanceSettled pool borrower _ _ _ _ _ _ =>
    by_cases h : pool = p ∧ borrower = agent <;> simp [h]
  case advanceLiquidated pool borrower _ _ =>
    by_cases h : pool = p ∧ borrower = agent <;> simp [h]
  all_goals rfl

/-! ## One step -/

/-- An accepted instruction emits what it does to the live principal of each agent. -/
theorem PoolInstruction.handler_exposureChange {rt : Runtime} {env : Env}
    {r : Registry.RegistryState} {s : PoolState} {t : Spl.TokenLedger} {ix : PoolInstruction}
    {effect : Effect} (h : ix.handler rt env r s t = .ok effect) (agent : Pubkey) :
    (effect.state.livePrincipal agent : ℤ) =
      s.livePrincipal agent + effect.event.exposureChange ix.pool agent := by
  have hemits := handler_emits h
  have hchange := handler_advances h
  generalize effect.event = event at hemits ⊢
  generalize effect.state = s' at hchange ⊢
  cases hchange with
  | issue hissues =>
      cases hemits
      rw [hissues.livePrincipal]
      simp [Event.exposureChange, PoolInstruction.pool]
  | settle hsettles =>
      cases hemits with
      | @claimAndSettle _ _ advance _ hstored _ =>
          rw [hsettles.stored] at hstored
          obtain rfl := Option.some.inj hstored
          rw [← hsettles.closes.livePrincipal hsettles.live]
          simp only [Event.exposureChange, PoolInstruction.pool, true_and]
          split <;> simp
  | liquidate hliquidates =>
      cases hemits with
      | @liquidate _ advance hstored =>
          rw [hliquidates.stored] at hstored
          obtain rfl := Option.some.inj hstored
          rw [← hliquidates.closes.livePrincipal hliquidates.live]
          simp only [Event.exposureChange, PoolInstruction.pool, true_and]
          split <;> simp
  | unrelated hnone =>
      cases hemits
      case requestAdvance => cases hnone
      case claimAndSettle => cases hnone
      case liquidate => cases hnone
      all_goals exact (add_zero _).symm

/-- The event of an instruction is about the pool of the instruction. -/
theorem PoolInstruction.Emits.exposureChange_elsewhere {rt : Runtime} {env : Env} {s : PoolState}
    {ix : PoolInstruction} {event : Event} (h : ix.Emits rt env s event) {p : Pubkey}
    (hpool : ix.pool ≠ p) (agent : Pubkey) : event.exposureChange p agent = 0 := by
  cases h
  case requestAdvance => exact if_neg fun hsame ↦ hpool hsame.1
  case claimAndSettle => exact if_neg fun hsame ↦ hpool hsame.1
  case liquidate => exact if_neg fun hsame ↦ hpool hsame.1
  all_goals rfl

theorem initPool_event {rt : Runtime} {accounts : InitPool} {params : InitPoolParams}
    {t : Spl.TokenLedger} {effect : Effect} (h : initPool rt accounts params t = .ok effect) :
    effect.event = .poolInitialized accounts.pool accounts.assetMint accounts.shareMint
      params.governance := by
  simp only [initPool, Outcome.bind_eq_ok, Outcome.pure_eq_ok] at h
  obtain ⟨-, -, _, -, _, -, _, -, -, -, -, -, -, -, -, -, rfl⟩ := h
  rfl

namespace Chain

variable {rt : Runtime} {input : Input} {s s' : Chain} {trace : List Input}

theorem livePrincipal_commit (s : Chain) (address : Pubkey) (effect : Effect) (p agent : Pubkey) :
    (s.commit address effect).livePrincipal p agent =
      if p = address then effect.state.livePrincipal agent else s.livePrincipal p agent := by
  rw [livePrincipal, commit, AccountMap.lookup_insert_eq]
  split <;> rfl

/-- An accepted input logs at most one event, which says what the input does to the live principal
of every agent of every pool. -/
theorem step_exposureChange (h : step rt input s = .ok s') :
    ∃ new : Option Event, s'.events = s.events ++ new.toList ∧ ∀ p agent,
      (s'.livePrincipal p agent : ℤ) =
        s.livePrincipal p agent + (new.toList.map (Event.exposureChange p agent)).sum := by
  cases step_cases h with
  | @initPool accounts params effect _ hfresh heffect =>
      refine ⟨some effect.event, rfl, fun p agent ↦ ?_⟩
      rw [livePrincipal_commit, initPool_event heffect]
      split
      case isTrue hpool =>
        subst hpool
        rw [livePrincipal, hfresh, (initPool_effect heffect).1]
        rfl
      case isFalse => exact (add_zero _).symm
  | @pool ix ps effect _ _ hfound heffect =>
      refine ⟨some effect.event, rfl, fun p agent ↦ ?_⟩
      rw [livePrincipal_commit, Option.toList_some, List.map_singleton, List.sum_singleton]
      split
      case isTrue hpool =>
        subst hpool
        rw [PoolInstruction.handler_exposureChange heffect, livePrincipal, hfound]
        rfl
      case isFalse hpool =>
        rw [(PoolInstruction.handler_emits heffect).exposureChange_elsewhere (Ne.symm hpool),
          add_zero]
  | registry _ _ => exact ⟨none, by simp, fun p agent ↦ (add_zero _).symm⟩
  | token _ _ _ => exact ⟨none, by simp, fun p agent ↦ (add_zero _).symm⟩

theorem replayedExposure_received (p agent : Pubkey) (events : List Event) :
    replayedExposure (bytesToBase58 p.toList) (bytesToBase58 agent.toList) (received events) =
      (events.map (Event.exposureChange p agent)).sum := by
  induction events with
  | nil => rfl
  | cons event events ih =>
      rw [← List.singleton_append, received_append, replayedExposure_append,
        replayedExposure_singleton, ih, List.singleton_append, List.map_cons, List.sum_cons]

/-- At every point of a run the events so far add up to the live principal. -/
theorem run_replayed (hrun : run rt trace = .ok s) (p agent : Pubkey) :
    (s.livePrincipal p agent : ℤ) = (s.events.map (Event.exposureChange p agent)).sum := by
  refine Execution.run_invariant (motive := fun s : Chain ↦ (s.livePrincipal p agent : ℤ) =
    (s.events.map (Event.exposureChange p agent)).sum) rfl ?_ hrun
  intro s input s' ih hstep
  obtain ⟨new, hevents, hchange⟩ := step_exposureChange hstep
  rw [hchange, ih, hevents, List.map_append, List.sum_append]

/-- Every event of a run was logged by one step of it. -/
theorem run_event (hrun : run rt trace = .ok s) {earlier later : List Event} {event : Event}
    (hevents : s.events = earlier ++ event :: later) :
    ∃ part input before after, part ++ [input] <+: trace ∧ run rt part = .ok before ∧
      step rt input before = .ok after ∧ before.events = earlier ∧
      after.events = earlier ++ [event] := by
  refine Execution.run_induction (motive := fun trace s ↦ ∀ later,
    s.events = earlier ++ event :: later → ∃ part input before after, part ++ [input] <+: trace ∧
      run rt part = .ok before ∧ step rt input before = .ok after ∧ before.events = earlier ∧
      after.events = earlier ++ [event]) ?_ ?_ hrun later hevents
  · intro later hnil
    simp [genesis] at hnil
  · intro part before input after hbefore ih hstep later hlogged
    obtain ⟨new, hnew, -⟩ := step_exposureChange hstep
    rw [hlogged] at hnew
    -- The event is the last one of the run, or it was there before this step.
    have hcases : before.events = earlier ∧ later = [] ∨
        ∃ rest, before.events = earlier ++ event :: rest := by
      cases new with
      | none => exact .inr ⟨later, by simpa using hnew.symm⟩
      | some found =>
          obtain rfl | ⟨rest, last, rfl⟩ := List.eq_nil_or_concat later
          · exact .inl ⟨(List.append_inj' hnew rfl).1.symm, rfl⟩
          · have hsplit : earlier ++ event :: rest ++ [last] = before.events ++ [found] := by
              simpa using hnew
            exact .inr ⟨rest, (List.append_inj' hsplit rfl).1.symm⟩
    obtain ⟨hearlier, rfl⟩ | ⟨rest, hrest⟩ := hcases
    · exact ⟨part, input, before, after, List.prefix_refl _, hbefore, hstep, hearlier, hlogged⟩
    · obtain ⟨part', input', before', after', hpart, hlog⟩ := ih rest hrest
      exact ⟨part', input', before', after', hpart.trans (List.prefix_append part [input]), hlog⟩

end Chain

/-! ## Settlements -/

/-- The step of a run that logged a settlement, and what it took from the agent: the two parts named
in the event and nothing else. An agent that owns the treasury account gets its part back. -/
inductive SettledIn (rt : Runtime) (trace : List Input) (earlier : List Event) (event : Event)
    (payload : EventPayload) : Prop
  | by_claim {part : List Input} {input : Input} {before after : Chain} {ps : PoolState}
      {accounts : ClaimAndSettle} {paymentAmount : UInt64} {lpCut protocolCut : ℕ}
      (hpart : part ++ [input] <+: trace) (hbefore : Chain.run rt part = .ok before)
      (hstep : Chain.step rt input before = .ok after)
      (hlogged : after.events = earlier ++ [event])
      (haction : input.action = .pool (.claimAndSettle accounts paymentAmount))
      (hp : before.pools.lookup accounts.pool = some ps)
      (hagent : payload.agentSolanaPubkey = bytesToBase58 accounts.agent.toList)
      (haccount : before.tokens.IsAccount accounts.agentUsdcAta ps.pool.assetMint accounts.agent)
      (hlpCut : payload.lpCutAtoms = some lpCut)
      (hprotocolCut : payload.protocolCutAtoms = some protocolCut)
      (hdebited : after.tokens.balance accounts.agentUsdcAta + (lpCut + protocolCut) =
        before.tokens.balance accounts.agentUsdcAta +
          if accounts.agentUsdcAta = ps.pool.treasuryAta then protocolCut else 0)
      (hothers : ∀ account, account ≠ accounts.agentUsdcAta →
        before.tokens.balance account ≤ after.tokens.balance account) :
      SettledIn rt trace earlier event payload

variable {rt : Runtime} {trace : List Input} {s : Chain}

/-- Only `claim_and_settle` logs a settlement. -/
theorem Chain.step_settled {input : Input} {s' : Chain} {event : Event}
    (h : step rt input s = .ok s') (hevents : s'.events = s.events ++ [event])
    (hname : nameOf event = some .advanceSettled) :
    ∃ accounts paymentAmount ps effect,
      input.action = .pool (.claimAndSettle accounts paymentAmount) ∧
      s.pools.lookup accounts.agent = none ∧ s.pools.lookup accounts.pool = some ps ∧
      PoolInstruction.handler rt input.env s.registry ps s.tokens
        (.claimAndSettle accounts paymentAmount) = .ok effect ∧
      effect.event = event ∧ s' = s.commit accounts.pool effect := by
  have hlast {effect : Effect} (hcommit : s.events ++ [effect.event] = s.events ++ [event]) :
      effect.event = event := by simpa using hcommit
  cases step_cases h with
  | initPool _ _ heffect =>
      rw [← hlast hevents, initPool_event heffect] at hname
      cases hname
  | pool haction hsigner hfound heffect =>
      have hevent := hlast hevents
      have hemits := PoolInstruction.handler_emits heffect
      rw [hevent] at hemits
      cases hemits
      case claimAndSettle =>
        exact ⟨_, _, _, _, haction, hsigner, hfound, heffect, hevent, rfl⟩
      all_goals cases hname
  | registry _ _ => simp at hevents
  | token _ _ _ => simp at hevents

/-- A settlement takes from the agent what its event says. -/
theorem Chain.run_settled (hrun : Chain.run rt trace = .ok s) {earlier later : List Event}
    {event : Event} {payload : EventPayload} (hevents : s.events = earlier ++ event :: later)
    (hdecoded : decoded event = some (.advanceSettled, .ok payload)) :
    SettledIn rt trace earlier event payload := by
  obtain ⟨part, input, before, after, hpart, hbefore, hstep, hearlier, hafter⟩ :=
    Chain.run_event hrun hevents
  obtain ⟨hname, hpayload⟩ := decoded_eq_some.mp hdecoded
  obtain ⟨accounts, paymentAmount, ps, effect, haction, hsigner, hp, heffect, hevent, rfl⟩ :=
    Chain.step_settled hstep (by rw [hearlier, hafter]) hname
  obtain ⟨advance, _, _, split, hsettles, haccount, -, hflow⟩ := claimAndSettle_effect heffect
  have hemits : PoolInstruction.Emits rt input.env ps (.claimAndSettle accounts paymentAmount)
      event := by
    rw [← hevent]
    exact PoolInstruction.handler_emits heffect
  cases hemits with
  | @claimAndSettle _ _ stored split' hstored hsplit =>
      rw [hsettles.stored] at hstored
      obtain rfl := Option.some.inj hstored
      obtain rfl : split = split' := Except.ok.inj (hsettles.divided.symm.trans hsplit)
      obtain rfl := Option.some.inj hpayload
      have hvault : accounts.agentUsdcAta ≠ ps.pool.usdcVault := by
        refine haccount.ne_of_owner ((run_custodial hbefore).custody _ ps hp).vault fun hsame ↦ ?_
        rw [hsame, hp] at hsigner
        cases hsigner
      have hagent : bytesToBase58 advance.agent.toList = bytesToBase58 accounts.agent.toList := by
        rw [hsettles.payer]
      refine .by_claim hpart hbefore hstep hafter haction hp hagent haccount rfl rfl ?_ ?_
      · have hbalance := hflow.balance accounts.agentUsdcAta
        simp only [Pi.add_apply, Pi.single_eq_same, Pi.single_apply, if_neg hvault] at hbalance
        rw [add_comm split.lpCut.toNat]
        exact hbalance
      · intro account hother
        have hbalance := hflow.balance account
        simp only [Pi.add_apply, Pi.single_eq_of_ne hother, add_zero] at hbalance
        exact Nat.le.intro hbalance.symm

/-- The bridge decodes every field of an advance event exactly, and keys can be told apart by their
texts. At every point of a run, for every pool and agent, the decoded events add up to the live
principal on chain. Every settlement debited the agent by the two parts named in its event. -/
theorem events_reconstruct_exposure (hrun : Chain.run rt trace = .ok s) :
    (∀ event, decoded event = (nameOf event).bind fun kind ↦
      (payloadOf event).map fun payload ↦ (kind, .ok payload)) ∧
    (∀ first second : Pubkey,
      bytesToBase58 first.toList = bytesToBase58 second.toList ↔ first = second) ∧
    (∀ p agent, replayedExposure (bytesToBase58 p.toList) (bytesToBase58 agent.toList)
      (received s.events) = s.livePrincipal p agent) ∧
    ∀ earlier event later payload, s.events = earlier ++ event :: later →
      decoded event = some (.advanceSettled, .ok payload) →
      SettledIn rt trace earlier event payload := by
  refine ⟨decoded_eq, fun _ _ ↦ bytesToBase58_inj, fun p agent ↦ ?_, ?_⟩
  · rw [Chain.replayedExposure_received, Chain.run_replayed hrun]
  · intro earlier event later payload hevents hdecoded
    exact Chain.run_settled hrun hevents hdecoded

/-- Two advances, the first of which is repaid. -/
def Localnet.repaid : List Input := opening ++ [
  firstRequest 100000000,
  request 2 40000000 (t₀ + 86399) (t₀ + 172800) (t₀ + 86399) textNonce signatureSecond,
  settle 1 110000000 (t₀ + 86399) textNonce.toList]

/-- The second advance is what the events of the run leave open, and the last of them is the
settlement of the first. -/
theorem events_reconstruct_exposure_localnet : ∃ s earlier event payload,
    Chain.run Localnet.runtime Localnet.repaid = .ok s ∧
    replayedExposure (bytesToBase58 Localnet.pool.toList) (bytesToBase58 Localnet.agent.toList)
      (received s.events) = 40000000 ∧
    s.events = earlier ++ [event] ∧
    SettledIn Localnet.runtime Localnet.repaid earlier event payload := by
  obtain ⟨s, ps, hrun, hp, htest⟩ := Localnet.reaches_iff.mp
    (show Localnet.reaches Localnet.repaid (fun s ps ↦
      ps.livePrincipal Localnet.agent = 40000000 ∧
      s.events.getLast?.any fun event ↦
        nameOf event = some .advanceSettled ∧ (payloadOf event).isSome) = true by decide +kernel)
  obtain ⟨hlive, hlast⟩ := of_decide_eq_true htest
  obtain ⟨event, hevent, hkind⟩ := (Option.any_eq_true _ _).mp hlast
  obtain ⟨hname, hsome⟩ := of_decide_eq_true hkind
  obtain ⟨payload, hpayload⟩ := Option.isSome_iff_exists.mp hsome
  obtain ⟨earlier, hevents⟩ := List.getLast?_eq_some_iff.mp hevent
  obtain ⟨-, -, hreplayed, hsettled⟩ := events_reconstruct_exposure hrun
  refine ⟨s, earlier, event, payload, hrun, ?_, hevents,
    hsettled earlier event [] payload hevents (decoded_eq_some.mpr ⟨hname, hpayload⟩)⟩
  rw [hreplayed, Chain.livePrincipal, hp, Option.map_some, Option.getD_some, hlive]
  rfl

end CredMesh
