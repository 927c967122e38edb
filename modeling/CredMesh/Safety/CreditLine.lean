import CredMesh.Foundation.History
import CredMesh.Safety.QuoteService
import CredMesh.Safety.Replay
import CredMesh.Safety.Underwriting

/-!
# The credit line

The credit of an agent on EVM reaches the escrow through the bridge. If the keys on the whitelist
sign only what the service sends, then at every time the debt of an agent in a pool, together with
what it owed on EVM, was within its limit there when the last advance was issued to it.
-/

namespace CredMesh

open Escrow Bridge EcmaScript Execution ByteString CreditMessage

/-! ## Debt over a run -/

/-- The action issues an advance to an agent of a pool. -/
def Action.IssuesTo (p agent : Pubkey) : Action → Prop
  | .pool (.requestAdvance accounts _ _ _) => accounts.pool = p ∧ accounts.agent = agent
  | _ => False

section Debt

variable {rt : Runtime} {trace : List Input} {input : Input} {s s' : Chain} {p agent : Pubkey}

theorem PoolInstruction.Emits.exposureChange_nonpos {env : Env} {ps : PoolState}
    {ix : PoolInstruction} {event : Event} (h : ix.Emits rt env ps event)
    (hother : ¬ (Action.pool ix).IssuesTo ix.pool agent) :
    event.exposureChange ix.pool agent ≤ 0 := by
  cases h
  case requestAdvance => exact (if_neg fun hsame ↦ hother ⟨rfl, hsame.2⟩).le
  case claimAndSettle =>
    simp only [Event.exposureChange]
    split <;> omega
  case liquidate =>
    simp only [Event.exposureChange]
    split <;> omega
  all_goals exact le_rfl

/-- Only an advance to an agent adds to its debt. -/
theorem Chain.livePrincipal_le (hstep : Chain.step rt input s = .ok s')
    (hother : ¬ input.action.IssuesTo p agent) :
    s'.livePrincipal p agent ≤ s.livePrincipal p agent := by
  cases step_cases hstep with
  | @initPool accounts params effect _ hfresh heffect =>
      rw [livePrincipal_commit]
      split
      case isTrue hpool =>
        rw [(initPool_effect heffect).1]
        exact Nat.zero_le _
      case isFalse => exact le_rfl
  | @pool ix ps effect haction _ hfound heffect =>
      rw [livePrincipal_commit]
      split
      case isTrue hpool =>
        subst hpool
        rw [haction] at hother
        have hchange := PoolInstruction.handler_exposureChange heffect agent
        have hsign := (PoolInstruction.handler_emits heffect).exposureChange_nonpos hother
        rw [livePrincipal, hfound, Option.map_some, Option.getD_some]
        omega
      case isFalse => exact le_rfl
  | registry _ _ => exact le_rfl
  | token _ _ _ => exact le_rfl

/-- An agent in debt owes no more than it did right after the last advance to it. -/
theorem Chain.run_debt (hrun : Chain.run rt trace = .ok s) (p agent : Pubkey) :
    s.livePrincipal p agent = 0 ∨ ∃ earlier input after,
      LastOf (fun input ↦ input.action.IssuesTo p agent) trace earlier input ∧
      Chain.run rt (earlier ++ [input]) = .ok after ∧
      s.livePrincipal p agent ≤ after.livePrincipal p agent := by
  refine Execution.run_induction (motive := fun trace (s : Chain) ↦
    s.livePrincipal p agent = 0 ∨ ∃ earlier input after,
      LastOf (fun input ↦ input.action.IssuesTo p agent) trace earlier input ∧
      Chain.run rt (earlier ++ [input]) = .ok after ∧
      s.livePrincipal p agent ≤ after.livePrincipal p agent) (.inl rfl) ?_ hrun
  intro trace s input s' hbefore ih hstep
  by_cases hissues : input.action.IssuesTo p agent
  · exact .inr ⟨trace, input, s', LastOf.now trace hissues,
      Execution.run_snoc.mpr ⟨s, hbefore, hstep⟩, le_rfl⟩
  · have hle := livePrincipal_le hstep hissues
    obtain hnone | ⟨earlier, last, after, hlast, hafter, hdebt⟩ := ih
    · exact .inl (Nat.le_zero.mp (hle.trans hnone.le))
    · exact .inr ⟨earlier, last, after, hlast.snoc hissues, hafter, hle.trans hdebt⟩

end Debt

/-! ## From a quote to an advance -/

/-- Whatever a key signs while it is on the whitelist as a bridge key is a message that the service
sends. -/
def BridgeKeysSign (precompile : Ed25519Precompile) (rt : Runtime) (trace : List Input)
    (service : Service) : Prop :=
  ∀ part s key allowed message signature, part <+: trace → Chain.run rt part = .ok s →
    s.registry.allowedSigners.lookup key = some allowed →
    allowed.kind = AttestorKind.creditBridge.asU8 →
    precompile.ValidSignature key message signature →
    ∃ id response, (id, .quoted response) ∈ service.sent ∧
      Base64.decode response.messageB64 = message

/-- The service sent a quote for the agent, the pool and the nonce that is live at a time, and the
limit that EVM gave for it leaves room for a debt. -/
def Covered (environment : Environment) (cfg : ServiceConfig) (events : List ServiceEvent)
    (service : Service) (pool agent : Pubkey) (nonce : Bytes 16) (now : ℤ) (debt : ℕ) : Prop :=
  ∃ id response request earlier body evm dateNow evmAddress snap ttl message,
    (id, .quoted response) ∈ service.sent ∧
    Traced environment cfg events id response request earlier body evm dateNow agent pool nonce
      evmAddress snap ttl message ∧
    dateNow.seconds ≤ now ∧ now < dateNow.seconds + ttl ∧
    snap.outstandingAtoms + debt ≤ snap.creditLimitAtoms

theorem Bridge.decodeAttestation_of_encodeAttestation {input : CreditAttestationInput}
    {message : List UInt8} (h : encodeAttestation input = .ok message) :
    decodeAttestation message = input := by
  obtain ⟨agent, pool, creditLimit, outstanding, expiresAt, attestedAt, nonce, chainId, rfl⟩ :=
    (encodable_of_encodeAttestation h).exists_attestationInput
  exact (decodeAttestation_attestationInput h).2.2

section Covered

variable {solAddr : JsString → Option Pubkey} {sign : List UInt8 → Bytes 64 → Bytes 64}
  {environment : Environment} {cfg : ServiceConfig} {events : List ServiceEvent}
  {service : Service} {precompile : Ed25519Precompile} {rt : Runtime} {trace : List Input}
  {s : Chain}

theorem Covered.mono {pool agent : Pubkey} {nonce : Bytes 16} {now : ℤ} {debt less : ℕ}
    (h : Covered environment cfg events service pool agent nonce now debt) (hless : less ≤ debt) :
    Covered environment cfg events service pool agent nonce now less := by
  obtain ⟨id, response, request, earlier, body, evm, dateNow, evmAddress, snap, ttl, message, hsent,
    htraced, hpast, hlive, hroom⟩ := h
  exact ⟨id, response, request, earlier, body, evm, dateNow, evmAddress, snap, ttl, message, hsent,
    htraced, hpast, hlive, by omega⟩

/-- Right after an advance, all that the agent owes to the pool is covered by the quote for it. -/
theorem covered_of_issue (hlibrary : AddressLibrary solAddr)
    (hconfig : loadConfig environment = .ok cfg)
    (hservice : Service.run solAddr sign cfg events = .ok service) {input : Input} {s' : Chain}
    (hadmits : precompile.Admits input.env.sysvar)
    (hkeys : BridgeKeysSign precompile rt trace service) {part : List Input}
    (hpart : part <+: trace) (hrun : Chain.run rt part = .ok s)
    (hstep : Chain.step rt input s = .ok s') {accounts : RequestAdvance}
    {receivableId : Bytes 32} {amount : UInt64} {nonce : Bytes 16}
    (haction : input.action = .pool (.requestAdvance accounts receivableId amount nonce)) :
    Covered environment cfg events service accounts.pool accounts.agent nonce input.env.now.toInt
      (s'.livePrincipal accounts.pool accounts.agent) := by
  obtain ⟨ps, ps', attestation, ledger, advance, hp, hp', hissues⟩ :=
    Chain.step_issues hstep haction
  obtain ⟨allowed, hallowed, hread⟩ := hissues.attested
  obtain ⟨hfound, hseed, -⟩ := Registry.loadAllowedSigner_eq_ok.mp hallowed
  obtain ⟨message, hverified, hcarries, hsigner, hkind, hpast, hfresh, hexpiry⟩ :=
    readAttestation_carries hread
  obtain ⟨signature, hsignature⟩ := Ed25519Precompile.exists_validSignature hadmits hverified
  rw [← hseed, ← hsigner] at hfound
  obtain ⟨id, response, hsent, hdecoded⟩ :=
    hkeys part s _ allowed message signature hpart hrun hfound hkind hsignature
  obtain ⟨request, earlier, body, evm, dateNow, agent, pool, quoted, evmAddress, snap, ttl, sent,
    htraced⟩ := traced_of_sent hlibrary hconfig hservice hsent
  obtain rfl : message = sent := hdecoded.symm.trans htraced.quotes.delivered
  -- the escrow reads the terms that the service encoded
  have hterms := (decodeAttestation_of_encodeAttestation hcarries.encode).symm.trans
    (decodeAttestation_of_encodeAttestation htraced.quotes.encoded)
  simp only [attestationInput, quotedInput, CreditAttestationInput.mk.injEq] at hterms
  obtain ⟨hagent, hpool, hlimit, houtstanding, hexpires, hattested, hnonce, -⟩ := hterms
  obtain rfl := List.Vector.toList_injective hagent
  obtain rfl := List.Vector.toList_injective hpool
  obtain rfl := List.Vector.toList_injective hnonce
  refine ⟨id, response, request, earlier, body, evm, dateNow, evmAddress, snap, ttl, message, hsent,
    htraced, by omega, by omega, ?_⟩
  have hdebt : s'.livePrincipal accounts.pool accounts.agent =
      ps.livePrincipal accounts.agent + amount.toNat := by
    rw [Chain.livePrincipal, hp', Option.map_some, Option.getD_some, hissues.livePrincipal,
      if_pos rfl]
  have hunderwritten := hissues.underwritten
  omega

/-- The debt of an agent in a pool, whatever has been issued, settled and liquidated since, is
covered by a quote for the last advance that was issued to it: an authorised caller got it from the
service within fifteen minutes before the advance, and at that time the limit of the agent on EVM
exceeded what it owed there by the debt at least. -/
theorem debt_within_credit_line (hlibrary : AddressLibrary solAddr)
    (hconfig : loadConfig environment = .ok cfg)
    (hservice : Service.run solAddr sign cfg events = .ok service)
    (hadmits : ∀ input ∈ trace, precompile.Admits input.env.sysvar)
    (hkeys : BridgeKeysSign precompile rt trace service) (hrun : Chain.run rt trace = .ok s)
    {p : Pubkey} {ps : PoolState} (hp : s.pools.lookup p = some ps) (agent : Pubkey) :
    ps.issuedPrincipalOf agent = 0 ∨
    ∃ earlier input accounts receivableId amount nonce,
      LastOf (fun input ↦ input.action.IssuesTo p agent) trace earlier input ∧
      input.action = .pool (.requestAdvance accounts receivableId amount nonce) ∧
      Covered environment cfg events service p agent nonce input.env.now.toInt
        (ps.issuedPrincipalOf agent) := by
  have hlive : ps.issuedPrincipalOf agent = s.livePrincipal p agent := by
    rw [Chain.livePrincipal, hp]
    exact ((Chain.run_exposure hrun hp).live agent).symm
  rw [hlive]
  obtain hnone | ⟨earlier, input, after, hlast, hafter, hdebt⟩ := Chain.run_debt hrun p agent
  · exact .inl hnone
  · right
    obtain ⟨before, hbefore, hstep⟩ := Execution.run_snoc.mp hafter
    have hpart := hlast.isPrefix
    have hissues := hlast.isKind
    unfold Action.IssuesTo at hissues
    split at hissues
    case h_2 => exact hissues.elim
    case h_1 accounts receivableId amount nonce haction =>
      obtain ⟨rfl, rfl⟩ := hissues
      have hmem := hpart.mem (List.mem_append_right _ (List.mem_singleton_self input))
      have hcovered := covered_of_issue hlibrary hconfig hservice (hadmits input hmem) hkeys
        ((List.prefix_append _ _).trans hpart) hbefore hstep haction
      exact ⟨earlier, input, accounts, receivableId, amount, nonce, hlast, haction,
        hcovered.mono hdebt⟩

end Covered

namespace Localnet

open Client IxIntrospection

/-- A precompile that takes single entries pointing into their own instruction, with the signature
of the bridge over this message. -/
def quotePrecompile : Ed25519Precompile where
  ValidSignature key message signature :=
    key = bridge ∧ message = quotedMessage ∧ signature = signatureFirst
  Accepts instructions position := ∃ ix offsets, instructions[position]? = some ix ∧
    ix.data.head? = some 1 ∧ parseOffsets ix.data = some offsets ∧ offsets.PointsTo position ∧
    arrayAt 32 ix.data offsets.publicKeyOffset.toNat = bridge ∧
    slice ix.data offsets.messageDataOffset.toNat offsets.messageDataSize.toNat =
      quotedMessage ∧
    arrayAt 64 ix.data offsets.signatureOffset.toNat = signatureFirst
  sound := by
    rintro instructions position ix offsets hix ⟨_, _, hix', -, hoffsets', -, hvalid⟩ _ _ hoffsets _
    obtain rfl : ix = _ := by simpa [hix] using hix'
    obtain rfl : offsets = _ := by simpa [hoffsets] using hoffsets'
    exact hvalid

/-- The first advance, made with the quote of the service. -/
def quotedRequest : Input := request 1 100000000 t₀ (t₀ + 600) t₀ textNonce signatureFirst

theorem quotePrecompile_admits :
    ∀ input ∈ opening ++ [quotedRequest], quotePrecompile.Admits input.env.sysvar := by
  have hopening : opening.all (fun input ↦ input.env.sysvar.instructions.all
      fun ix ↦ ix.programId ≠ ProgramIds.ed25519) = true := by decide +kernel
  intro input hinput position ix hix hprogram
  obtain hold | hnew := List.mem_append.mp hinput
  · have hnone := List.all_eq_true.mp (List.all_eq_true.mp hopening input hold) ix
      (List.mem_of_getElem? hix)
    exact absurd hprogram (of_decide_eq_true hnone)
  · obtain rfl := List.mem_singleton.mp hnew
    match position with
    | 0 =>
        refine ⟨_, _, rfl, rfl, parseOffsets_ed25519Instruction 0 bridge signatureFirst
          quotedMessage (by decide +kernel), ⟨rfl, rfl, rfl⟩, ?_⟩
        decide +kernel
    | 1 =>
        obtain rfl : escrowInstruction = ix := by
          simpa [quotedRequest, request, companioned] using hix
        exact absurd hprogram (by decide)
    | position + 2 => simp [quotedRequest, request, companioned] at hix

end Localnet

/-- The agent of localnet has borrowed 100 USDC on a quote of the service. -/
theorem debt_within_credit_line_localnet : ∃ s ps cfg service nonce,
    Chain.run Localnet.runtime (Localnet.opening ++ [Localnet.quotedRequest]) = .ok s ∧
    s.pools.lookup Localnet.pool = some ps ∧ ps.issuedPrincipalOf Localnet.agent = 100000000 ∧
    Service.run Localnet.solAddr (fun _ _ ↦ Localnet.signatureFirst) cfg Localnet.serviceEvents =
      .ok service ∧
    Covered Localnet.environment cfg Localnet.serviceEvents service Localnet.pool Localnet.agent
      nonce Localnet.t₀.toInt 100000000 := by
  obtain ⟨s, ps, hrun, hp, hdebt⟩ := Localnet.reaches_iff.mp
    (show Localnet.reaches (Localnet.opening ++ [Localnet.quotedRequest])
      (fun _ ps ↦ ps.issuedPrincipalOf Localnet.agent = 100000000) = true by decide +kernel)
  have hdebt := of_decide_eq_true hdebt
  obtain ⟨cfg, service, response, hconfig, hservice, -, hsent⟩ := Localnet.exists_served
  have hkeys : BridgeKeysSign Localnet.quotePrecompile Localnet.runtime
      (Localnet.opening ++ [Localnet.quotedRequest]) service := by
    rintro part s key allowed message signature - - - - ⟨-, rfl, -⟩
    exact ⟨0, response, hsent, Localnet.decode_of_served hconfig hservice hsent⟩
  obtain hnone | ⟨earlier, input, accounts, receivableId, amount, nonce, hlast, -, hcovered⟩ :=
    debt_within_credit_line Localnet.addressLibrary_solAddr hconfig hservice
      Localnet.quotePrecompile_admits hkeys hrun hp Localnet.agent
  · rw [hdebt] at hnone
    cases hnone
  · have hissues : Localnet.quotedRequest.action.IssuesTo Localnet.pool Localnet.agent := ⟨rfl, rfl⟩
    obtain ⟨-, rfl⟩ := (LastOf.now_iff
      (fun input : Input ↦ input.action.IssuesTo Localnet.pool Localnet.agent) hissues).mp hlast
    rw [hdebt] at hcovered
    exact ⟨s, ps, cfg, service, nonce, hrun, hp, hdebt, hservice, hcovered⟩

end CredMesh
