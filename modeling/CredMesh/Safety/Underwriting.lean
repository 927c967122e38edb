import CredMesh.Safety.Exposure

/-!
# Underwriting against attestations

An advance is issued only against bytes that a whitelisted bridge key signed, and these bytes are
the bridge's own encoding of the terms that the advance was checked against. The signature is
checked by the ed25519 precompile, which is a parameter: all that is used of it is that a single
entry pointing into its own instruction names a key, a message and a valid signature.
-/

namespace CredMesh

open Escrow IxIntrospection ByteString CreditMessage Bridge

/-- The offset table of an ed25519 instruction points into that instruction only. -/
def IxIntrospection.Ed25519Offsets.PointsTo (offsets : Ed25519Offsets) (position : ℕ) : Prop :=
  offsets.signatureInstructionIndex.toNat = position ∧
  offsets.publicKeyInstructionIndex.toNat = position ∧
  offsets.messageInstructionIndex.toNat = position

/-- The ed25519 precompile, by the position of the instruction in the transaction. -/
structure Ed25519Precompile where
  ValidSignature : Pubkey → List UInt8 → Bytes 64 → Prop
  Accepts : List Instruction → ℕ → Prop
  sound : ∀ instructions position ix offsets, instructions[position]? = some ix →
    Accepts instructions position → ix.programId = ProgramIds.ed25519 →
    ix.data.head? = some 1 → parseOffsets ix.data = some offsets → offsets.PointsTo position →
    ValidSignature (arrayAt 32 ix.data offsets.publicKeyOffset.toNat)
      (slice ix.data offsets.messageDataOffset.toNat offsets.messageDataSize.toNat)
      (arrayAt 64 ix.data offsets.signatureOffset.toNat)

namespace Ed25519Precompile

variable (precompile : Ed25519Precompile)

/-- A transaction runs only if the precompile accepts each of its ed25519 instructions. -/
def Admits (sysvar : InstructionsSysvar) : Prop :=
  ∀ position ix, sysvar.instructions[position]? = some ix → ix.programId = ProgramIds.ed25519 →
    precompile.Accepts sysvar.instructions position

variable {precompile}

/-- The key and message that a handler reads back carry a valid signature. -/
theorem exists_validSignature {sysvar : InstructionsSysvar} {key : Pubkey} {message : List UInt8}
    (hadmits : precompile.Admits sysvar) (h : verifyPrevEd25519 sysvar = .ok (key, message)) :
    ∃ signature, precompile.ValidSignature key message signature := by
  obtain ⟨-, ix, offsets, hix, hprogram, hone, hoffsets, ⟨hsignature, hkey, hmessage⟩, -, -, rfl,
    rfl⟩ := verifyPrevEd25519_eq_ok.mp h
  refine ⟨_, precompile.sound _ _ ix offsets hix (hadmits _ ix hix hprogram) hprogram hone
    hoffsets ⟨?_, ?_, ?_⟩⟩
  · rw [hsignature]
  · rw [hkey]
  · rw [hmessage]

end Ed25519Precompile

/-- A message that carries the terms is what the bridge encodes for them. -/
theorem Escrow.Carries.encode {message : List UInt8} {agent pool : Pubkey} {chainId : UInt64}
    {nonce : Bytes 16} {attestation : Attestation}
    (h : Carries message agent pool chainId nonce attestation) :
    encodeAttestation (attestationInput agent pool attestation.creditLimit attestation.outstanding
      attestation.expiresAt attestation.attestedAt nonce chainId) = .ok message := by
  have hnonce : arrayAt 16 message nonceOffset = nonce := by
    apply List.Vector.toList_injective
    rw [arrayAt_toList (by rw [h.length]; decide)]
    exact h.nonce
  have hencoded := encodeAttestation_decode h.length h.version
  rwa [h.agent, h.pool, h.creditLimit, h.outstanding, h.expiresAt, h.attestedAt, hnonce,
    h.chainId] at hencoded

/-- Opening a ledger for an issuance does not change the principal it counts. -/
theorem Escrow.Issues.underwritten {rt : Runtime} {env : Env} {accounts : RequestAdvance}
    {receivableId : Bytes 32} {amount : UInt64} {nonce : Bytes 16} {r : Registry.RegistryState}
    {s s' : PoolState} {attestation : Attestation} {ledger : AgentIssuanceLedger}
    {advance : Advance}
    (h : Issues rt env accounts receivableId amount nonce r s attestation ledger advance s') :
    attestation.outstanding.toNat + s.livePrincipal accounts.agent + amount.toNat ≤
      attestation.creditLimit.toNat := by
  have hlimit := h.charges.underwritten
  simp only [rollWindow_livePrincipal, bindLedger_livePrincipal] at hlimit
  rw [PoolState.livePrincipal]
  cases hledger : s.ledgers.lookup accounts.agent <;> simpa [hledger, zeroedLedger] using hlimit

/-- In every state, an accepted `request_advance` has behind it a bridge key on the whitelist and
a valid signature of that key over the encoding of fresh terms that cover the amount. The advance
it stores names the key and the expiry of these terms. -/
theorem underwriting_sound {rt : Runtime} {input : Input} {s s' : Chain}
    {accounts : RequestAdvance} {receivableId : Bytes 32} {amount : UInt64} {nonce : Bytes 16}
    (precompile : Ed25519Precompile) (hadmits : precompile.Admits input.env.sysvar)
    (hstep : Chain.step rt input s = .ok s')
    (haction : input.action = .pool (.requestAdvance accounts receivableId amount nonce)) :
    ∃ (key : Pubkey) (limit outstanding : UInt64) (expiresAt attestedAt : Int64)
      (allowed : Registry.AllowedSigner) (message : List UInt8) (signature : Bytes 64)
      (ps ps' : PoolState) (advance : Advance),
      s.pools.lookup accounts.pool = some ps ∧
      s.registry.allowedSigners.lookup key = some allowed ∧ allowed.signer = key ∧
      allowed.kind = AttestorKind.creditBridge.asU8 ∧
      encodeAttestation (attestationInput accounts.agent accounts.pool limit outstanding expiresAt
        attestedAt nonce ps.pool.chainId) = .ok message ∧
      message.length = 128 ∧ precompile.ValidSignature key message signature ∧
      0 ≤ input.env.now.toInt - attestedAt.toInt ∧
      input.env.now.toInt - attestedAt.toInt ≤ 900 ∧
      input.env.now.toInt < expiresAt.toInt ∧
      minAdvanceAtoms ≤ amount ∧
      outstanding.toNat + ps.livePrincipal accounts.agent + amount.toNat ≤ limit.toNat ∧
      amount ≤ ps.pool.maxAdvanceAbs ∧
      s'.pools.lookup accounts.pool = some ps' ∧
      ps'.advances.lookup (accounts.agent, receivableId) = some advance ∧
      advance.expiresAt = expiresAt ∧ advance.attestor = key := by
  obtain ⟨ps, ps', attestation, ledger, advance, hp, hp', hissues⟩ :=
    Chain.step_issues hstep haction
  obtain ⟨allowed, hallowed, hread⟩ := hissues.attested
  obtain ⟨hfound, hseed, -⟩ := Registry.loadAllowedSigner_eq_ok.mp hallowed
  obtain ⟨message, hverified, hcarries, hsigner, hkind, hpast, hfresh, hexpiry⟩ :=
    readAttestation_carries hread
  obtain ⟨signature, hsignature⟩ := Ed25519Precompile.exists_validSignature hadmits hverified
  rw [← hseed, ← hsigner] at hfound
  have hstored : ps'.advances.lookup (accounts.agent, receivableId) = some advance := by
    rw [hissues.advances, Finmap.lookup_insert]
  exact ⟨attestation.signer, attestation.creditLimit, attestation.outstanding,
    attestation.expiresAt, attestation.attestedAt, allowed, message, signature, ps, ps', advance,
    hp, hfound, hsigner.symm, hkind, hcarries.encode, hcarries.length, hsignature, by omega,
    hfresh, hexpiry, hissues.floor, hissues.underwritten, hissues.charges.bounded, hp', hstored,
    congrArg Advance.expiresAt hissues.recorded, congrArg Advance.attestor hissues.recorded⟩

namespace Localnet

open Client

/-- The signature that the bridge made for the first request is the only valid one. -/
def ValidSignature (key : Pubkey) (message : List UInt8) (signature : Bytes 64) : Prop :=
  key = bridge ∧ message = attestationBytes (t₀ + 86400) t₀ textNonce ∧ signature = signatureFirst

instance (key : Pubkey) (message : List UInt8) (signature : Bytes 64) :
    Decidable (ValidSignature key message signature) :=
  inferInstanceAs (Decidable (_ ∧ _ ∧ _))

/-- A precompile that takes single entries pointing into their own instruction. -/
def precompile : Ed25519Precompile where
  ValidSignature
  Accepts instructions position := ∃ ix offsets, instructions[position]? = some ix ∧
    ix.data.head? = some 1 ∧ parseOffsets ix.data = some offsets ∧ offsets.PointsTo position ∧
    ValidSignature (arrayAt 32 ix.data offsets.publicKeyOffset.toNat)
      (slice ix.data offsets.messageDataOffset.toNat offsets.messageDataSize.toNat)
      (arrayAt 64 ix.data offsets.signatureOffset.toNat)
  sound := by
    rintro instructions position ix offsets hix ⟨_, _, hix', -, hoffsets', -, hvalid⟩ _ _ hoffsets _
    obtain rfl : ix = _ := by simpa [hix] using hix'
    obtain rfl : offsets = _ := by simpa [hoffsets] using hoffsets'
    exact hvalid

theorem precompile_admits (amount : UInt64) :
    precompile.Admits (firstRequest amount).env.sysvar := by
  intro position ix hix hprogram
  match position with
  | 0 =>
      refine ⟨_, _, rfl, rfl, parseOffsets_ed25519Instruction 0 bridge signatureFirst
        (attestationBytes (t₀ + 86400) t₀ textNonce) (by decide +kernel), ⟨rfl, rfl, rfl⟩, ?_⟩
      decide +kernel
  | 1 =>
      obtain rfl : escrowInstruction = ix := by simpa [firstRequest, request, companioned] using hix
      exact absurd hprogram (by decide)
  | position + 2 => simp [firstRequest, request, companioned] at hix

end Localnet

theorem underwriting_sound_localnet : ∃ s s',
    Chain.run Localnet.runtime Localnet.opening = .ok s ∧
    Chain.step Localnet.runtime (Localnet.firstRequest 100000000) s = .ok s' ∧
    ∃ (message : List UInt8) (signature : Bytes 64) (ps' : PoolState) (advance : Advance),
      Localnet.precompile.ValidSignature Localnet.bridge message signature ∧
      s'.pools.lookup Localnet.pool = some ps' ∧
      ps'.advances.lookup (Localnet.agent, Localnet.keyOf 1) = some advance ∧
      advance.attestor = Localnet.bridge := by
  obtain ⟨s', -, hrun, -⟩ := Localnet.reaches_iff.mp
    (show Localnet.reaches (Localnet.opening ++ [Localnet.firstRequest 100000000])
      (fun _ _ ↦ true) = true by decide +kernel)
  obtain ⟨s, hbefore, hstep⟩ := Execution.run_snoc.mp hrun
  obtain ⟨key, _, _, _, _, _, message, signature, _, ps', advance, -, -, -, -, -, -, hvalid, -,
    -, -, -, -, -, hp', hstored, -, hattestor⟩ :=
    underwriting_sound Localnet.precompile (Localnet.precompile_admits 100000000) hstep rfl
  obtain rfl : key = Localnet.bridge := hvalid.1
  exact ⟨s, s', hbefore, hstep, message, signature, ps', advance, hvalid, hp', hstored, hattestor⟩

end CredMesh
