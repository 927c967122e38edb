import CredMesh.Bridge.Quote
import CredMesh.Safety.WireFormat
import CredMesh.Chain.Localnet

/-!
# The life of a quote

Every quote that the bridge hands out names what was asked for and what EVM says of the bound
address. The escrow reads it for exactly the caller, pool, nonce and cluster that it names, and at
exactly the seconds from its making to its expiry: the age limit of the escrow is the longest life
that the bridge grants.
-/

namespace CredMesh.Bridge

open Outcome EcmaScript ByteString CreditMessage Escrow IxIntrospection

/-- The text of a key. -/
def keyText (key : Pubkey) : JsString := ofChars (Base58.encode key.toList)

/-- The address library accepts the base 58 texts of 32 bytes and no others. -/
def AddressLibrary (solAddr : JsString → Option Pubkey) : Prop :=
  ∀ text key, solAddr text = some key ↔ text = keyText key

/-- The message stands in the preceding instruction, verified under the key of a bridge signer. -/
structure Presented (env : Env) (allowed : Registry.AllowedSigner) (message : List UInt8) :
    Prop where
  verified : verifyPrevEd25519 env.sysvar = .ok (allowed.signer, message)
  bridge : allowed.kind = AttestorKind.creditBridge.asU8

/-- The fields of a message that was encoded, one by one. -/
theorem fields_of_encodeAttestation {agent pool : Pubkey} {creditLimit outstanding : UInt64}
    {expiresAt attestedAt : Int64} {nonce : Bytes 16} {chainId : UInt64} {message : List UInt8}
    (h : encodeAttestation (attestationInput agent pool creditLimit outstanding expiresAt attestedAt
      nonce chainId) = .ok message) :
    pubkeyAt message agentOffset = agent ∧ pubkeyAt message poolOffset = pool ∧
    i64Le message expiresAtOffset = expiresAt ∧ i64Le message attestedAtOffset = attestedAt ∧
    slice message nonceOffset nonceLen = nonce.toList ∧ u64Le message chainIdOffset = chainId := by
  obtain ⟨-, -, hdecoded⟩ := decodeAttestation_attestationInput h
  simp only [decodeAttestation, attestationInput, CreditAttestationInput.mk.injEq] at hdecoded
  obtain ⟨hagent, hpool, -, -, hexpires, hattested, hnonce, hchain⟩ := hdecoded
  exact ⟨List.Vector.toList_injective hagent, List.Vector.toList_injective hpool,
    Int64.toInt_inj.mp hexpires, Int64.toInt_inj.mp hattested, hnonce,
    UInt64.toNat_inj.mp (by exact_mod_cast hchain)⟩

/-- A presented message is read by the caller that it names, from its making until it is fifteen
minutes old or expires. -/
theorem Presented.readable_iff {env : Env} {allowed : Registry.AllowedSigner}
    {message : List UInt8} (h : Presented env allowed message) {agent pool : Pubkey}
    {creditLimit outstanding : UInt64} {expiresAt attestedAt : Int64} {nonce : Bytes 16}
    {chainId : UInt64} (hencoded : encodeAttestation (attestationInput agent pool creditLimit
      outstanding expiresAt attestedAt nonce chainId) = .ok message)
    (caller target : Pubkey) (cluster : UInt64) (used : Bytes 16) :
    (∃ attestation, readAttestation env allowed caller target cluster used = .ok attestation) ↔
      (caller = agent ∧ target = pool ∧ used = nonce ∧ cluster = chainId) ∧
      attestedAt.toInt ≤ env.now.toInt ∧ env.now.toInt - attestedAt.toInt ≤ 900 ∧
      env.now.toInt < expiresAt.toInt := by
  obtain ⟨hlength, hversion, -⟩ := decodeAttestation_attestationInput hencoded
  obtain ⟨hagent, hpool, hexpires, hattested, hnonce, hchain⟩ :=
    fields_of_encodeAttestation hencoded
  have hlimit : maxAttestationAgeSeconds.toInt = 900 := rfl
  constructor
  · rintro ⟨attestation, hread⟩
    obtain ⟨found, hverified, hcarries, -, -, hpast, hfresh, hexpiry⟩ :=
      readAttestation_carries hread
    have hpair := Except.ok.inj (h.verified.symm.trans hverified)
    obtain rfl : message = found := (Prod.mk.inj hpair).2
    rw [← hcarries.attestedAt, hattested] at hpast hfresh
    rw [← hcarries.expiresAt, hexpires] at hexpiry
    refine ⟨⟨hcarries.agent.symm.trans hagent, hcarries.pool.symm.trans hpool, ?_,
      hcarries.chainId.symm.trans hchain⟩, hpast, hfresh, hexpiry⟩
    exact List.Vector.toList_injective (hcarries.nonce.symm.trans hnonce)
  · rintro ⟨⟨rfl, rfl, rfl, rfl⟩, hpast, hfresh, hexpiry⟩
    have hstart := attestedAt.le_toInt
    have hnow := env.now.toInt_lt
    obtain ⟨age, hage⟩ := Int64.exists_toInt_eq
      (show -2 ^ 63 ≤ env.now.toInt - attestedAt.toInt by omega) (by omega)
    have hfits : age.toInt ≤ maxAttestationAgeSeconds.toInt := by omega
    rw [← hattested] at hpast hage
    rw [← hexpires] at hexpiry
    simp only [readAttestation, exists_bind_eq_ok, okOr_eq_ok, require_eq_ok, mapError_eq_ok,
      Prod.exists, Int64.checkedSub_eq_some]
    exact ⟨allowed.signer, message, h.verified, (), hlength, (), rfl, (), h.bridge, (), hagent, (),
      hpool, (), hversion, (), hnonce, (), hchain, (), Int64.le_iff_toInt_le.mpr hpast, age, hage,
      (), Int64.le_iff_toInt_le.mpr hfits, (), Int64.lt_iff_toInt_lt.mpr hexpiry,
      exists_pure_eq_ok⟩

/-- What the bridge attests in a quote made at a time. -/
def quotedInput (agent pool : Pubkey) (snap : EvmAgentSnapshot) (now ttl : ℤ) (nonce : Bytes 16)
    (chainId : ℤ) : CreditAttestationInput where
  agentPubkey := agent.toList
  poolPubkey := pool.toList
  creditLimitAtoms := snap.creditLimitAtoms
  outstandingAtoms := snap.outstandingAtoms
  expiresAt := now + ttl
  attestedAt := now
  nonce := nonce.toList
  chainId

variable {solAddr : JsString → Option Pubkey} {sign : List UInt8 → Bytes 64 → Bytes 64}
  {evm : EvmReads} {cfg : Config} {dateNow : DateNow} {body : QuoteRequest}
  {response : QuoteResponse}

/-- A quote, traced back to the request, the bindings and the answers of EVM. -/
structure Quotes (evm : EvmReads) (cfg : Config) (dateNow : DateNow) (body : QuoteRequest)
    (agent pool : Pubkey) (nonce : Bytes 16) (evmAddress : EvmAddress) (snap : EvmAgentSnapshot)
    (ttl : ℤ) (message : List UInt8) (response : QuoteResponse) : Prop where
  agentNamed : body.agentPubkeyB58 = keyText agent
  poolNamed : body.poolPubkeyB58 = keyText pool
  nonceParsed : parseNonce body.nonceHex = .ok nonce.toList
  bound : cfg.agentBindings.lookup (keyText agent) = some evmAddress
  snapshot : fetchAgent evm evmAddress = .ok snap
  lifetime : effectiveTtl body.ttlSeconds = .ok (.finite ttl)
  encoded : encodeAttestation (quotedInput agent pool snap dateNow.seconds ttl nonce
    cfg.solanaChainId) = .ok message
  delivered : Base64.decode response.messageB64 = message
  attestedAt : response.attestedAt = dateNow.seconds
  expiresAt : response.expiresAt = dateNow.seconds + ttl

theorem quotes_of_handleQuote (hlibrary : AddressLibrary solAddr)
    (h : handleQuote solAddr sign evm cfg dateNow body = .ok response) :
    ∃ agent pool nonce evmAddress snap ttl message,
      Quotes evm cfg dateNow body agent pool nonce evmAddress snap ttl message response := by
  simp only [handleQuote, bind_eq_ok, okOr_eq_ok, require_eq_ok, mapError_eq_ok, pure_eq_ok,
    Number.toBigInt_eq_some] at h
  obtain ⟨_, hseconds, agent, hagent, pool, hpool, nonce, hnonce, evmAddress, hbound, snap, hread,
    -, -, ttl, rfl, message, hencoded, rfl⟩ := h
  have hlength : nonce.length = 16 := (encodable_of_encodeAttestation hencoded).nonce
  have hnamed := (hlibrary _ _).mp hagent
  refine ⟨agent, pool, ⟨nonce, hlength⟩, evmAddress, snap, ttl, message, ?_⟩
  exact {
    agentNamed := hnamed
    poolNamed := (hlibrary _ _).mp hpool
    nonceParsed := hnonce
    bound := hnamed ▸ hbound
    snapshot := hread
    lifetime := hseconds
    encoded := hencoded
    delivered := Base64.decode_encode message
    attestedAt := rfl
    expiresAt := rfl }

/-- Every quote lives between one second and fifteen minutes. Its message names the bound agent, the
requested pool, what EVM says of the bound address and the configured cluster, and the escrow reads
it for exactly this caller, pool, nonce and cluster, and at exactly the times of its life. -/
theorem quote_readable_while_live (hlibrary : AddressLibrary solAddr)
    (h : handleQuote solAddr sign evm cfg dateNow body = .ok response) :
    ∃ agent pool nonce evmAddress snap ttl message,
      Quotes evm cfg dateNow body agent pool nonce evmAddress snap ttl message response ∧
      1 ≤ ttl ∧ ttl ≤ 900 ∧
      decodeAttestation message =
        quotedInput agent pool snap dateNow.seconds ttl nonce cfg.solanaChainId ∧
      ∀ env allowed, Presented env allowed message → ∀ caller target cluster used,
        (∃ attestation, readAttestation env allowed caller target cluster used = .ok attestation) ↔
          (caller = agent ∧ target = pool ∧ used = nonce ∧
            (cluster.toNat : ℤ) = cfg.solanaChainId) ∧
          dateNow.seconds ≤ env.now.toInt ∧ env.now.toInt < dateNow.seconds + ttl := by
  obtain ⟨agent, pool, nonce, evmAddress, snap, ttl, message, hquotes⟩ :=
    quotes_of_handleQuote hlibrary h
  obtain ⟨hpositive, hlimit⟩ := effectiveTtl_bounds hquotes.lifetime
  have hencoded := hquotes.encoded
  have hfits := encodable_of_encodeAttestation hencoded
  obtain ⟨creditLimit, hcreditLimit⟩ := hfits.creditLimit.exists_eq
  obtain ⟨outstanding, houtstanding⟩ := hfits.outstanding.exists_eq
  obtain ⟨expiresAt, hexpires⟩ := hfits.expiresAt.exists_eq
  obtain ⟨attestedAt, hattested⟩ := hfits.attestedAt.exists_eq
  obtain ⟨chainId, hchain⟩ := hfits.chainId.exists_eq
  dsimp only [quotedInput] at hcreditLimit houtstanding hexpires hattested hchain
  have hinput : quotedInput agent pool snap dateNow.seconds ttl nonce cfg.solanaChainId =
      attestationInput agent pool creditLimit outstanding expiresAt attestedAt nonce chainId := by
    rw [quotedInput, hcreditLimit, houtstanding, hexpires, hattested, hchain, attestationInput]
  rw [hinput] at hencoded
  obtain ⟨-, -, hdecoded⟩ := decodeAttestation_attestationInput hencoded
  refine ⟨agent, pool, nonce, evmAddress, snap, ttl, message, hquotes, hpositive, hlimit,
    hdecoded.trans hinput.symm, ?_⟩
  intro env allowed hpresented caller target cluster used
  have hcluster : (cluster.toNat : ℤ) = cfg.solanaChainId ↔ cluster = chainId := by
    rw [hchain, Int.natCast_inj, UInt64.toNat_inj]
  rw [hpresented.readable_iff hencoded, ← hexpires, ← hattested, hcluster]
  constructor
  · rintro ⟨hnames, hpast, -, hexpiry⟩
    exact ⟨hnames, hpast, hexpiry⟩
  · rintro ⟨hnames, hpast, hexpiry⟩
    exact ⟨hnames, hpast, by omega, hexpiry⟩

end CredMesh.Bridge

namespace CredMesh.Localnet

open Bridge EcmaScript ByteString Client Escrow

/-- An address library: the bytes of a text, if they have this text. -/
def solAddr (text : JsString) : Option Pubkey :=
  let number := Base58.value (text.map fun unit ↦ Char.ofNat unit.toNat)
  let key : Pubkey := ⟨(leBytes 32 number).reverse, by simp⟩
  if text = keyText key then some key else none

theorem addressLibrary_solAddr : AddressLibrary solAddr := by
  intro text key
  constructor
  · intro h
    unfold solAddr at h
    obtain ⟨htext, hkey⟩ := Option.ite_none_right_eq_some.mp h
    rw [← Option.some.inj hkey]
    exact htext
  · intro h
    have hplane : Base58.alphabet.all (fun c ↦ c.toNat < UInt16.size) = true := by decide
    have hchars : text.map (fun unit ↦ Char.ofNat unit.toNat) = Base58.encode key.toList := by
      rw [h, keyText]
      apply map_ofChars
      intro c hc
      exact of_decide_eq_true (List.all_eq_true.mp hplane c (Base58.mem_encode hc))
    have hbytes : (leBytes 32 (readLE key.toList.reverse)).reverse = key.toList := by
      have hread := leBytes_readLE key.toList.reverse
      rw [List.length_reverse, List.Vector.toList_length] at hread
      rw [hread, List.reverse_reverse]
    simp only [solAddr, hchars, Base58.value_encode, hbytes]
    exact if_pos h

/-- The agent is bound to an address with a limit of 500 USDC. -/
def config : Config where
  solanaChainId := 2
  signingKey := ⟨List.replicate 32 7 ++ bridge.toList, by simp⟩
  agentBindings := Finmap.singleton (keyText agent) (List.Vector.replicate 20 171)
  chain_known := .inr rfl

def evm : EvmReads where
  exposure _ := some 0
  getCredit _ := some (700, 0, 500000000)
  maxExposure _ := none

def dateNow : DateNow := ⟨1700000000250, by decide⟩

/-- A request without a life of its own. -/
def quoteRequest : QuoteRequest :=
  ⟨keyText agent, keyText pool, hexText textNonce.toList, .undefined⟩

end CredMesh.Localnet

namespace CredMesh.Bridge

open Outcome EcmaScript Client

theorem AddressLibrary.key_inj {solAddr : JsString → Option Pubkey} (h : AddressLibrary solAddr)
    {first second : Pubkey} (hsame : keyText first = keyText second) : first = second := by
  have hfirst := (h (keyText first) first).mpr rfl
  have hsecond := (h (keyText first) second).mpr hsame
  exact Option.some.inj (hfirst.symm.trans hsecond)

/-- A quote for the default ten minutes is read from its first second to its last. -/
theorem quote_readable_while_live_localnet : ∃ response message,
    handleQuote Localnet.solAddr (fun _ _ ↦ Localnet.signatureFirst) Localnet.evm Localnet.config
      Localnet.dateNow Localnet.quoteRequest = .ok response ∧
    Base64.decode response.messageB64 = message ∧
    ∀ now : Int64, (∃ attestation, Escrow.readAttestation
        ⟨now, companioned (ed25519Instruction 0 Localnet.bridge Localnet.signatureFirst message)⟩
        ⟨0, Localnet.bridge, AttestorKind.creditBridge.asU8, 0⟩ Localnet.agent Localnet.pool 2
        Localnet.textNonce = .ok attestation) ↔
      Localnet.t₀.toInt ≤ now.toInt ∧ now.toInt < Localnet.t₀.toInt + 600 := by
  obtain ⟨response, hresponse, -⟩ := Localnet.returns_iff.mp
    (show Localnet.returns (handleQuote Localnet.solAddr (fun _ _ ↦ Localnet.signatureFirst)
      Localnet.evm Localnet.config Localnet.dateNow Localnet.quoteRequest) (fun _ ↦ true) = true by
      decide +kernel)
  obtain ⟨agent, pool, nonce, _, _, ttl, message, hquotes, -, -, -, hreadable⟩ :=
    quote_readable_while_live Localnet.addressLibrary_solAddr hresponse
  refine ⟨response, message, hresponse, hquotes.delivered, fun now ↦ ?_⟩
  have hagent : Localnet.agent = agent :=
    Localnet.addressLibrary_solAddr.key_inj hquotes.agentNamed
  have hpool : Localnet.pool = pool := Localnet.addressLibrary_solAddr.key_inj hquotes.poolNamed
  have hnonce : Localnet.textNonce = nonce := by
    apply List.Vector.toList_injective
    exact Except.ok.inj ((parseNonce_hexText Localnet.textNonce).1.symm.trans hquotes.nonceParsed)
  have httl : ttl = 600 := by
    have hdefault : effectiveTtl .undefined = .ok (.finite (600 : ℤ)) := by decide +kernel
    have hsame := Number.finite.inj (Except.ok.inj (hquotes.lifetime.symm.trans hdefault))
    exact_mod_cast hsame
  have hlength : message.length < 2 ^ 16 := by
    rw [length_of_encodeAttestation hquotes.encoded]
    decide
  rw [hreadable _ _ ⟨verifyPrevEd25519_companioned _ _ _ hlength, rfl⟩, ← hagent, ← hpool, ← hnonce,
    httl]
  exact and_iff_right ⟨rfl, rfl, rfl, rfl⟩

end CredMesh.Bridge
