import CredMesh.Foundation.EcmaScript
import CredMesh.Bridge.Attestation
import CredMesh.Bridge.EventTail

/-!
# Quotes

The bridge's answer to a request for a quote: it resolves the agent to the EVM address bound to it,
reads that address's credit on EVM, and signs an attestation of it with a short life. The libraries
that parse addresses and sign are parameters, as are the answers of the EVM node.
-/

namespace CredMesh.Bridge

open Outcome EcmaScript

abbrev EvmAddress := Bytes 20

/-- The body of a request. Its texts are strings; the library refuses any other address, and a
nonce without a length. -/
structure QuoteRequest where
  agentPubkeyB58 : JsString
  poolPubkeyB58 : JsString
  nonceHex : JsString
  ttlSeconds : Value

structure QuoteResponse where
  messageB64 : List Char
  signatureB64 : List Char
  signerPubkeyB58 : List Char
  expiresAt : ℤ
  attestedAt : ℤ
  creditLimitAtoms : List Char
  outstandingAtoms : List Char
  deriving DecidableEq

/-- What `loadConfig` accepts, as far as a quote depends on it. -/
structure Config where
  solanaChainId : ℤ
  signingKey : Bytes 64
  agentBindings : AccountMap JsString EvmAddress
  chain_known : solanaChainId = 1 ∨ solanaChainId = 2

/-- A reading of `Date.now()`, in milliseconds. The language bounds it, so that its seconds are
exact as numbers. -/
structure DateNow where
  ms : ℤ
  bounded : |ms| ≤ 8640000000000000

def DateNow.seconds (dateNow : DateNow) : ℤ := dateNow.ms / 1000

inductive QuoteError
  | ttlUncoercible
  | ttlNotPositive
  | address
  | nonceLength
  | nonceUnmatched
  | unregistered (agent : JsString)
  | evmRead
  | zeroCreditLimit
  | ttlNotInteger
  | encode (error : EncodeError)
  deriving DecidableEq

/-- The texts that the source gives; the others are the runtime's or a library's. -/
def QuoteError.message : QuoteError → Option JsString
  | ttlNotPositive => some (ofChars "ttl_seconds must be positive".toList)
  | nonceLength => some (ofChars
      "nonce_hex must encode 16 bytes (32 hex chars, optionally 0x-prefixed)".toList)
  | unregistered agent => some (ofChars "agent ".toList ++ agent ++
      ofChars " is not registered in the bridge agent-binding map".toList)
  | zeroCreditLimit => some (ofChars ("agent has zero credit limit on EVM (either " ++
      "MIN_CREDIT_SCORE not met, agent not registered, or quarantined)").toList)
  | encode error => some (ofChars error.message.toList)
  | _ => none

/-! ## Reading EVM -/

/-- The answers of the contracts to the reads of one quote, `none` where the read throws. -/
structure EvmReads where
  exposure : EvmAddress → Option ℕ
  getCredit : EvmAddress → Option (ℕ × ℕ × ℕ)
  maxExposure : EvmAddress → Option ℕ

structure EvmAgentSnapshot where
  creditLimitAtoms : ℕ
  outstandingAtoms : ℕ
  deriving DecidableEq

/-- An oracle without `getCredit` is read the old way. -/
def fetchAgent (evm : EvmReads) (agent : EvmAddress) : Except QuoteError EvmAgentSnapshot := do
  let currentExposure ← okOr (evm.exposure agent) .evmRead
  match evm.getCredit agent with
  | some (_, _, maxExposure) => pure ⟨maxExposure, currentExposure⟩
  | none => do
      let maxExposure ← okOr (evm.maxExposure agent) .evmRead
      pure ⟨maxExposure, currentExposure⟩

/-! ## The quote -/

/-- The life that was asked for, ten minutes by default and fifteen at most. -/
def effectiveTtl (requested : Value) : Except QuoteError Number := do
  let seconds ← okOr (requested.orElse (.number (.finite 600))).toNumber .ttlUncoercible
  let ttlSeconds := seconds.min (.finite (15 * 60))
  require (ttlSeconds.le (.finite 0) = false) .ttlNotPositive
  pure ttlSeconds

def parseNonce (nonceHex : JsString) : Except QuoteError (List UInt8) := do
  require (nonceHex.length = 32 ∨ nonceHex.length = 34) .nonceLength
  let digits := if (ofChars ['0', 'x']).isPrefixOf nonceHex then nonceHex.drop 2 else nonceHex
  require (pairs digits ≠ []) .nonceUnmatched
  pure (bytesOfPairs digits)

def handleQuote (solAddr : JsString → Option Pubkey) (sign : List UInt8 → Bytes 64 → Bytes 64)
    (evm : EvmReads) (cfg : Config) (dateNow : DateNow) (body : QuoteRequest) :
    Except QuoteError QuoteResponse := do
  let ttlSeconds ← effectiveTtl body.ttlSeconds
  let agentBytes ← okOr (solAddr body.agentPubkeyB58) .address
  let poolBytes ← okOr (solAddr body.poolPubkeyB58) .address
  let nonce ← parseNonce body.nonceHex
  let evmAddress ← okOr (cfg.agentBindings.lookup body.agentPubkeyB58)
    (.unregistered body.agentPubkeyB58)
  let snap ← fetchAgent evm evmAddress
  require (snap.creditLimitAtoms ≠ 0) .zeroCreditLimit
  let now := dateNow.seconds
  let ttl ← okOr ttlSeconds.toBigInt .ttlNotInteger
  let message ← (encodeAttestation {
    agentPubkey := agentBytes.toList
    poolPubkey := poolBytes.toList
    creditLimitAtoms := snap.creditLimitAtoms
    outstandingAtoms := snap.outstandingAtoms
    expiresAt := now + ttl
    attestedAt := now
    nonce
    chainId := cfg.solanaChainId }).mapError .encode
  pure {
    messageB64 := Base64.encode message
    signatureB64 := Base64.encode (sign message cfg.signingKey).toList
    signerPubkeyB58 := bytesToBase58 (cfg.signingKey.toList.drop 32)
    expiresAt := now + ttl
    attestedAt := now
    creditLimitAtoms := Nat.toDigits 10 snap.creditLimitAtoms
    outstandingAtoms := Nat.toDigits 10 snap.outstandingAtoms }

/-! ## What a quote says -/

/-- An effective life that is an integer is between one second and fifteen minutes. -/
theorem effectiveTtl_bounds {requested : Value} {ttl : ℤ}
    (h : effectiveTtl requested = .ok (.finite ttl)) : 1 ≤ ttl ∧ ttl ≤ 900 := by
  simp only [effectiveTtl, bind_eq_ok, okOr_eq_ok, require_eq_ok, pure_eq_ok] at h
  obtain ⟨seconds, -, -, hpositive, hmin⟩ := h
  rw [hmin] at hpositive
  have hbound : (15 * 60 : ℚ) = (900 : ℤ) := by norm_num
  rw [hbound] at hmin
  exact ⟨Number.pos_of_not_le hpositive, Number.le_of_min_eq hmin⟩

/-! ## The texts of a nonce -/

/-- The text without the `0x` that may precede it. -/
def nonceDigits (nonceHex : JsString) : JsString :=
  if (ofChars ['0', 'x']).isPrefixOf nonceHex then nonceHex.drop 2 else nonceHex

/-- The text is 32 hexadecimal digits, with or without `0x`, and they denote the nonce. -/
def Denotes (nonceHex : JsString) (nonce : Bytes 16) : Prop :=
  ∃ digits, (nonceHex = digits ∨ nonceHex = ofChars ['0', 'x'] ++ digits) ∧
    hexBytes digits = some nonce.toList

theorem parseNonce_eq_ok {nonceHex : JsString} {nonce : List UInt8} :
    parseNonce nonceHex = .ok nonce ↔
      (nonceHex.length = 32 ∨ nonceHex.length = 34) ∧ pairs (nonceDigits nonceHex) ≠ [] ∧
        bytesOfPairs (nonceDigits nonceHex) = nonce := by
  simp only [parseNonce, bind_eq_ok, require_eq_ok, pure_eq_ok]
  constructor
  · rintro ⟨-, hlength, -, hpairs, hbytes⟩
    exact ⟨hlength, hpairs, hbytes⟩
  · rintro ⟨hlength, hpairs, hbytes⟩
    exact ⟨(), hlength, (), hpairs, hbytes⟩

/-- The prefix is no part of the digits: its second letter is none. -/
theorem Denotes.hexBytes_nonceDigits {nonceHex : JsString} {nonce : Bytes 16}
    (h : Denotes nonceHex nonce) : hexBytes (nonceDigits nonceHex) = some nonce.toList := by
  obtain ⟨digits, hplain | hprefixed, hbytes⟩ := h
  · have hprefix : (ofChars ['0', 'x']).isPrefixOf nonceHex = false := by
      by_contra hprefix
      obtain ⟨rest, hrest⟩ := List.isPrefixOf_iff_prefix.mp ((Bool.not_eq_false _).mp hprefix)
      rw [← hplain, ← hrest] at hbytes
      obtain ⟨_, low, _, -, hletter, -⟩ := hexBytes_cons_cons.mp hbytes
      have hnone : hexDigit (UInt16.ofNat 'x'.toNat) = none := by decide +kernel
      cases hnone.symm.trans hletter
    rw [nonceDigits, hprefix, hplain]
    exact hbytes
  · rw [nonceDigits, hprefixed, if_pos (List.isPrefixOf_iff_prefix.mpr (List.prefix_append _ _))]
    exact hbytes

theorem Denotes.length {nonceHex : JsString} {nonce : Bytes 16} (h : Denotes nonceHex nonce) :
    nonceHex.length = 32 ∨ nonceHex.length = 34 := by
  obtain ⟨digits, htext, hbytes⟩ := h
  have hlength := length_of_hexBytes hbytes
  rw [List.Vector.toList_length] at hlength
  obtain rfl | rfl := htext
  · exact .inl hlength
  · exact .inr (by rw [List.length_append, hlength]; rfl)

/-- A text that denotes a nonce is read as it. -/
theorem Denotes.parseNonce {nonceHex : JsString} {nonce : Bytes 16} (h : Denotes nonceHex nonce) :
    parseNonce nonceHex = .ok nonce.toList := by
  have hbytes := bytesOfPairs_of_hexBytes h.hexBytes_nonceDigits
  rw [parseNonce_eq_ok]
  refine ⟨h.length, fun hnone ↦ ?_, hbytes⟩
  have hsixteen := nonce.toList_length
  rw [← hbytes, bytesOfPairs, hnone] at hsixteen
  cases hsixteen

/-- The usual texts of a nonce are read as its bytes. -/
theorem parseNonce_hexText (nonce : Bytes 16) :
    parseNonce (hexText nonce.toList) = .ok nonce.toList ∧
    parseNonce (ofChars ['0', 'x'] ++ hexText nonce.toList) = .ok nonce.toList := by
  have hbytes := hexBytes_hexText nonce.toList
  constructor
  · exact Denotes.parseNonce ⟨_, .inl rfl, hbytes⟩
  · exact Denotes.parseNonce ⟨_, .inr rfl, hbytes⟩

end CredMesh.Bridge
