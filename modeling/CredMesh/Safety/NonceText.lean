import CredMesh.Safety.QuoteWindow

/-!
# The texts that a quote takes for a nonce

The bridge cuts the text of a nonce into pairs of characters and parses each of them leniently; what
is no number counts as zero. Only the number of pairs is checked. So every text with sixteen pairs
gets a quote, whether or not it consists of digits.
-/

namespace CredMesh.Bridge

open Outcome EcmaScript ByteString CreditMessage

/-- A text of a usual length, with sixteen pairs behind the prefix. -/
structure SixteenPairs (nonceHex : JsString) : Prop where
  length : nonceHex.length = 32 ∨ nonceHex.length = 34
  pairs : pairCount (nonceDigits nonceHex) = 16

theorem sixteenPairs_iff (nonceHex : JsString) :
    SixteenPairs nonceHex ↔ ∃ nonce : Bytes 16, parseNonce nonceHex = .ok nonce.toList := by
  constructor
  · intro h
    have hlength : (bytesOfPairs (nonceDigits nonceHex)).length = 16 := by
      rw [bytesOfPairs, List.length_map, length_pairs, h.pairs]
    refine ⟨⟨_, hlength⟩, parseNonce_eq_ok.mpr ⟨h.length, fun hnone ↦ ?_, rfl⟩⟩
    rw [bytesOfPairs, hnone] at hlength
    cases hlength
  · rintro ⟨nonce, hnonce⟩
    obtain ⟨hlength, -, hbytes⟩ := parseNonce_eq_ok.mp hnonce
    have hsixteen := nonce.toList_length
    rw [← hbytes, bytesOfPairs, List.length_map, length_pairs] at hsixteen
    exact ⟨hlength, hsixteen⟩

theorem nonce_of_encodeAttestation {input : CreditAttestationInput} {message : List UInt8}
    (h : encodeAttestation input = .ok message) :
    slice message nonceOffset nonceLen = input.nonce := by
  obtain ⟨_, _, _, _, _, _, _, _, rfl⟩ := (encodable_of_encodeAttestation h).exists_attestationInput
  exact congrArg CreditAttestationInput.nonce (decodeAttestation_attestationInput h).2.2

/-- The nonce in the signed message. -/
def QuoteResponse.nonce (response : QuoteResponse) : List UInt8 :=
  slice (Base64.decode response.messageB64) nonceOffset nonceLen

section

variable {solAddr : JsString → Option Pubkey} {sign : List UInt8 → Bytes 64 → Bytes 64}

/-- Whatever the rest of the request and the answers of EVM are, a quote is given only for a text
that denotes a nonce, and the message contains this nonce. -/
def Strict (solAddr : JsString → Option Pubkey) (sign : List UInt8 → Bytes 64 → Bytes 64)
    (nonceHex : JsString) : Prop :=
  ∀ evm cfg dateNow body response, body.nonceHex = nonceHex →
    handleQuote solAddr sign evm cfg dateNow body = .ok response →
    ∃ nonce : Bytes 16, Denotes nonceHex nonce ∧ response.nonce = nonce.toList

theorem nonce_of_handleQuote (hlibrary : AddressLibrary solAddr) {evm : EvmReads} {cfg : Config}
    {dateNow : DateNow} {body : QuoteRequest} {response : QuoteResponse}
    (h : handleQuote solAddr sign evm cfg dateNow body = .ok response) :
    ∃ nonce : Bytes 16, parseNonce body.nonceHex = .ok nonce.toList ∧
      response.nonce = nonce.toList := by
  obtain ⟨_, _, nonce, _, _, _, message, hquotes⟩ := quotes_of_handleQuote hlibrary h
  refine ⟨nonce, hquotes.nonceParsed, ?_⟩
  rw [QuoteResponse.nonce, hquotes.delivered]
  exact nonce_of_encodeAttestation hquotes.encoded

/-- A registered agent gets a quote with whatever nonce can be read. -/
theorem exists_handleQuote (hlibrary : AddressLibrary solAddr) {nonceHex : JsString}
    {nonce : Bytes 16} (hnonce : parseNonce nonceHex = .ok nonce.toList) :
    ∃ response, handleQuote solAddr sign Localnet.evm Localnet.config Localnet.dateNow
      { Localnet.quoteRequest with nonceHex } = .ok response := by
  have hagent : solAddr (keyText Localnet.agent) = some Localnet.agent := (hlibrary _ _).mpr rfl
  have hpool : solAddr (keyText Localnet.pool) = some Localnet.pool := (hlibrary _ _).mpr rfl
  have hencodable : Encodable (quotedInput Localnet.agent Localnet.pool ⟨500000000, 0⟩
      Localnet.dateNow.seconds 600 nonce Localnet.config.solanaChainId) := by
    exact ⟨List.Vector.toList_length _, List.Vector.toList_length _, List.Vector.toList_length _,
      show FitsU64 500000000 by decide, show FitsU64 0 by decide,
      show FitsI64 (Localnet.dateNow.seconds + 600) by decide,
      show FitsI64 Localnet.dateNow.seconds by decide, show FitsU64 2 by decide⟩
  obtain ⟨message, hmessage⟩ : ∃ message, encodeAttestation (quotedInput Localnet.agent
      Localnet.pool ⟨500000000, 0⟩ Localnet.dateNow.seconds 600 nonce
      Localnet.config.solanaChainId) = .ok message := by
    obtain ⟨_, _, _, _, _, _, _, _, hinput⟩ := hencodable.exists_attestationInput
    exact ⟨_, hinput ▸ encodeAttestation_attestationInput _ _ _ _ _ _ _ _⟩
  have hlife : effectiveTtl .undefined = .ok (.finite (600 : ℤ)) := by decide +kernel
  simp only [handleQuote, exists_bind_eq_ok, okOr_eq_ok, require_eq_ok, mapError_eq_ok,
    Number.toBigInt_eq_some]
  refine ⟨_, hlife, _, hagent, _, hpool, _, hnonce, _, Finmap.lookup_singleton_eq, ⟨500000000, 0⟩,
    rfl, (), by decide, 600, rfl, message, hmessage, exists_pure_eq_ok⟩

/-- The text of a nonce is taken strictly exactly if it denotes one or has not sixteen pairs. -/
theorem strict_iff (hlibrary : AddressLibrary solAddr) (nonceHex : JsString) :
    Strict solAddr sign nonceHex ↔
      (SixteenPairs nonceHex → ∃ nonce : Bytes 16, Denotes nonceHex nonce) := by
  rw [sixteenPairs_iff]
  constructor
  · rintro hstrict ⟨nonce, hnonce⟩
    obtain ⟨response, hresponse⟩ := @exists_handleQuote _ sign hlibrary _ _ hnonce
    obtain ⟨denoted, hdenotes, -⟩ := hstrict _ _ _ _ response rfl hresponse
    exact ⟨denoted, hdenotes⟩
  · rintro hdenotes evm cfg dateNow body response rfl h
    obtain ⟨nonce, hparsed, hnonce⟩ := nonce_of_handleQuote hlibrary h
    obtain ⟨denoted, hdenoted⟩ := hdenotes ⟨nonce, hparsed⟩
    have hsame := Except.ok.inj (hdenoted.parseNonce.symm.trans hparsed)
    exact ⟨denoted, hdenoted, hnonce.trans hsame.symm⟩

/-- A text is taken strictly exactly if it denotes a nonce or has not sixteen pairs. As long as all
texts are such, two quotes have the same nonce only if their digits are the same up to case. -/
theorem nonce_text_strict_iff (hlibrary : AddressLibrary solAddr) :
    (∀ nonceHex, Strict solAddr sign nonceHex ↔
      (SixteenPairs nonceHex → ∃ nonce : Bytes 16, Denotes nonceHex nonce)) ∧
    ∀ evm cfg dateNow body response evm' cfg' dateNow' body' response',
      (SixteenPairs body.nonceHex → ∃ nonce : Bytes 16, Denotes body.nonceHex nonce) →
      (SixteenPairs body'.nonceHex → ∃ nonce : Bytes 16, Denotes body'.nonceHex nonce) →
      handleQuote solAddr sign evm cfg dateNow body = .ok response →
      handleQuote solAddr sign evm' cfg' dateNow' body' = .ok response' →
      response.nonce = response'.nonce →
      (nonceDigits body.nonceHex).map foldCase = (nonceDigits body'.nonceHex).map foldCase := by
  refine ⟨strict_iff hlibrary, ?_⟩
  intro evm cfg dateNow body response evm' cfg' dateNow' body' response' hfirst hsecond h h' hsame
  obtain ⟨nonce, hdenotes, hnonce⟩ :=
    (strict_iff hlibrary _).mpr hfirst evm cfg dateNow body response rfl h
  obtain ⟨nonce', hdenotes', hnonce'⟩ :=
    (strict_iff hlibrary _).mpr hsecond evm' cfg' dateNow' body' response' rfl h'
  have hbytes : nonce'.toList = nonce.toList := by
    calc
      nonce'.toList = response'.nonce := hnonce'.symm
      _ = response.nonce := hsame.symm
      _ = nonce.toList := hnonce
  apply foldCase_of_hexBytes hdenotes.hexBytes_nonceDigits
  rw [← hbytes]
  exact hdenotes'.hexBytes_nonceDigits

end

/-- Localnet's nonce is taken strictly. -/
theorem nonce_text_strict_iff_localnet :
    Strict Localnet.solAddr (fun _ _ ↦ Localnet.signatureFirst)
      (hexText Localnet.textNonce.toList) :=
  ((nonce_text_strict_iff Localnet.addressLibrary_solAddr).1 _).mpr fun _ ↦
    ⟨Localnet.textNonce, _, .inl rfl, hexBytes_hexText _⟩

namespace Localnet

/-- Thirty-two letters, none of them a digit. -/
def lettersZ : JsString := ofChars (List.replicate 32 'z')

end Localnet

/-- Text without any digit gets a quote for the nonce of zeros. -/
theorem letters_without_digits_quoted : ∃ response,
    handleQuote Localnet.solAddr (fun _ _ ↦ Localnet.signatureFirst) Localnet.evm Localnet.config
      Localnet.dateNow { Localnet.quoteRequest with nonceHex := Localnet.lettersZ } = .ok response ∧
    response.nonce = List.replicate 16 0 ∧
    ¬ Strict Localnet.solAddr (fun _ _ ↦ Localnet.signatureFirst) Localnet.lettersZ := by
  have hparsed : parseNonce Localnet.lettersZ =
      .ok (List.Vector.replicate 16 (0 : UInt8)).toList := by decide +kernel
  obtain ⟨response, hresponse⟩ := @exists_handleQuote _ (fun _ _ ↦ Localnet.signatureFirst)
    Localnet.addressLibrary_solAddr _ _ hparsed
  obtain ⟨nonce, hsame, hnonce⟩ := nonce_of_handleQuote Localnet.addressLibrary_solAddr hresponse
  refine ⟨response, hresponse, ?_, fun hstrict ↦ ?_⟩
  · rw [hnonce, ← Except.ok.inj (hparsed.symm.trans hsame)]
    rfl
  · obtain ⟨_, hdenotes, -⟩ := hstrict _ _ _ _ response rfl hresponse
    have hdigits : hexBytes (nonceDigits Localnet.lettersZ) = none := by decide +kernel
    cases hdigits.symm.trans hdenotes.hexBytes_nonceDigits

end CredMesh.Bridge
