import CredMesh.Foundation.TextLines
import CredMesh.Safety.SignInExpiry

/-!
# What a sign-in message binds

The server builds the message that a request signs from its headers and its address line by line.
As neither a header nor the configured domain holds a line feed, the bytes of the message determine
every part of it: whoever has a signature can use it for one address, one URL, one cluster, one
timestamp and one nonce. As the nonces of a server are one-shot, no message signs in twice. The
method and the body of a request are no part of its message.
-/

namespace CredMesh.Server

open EcmaScript Outcome

/-! ## The message -/

/-- Each part of the message is a single line. -/
structure SiwsPayload.OneLine (p : SiwsPayload) : Prop where
  domain : IsLine p.domain
  address : IsLine p.address
  statement : IsLine p.statement
  uri : IsLine p.uri
  version : IsLine p.version
  chainId : IsLine p.chainId
  nonce : IsLine p.nonce
  issuedAt : IsLine p.issuedAt
  expirationTime : IsLine p.expirationTime
  resources : ∀ resource ∈ p.resources, IsLine resource

def SiwsPayload.lines (p : SiwsPayload) : List JsString := [
    p.domain ++ jsText " wants you to sign in with your Solana account:",
    p.address,
    [],
    p.statement,
    [],
    jsText "URI: " ++ p.uri,
    jsText "Version: " ++ p.version,
    jsText "Chain ID: " ++ p.chainId,
    jsText "Nonce: " ++ p.nonce,
    jsText "Issued At: " ++ p.issuedAt,
    expirationLabel ++ p.expirationTime] ++
  if p.resources ≠ [] then jsText "Resources:" :: p.resources.map (jsText "- " ++ ·) else []

theorem buildSiwsMessage_eq_lines (p : SiwsPayload) :
    buildSiwsMessage p = List.intercalate [0x0A] p.lines := rfl

theorem isLine_labels : ∀ label ∈ [jsText " wants you to sign in with your Solana account:",
    jsText "URI: ", jsText "Version: ", jsText "Chain ID: ", jsText "Nonce: ",
    jsText "Issued At: ", expirationLabel, jsText "Resources:", jsText "- ",
    jsText "Authenticate to CredMesh", jsText "1", jsText "solana:", Cluster.mainnetBeta.text,
    Cluster.devnet.text], IsLine label := by decide +kernel

theorem SiwsPayload.OneLine.lines {p : SiwsPayload} (h : p.OneLine) :
    ∀ line ∈ p.lines, IsLine line := by
  have hlabels := isLine_labels
  simp only [List.forall_mem_cons] at hlabels
  obtain ⟨hwants, huri, hversion, hchainId, hnonce, hissuedAt, hexpires, hresources, hdash, -⟩ :=
    hlabels
  rw [SiwsPayload.lines, List.forall_mem_append]
  constructor
  · simp only [List.forall_mem_cons, isLine_append, isLine_nil, hwants, huri, hversion, hchainId,
      hnonce, hissuedAt, hexpires, h.domain, h.address, h.statement, h.uri, h.version, h.chainId,
      h.nonce, h.issuedAt, h.expirationTime, and_true, true_and]
    exact fun _ hnone ↦ absurd hnone List.not_mem_nil
  · split
    · simp only [List.forall_mem_cons, List.forall_mem_map, isLine_append, hresources, hdash,
        true_and]
      exact h.resources
    · exact fun _ hnone ↦ absurd hnone List.not_mem_nil

/-- No two payloads have one message. -/
theorem textEncode_buildSiwsMessage_inj {p q : SiwsPayload} (hp : p.OneLine) (hq : q.OneLine)
    (h : textEncode (buildSiwsMessage p) = textEncode (buildSiwsMessage q)) : p = q := by
  rw [buildSiwsMessage_eq_lines, buildSiwsMessage_eq_lines] at h
  have hlines : p.lines = q.lines :=
    textEncode_intercalate_inj hp.lines hq.lines (by simp [SiwsPayload.lines])
      (by simp [SiwsPayload.lines]) h
  have hresources : p.resources = q.resources := by
    have htail := congrArg (List.drop 11) hlines
    simp only [SiwsPayload.lines, List.cons_append, List.nil_append, List.drop_succ_cons,
      List.drop_zero] at htail
    have hprefix : Function.Injective (jsText "- " ++ ·) := List.append_right_injective _
    split_ifs at htail with hsome hsome' hsome'
    · exact hprefix.list_map (List.cons.inj htail).2
    · rw [not_not.mp hsome, not_not.mp hsome']
  cases p
  cases q
  simp only [SiwsPayload.lines, List.cons_append, List.cons.injEq, List.append_cancel_left_eq,
    List.append_cancel_right_eq, true_and] at hlines hresources
  simp_all

/-! ## Requests -/

/-- HTTP lets no line feed into a URL or a header, and its units are bytes. -/
structure Request.OneLine (request : Request) : Prop where
  url : IsLine request.url
  address : ∀ value, request.address = some value → IsLine value
  timestamp : ∀ value, request.timestamp = some value → IsLine value
  nonce : ∀ value, request.nonce = some value → IsLine value

/-- The bytes that a request has to sign. -/
def signedBytes (host : Host) (now : ℤ) (request : Request) : Except AuthError (List UInt8) := do
  let headers ← checkHeaders host now request
  let message ← expectedMessage host request.url headers
  pure (textEncode message)

section

variable {host : Host} {now now' : ℤ} {request request' : Request} {headers : Headers}
  {bytes : List UInt8}

theorem Cluster.eq_text_of_ofText {text : JsString} {cluster : Cluster}
    (h : Cluster.ofText text = some cluster) : text = cluster.text := by
  unfold Cluster.ofText at h
  split_ifs at h with hmainnet hdevnet
  · rw [hmainnet, Option.some.inj h]
  · rw [hdevnet, Option.some.inj h]

theorem cluster_of_checkHeaders (h : checkHeaders host now request = .ok headers) :
    request.cluster = some headers.cluster.text := by
  simp only [checkHeaders, bind_eq_ok, okOr_eq_ok, require_eq_ok, header_eq_ok, pure_eq_ok] at h
  obtain ⟨address, -, signature, -, timestamp, -, clusterText, hcluster, nonce, -, cluster, hfound,
    issuedAt, -, -, -, rfl⟩ := h
  rw [← Cluster.eq_text_of_ofText hfound]
  exact hcluster.1

theorem isLine_toISOString {time : ℤ} {text : JsString} (h : toISOString time = some text) :
    IsLine text := by
  unfold toISOString at h
  split_ifs at h
  rw [← Option.some.inj h]
  exact isLine_isoText time

/-- All that a request says is a part of the message that it has to sign. -/
theorem exists_payload (hdomain : IsLine host.siwsDomain) (hline : request.OneLine)
    (h : signedBytes host now request = .ok bytes) :
    ∃ payload : SiwsPayload, ∃ cluster : Cluster, payload.OneLine ∧
      textEncode (buildSiwsMessage payload) = bytes ∧ payload.uri = request.url ∧
      request.address = some payload.address ∧ request.timestamp = some payload.issuedAt ∧
      request.nonce = some payload.nonce ∧ payload.chainId = jsText "solana:" ++ cluster.text ∧
      request.cluster = some cluster.text := by
  simp only [signedBytes, expectedMessage, bind_eq_ok, okOr_eq_ok, pure_eq_ok] at h
  obtain ⟨headers, hheaders, _, ⟨expirationTime, hexpiration, rfl⟩, hbytes⟩ := h
  have hchecked := checked_of_checkHeaders hheaders
  have hlabels := isLine_labels
  simp only [List.forall_mem_cons] at hlabels
  obtain ⟨-, -, -, -, -, -, -, -, -, hstatement, hversion, hsolana, hmainnet, hdevnet, -⟩ := hlabels
  have hcluster : IsLine headers.cluster.text := by
    cases headers.cluster
    case mainnetBeta => exact hmainnet
    case devnet => exact hdevnet
  refine ⟨_, headers.cluster, ?_, hbytes, rfl, hchecked.address, hchecked.timestamp, hchecked.nonce,
    rfl, cluster_of_checkHeaders hheaders⟩
  exact {
    domain := hdomain
    address := hline.address _ hchecked.address
    statement := hstatement
    uri := hline.url
    version := hversion
    chainId := isLine_append.mpr ⟨hsolana, hcluster⟩
    nonce := hline.nonce _ hchecked.nonce
    issuedAt := hline.timestamp _ hchecked.timestamp
    expirationTime := isLine_toISOString hexpiration
    resources := fun _ hnone ↦ absurd hnone List.not_mem_nil }

/-- What two requests with one message agree on. -/
structure Request.SameSigned (request request' : Request) : Prop where
  url : request.url = request'.url
  address : request.address = request'.address
  timestamp : request.timestamp = request'.timestamp
  cluster : request.cluster = request'.cluster
  nonce : request.nonce = request'.nonce

theorem sameSigned_of_signedBytes (hdomain : IsLine host.siwsDomain) (hline : request.OneLine)
    (hline' : request'.OneLine) (h : signedBytes host now request = .ok bytes)
    (h' : signedBytes host now' request' = .ok bytes) : request.SameSigned request' := by
  obtain ⟨payload, cluster, hpayload, hbytes, hurl, haddress, htimestamp, hnonce, hchain,
    hcluster⟩ := exists_payload hdomain hline h
  obtain ⟨payload', cluster', hpayload', hbytes', hurl', haddress', htimestamp', hnonce', hchain',
    hcluster'⟩ := exists_payload hdomain hline' h'
  obtain rfl := textEncode_buildSiwsMessage_inj hpayload hpayload' (hbytes.trans hbytes'.symm)
  exact {
    url := hurl.symm.trans hurl'
    address := haddress.trans haddress'.symm
    timestamp := htimestamp.trans htimestamp'.symm
    cluster := by
      rw [hcluster, hcluster', List.append_cancel_left (hchain.symm.trans hchain')]
    nonce := hnonce.trans hnonce'.symm }

end

/-! ## Sign-ins -/

/-- The two headers decode to a key and to a signature of the bytes by this key. -/
structure Request.Carries (host : Host) (request : Request) (bytes : List UInt8)
    (address signature : JsString) (pubkeyBytes sigBytes : List UInt8) : Prop where
  addressHeader : request.address = some address
  signatureHeader : request.signature = some signature
  pubkey : host.bs58Decode address = some pubkeyBytes
  sig : host.bs58Decode signature = some sigBytes
  pubkeyLength : pubkeyBytes.length = 32
  sigLength : sigBytes.length = 64
  verified : host.verify bytes sigBytes pubkeyBytes = true

/-- In every run of a server whose drawn nonces differ: whoever signs in carries a signature of the
bytes of its request, by the key that is the verified address. These bytes are those of no request
with another address, URL, cluster, timestamp or nonce, at whatever time and whether or not it is
accepted, and they are never those of a second sign-in. A request with another method has the same
bytes. -/
theorem signed_message_binds (host : Host) (hdomain : IsLine host.siwsDomain)
    {events : List ServerEvent} (hnonces : (events.filterMap ServerEvent.drawn).Nodup) :
    ∀ before toleranceNow consumeNow request context,
      before ++ [.request toleranceNow consumeNow request] <+: events →
      SignsIn host before toleranceNow consumeNow request context → request.OneLine →
      ∃ bytes, signedBytes host toleranceNow request = .ok bytes ∧
        (∃ signature pubkeyBytes sigBytes,
          request.Carries host bytes context.verifiedAddress signature pubkeyBytes sigBytes) ∧
        (∀ method, signedBytes host toleranceNow { request with method } = .ok bytes) ∧
        (∀ now request', request'.OneLine → signedBytes host now request' = .ok bytes →
          request.SameSigned request') ∧
        ∀ later toleranceNow' consumeNow' request' context',
          before ++ [.request toleranceNow consumeNow request] <+: later →
          later ++ [.request toleranceNow' consumeNow' request'] <+: events →
          SignsIn host later toleranceNow' consumeNow' request' context' → request'.OneLine →
          signedBytes host toleranceNow' request' ≠ .ok bytes := by
  intro before toleranceNow consumeNow request context hpart hsigns hline
  obtain ⟨-, headers, hheaders, -, hverified⟩ := authMiddleware_eq_ok.mp hsigns
  obtain ⟨⟨message, hmessage, pubkeyBytes, sigBytes, hpubkey, hsig, hpubkeyLength, hsigLength,
    hverify⟩, rfl⟩ := verifySignature_eq_ok.mp hverified
  have hchecked := checked_of_checkHeaders hheaders
  have hbytes : signedBytes host toleranceNow request = .ok (textEncode message) := by
    simp only [signedBytes, bind_eq_ok, pure_eq_ok]
    exact ⟨headers, hheaders, message, hmessage, rfl⟩
  refine ⟨_, hbytes, ⟨headers.signature, pubkeyBytes, sigBytes, ?_⟩, fun _ ↦ hbytes,
    fun now request' hline' ↦ sameSigned_of_signedBytes hdomain hline hline' hbytes, ?_⟩
  · exact {
      addressHeader := hchecked.address
      signatureHeader := hchecked.signature
      pubkey := hpubkey
      sig := hsig
      pubkeyLength := hpubkeyLength
      sigLength := hsigLength
      verified := hverify }
  · intro later toleranceNow' consumeNow' request' context' hfirst hsecond hsigns' hline' hbytes'
    have hsame := sameSigned_of_signedBytes hdomain hline hline' hbytes hbytes'
    exact hsigns.nonce_ne hnonces hfirst hsecond hsigns' hsame.nonce

open Localnet in
/-- The agent's signature of a request is of no use for another URL. -/
theorem signed_message_binds_localnet :
    ∃ bytes, signedBytes host (signInTime + 4 * 60000) signInRequest = .ok bytes ∧
      (∃ signature pubkeyBytes sigBytes,
        signInRequest.Carries host bytes agent signature pubkeyBytes sigBytes) ∧
      ∀ now url, IsLine url → signedBytes host now { signInRequest with url } = .ok bytes →
        url = signInRequest.url := by
  have hline : signInRequest.OneLine := by
    have htexts : ∀ text ∈ [signInRequest.url, agent, jsText "2026-01-01T00:00:00.000Z",
        randomNonce Localnet.random], IsLine text := by decide +kernel
    simp only [List.forall_mem_cons] at htexts
    obtain ⟨hurl, hagent, htimestamp, hnonce, -⟩ := htexts
    exact {
      url := hurl
      address := fun _ hvalue ↦ Option.some.inj hvalue ▸ hagent
      timestamp := fun _ hvalue ↦ Option.some.inj hvalue ▸ htimestamp
      nonce := fun _ hvalue ↦ Option.some.inj hvalue ▸ hnonce }
  have hnonces : (List.filterMap ServerEvent.drawn [
      .issueNonce (signInTime + 4 * 60000 - 1000) (signInTime + 4 * 60000 - 1000) agent
        Localnet.random,
      .request (signInTime + 4 * 60000) (signInTime + 4 * 60000) signInRequest]).Nodup :=
    List.nodup_singleton (randomNonce Localnet.random)
  obtain ⟨bytes, hbytes, hcarries, -, hsame, -⟩ :=
    signed_message_binds host (by decide +kernel) hnonces
      [.issueNonce (signInTime + 4 * 60000 - 1000) (signInTime + 4 * 60000 - 1000) agent
        Localnet.random] _ _ _ _ List.prefix_rfl (signsIn_at 4 (by decide)) hline
  refine ⟨bytes, hbytes, hcarries, fun now url hurl hother ↦ ?_⟩
  have hline' : { signInRequest with url }.OneLine :=
    { hline with url := hurl }
  exact (hsame now _ hline' hother).url.symm

end CredMesh.Server
