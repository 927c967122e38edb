import CredMesh.Foundation.IsoTime
import CredMesh.Foundation.Outcome
import CredMesh.Server.NonceStore

/-!
# Sign-in with Solana

The middleware lets reading methods pass. Any other request has to carry a signature, by the key
that is its address, of a message that contains its timestamp and a nonce of the server. The server
builds the message itself. The date parser, the base58 decoder and the signature check are
parameters.
-/

namespace CredMesh.Server

open EcmaScript Outcome

def jsText (text : String) : JsString := ofChars text.toList

structure Host where
  siwsDomain : JsString
  /-- `Date.parse`, with `none` for NaN. -/
  dateParse : JsString → Option ℤ
  bs58Decode : JsString → Option (List UInt8)
  /-- Whether the key made the signature, the second argument, of the message. -/
  verify : List UInt8 → List UInt8 → List UInt8 → Bool

/-! ## The message -/

structure SiwsPayload where
  domain : JsString
  address : JsString
  statement : JsString
  uri : JsString
  version : JsString
  chainId : JsString
  nonce : JsString
  issuedAt : JsString
  expirationTime : JsString
  resources : List JsString

def expirationLabel : JsString := jsText "Expiration Time: "

def buildSiwsMessage (p : SiwsPayload) : JsString :=
  let lines := [
    p.domain ++ jsText " wants you to sign in with your Solana account:",
    p.address,
    [],
    p.statement,
    [],
    jsText "URI: " ++ p.uri,
    jsText "Version: " ++ p.version,
    jsText "Chain ID: " ++ p.chainId,
    jsText "Nonce: " ++ p.nonce,
    jsText "Issued At: " ++ p.issuedAt,
    expirationLabel ++ p.expirationTime]
  let resourceLines :=
    if p.resources ≠ [] then jsText "Resources:" :: p.resources.map (jsText "- " ++ ·) else []
  List.intercalate [0x0A] (lines ++ resourceLines)

/-! ## The middleware -/

inductive Cluster
  | mainnetBeta
  | devnet
  deriving DecidableEq

def Cluster.text : Cluster → JsString
  | mainnetBeta => jsText "mainnet-beta"
  | devnet => jsText "devnet"

def Cluster.ofText (text : JsString) : Option Cluster :=
  if text = Cluster.mainnetBeta.text then some .mainnetBeta
  else if text = Cluster.devnet.text then some .devnet
  else none

/-- A request with its `X-Agent` headers. -/
structure Request where
  method : JsString
  url : JsString
  address : Option JsString
  signature : Option JsString
  timestamp : Option JsString
  cluster : Option JsString
  nonce : Option JsString

structure AuthContext where
  verifiedAddress : JsString
  cluster : Cluster
  deriving DecidableEq

/-- The responses with status 401, and the exception that a time out of range throws. -/
inductive AuthError
  | missingHeaders
  | invalidCluster
  | timestampOutOfTolerance
  | invalidNonce
  | rangeError
  | malformedBase58
  | invalidPubkeyLength
  | invalidSignatureLength
  | verificationFailed
  deriving DecidableEq

def AuthError.message : AuthError → Option String
  | missingHeaders => some "missing SIWS auth headers"
  | invalidCluster => some "invalid X-Agent-Cluster"
  | timestampOutOfTolerance => some "timestamp out of tolerance"
  | invalidNonce => some "invalid or expired nonce"
  | rangeError => none
  | malformedBase58 => some "malformed base58 in headers"
  | invalidPubkeyLength => some "invalid pubkey length"
  | invalidSignatureLength => some "invalid signature length"
  | verificationFailed => some "signature verification failed"

def timestampToleranceMs : ℤ := 10 * 60 * 1000

/-- The headers of a request that has them all. -/
structure Headers where
  address : JsString
  signature : JsString
  timestamp : JsString
  cluster : Cluster
  nonce : JsString
  issuedAt : ℤ

/-- A header without content counts as missing. -/
def header (value : Option JsString) : Except AuthError JsString :=
  okOr (value.filter (· ≠ [])) .missingHeaders

/-- What is checked before the nonce. -/
def checkHeaders (host : Host) (now : ℤ) (request : Request) : Except AuthError Headers := do
  let address ← header request.address
  let signature ← header request.signature
  let timestamp ← header request.timestamp
  let clusterText ← header request.cluster
  let nonce ← header request.nonce
  let cluster ← okOr (Cluster.ofText clusterText) .invalidCluster
  let issuedAt ← okOr (host.dateParse timestamp) .timestampOutOfTolerance
  require (¬ |now - issuedAt| > timestampToleranceMs) .timestampOutOfTolerance
  pure { address, signature, timestamp, cluster, nonce, issuedAt }

def expectedMessage (host : Host) (uri : JsString) (headers : Headers) :
    Except AuthError JsString := do
  let expirationTime ← okOr (toISOString (headers.issuedAt + 5 * 60 * 1000)) .rangeError
  pure (buildSiwsMessage {
    domain := host.siwsDomain
    address := headers.address
    statement := jsText "Authenticate to CredMesh"
    uri
    version := jsText "1"
    chainId := jsText "solana:" ++ headers.cluster.text
    nonce := headers.nonce
    issuedAt := headers.timestamp
    expirationTime
    resources := [] })

/-- What is checked after the nonce. -/
def verifySignature (host : Host) (uri : JsString) (headers : Headers) :
    Except AuthError AuthContext := do
  let message ← expectedMessage host uri headers
  let pubkeyBytes ← okOr (host.bs58Decode headers.address) .malformedBase58
  let sigBytes ← okOr (host.bs58Decode headers.signature) .malformedBase58
  require (pubkeyBytes.length = 32) .invalidPubkeyLength
  require (sigBytes.length = 64) .invalidSignatureLength
  require (host.verify (textEncode message) sigBytes pubkeyBytes = true) .verificationFailed
  pure ⟨headers.address, headers.cluster⟩

def isRead (method : JsString) : Bool :=
  method = jsText "GET" ∨ method = jsText "HEAD" ∨ method = jsText "OPTIONS"

/-- The clock is read for the timestamp and then for the nonce. A request that passes without
signing in has no context. -/
def authMiddleware (host : Host) (toleranceNow consumeNow : ℤ) (request : Request)
    (store : NonceStore) : Except AuthError (Option AuthContext) × NonceStore :=
  if isRead request.method then (.ok none, store)
  else
    match checkHeaders host toleranceNow request with
    | .error error => (.error error, store)
    | .ok headers =>
        let (consumed, store) := store.consume consumeNow headers.nonce headers.address
        if consumed then ((verifySignature host request.url headers).map some, store)
        else (.error .invalidNonce, store)

/-! ## What an accepted request has passed -/

section

variable {host : Host} {request : Request} {headers : Headers} {context : AuthContext}

/-- The headers are those of the request, and the timestamp is near the clock. -/
structure Checked (host : Host) (now : ℤ) (request : Request) (headers : Headers) : Prop where
  address : request.address = some headers.address
  signature : request.signature = some headers.signature
  timestamp : request.timestamp = some headers.timestamp
  nonce : request.nonce = some headers.nonce
  parsed : host.dateParse headers.timestamp = some headers.issuedAt
  tolerated : |now - headers.issuedAt| ≤ timestampToleranceMs

theorem header_eq_ok {value : Option JsString} {text : JsString} :
    header value = .ok text ↔ value = some text ∧ text ≠ [] := by
  rw [header, okOr_eq_ok, Option.filter_eq_some_iff, decide_eq_true_eq]

theorem checked_of_checkHeaders {now : ℤ} (h : checkHeaders host now request = .ok headers) :
    Checked host now request headers := by
  simp only [checkHeaders, bind_eq_ok, okOr_eq_ok, require_eq_ok, header_eq_ok, pure_eq_ok] at h
  obtain ⟨address, haddress, signature, hsignature, timestamp, htimestamp, clusterText, -, nonce,
    hnonce, cluster, -, issuedAt, hparsed, -, htolerated, rfl⟩ := h
  exact ⟨haddress.1, hsignature.1, htimestamp.1, hnonce.1, hparsed, not_lt.mp htolerated⟩

/-- The address of the headers is a key that signed the message with the signature in them. -/
def Signed (host : Host) (headers : Headers) (message : JsString) : Prop :=
  ∃ pubkeyBytes sigBytes, host.bs58Decode headers.address = some pubkeyBytes ∧
    host.bs58Decode headers.signature = some sigBytes ∧
    pubkeyBytes.length = 32 ∧ sigBytes.length = 64 ∧
    host.verify (textEncode message) sigBytes pubkeyBytes = true

theorem verifySignature_eq_ok {uri : JsString} :
    verifySignature host uri headers = .ok context ↔
      (∃ message, expectedMessage host uri headers = .ok message ∧ Signed host headers message) ∧
        ⟨headers.address, headers.cluster⟩ = context := by
  simp only [verifySignature, bind_eq_ok, okOr_eq_ok, require_eq_ok, pure_eq_ok, Signed]
  constructor
  · rintro ⟨message, hmessage, key, hkey, signature, hsignature, -, hlength, -, hlength', -,
      hverify, hcontext⟩
    exact ⟨⟨message, hmessage, key, signature, hkey, hsignature, hlength, hlength', hverify⟩,
      hcontext⟩
  · rintro ⟨⟨message, hmessage, key, signature, hkey, hsignature, hlength, hlength', hverify⟩,
      hcontext⟩
    exact ⟨message, hmessage, key, hkey, signature, hsignature, (), hlength, (), hlength', (),
      hverify, hcontext⟩

/-- A request signs in if its headers pass, its nonce is good for its address, and its signature
is one of the expected message. -/
theorem authMiddleware_eq_ok {toleranceNow consumeNow : ℤ} {store : NonceStore} :
    (authMiddleware host toleranceNow consumeNow request store).1 = .ok (some context) ↔
      isRead request.method = false ∧ ∃ headers,
        checkHeaders host toleranceNow request = .ok headers ∧
        (store.consume consumeNow headers.nonce headers.address).1 = true ∧
        verifySignature host request.url headers = .ok context := by
  unfold authMiddleware
  by_cases hread : isRead request.method = true
  · simp [hread]
  · rw [if_neg hread]
    cases hheaders : checkHeaders host toleranceNow request with
    | error error => simp
    | ok headers =>
        by_cases hconsumed : (store.consume consumeNow headers.nonce headers.address).1 = true
        · cases hverify : verifySignature host request.url headers <;>
            simp [hread, hconsumed, hverify, Except.map]
        · simp [hconsumed]

/-- Whatever the answer, a request does nothing to the store but to consume. -/
theorem authMiddleware_store (host : Host) (toleranceNow consumeNow : ℤ) (request : Request)
    (store : NonceStore) :
    (authMiddleware host toleranceNow consumeNow request store).2 = store ∨
    ∃ headers, checkHeaders host toleranceNow request = .ok headers ∧
      (authMiddleware host toleranceNow consumeNow request store).2 =
        (store.consume consumeNow headers.nonce headers.address).2 := by
  unfold authMiddleware
  split
  · exact .inl rfl
  · split
    next => exact .inl rfl
    next headers hheaders =>
      refine .inr ⟨headers, hheaders, ?_⟩
      dsimp only
      split <;> rfl

theorem store_of_accepted {toleranceNow consumeNow : ℤ} {store : NonceStore}
    (h : (authMiddleware host toleranceNow consumeNow request store).1 = .ok (some context)) :
    ∃ headers, checkHeaders host toleranceNow request = .ok headers ∧
      (store.consume consumeNow headers.nonce headers.address).1 = true ∧
      (authMiddleware host toleranceNow consumeNow request store).2 =
        (store.consume consumeNow headers.nonce headers.address).2 := by
  obtain ⟨hmethod, headers, hheaders, hconsumed, -⟩ := authMiddleware_eq_ok.mp h
  refine ⟨headers, hheaders, hconsumed, ?_⟩
  simp [authMiddleware, hmethod, hheaders, hconsumed]

end

/-! ## The server over time -/

/-- What changes the store: a nonce is issued, or a request comes in. -/
inductive ServerEvent
  | issueNonce (gcNow now : ℤ) (address : JsString) (random : Bytes 16)
  | request (toleranceNow consumeNow : ℤ) (contents : Request)

namespace ServerEvent

/-- The readings of the clock, in order. -/
def times : ServerEvent → List ℤ
  | issueNonce gcNow now _ _ => [gcNow, now]
  | request toleranceNow consumeNow _ => [toleranceNow, consumeNow]

def drawn : ServerEvent → Option JsString
  | issueNonce _ _ _ random => some (randomNonce random)
  | request _ _ _ => none

/-- A request with this nonce, by this address. -/
def Names (nonce address : JsString) : ServerEvent → Prop
  | issueNonce _ _ _ _ => False
  | request _ _ contents => contents.nonce = some nonce ∧ contents.address = some address

def serve (host : Host) (store : NonceStore) : ServerEvent → NonceStore
  | issueNonce gcNow now address random => store.issue gcNow now (randomNonce random) address
  | request toleranceNow consumeNow contents =>
      (authMiddleware host toleranceNow consumeNow contents store).2

end ServerEvent

/-- The store after a list of events, none of them before the server started. -/
def run (host : Host) (events : List ServerEvent) : NonceStore :=
  events.foldl (ServerEvent.serve host) ∅

end CredMesh.Server
