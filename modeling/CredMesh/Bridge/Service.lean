import Mathlib.Data.List.DropRight
import CredMesh.Bridge.Quote
import CredMesh.Bridge.RateLimiter
import CredMesh.Foundation.Execution

/-!
# The service of the bridge

One process answers all requests. What it is asked for and who asks is settled when a request
arrives, and then the limiter is asked; only if that lets the request through is its body read, and
then EVM. Meanwhile other requests are served, so a request is answered at once or stays open.
-/

namespace CredMesh.Bridge

open Outcome EcmaScript

/-! ## Configuration -/

inductive LoadError
  | chainId (solanaChainId : ℤ)
  | signingKey (length : ℕ)
  | binding (solana evm : JsString)
  | emptyBindings (path : JsString)
  | emptyTokens
  deriving DecidableEq

def LoadError.message : LoadError → JsString
  | chainId solanaChainId => ofChars (("SOLANA_CHAIN_ID must be 1 (mainnet) or 2 (devnet); got " ++
      toString solanaChainId).toList)
  | signingKey length => ofChars (("bridge signing key must be a 64-byte ed25519 keypair " ++
      "(Solana keypair JSON format); got " ++ toString length ++ " bytes").toList)
  | binding solana evm => ofChars "agent binding ".toList ++ solana ++ ofChars " → ".toList ++
      evm ++ ofChars " is not a 20-byte EVM address".toList
  | emptyBindings path => ofChars "agent bindings file at ".toList ++ path ++ ofChars
      (" is empty — refusing to start, the bridge would have no agents to attest for").toList
  | emptyTokens => ofChars ("BRIDGE_AUTH_TOKENS is set but contains no non-empty tokens; " ++
      "either provide tokens or unset").toList

/-- The address that a text names if it passes `/^0x[0-9a-fA-F]{40}$/`. Its bytes do not depend on
the case of the digits. -/
def evmAddressOf (text : JsString) : Option EvmAddress :=
  if (ofChars ['0', 'x']).isPrefixOf text then
    (hexBytes (text.drop 2)).bind fun bytes ↦
      if h : bytes.length = 20 then some ⟨bytes, h⟩ else none
  else none

/-- The entries of the object that the file holds, in their order. -/
def loadAgentBindings (path : JsString) (entries : List (JsString × JsString)) :
    Except LoadError (AccountMap JsString EvmAddress) := do
  let map ← entries.foldlM (fun map (solana, evm) ↦ do
    let evmAddress ← okOr (evmAddressOf evm) (.binding solana evm)
    pure (Finmap.insert solana evmAddress map)) ∅
  require (entries ≠ []) (.emptyBindings path)
  pure map

/-- `String.prototype.trim` -/
def trim (text : JsString) : JsString := (text.dropWhile isWhiteSpace).rdropWhile isWhiteSpace

def comma : UInt16 := 0x2C

def loadAuthTokens (envValue : Option JsString) : Except LoadError (Option (List JsString)) :=
  match envValue with
  | none => pure none
  | some [] => pure none
  | some text => do
      let tokens := ((text.splitOn comma).map trim).filter fun token ↦ token ≠ []
      require (tokens ≠ []) .emptyTokens
      pure (some tokens)

/-- What the process finds in its environment and in the files named there. -/
structure Environment where
  solanaChainId : ℤ
  signingKey : List UInt8
  bindingsPath : JsString
  bindings : List (JsString × JsString)
  authTokens : Option JsString
  rateLimitBurst : ℚ
  rateLimitRefillPerSec : ℚ

structure ServiceConfig extends Config where
  authTokens : Option (List JsString)
  burst : ℚ
  refillPerSecond : ℚ

def loadConfig (environment : Environment) : Except LoadError ServiceConfig :=
  if hchain : environment.solanaChainId = 1 ∨ environment.solanaChainId = 2 then
    if hkey : environment.signingKey.length = 64 then do
      let agentBindings ← loadAgentBindings environment.bindingsPath environment.bindings
      let authTokens ← loadAuthTokens environment.authTokens
      pure {
        solanaChainId := environment.solanaChainId
        signingKey := ⟨environment.signingKey, hkey⟩
        agentBindings
        chain_known := hchain
        authTokens
        burst := environment.rateLimitBurst
        refillPerSecond := environment.rateLimitRefillPerSec }
    else throw (.signingKey environment.signingKey.length)
  else throw (.chainId environment.solanaChainId)

/-! ## Requests -/

structure Request where
  method : JsString
  url : JsString
  call : QuoteCall

def Request.isHealth (request : Request) : Bool :=
  request.method = ofChars "GET".toList ∧ request.url = ofChars "/health".toList

def Request.isQuote (request : Request) : Bool :=
  request.method = ofChars "POST".toList ∧ request.url = ofChars "/quote".toList

/-- The answers. A failure has a text of its own if there was a body to read. -/
inductive Response
  | healthy
  | unauthorized
  | rateLimited
  | quoted (reply : QuoteResponse)
  | failed (error : Option QuoteError)
  | notFound
  deriving DecidableEq

structure Service where
  limiter : RateLimiter
  /-- The connections so far. -/
  seen : List ℕ
  /-- Those whose body is still being read. -/
  pending : List ℕ
  sent : List (ℕ × Response)

inductive ServiceEvent
  | arrive (id : ℕ) (request : Request)
  /-- The body is read, or is none that can be parsed, and EVM has answered. -/
  | finish (id : ℕ) (body : Option QuoteRequest) (evm : EvmReads) (dateNow : DateNow)

namespace ServiceEvent

def id : ServiceEvent → ℕ
  | arrive id _ => id
  | finish id _ _ _ => id

end ServiceEvent

namespace Service

def start (cfg : ServiceConfig) : Service where
  limiter := RateLimiter.new cfg.burst cfg.refillPerSecond
  seen := []
  pending := []
  sent := []

def send (service : Service) (id : ℕ) (response : Response) : Service :=
  { service with sent := service.sent ++ [(id, response)] }

variable (solAddr : JsString → Option Pubkey) (sign : List UInt8 → Bytes 64 → Bytes 64)
  (cfg : ServiceConfig)

/-- The handler up to the first time that it waits. -/
def arrive (id : ℕ) (request : Request) (service : Service) : Service :=
  if request.isHealth then service.send id .healthy
  else if request.isQuote then
    match rateKey cfg.authTokens request.call with
    | none => service.send id .unauthorized
    | some key =>
        let (accepted, limiter) := service.limiter.consume request.call.now key 1
        if accepted then { service with limiter, pending := service.pending ++ [id] }
        else { service with limiter }.send id .rateLimited
  else service.send id .notFound

/-- The rest of the handler. -/
def reply (body : Option QuoteRequest) (evm : EvmReads) (dateNow : DateNow) : Response :=
  match body with
  | none => .failed none
  | some body =>
      match handleQuote solAddr sign evm cfg.toConfig dateNow body with
      | .ok response => .quoted response
      | .error error => .failed (some error)

/-- A connection is new when it arrives, and is finished only while it is open. -/
def step : ServiceEvent → Service → Except Unit Service
  | .arrive id request, service => do
      require (id ∉ service.seen) ()
      pure (arrive cfg id request { service with seen := service.seen ++ [id] })
  | .finish id body evm dateNow, service => do
      require (id ∈ service.pending) ()
      pure ({ service with pending := service.pending.erase id }.send id
        (reply solAddr sign cfg body evm dateNow))

/-- The process after some events. -/
def run (events : List ServiceEvent) : Except Unit Service :=
  Execution.run (step solAddr sign cfg) (start cfg) events

end Service

/-! ## What is loaded -/

/-- A token that `loadAuthTokens` finds in a text. -/
def Lists (text token : JsString) : Prop :=
  token ≠ [] ∧ ∃ piece ∈ text.splitOn comma, token = trim piece

/-- Callers have to name one of the tokens, unless none were configured. -/
theorem loadAuthTokens_eq_ok {envValue : Option JsString} {authTokens : Option (List JsString)}
    (h : loadAuthTokens envValue = .ok authTokens) :
    ((envValue = none ∨ envValue = some []) ∧ authTokens = none) ∨
    ∃ text tokens, envValue = some text ∧ authTokens = some tokens ∧ tokens ≠ [] ∧
      ∀ token, token ∈ tokens ↔ Lists text token := by
  unfold loadAuthTokens at h
  split at h
  case h_1 => exact .inl ⟨.inl rfl, (Except.ok.inj h).symm⟩
  case h_2 => exact .inl ⟨.inr rfl, (Except.ok.inj h).symm⟩
  case h_3 text hne =>
    simp only [bind_eq_ok, require_eq_ok, pure_eq_ok, exists_const] at h
    obtain ⟨htokens, rfl⟩ := h
    refine .inr ⟨text, _, rfl, rfl, htokens, fun token ↦ ?_⟩
    simp only [List.mem_filter, List.mem_map, decide_eq_true_eq, Lists]
    constructor
    · rintro ⟨⟨piece, hpiece, rfl⟩, hne⟩
      exact ⟨hne, piece, hpiece, rfl⟩
    · rintro ⟨hne, piece, hpiece, rfl⟩
      exact ⟨⟨piece, hpiece, rfl⟩, hne⟩

/-- An agent is bound to the address that the last entry for it names. -/
def Binds (entries : List (JsString × JsString)) (agent : JsString) (evmAddress : EvmAddress) :
    Prop :=
  ∃ earlier text later, entries = earlier ++ (agent, text) :: later ∧
    (∀ entry ∈ later, entry.1 ≠ agent) ∧ evmAddressOf text = some evmAddress

theorem Binds.snoc_iff {entries : List (JsString × JsString)} {agent solana evm : JsString}
    {evmAddress found : EvmAddress} (hfound : evmAddressOf evm = some found) :
    Binds (entries ++ [(solana, evm)]) agent evmAddress ↔
      if agent = solana then found = evmAddress else Binds entries agent evmAddress := by
  split
  case isTrue hsame =>
    subst hsame
    constructor
    · rintro ⟨earlier, text, later, hentries, hlater, hevm⟩
      obtain rfl | ⟨rest, last, rfl⟩ := List.eq_nil_or_concat later
      · obtain ⟨-, hlast⟩ := List.append_inj' hentries rfl
        obtain ⟨-, rfl⟩ := Prod.mk.inj (List.singleton_inj.mp hlast)
        exact Option.some.inj (hfound.symm.trans hevm)
      · have hsplit : entries ++ [(agent, evm)] = earlier ++ (agent, text) :: rest ++ [last] := by
          simpa using hentries
        obtain ⟨-, hlast⟩ := List.append_inj' hsplit rfl
        rw [← List.singleton_inj.mp hlast] at hlater
        exact absurd rfl (hlater (agent, evm) (by simp))
    · rintro rfl
      exact ⟨entries, evm, [], rfl, by simp, hfound⟩
  case isFalse hother =>
    constructor
    · rintro ⟨earlier, text, later, hentries, hlater, hevm⟩
      obtain rfl | ⟨rest, last, rfl⟩ := List.eq_nil_or_concat later
      · obtain ⟨-, hlast⟩ := List.append_inj' hentries rfl
        obtain ⟨hsolana, -⟩ := Prod.mk.inj (List.singleton_inj.mp hlast)
        exact absurd hsolana.symm hother
      · have hsplit : entries ++ [(solana, evm)] = earlier ++ (agent, text) :: rest ++ [last] := by
          simpa using hentries
        obtain ⟨hentries, -⟩ := List.append_inj' hsplit rfl
        exact ⟨earlier, text, rest, hentries, fun entry hentry ↦ hlater entry (by simp [hentry]),
          hevm⟩
    · rintro ⟨earlier, text, later, rfl, hlater, hevm⟩
      refine ⟨earlier, text, later ++ [(solana, evm)], by simp, ?_, hevm⟩
      intro entry hentry
      obtain hold | hnew := List.mem_append.mp hentry
      · exact hlater entry hold
      · rw [List.mem_singleton.mp hnew]
        exact Ne.symm hother

theorem lookup_loadAgentBindings {path : JsString} {entries : List (JsString × JsString)}
    {bindings : AccountMap JsString EvmAddress}
    (h : loadAgentBindings path entries = .ok bindings) (agent : JsString)
    (evmAddress : EvmAddress) :
    bindings.lookup agent = some evmAddress ↔ Binds entries agent evmAddress := by
  simp only [loadAgentBindings, bind_eq_ok, require_eq_ok, pure_eq_ok, exists_const] at h
  obtain ⟨_, hloaded, -, rfl⟩ := h
  rename_i map
  induction entries using List.reverseRecOn generalizing map with
  | nil =>
      obtain rfl : ∅ = map := Except.ok.inj hloaded
      constructor
      · intro hnone
        cases hnone
      · rintro ⟨_, _, _, hnil, -⟩
        simp at hnil
  | append_singleton entries entry ih =>
      obtain ⟨solana, evm⟩ := entry
      rw [List.foldlM_append, bind_eq_ok] at hloaded
      obtain ⟨before, hbefore, hlast⟩ := hloaded
      simp only [List.foldlM_cons, List.foldlM_nil, bind_eq_ok, okOr_eq_ok, pure_eq_ok,
        exists_eq_right] at hlast
      obtain ⟨found, hfound, rfl⟩ := hlast
      rw [AccountMap.lookup_insert_eq, Binds.snoc_iff hfound]
      split
      case isTrue => exact Option.some_inj
      case isFalse => exact ih before hbefore

/-- What a process that has started is configured with. -/
theorem loadConfig_eq_ok {environment : Environment} {cfg : ServiceConfig}
    (h : loadConfig environment = .ok cfg) :
    cfg.solanaChainId = environment.solanaChainId ∧
    cfg.signingKey.toList = environment.signingKey ∧
    loadAgentBindings environment.bindingsPath environment.bindings = .ok cfg.agentBindings ∧
    loadAuthTokens environment.authTokens = .ok cfg.authTokens ∧
    cfg.burst = environment.rateLimitBurst ∧
    cfg.refillPerSecond = environment.rateLimitRefillPerSec := by
  unfold loadConfig at h
  split at h
  case isFalse => cases h
  case isTrue hchain =>
    split at h
    case isFalse => cases h
    case isTrue hkey =>
      simp only [bind_eq_ok, pure_eq_ok] at h
      obtain ⟨_, hbindings, _, htokens, rfl⟩ := h
      exact ⟨rfl, rfl, hbindings, htokens, rfl, rfl⟩

end CredMesh.Bridge
