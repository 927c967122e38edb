import CredMesh.Foundation.Projection
import CredMesh.Safety.QuoteWindow
import CredMesh.Safety.ServiceHistory

/-!
# What the bridge signs

However requests arrive and however long their bodies take, every quote that the process hands out
goes to a caller that was authorised and let through by the limiter, and says what EVM said of the
bound address. The quotes for one caller keep to its rate and do not depend on anyone else.
-/

namespace CredMesh.Bridge

open Outcome EcmaScript TokenBucket

/-! ## Who gets a quote -/

/-- A caller names one of the tokens of the environment, unless there are none. -/
def Authorised (authTokens : Option JsString) (call : QuoteCall) : Prop :=
  authTokens = none ∨ authTokens = some [] ∨
    ∃ text token, authTokens = some text ∧ Lists text token ∧
      call.authorization = some (bearer ++ token)

theorem authorised_of_rateKey {envValue : Option JsString} {authTokens : Option (List JsString)}
    {call : QuoteCall} {key : JsString} (hload : loadAuthTokens envValue = .ok authTokens)
    (hkey : rateKey authTokens call = some key) : Authorised envValue call := by
  obtain ⟨hunset | hempty, -⟩ | ⟨text, tokens, rfl, rfl, -, hlists⟩ := loadAuthTokens_eq_ok hload
  · exact .inl hunset
  · exact .inr (.inl hempty)
  · obtain ⟨token, hmem, -, hauthorization, -⟩ := rateKey_eq_some.mp hkey
    exact .inr (.inr ⟨text, token, rfl, (hlists token).mp hmem, hauthorization⟩)

theorem Request.key_eq_some {authTokens : Option (List JsString)} {request : Request}
    {key : JsString} : request.key authTokens = some key ↔
      request.isQuote = true ∧ rateKey authTokens request.call = some key := by
  rw [Request.key]
  exact Option.ite_none_right_eq_some

section Quotes

variable {solAddr : JsString → Option Pubkey} {sign : List UInt8 → Bytes 64 → Bytes 64}
  {environment : Environment} {cfg : ServiceConfig} {events : List ServiceEvent}
  {service : Service}

/-- A quote that was sent, traced back to its request, to the environment and to EVM. -/
structure Traced (environment : Environment) (cfg : ServiceConfig) (events : List ServiceEvent)
    (id : ℕ) (response : QuoteResponse) (request : Request) (earlier : List ServiceEvent)
    (body : QuoteRequest) (evm : EvmReads) (dateNow : DateNow) (agent pool : Pubkey)
    (nonce : Bytes 16) (evmAddress : EvmAddress) (snap : EvmAgentSnapshot) (ttl : ℤ)
    (message : List UInt8) : Prop where
  made : earlier ++ [.finish id (some body) evm dateNow] <+: events
  arrived : .arrive id request ∈ earlier
  posted : request.isQuote = true
  authorised : Authorised environment.authTokens request.call
  letThrough : ∃ key, request.key cfg.authTokens = some key ∧
    (id, ⟨request.call.now, key⟩) ∈ admitted cfg earlier
  quotes : Quotes evm cfg.toConfig dateNow body agent pool nonce evmAddress snap ttl message
    response
  binds : Binds environment.bindings (keyText agent) evmAddress
  lives : 1 ≤ ttl ∧ ttl ≤ 900

theorem traced_of_sent (hlibrary : AddressLibrary solAddr)
    (hconfig : loadConfig environment = .ok cfg)
    (hrun : Service.run solAddr sign cfg events = .ok service) {id : ℕ} {response : QuoteResponse}
    (hsent : (id, .quoted response) ∈ service.sent) :
    ∃ request earlier body evm dateNow agent pool nonce evmAddress snap ttl message,
      Traced environment cfg events id response request earlier body evm dateNow agent pool nonce
        evmAddress snap ttl message := by
  obtain ⟨-, -, hbindings, htokens, -, -⟩ := loadConfig_eq_ok hconfig
  obtain ⟨body, evm, dateNow, hanswers⟩ := (Service.run_faithful hrun).quotes id response hsent
  obtain ⟨earlier, hearlier, ⟨now, key⟩, hadmitted⟩ := hanswers.letThrough
  obtain ⟨request, harrive, hkey, rfl⟩ :=
    mem_limiterCalls.mp (mem_limiterCalls_of_admitted hadmitted)
  obtain ⟨hposted, hrateKey⟩ := Request.key_eq_some.mp hkey
  obtain ⟨agent, pool, nonce, evmAddress, snap, ttl, message, hquotes⟩ :=
    quotes_of_handleQuote hlibrary hanswers.quoted
  refine ⟨request, earlier, body, evm, dateNow, agent, pool, nonce, evmAddress, snap, ttl, message,
    ?_⟩
  exact {
    made := hearlier
    arrived := harrive
    posted := hposted
    authorised := authorised_of_rateKey htokens hrateKey
    letThrough := ⟨key, hkey, hadmitted⟩
    quotes := hquotes
    binds := (lookup_loadAgentBindings hbindings _ _).mp hquotes.bound
    lives := effectiveTtl_bounds hquotes.lifetime }

/-- Every connection is answered once at most. A quote that is sent goes to a `POST /quote` whose
caller is authorised by the environment. It was made after the limiter had let the request through,
lives fifteen minutes at most, and attests what EVM said of the address that the bindings name
last for the agent. -/
theorem quotes_are_authorised (hlibrary : AddressLibrary solAddr)
    (hconfig : loadConfig environment = .ok cfg)
    (hrun : Service.run solAddr sign cfg events = .ok service) :
    (service.sent.map Prod.fst).Nodup ∧
    ∀ id response, (id, .quoted response) ∈ service.sent →
      ∃ request earlier body evm dateNow agent pool nonce evmAddress snap ttl message,
        Traced environment cfg events id response request earlier body evm dateNow agent pool nonce
          evmAddress snap ttl message := by
  constructor
  · exact (List.nodup_append'.mp (Service.run_faithful hrun).once).2.1
  · exact fun _ _ hsent ↦ traced_of_sent hlibrary hconfig hrun hsent

end Quotes

/-! ## A service on localnet -/

end CredMesh.Bridge

namespace CredMesh.Localnet

open Bridge EcmaScript

/-- Two tokens with blanks around them, and one agent. -/
def environment : Environment where
  solanaChainId := 2
  signingKey := List.replicate 32 7 ++ bridge.toList
  bindingsPath := ofChars "agents.json".toList
  bindings := [(keyText agent, ofChars "0x".toList ++ hexText (List.replicate 20 0xAB))]
  authTokens := some (ofChars " s3cret , other,".toList)
  rateLimitBurst := 30
  rateLimitRefillPerSec := 1 / 5

def quoteCall (authorization : List Char) (now : ℚ) : QuoteCall :=
  ⟨some (bearer ++ ofChars authorization), none, now⟩

def postQuote (authorization : List Char) (now : ℚ) : Request :=
  ⟨ofChars "POST".toList, ofChars "/quote".toList, quoteCall authorization now⟩

/-- While the body of the first request is read, a caller without a token of the list is turned
away, and another comes in. -/
def serviceEvents : List ServiceEvent :=
  [.arrive 0 (postQuote "s3cret".toList 0), .arrive 1 (postQuote "guess".toList 1),
    .arrive 2 (postQuote "other".toList 1), .finish 0 (some quoteRequest) evm dateNow,
    .finish 2 none evm dateNow]

/-- The process with which this environment answers the events. -/
def served : Except Unit (ServiceConfig × Service) := do
  let cfg ← (loadConfig environment).mapError fun _ ↦ ()
  let service ← Service.run solAddr (fun _ _ ↦ signatureFirst) cfg serviceEvents
  pure (cfg, service)

/-- An answer to the first request with a quote. -/
def isFirstQuote : ℕ × Response → Bool
  | (0, .quoted _) => true
  | _ => false

theorem exists_of_isFirstQuote {answer : ℕ × Response} (h : isFirstQuote answer = true) :
    ∃ response, answer = (0, .quoted response) := by
  unfold isFirstQuote at h
  split at h
  case h_1 response => exact ⟨response, rfl⟩
  case h_2 => cases h

/-- The caller without a token is answered first, and the first caller gets a quote. -/
theorem exists_served : ∃ cfg service response, loadConfig environment = .ok cfg ∧
    Service.run solAddr (fun _ _ ↦ signatureFirst) cfg serviceEvents = .ok service ∧
    (1, .unauthorized) ∈ service.sent ∧ (0, .quoted response) ∈ service.sent := by
  obtain ⟨⟨cfg, service⟩, hserved, htest⟩ := returns_iff.mp
    (show returns served (fun result ↦ (1, .unauthorized) ∈ result.2.sent ∧
      result.2.sent.any isFirstQuote = true) = true by decide +kernel)
  obtain ⟨hunauthorized, hquoted⟩ := of_decide_eq_true htest
  simp only [served, Outcome.bind_eq_ok, Outcome.mapError_eq_ok, Outcome.pure_eq_ok] at hserved
  obtain ⟨_, hconfig, _, hrun, hpair⟩ := hserved
  obtain ⟨rfl, rfl⟩ := Prod.mk.inj hpair
  obtain ⟨answer, hmem, hquote⟩ := List.any_eq_true.mp hquoted
  obtain ⟨response, rfl⟩ := exists_of_isFirstQuote hquote
  exact ⟨_, _, response, hconfig, hrun, hunauthorized, hmem⟩

/-- What the service signs for the first request. -/
def quotedMessage : List UInt8 := attestationBytes (t₀ + 600) t₀ textNonce

theorem decode_of_served {cfg : ServiceConfig} {service : Service} {response : QuoteResponse}
    (hconfig : loadConfig environment = .ok cfg)
    (hrun : Service.run solAddr (fun _ _ ↦ signatureFirst) cfg serviceEvents = .ok service)
    (hquoted : (0, .quoted response) ∈ service.sent) :
    Base64.decode response.messageB64 = quotedMessage := by
  obtain ⟨_, _, body, evm', dateNow', agent', pool', nonce, _, snap, ttl, message, htraced⟩ :=
    traced_of_sent addressLibrary_solAddr hconfig hrun hquoted
  have hquotes := htraced.quotes
  have hfinish := htraced.made.mem (List.mem_append_right _ (List.mem_singleton_self _))
  obtain ⟨rfl, rfl, rfl⟩ : body = quoteRequest ∧ evm' = evm ∧ dateNow' = dateNow := by
    simpa [serviceEvents] using hfinish
  obtain rfl : agent = agent' := addressLibrary_solAddr.key_inj hquotes.agentNamed
  obtain rfl : pool = pool' := addressLibrary_solAddr.key_inj hquotes.poolNamed
  obtain rfl : textNonce = nonce := by
    apply List.Vector.toList_injective
    exact Except.ok.inj ((parseNonce_hexText textNonce).1.symm.trans hquotes.nonceParsed)
  obtain rfl : (600 : ℤ) = ttl := by
    have hdefault : effectiveTtl .undefined = .ok (.finite (600 : ℤ)) := by decide +kernel
    exact_mod_cast Number.finite.inj (Except.ok.inj (hdefault.symm.trans hquotes.lifetime))
  obtain rfl : ⟨500000000, 0⟩ = snap := Except.ok.inj hquotes.snapshot
  obtain ⟨hchain, -⟩ := loadConfig_eq_ok hconfig
  have hencoded := hquotes.encoded
  have hchain : cfg.toConfig.solanaChainId = (2 : UInt64).toNat := hchain
  rw [hchain] at hencoded
  calc
    Base64.decode response.messageB64 = message := hquotes.delivered
    _ = quotedMessage := (congrArg (fun result ↦ result.toOption.getD []) hencoded).symm

end CredMesh.Localnet

namespace CredMesh.Bridge

open Outcome EcmaScript TokenBucket

/-- The first caller gets a quote while another is turned away. -/
theorem quotes_are_authorised_localnet : ∃ cfg service response request key evmAddress,
    loadConfig Localnet.environment = .ok cfg ∧
    Service.run Localnet.solAddr (fun _ _ ↦ Localnet.signatureFirst) cfg Localnet.serviceEvents =
      .ok service ∧ (service.sent.map Prod.fst).Nodup ∧ (1, .unauthorized) ∈ service.sent ∧
    (0, .quoted response) ∈ service.sent ∧ .arrive 0 request ∈ Localnet.serviceEvents ∧
    request.key cfg.authTokens = some key ∧
    Authorised Localnet.environment.authTokens request.call ∧
    Binds Localnet.environment.bindings (keyText Localnet.agent) evmAddress := by
  obtain ⟨cfg, service, response, hconfig, hrun, hrefused, hquoted⟩ := Localnet.exists_served
  obtain ⟨honce, hquotes⟩ :=
    quotes_are_authorised Localnet.addressLibrary_solAddr hconfig hrun
  obtain ⟨request, earlier, body, evm, dateNow, agent, _, _, evmAddress, _, _, _, htraced⟩ :=
    hquotes 0 response hquoted
  obtain ⟨key, hkey, -⟩ := htraced.letThrough
  have hfinish := htraced.made.mem (List.mem_append_right _ (List.mem_singleton_self _))
  obtain rfl : body = Localnet.quoteRequest := by
    simp [Localnet.serviceEvents] at hfinish
    exact hfinish.1
  have hagent := Localnet.addressLibrary_solAddr.key_inj htraced.quotes.agentNamed
  have harrive := ((List.prefix_append _ _).trans htraced.made).mem htraced.arrived
  exact ⟨cfg, service, response, request, key, evmAddress, hconfig, hrun, honce, hrefused, hquoted,
    harrive, hkey, htraced.authorised, hagent ▸ htraced.binds⟩

/-! ## The rate and the isolation of a caller -/

section Callers

variable {solAddr : JsString → Option Pubkey} {sign : List UInt8 → Bytes 64 → Bytes 64}
  {cfg : ServiceConfig} {events : List ServiceEvent} {service : Service}

/-- Requests arrive one after the other. -/
def InOrder (events : List ServiceEvent) : Prop :=
  events.Pairwise fun
    | .arrive _ earlier, .arrive _ later => earlier.call.now ≤ later.call.now
    | _, _ => True

theorem pairwise_limiterCalls (authTokens : Option (List JsString)) (horder : InOrder events) :
    ((limiterCalls authTokens events).map Prod.snd).Pairwise
      fun earlier later ↦ earlier.now ≤ later.now := by
  rw [List.pairwise_map]
  refine List.Pairwise.filterMap _ ?_ horder
  intro first second hle call hcall call' hcall'
  cases first with
  | finish _ _ _ _ => cases hcall
  | arrive id request =>
      cases second with
      | finish _ _ _ _ => cases hcall'
      | arrive id' request' =>
          obtain ⟨_, -, rfl⟩ := Option.map_eq_some_iff.mp hcall
          obtain ⟨_, -, rfl⟩ := Option.map_eq_some_iff.mp hcall'
          exact hle

/-- The connections that got a quote on a request for a key made in a window. -/
def QuotedWithin (cfg : ServiceConfig) (events : List ServiceEvent) (service : Service)
    (key : JsString) (a b : ℚ) (id : ℕ) : Prop :=
  (∃ request, .arrive id request ∈ events ∧ request.key cfg.authTokens = some key ∧
    a ≤ request.call.now ∧ request.call.now ≤ b) ∧
  ∃ response, (id, .quoted response) ∈ service.sent

theorem admitted_mono {earlier : List ServiceEvent} (h : earlier <+: events) :
    admitted cfg earlier <+: admitted cfg events := by
  obtain ⟨later, rfl⟩ := h
  induction later using List.reverseRecOn with
  | nil => rw [List.append_nil]
  | append_singleton later event ih =>
      rw [← List.append_assoc]
      exact ih.trans (admitted_isPrefix event)

/-- A quote in the window stands for a call that the limiter accepted in it. -/
theorem card_quoted_le (hrun : Service.run solAddr sign cfg events = .ok service)
    {key : JsString} {a b : ℚ} {ids : Finset ℕ}
    (hids : ∀ id ∈ ids, QuotedWithin cfg events service key a b id) :
    ids.card ≤ within a b ((limiterRun cfg events).accepted key) := by
  have hfaithful := Service.run_faithful hrun
  let calls := (admitted cfg events).filter fun entry ↦
    entry.2.key = key ∧ a ≤ entry.2.now ∧ entry.2.now ≤ b
  have hcalls : calls.length = within a b ((limiterRun cfg events).accepted key) := by
    rw [accepted_eq, within, List.countP_map, List.countP_filter, ← List.countP_eq_length_filter]
    apply List.countP_congr
    intro entry _
    simp only [Function.comp_apply, Bool.and_eq_true, decide_eq_true_eq]
    exact and_comm
  have hsub : ids ⊆ (calls.map Prod.fst).toFinset := by
    intro id hid
    obtain ⟨⟨request, harrive, hkey, hfrom, hto⟩, response, hsent⟩ := hids id hid
    obtain ⟨body, evm, dateNow, hanswers⟩ := hfaithful.quotes id response hsent
    obtain ⟨earlier, hearlier, ⟨now, found⟩, hadmitted⟩ := hanswers.letThrough
    have hmem := (admitted_mono ((List.prefix_append _ _).trans hearlier)).mem hadmitted
    obtain ⟨request', harrive', hfound, rfl⟩ :=
      mem_limiterCalls.mp (mem_limiterCalls_of_admitted hmem)
    obtain rfl := hfaithful.arrivedOnce id request request' harrive harrive'
    obtain rfl := Option.some.inj (hkey.symm.trans hfound)
    rw [List.mem_toFinset, List.mem_map]
    refine ⟨_, List.mem_filter.mpr ⟨hmem, ?_⟩, rfl⟩
    exact decide_eq_true ⟨rfl, hfrom, hto⟩
  calc
    ids.card ≤ (calls.map Prod.fst).toFinset.card := Finset.card_le_card hsub
    _ ≤ (calls.map Prod.fst).length := List.toFinset_card_le _
    _ = within a b ((limiterRun cfg events).accepted key) := by rw [List.length_map, hcalls]

/-- What some callers can tell of the process is the same if nobody else is served. -/
structure Service.SameFor (callers : ℕ → Bool) (key : JsString) (service other : Service) :
    Prop where
  capacity : other.limiter.capacity = service.limiter.capacity
  refillPerSecond : other.limiter.refillPerSecond = service.limiter.refillPerSecond
  bucket : other.limiter.buckets.lookup key = service.limiter.buckets.lookup key
  seen : other.seen = service.seen.filter callers
  pending : other.pending = service.pending.filter callers
  sent : other.sent = service.sent.filter fun answer ↦ callers answer.1

namespace Service.SameFor

variable {callers : ℕ → Bool} {key : JsString} {next other : Service} {event : ServiceEvent}

theorem refilled (h : SameFor callers key service other) (now : ℚ) :
    other.limiter.refilled now key = service.limiter.refilled now key := by
  simp only [RateLimiter.refilled, h.capacity, h.refillPerSecond, h.bucket]

/-- A request for the key gets the same answer and leaves the same bucket. -/
theorem consume (h : SameFor callers key service other) (now : ℚ) :
    (other.limiter.consume now key 1).1 = (service.limiter.consume now key 1).1 ∧
    (other.limiter.consume now key 1).2.buckets.lookup key =
      (service.limiter.consume now key 1).2.buckets.lookup key := by
  rw [RateLimiter.consume_answer, RateLimiter.consume_answer, RateLimiter.consume_self,
    RateLimiter.consume_self, h.refilled]
  exact ⟨rfl, rfl⟩

theorem erase (h : SameFor callers key service other) (id : ℕ) :
    other.pending.erase id = (service.pending.erase id).filter callers := by
  rw [h.pending, List.erase_filter]

theorem consumed_other (h : SameFor callers key service other) (now : ℚ) {found : JsString}
    (hne : key ≠ found) (seen pending : List ℕ) (sent : List (ℕ × Response))
    (hseen : seen.filter callers = service.seen.filter callers)
    (hpending : pending.filter callers = service.pending.filter callers)
    (hsent : sent.filter (fun answer ↦ callers answer.1) =
      service.sent.filter fun answer ↦ callers answer.1) :
    SameFor callers key ⟨(service.limiter.consume now found 1).2, seen, pending, sent⟩ other where
  capacity := h.capacity.trans (RateLimiter.consume_capacity _ _ _ _).symm
  refillPerSecond := h.refillPerSecond.trans (RateLimiter.consume_refillPerSecond _ _ _ _).symm
  bucket := h.bucket.trans (RateLimiter.consume_other _ _ _ hne).symm
  seen := h.seen.trans hseen.symm
  pending := h.pending.trans hpending.symm
  sent := h.sent.trans hsent.symm

/-- Others do not touch the bucket of the key, nor the connections of the callers. -/
theorem dropped (h : SameFor callers key service other) (hothers : callers event.id = false)
    (hkey : ∀ id request, event = .arrive id request → request.key cfg.authTokens ≠ some key)
    (hstep : step solAddr sign cfg event service = .ok next) :
    SameFor callers key next other := by
  cases step_cases hstep with
  | @admitted id request found _ hfound _ =>
      have hne : key ≠ found := fun hsame ↦ hkey id request rfl (hsame ▸ hfound)
      have hid : callers id = false := hothers
      exact h.consumed_other _ hne _ _ _ (by simp [hid]) (by simp [hid]) rfl
  | @limited id request found _ hfound _ =>
      have hne : key ≠ found := fun hsame ↦ hkey id request rfl (hsame ▸ hfound)
      have hid : callers id = false := hothers
      exact h.consumed_other _ hne _ _ _ (by simp [hid]) rfl (by simp [hid])
  | @turnedAway id request response _ _ _ =>
      have hid : callers id = false := hothers
      exact { h with
        seen := by simp [h.seen, hid]
        sent := by simp [h.sent, hid] }
  | @finished id body evm dateNow _ =>
      have hid : callers id = false := hothers
      have hkept : id ∉ other.pending := by
        rw [h.pending, List.mem_filter, hid]
        exact fun hmem ↦ Bool.false_ne_true hmem.2
      exact { h with
        pending := by rw [← h.erase, List.erase_of_not_mem hkept]
        sent := by simp [h.sent, hid] }

theorem arrive_of_key {id : ℕ} {request : Request}
    (hkey : request.key cfg.authTokens = some key) (service : Service) :
    arrive cfg id request service =
      if (service.limiter.consume request.call.now key 1).1 then
        ⟨(service.limiter.consume request.call.now key 1).2, service.seen,
          service.pending ++ [id], service.sent⟩
      else ⟨(service.limiter.consume request.call.now key 1).2, service.seen, service.pending,
        service.sent ++ [(id, .rateLimited)]⟩ := by
  obtain ⟨hquote, hrateKey⟩ := Request.key_eq_some.mp hkey
  have hhealth : ¬ request.isHealth = true := by
    intro hhealth
    exact Bool.false_ne_true ((Request.isQuote_of_isHealth hhealth).symm.trans hquote)
  simp only [arrive, if_neg hhealth, if_pos hquote, hrateKey, send]

/-- The callers are served as they would be alone. -/
theorem kept (h : SameFor callers key service other) (hcallers : callers event.id = true)
    (hkey : ∀ id request, event = .arrive id request → request.key cfg.authTokens = some key)
    (hstep : step solAddr sign cfg event service = .ok next) :
    ∃ next', step solAddr sign cfg event other = .ok next' ∧ SameFor callers key next next' := by
  cases event with
  | arrive id request =>
      have hid : callers id = true := hcallers
      simp only [step, bind_eq_ok, require_eq_ok, pure_eq_ok] at hstep
      obtain ⟨-, hfresh, rfl⟩ := hstep
      have hfresh' : id ∉ other.seen := by
        rw [h.seen, List.mem_filter]
        exact fun hmem ↦ hfresh hmem.1
      refine ⟨arrive cfg id request { other with seen := other.seen ++ [id] }, ?_, ?_⟩
      · rw [step, require_of hfresh']
        rfl
      · obtain ⟨hanswer, hbucket⟩ := h.consume request.call.now
        rw [arrive_of_key (hkey id request rfl), arrive_of_key (hkey id request rfl), hanswer]
        have hcapacity := h.capacity
        have hrefill := h.refillPerSecond
        split
        case isTrue =>
          exact ⟨by simpa using hcapacity, by simpa using hrefill, hbucket, by simp [h.seen, hid],
            by simp [h.pending, hid], h.sent⟩
        case isFalse =>
          exact ⟨by simpa using hcapacity, by simpa using hrefill, hbucket, by simp [h.seen, hid],
            h.pending, by simp [h.sent, hid]⟩
  | finish id body evm dateNow =>
      have hid : callers id = true := hcallers
      simp only [step, bind_eq_ok, require_eq_ok, pure_eq_ok] at hstep
      obtain ⟨-, hpending, rfl⟩ := hstep
      have hpending' : id ∈ other.pending := by
        rw [h.pending, List.mem_filter]
        exact ⟨hpending, hid⟩
      refine ⟨{ other with pending := other.pending.erase id }.send id
        (reply solAddr sign cfg body evm dateNow), ?_, ?_⟩
      · rw [step, require_of hpending']
        rfl
      · exact { h with
          pending := h.erase id
          sent := by simp [send, h.sent, hid] }

end Service.SameFor

/-- The callers are the connections on which requests for a key arrive. -/
def CallersOf (cfg : ServiceConfig) (events : List ServiceEvent) (key : JsString)
    (callers : ℕ → Bool) : Prop :=
  ∀ id request, .arrive id request ∈ events →
    (callers id = true ↔ request.key cfg.authTokens = some key)

/-- The quotes for a key keep to its rate: in every closed interval no more connections ask for and
get one than `burst + refillPerSecond * length`. And nobody else matters: take away all that is not
on connections of callers with this key, and these get the same answers in the same order. -/
theorem quotes_per_caller (hburst : 0 ≤ cfg.burst) (hrefill : 0 ≤ cfg.refillPerSecond)
    (horder : InOrder events) (hrun : Service.run solAddr sign cfg events = .ok service)
    (key : JsString) :
    (∀ a b, a ≤ b → ∀ ids : Finset ℕ,
      (∀ id ∈ ids, QuotedWithin cfg events service key a b id) →
        (ids.card : ℚ) ≤ cfg.burst + cfg.refillPerSecond * (b - a)) ∧
    ∀ callers, CallersOf cfg events key callers →
      ∃ alone, Service.run solAddr sign cfg (events.filter fun event ↦ callers event.id) =
          .ok alone ∧
        alone.sent = service.sent.filter fun answer ↦ callers answer.1 := by
  constructor
  · intro a b hab ids hids
    have hbound := Answered.run_within_le hburst hrefill
      (pairwise_limiterCalls cfg.authTokens horder) key hab
    calc
      (ids.card : ℚ) ≤ (within a b ((limiterRun cfg events).accepted key) : ℚ) := by
        exact_mod_cast card_quoted_le hrun hids
      _ ≤ cfg.burst + cfg.refillPerSecond * (b - a) := hbound
  · intro callers hcallers
    have hkeys {id : ℕ} {request : Request} {event : ServiceEvent} (hmem : event ∈ events)
        (harrive : event = .arrive id request) :
        callers event.id = true ↔ request.key cfg.authTokens = some key := by
      subst harrive
      exact hcallers id request hmem
    have hstart : Service.SameFor callers key (Service.start cfg) (Service.start cfg) :=
      ⟨rfl, rfl, rfl, rfl, rfl, rfl⟩
    obtain ⟨alone, halone, hsame⟩ := Execution.run_filter (fun event ↦ callers event.id)
      (Service.SameFor callers key)
      (fun event hmem hkeep _ _ _ hsame hstep ↦ hsame.kept hkeep
        (fun _ _ harrive ↦ (hkeys hmem harrive).mp hkeep) hstep)
      (fun event hmem hdrop _ _ _ hsame hstep ↦ hsame.dropped hdrop
        (fun _ _ harrive hkey ↦
          Bool.false_ne_true (hdrop.symm.trans ((hkeys hmem harrive).mpr hkey))) hstep)
      hstart hrun
    exact ⟨alone, halone, hsame.sent⟩

end Callers

theorem inOrder_serviceEvents : InOrder Localnet.serviceEvents := by
  simp [InOrder, Localnet.serviceEvents, Localnet.postQuote, Localnet.quoteCall]

/-- Without the others, the first caller gets its quote as well. -/
theorem quotes_per_caller_localnet : ∃ cfg alone response,
    loadConfig Localnet.environment = .ok cfg ∧
    Service.run Localnet.solAddr (fun _ _ ↦ Localnet.signatureFirst) cfg
      (Localnet.serviceEvents.filter fun event ↦ event.id = 0) = .ok alone ∧
    (0, .quoted response) ∈ alone.sent := by
  obtain ⟨cfg, service, response, hconfig, hrun, -, hquoted⟩ := Localnet.exists_served
  obtain ⟨-, -, -, htokens, hburst, hrefill⟩ := loadConfig_eq_ok hconfig
  have htokens : cfg.authTokens = some [ofChars "s3cret".toList, ofChars "other".toList] := by
    have hloaded : loadAuthTokens Localnet.environment.authTokens =
        .ok (some [ofChars "s3cret".toList, ofChars "other".toList]) := by decide +kernel
    exact Except.ok.inj (htokens.symm.trans hloaded)
  obtain ⟨-, halone⟩ := quotes_per_caller (by rw [hburst]; norm_num [Localnet.environment])
    (by rw [hrefill]; norm_num [Localnet.environment]) inOrder_serviceEvents hrun
    (tokenKey (ofChars "s3cret".toList))
  obtain ⟨alone, hrun', hsent⟩ := halone (fun id ↦ id = 0) (by
    intro id request harrive
    rw [htokens]
    simp only [Localnet.serviceEvents, List.mem_cons, ServiceEvent.arrive.injEq] at harrive
    obtain ⟨rfl, rfl⟩ | ⟨rfl, rfl⟩ | ⟨rfl, rfl⟩ | h | h | h := harrive
    · decide +kernel
    · decide +kernel
    · decide +kernel
    · cases h
    · cases h
    · cases h)
  refine ⟨cfg, alone, response, hconfig, hrun', ?_⟩
  rw [hsent]
  exact List.mem_filter.mpr ⟨hquoted, rfl⟩

end CredMesh.Bridge
