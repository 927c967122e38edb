import CredMesh.Foundation.BaseEncoding
import CredMesh.Server.Auth

/-!
# One-shot nonces

An entry of the store is as old as the last issue of its nonce, and stays for its lifetime unless
a request names both the nonce and its address. A nonce that is gone comes back only if it is drawn
again. Both are kept by one event after the other, whatever the events in between are about.
-/

namespace CredMesh.Server

open EcmaScript

section

variable {host : Host} {store : NonceStore} {event : ServerEvent} {events : List ServerEvent}
  {nonce address : JsString} {entry : NonceEntry} {issuedAt : ℤ}

/-! ## One event -/

/-- An entry was there before the event, or the event issued it. -/
theorem lookup_serve (h : (event.serve host store).lookup nonce = some entry) :
    store.lookup nonce = some entry ∨
    ∃ gcNow random, event = .issueNonce gcNow entry.issuedAt entry.address random ∧
      randomNonce random = nonce := by
  cases event with
  | issueNonce gcNow now address random =>
      rw [ServerEvent.serve] at h
      obtain rfl | hother := eq_or_ne nonce (randomNonce random)
      · rw [NonceStore.lookup_issue] at h
        obtain rfl := Option.some.inj h
        exact .inr ⟨gcNow, random, rfl, rfl⟩
      · rw [NonceStore.lookup_issue_other _ _ hother, NonceStore.lookup_gc_eq_some] at h
        exact .inl h.1
  | request toleranceNow consumeNow request =>
      rw [ServerEvent.serve] at h
      obtain hsame | ⟨headers, -, hconsumed⟩ :=
        authMiddleware_store host toleranceNow consumeNow request store
      · rw [hsame] at h
        exact .inl h
      · rw [hconsumed] at h
        exact .inl (NonceStore.lookup_of_lookup_consume h)

theorem lookup_serve_none (hdrawn : event.drawn ≠ some nonce) (h : store.lookup nonce = none) :
    (event.serve host store).lookup nonce = none := by
  rw [Option.eq_none_iff_forall_ne_some]
  intro entry hentry
  obtain hbefore | ⟨gcNow, random, rfl, rfl⟩ := lookup_serve hentry
  · cases h.symm.trans hbefore
  · exact hdrawn rfl

/-- Only its own end of life and a request that names it with its address remove an entry. -/
theorem lookup_serve_kept (hdrawn : event.drawn ≠ some nonce) (hnames : ¬ event.Names nonce address)
    (htimes : ∀ time ∈ event.times, time - issuedAt ≤ nonceTtlMs)
    (h : store.lookup nonce = some ⟨issuedAt, address⟩) :
    (event.serve host store).lookup nonce = some ⟨issuedAt, address⟩ := by
  cases event with
  | issueNonce gcNow now address' random =>
      have hother : nonce ≠ randomNonce random := fun heq ↦ hdrawn (congrArg some heq.symm)
      rw [ServerEvent.serve, NonceStore.lookup_issue_other _ _ hother, NonceStore.lookup_gc_eq_some]
      exact ⟨h, htimes gcNow List.mem_cons_self⟩
  | request toleranceNow consumeNow request =>
      rw [ServerEvent.serve]
      obtain hsame | ⟨headers, hheaders, hconsumed⟩ :=
        authMiddleware_store host toleranceNow consumeNow request store
      · rwa [hsame]
      · rw [hconsumed]
        obtain rfl | hother := eq_or_ne nonce headers.nonce
        · -- It names the nonce, so it names another address.
          have hchecked := checked_of_checkHeaders hheaders
          have haddress : address ≠ headers.address := by
            rintro rfl
            exact hnames ⟨hchecked.nonce, hchecked.address⟩
          rwa [NonceStore.consume_wrong_address consumeNow h haddress]
        · rwa [NonceStore.lookup_consume_other consumeNow hother]

/-! ## Many events -/

theorem run_append (host : Host) (first second : List ServerEvent) :
    run host (first ++ second) = second.foldl (ServerEvent.serve host) (run host first) :=
  List.foldl_append

theorem run_snoc (host : Host) (events : List ServerEvent) (event : ServerEvent) :
    run host (events ++ [event]) = event.serve host (run host events) :=
  run_append host events [event]

/-- Every entry was issued. -/
theorem run_issued (h : (run host events).lookup nonce = some entry) :
    ∃ earlier gcNow random,
      earlier ++ [.issueNonce gcNow entry.issuedAt entry.address random] <+: events ∧
      randomNonce random = nonce := by
  induction events using List.reverseRecOn with
  | nil =>
      rw [run, List.foldl_nil, Finmap.lookup_empty] at h
      cases h
  | append_singleton events event ih =>
      rw [run_snoc] at h
      obtain hbefore | ⟨gcNow, random, rfl, hnonce⟩ := lookup_serve h
      · obtain ⟨earlier, gcNow, random, hpart, hnonce⟩ := ih hbefore
        exact ⟨earlier, gcNow, random, hpart.trans (List.prefix_append _ _), hnonce⟩
      · exact ⟨events, gcNow, random, List.prefix_rfl, hnonce⟩

theorem foldl_serve_none (hdrawn : ∀ event ∈ events, event.drawn ≠ some nonce)
    (h : store.lookup nonce = none) :
    (events.foldl (ServerEvent.serve host) store).lookup nonce = none := by
  induction events generalizing store with
  | nil => exact h
  | cons event events ih =>
      obtain ⟨hfirst, hrest⟩ := List.forall_mem_cons.mp hdrawn
      exact ih hrest (lookup_serve_none hfirst h)

theorem foldl_serve_kept (hdrawn : ∀ event ∈ events, event.drawn ≠ some nonce)
    (hnames : ∀ event ∈ events, ¬ event.Names nonce address)
    (htimes : ∀ time ∈ events.flatMap ServerEvent.times, time - issuedAt ≤ nonceTtlMs)
    (h : store.lookup nonce = some ⟨issuedAt, address⟩) :
    (events.foldl (ServerEvent.serve host) store).lookup nonce = some ⟨issuedAt, address⟩ := by
  induction events generalizing store with
  | nil => exact h
  | cons event events ih =>
      obtain ⟨hdrawnFirst, hdrawnRest⟩ := List.forall_mem_cons.mp hdrawn
      obtain ⟨hnamesFirst, hnamesRest⟩ := List.forall_mem_cons.mp hnames
      rw [List.flatMap_cons, List.forall_mem_append] at htimes
      exact ih hdrawnRest hnamesRest htimes.2
        (lookup_serve_kept hdrawnFirst hnamesFirst htimes.1 h)

/-- A nonce drawn once is not drawn in what follows. -/
theorem not_drawn_after {issue : ServerEvent} {part after : List ServerEvent}
    (hnonces : (events.filterMap ServerEvent.drawn).Nodup) (hissue : issue ∈ part)
    (hdrawn : issue.drawn = some nonce) (hpart : part ++ after <+: events) :
    ∀ event ∈ after, event.drawn ≠ some nonce := by
  intro event hevent heq
  have hparts := hnonces.sublist (hpart.sublist.filterMap ServerEvent.drawn)
  rw [List.filterMap_append, List.nodup_append] at hparts
  exact hparts.2.2 nonce (List.mem_filterMap.mpr ⟨issue, hissue, hdrawn⟩) nonce
    (List.mem_filterMap.mpr ⟨event, hevent, heq⟩) rfl

/-! ## Sign-ins -/

/-- A request that comes after `before` signs in. -/
def SignsIn (host : Host) (before : List ServerEvent) (toleranceNow consumeNow : ℤ)
    (request : Request) (context : AuthContext) : Prop :=
  (authMiddleware host toleranceNow consumeNow request (run host before)).1 = .ok (some context)

variable {before : List ServerEvent} {toleranceNow consumeNow : ℤ} {request : Request}
  {context : AuthContext}

/-- The nonce of a sign-in was issued to its address and has not grown too old. -/
theorem SignsIn.issued (h : SignsIn host before toleranceNow consumeNow request context) :
    request.address = some context.verifiedAddress ∧
    ∃ earlier gcNow issuedAt random,
      earlier ++ [.issueNonce gcNow issuedAt context.verifiedAddress random] <+: before ∧
      request.nonce = some (randomNonce random) ∧ consumeNow - issuedAt ≤ nonceTtlMs := by
  obtain ⟨-, headers, hheaders, hconsumed, hverified⟩ := authMiddleware_eq_ok.mp h
  obtain ⟨-, rfl⟩ := verifySignature_eq_ok.mp hverified
  obtain ⟨issuedAt, hentry, hfresh⟩ := NonceStore.consume_eq_true_iff.mp hconsumed
  obtain ⟨earlier, gcNow, random, hpart, hnonce⟩ := run_issued hentry
  have hchecked := checked_of_checkHeaders hheaders
  refine ⟨hchecked.address, earlier, gcNow, issuedAt, random, hpart, ?_, hfresh⟩
  rw [hnonce, hchecked.nonce]

/-- A sign-in takes its nonce out of the store. -/
theorem SignsIn.spent (h : SignsIn host before toleranceNow consumeNow request context)
    (hnonce : request.nonce = some nonce) :
    (run host (before ++ [.request toleranceNow consumeNow request])).lookup nonce = none := by
  obtain ⟨headers, hheaders, hconsumed, hstore⟩ := store_of_accepted h
  obtain rfl : headers.nonce = nonce :=
    Option.some.inj ((checked_of_checkHeaders hheaders).nonce.symm.trans hnonce)
  rw [run_snoc, ServerEvent.serve, hstore]
  exact NonceStore.lookup_of_consume hconsumed

/-- A nonce that is not in the store signs nobody in. -/
theorem not_signsIn_of_lookup (hnonce : request.nonce = some nonce)
    (h : (run host before).lookup nonce = none) :
    ¬ SignsIn host before toleranceNow consumeNow request context := by
  intro hsigns
  obtain ⟨headers, hheaders, hconsumed, -⟩ := store_of_accepted hsigns
  obtain rfl : headers.nonce = nonce :=
    Option.some.inj ((checked_of_checkHeaders hheaders).nonce.symm.trans hnonce)
  obtain ⟨issuedAt, hentry, -⟩ := NonceStore.consume_eq_true_iff.mp hconsumed
  cases h.symm.trans hentry

/-- A nonce was issued before it is consumed. -/
theorem le_of_issued {earlier : List ServerEvent} {gcNow : ℤ} {random : Bytes 16}
    (hclock : (events.flatMap ServerEvent.times).Pairwise (· ≤ ·))
    (hissue : earlier ++ [.issueNonce gcNow issuedAt address random] <+: before)
    (hpart : before ++ [.request toleranceNow consumeNow request] <+: events) :
    issuedAt ≤ consumeNow := by
  obtain ⟨middle, rfl⟩ := hissue
  obtain ⟨rest, rfl⟩ := hpart
  rw [List.flatMap_append, List.flatMap_append, List.pairwise_append, List.pairwise_append]
    at hclock
  apply hclock.1.2.2
  · simp [ServerEvent.times]
  · simp [ServerEvent.times]

/-- Two sign-ins do not have the same nonce. -/
theorem SignsIn.nonce_ne {second : List ServerEvent} {toleranceNow' consumeNow' : ℤ}
    {request' : Request} {context' : AuthContext}
    (hnonces : (events.filterMap ServerEvent.drawn).Nodup)
    (hfirst : before ++ [.request toleranceNow consumeNow request] <+: second)
    (hsecond : second ++ [.request toleranceNow' consumeNow' request'] <+: events)
    (h : SignsIn host before toleranceNow consumeNow request context)
    (h' : SignsIn host second toleranceNow' consumeNow' request' context') :
    request.nonce ≠ request'.nonce := by
  intro hsame
  obtain ⟨-, earlier, gcNow, issuedAt, random, hissue, hnonce, -⟩ := h.issued
  obtain ⟨between, rfl⟩ := hfirst
  have hpart := (List.prefix_append _ [_]).trans hsecond
  have hmem := List.mem_append_left [.request toleranceNow consumeNow request]
    (hissue.subset (List.mem_append_right _ (List.mem_singleton_self _)))
  refine not_signsIn_of_lookup (hsame.symm.trans hnonce) ?_ h'
  rw [run_append]
  exact foldl_serve_none (not_drawn_after hnonces hmem rfl hpart) (h.spent hnonce)

/-- Whatever happens after the issue, the nonce stays good for a request that names it and its
address for the first time. -/
theorem consume_of_issued {after : List ServerEvent} {gcNow now : ℤ} {random : Bytes 16}
    (hnonces : (events.filterMap ServerEvent.drawn).Nodup)
    (hpart : before ++ [.issueNonce gcNow issuedAt address random] ++ after <+: events)
    (hnames : ∀ event ∈ after, ¬ event.Names (randomNonce random) address)
    (hnow : ∀ time ∈ after.flatMap ServerEvent.times, time ≤ now)
    (hfresh : now - issuedAt ≤ nonceTtlMs) :
    ((run host (before ++ [.issueNonce gcNow issuedAt address random] ++ after)).consume now
      (randomNonce random) address).1 = true := by
  have hdrawn := not_drawn_after hnonces
    (List.mem_append_right before (List.mem_singleton_self _)) rfl hpart
  have htimes : ∀ time ∈ after.flatMap ServerEvent.times, time - issuedAt ≤ nonceTtlMs :=
    fun time htime ↦ (sub_le_sub_right (hnow time htime) issuedAt).trans hfresh
  have hissued : (run host (before ++ [.issueNonce gcNow issuedAt address random])).lookup
      (randomNonce random) = some ⟨issuedAt, address⟩ := by
    rw [run_snoc]
    exact NonceStore.lookup_issue gcNow issuedAt
  refine NonceStore.consume_eq_true_iff.mpr ⟨issuedAt, ?_, hfresh⟩
  rw [run_append]
  exact foldl_serve_kept hdrawn hnames htimes hissued

/-- As long as no nonce is drawn twice and the clock does not go back: the nonce of every sign-in
was issued to the same address, at most the lifetime before; no two sign-ins have the same nonce;
and a nonce can be consumed by its address all through its lifetime if no request has named both. -/
theorem nonces_one_shot (host : Host) {events : List ServerEvent}
    (hnonces : (events.filterMap ServerEvent.drawn).Nodup)
    (hclock : (events.flatMap ServerEvent.times).Pairwise (· ≤ ·)) :
    (∀ before toleranceNow consumeNow request context,
      before ++ [.request toleranceNow consumeNow request] <+: events →
      SignsIn host before toleranceNow consumeNow request context →
      request.address = some context.verifiedAddress ∧
      ∃ earlier gcNow issuedAt random,
        earlier ++ [.issueNonce gcNow issuedAt context.verifiedAddress random] <+: before ∧
        request.nonce = some (randomNonce random) ∧
        issuedAt ≤ consumeNow ∧ consumeNow - issuedAt ≤ nonceTtlMs) ∧
    (∀ first toleranceNow consumeNow request context second toleranceNow' consumeNow' request'
        context',
      first ++ [.request toleranceNow consumeNow request] <+: second →
      second ++ [.request toleranceNow' consumeNow' request'] <+: events →
      SignsIn host first toleranceNow consumeNow request context →
      SignsIn host second toleranceNow' consumeNow' request' context' →
      request.nonce ≠ request'.nonce) ∧
    ∀ before gcNow issuedAt address random after now,
      before ++ [.issueNonce gcNow issuedAt address random] ++ after <+: events →
      (∀ event ∈ after, ¬ event.Names (randomNonce random) address) →
      (∀ time ∈ after.flatMap ServerEvent.times, time ≤ now) → now - issuedAt ≤ nonceTtlMs →
      ((run host (before ++ [.issueNonce gcNow issuedAt address random] ++ after)).consume now
        (randomNonce random) address).1 = true := by
  refine ⟨?_, ?_, ?_⟩
  · intro before toleranceNow consumeNow request context hpart hsigns
    obtain ⟨haddress, earlier, gcNow, issuedAt, random, hissue, hnonce, hfresh⟩ := hsigns.issued
    exact ⟨haddress, earlier, gcNow, issuedAt, random, hissue, hnonce,
      le_of_issued hclock hissue hpart, hfresh⟩
  · intro first toleranceNow consumeNow request context second toleranceNow' consumeNow' request'
      context' hfirst hsecond hsigns hsigns'
    exact hsigns.nonce_ne hnonces hfirst hsecond hsigns'
  · intro before gcNow issuedAt address random after now hpart hnames hnow hfresh
    exact consume_of_issued hnonces hpart hnames hnow hfresh

end

namespace Localnet

/-- The key that the address of `agent` stands for. -/
def agentKey : List UInt8 :=
  [121, 181, 86, 46, 143, 230, 84, 249, 64, 120, 177, 18, 232, 169, 139, 167, 144, 31, 133, 58, 230,
    149, 190, 215, 224, 227, 145, 11, 173, 4, 150, 100]

def agentSignature : List UInt8 :=
  [57, 174, 53, 72, 156, 186, 57, 158, 213, 81, 15, 156, 109, 36, 244, 29, 66, 66, 6, 129, 232, 87,
    46, 121, 233, 152, 221, 103, 61, 80, 153, 27, 134, 227, 248, 102, 103, 32, 47, 250, 77, 233,
    173, 137, 221, 23, 99, 14, 88, 238, 216, 212, 109, 100, 41, 153, 178, 105, 157, 137, 163, 43,
    96, 12]

def agent : JsString := jsText "9C6hybhQ6Aycep9jaUnP6uL9ZYvDjUp1aSkFWPUFJtpj"

def random : Bytes 16 :=
  ⟨[0xA0, 0xA1, 0xA2, 0xA3, 0xA4, 0xA5, 0xA6, 0xA7, 0xA8, 0xA9, 0xAA, 0xAB, 0xAC, 0xAD, 0xAE,
    0xAF], rfl⟩

def signInMessage : JsString := buildSiwsMessage {
  domain := jsText "credmesh.xyz"
  address := agent
  statement := jsText "Authenticate to CredMesh"
  uri := jsText "http://localhost:3000/advance"
  version := jsText "1"
  chainId := jsText "solana:devnet"
  nonce := jsText "a0a1a2a3a4a5a6a7a8a9aaabacadaeaf"
  issuedAt := jsText "2026-01-01T00:00:00.000Z"
  expirationTime := jsText "2026-01-01T00:05:00.000Z"
  resources := [] }

/-- The signature is the agent's of the message above, and the only one there is. -/
def host : Host where
  siwsDomain := jsText "credmesh.xyz"
  dateParse := readIso
  bs58Decode text := Base58.decode (text.map fun unit ↦ Char.ofNat unit.toNat)
  verify message signature key :=
    message = textEncode signInMessage ∧ signature = agentSignature ∧ key = agentKey

def signInRequest : Request where
  method := jsText "POST"
  url := jsText "http://localhost:3000/advance"
  address := some agent
  signature := some (jsText ("29tRfN81oYHH3Kvh4cN4kcDQFPJAELxyf5YTzt7oHDKaS1Djpfa5ifdgYhuykSAf2b" ++
    "GpKD4wbdZuP6nsTiKUD8qZ"))
  timestamp := some (jsText "2026-01-01T00:00:00.000Z")
  cluster := some (jsText "devnet")
  nonce := some (randomNonce random)

def stranger : JsString := jsText "11111111111111111111111111111111"

/-- The time in the timestamp of the request. -/
def signInTime : ℤ := 1767225600000

/-- A nonce is issued to the agent, and a stranger sends a request with it. -/
def strangerEvents : List ServerEvent := [
  .issueNonce signInTime signInTime agent random,
  .request signInTime signInTime { signInRequest with address := some stranger }]

theorem agent_ne_stranger : agent ≠ stranger := by decide +kernel

end Localnet

open Localnet in
/-- The agent's nonce survives the request of the stranger. -/
theorem nonces_one_shot_localnet :
    ((run host strangerEvents).consume signInTime (randomNonce Localnet.random) agent).1 =
      true := by
  apply (@nonces_one_shot host strangerEvents ?_ ?_).2.2 [] signInTime signInTime agent
    Localnet.random [.request signInTime signInTime { signInRequest with address := some stranger }]
    signInTime List.prefix_rfl
  · intro event hevent hnames
    rw [List.mem_singleton.mp hevent] at hnames
    exact agent_ne_stranger (Option.some.inj hnames.2).symm
  · simp [ServerEvent.times]
  · decide
  · exact List.nodup_singleton (randomNonce Localnet.random)
  · simp [strangerEvents, ServerEvent.times]

end CredMesh.Server
