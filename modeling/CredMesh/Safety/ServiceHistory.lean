import CredMesh.Bridge.Service
import CredMesh.Safety.QuoteRate

/-!
# Connections

Requests arrive at any time and their bodies take any time, so the handlers of many connections are
interleaved. Through every run the process keeps account of them: none is answered twice, and a
quote is sent only on a connection that the limiter has let through, made from what its handler
read.
-/

namespace CredMesh.Bridge

open Outcome EcmaScript TokenBucket

/-! ## Steps -/

/-- The key under which a request meets the limiter, if it does. -/
def Request.key (authTokens : Option (List JsString)) (request : Request) : Option JsString :=
  if request.isQuote then rateKey authTokens request.call else none

theorem Request.isQuote_of_isHealth {request : Request} (h : request.isHealth = true) :
    request.isQuote = false := by
  have hmethods : ofChars "GET".toList ≠ ofChars "POST".toList := by decide
  obtain ⟨hget, -⟩ := of_decide_eq_true h
  rw [Request.isQuote, decide_eq_false_iff_not]
  rintro ⟨hpost, -⟩
  exact hmethods (hget.symm.trans hpost)

section Steps

variable {solAddr : JsString → Option Pubkey} {sign : List UInt8 → Bytes 64 → Bytes 64}
  {cfg : ServiceConfig} {service next : Service} {event : ServiceEvent}

/-- All that can happen to the process. -/
inductive Service.Stepped (solAddr : JsString → Option Pubkey)
    (sign : List UInt8 → Bytes 64 → Bytes 64) (cfg : ServiceConfig) (service : Service) :
    ServiceEvent → Service → Prop
  | admitted {id : ℕ} {request : Request} {key : JsString} (hfresh : id ∉ service.seen)
      (hkey : request.key cfg.authTokens = some key)
      (haccepted : (service.limiter.consume request.call.now key 1).1 = true) :
      Stepped solAddr sign cfg service (.arrive id request)
        ⟨(service.limiter.consume request.call.now key 1).2, service.seen ++ [id],
          service.pending ++ [id], service.sent⟩
  | limited {id : ℕ} {request : Request} {key : JsString} (hfresh : id ∉ service.seen)
      (hkey : request.key cfg.authTokens = some key)
      (hrefused : (service.limiter.consume request.call.now key 1).1 = false) :
      Stepped solAddr sign cfg service (.arrive id request)
        ⟨(service.limiter.consume request.call.now key 1).2, service.seen ++ [id],
          service.pending, service.sent ++ [(id, .rateLimited)]⟩
  | turnedAway {id : ℕ} {request : Request} {response : Response} (hfresh : id ∉ service.seen)
      (hkey : request.key cfg.authTokens = none)
      (hresponse : response = .healthy ∨ response = .unauthorized ∨ response = .notFound) :
      Stepped solAddr sign cfg service (.arrive id request)
        ⟨service.limiter, service.seen ++ [id], service.pending,
          service.sent ++ [(id, response)]⟩
  | finished {id : ℕ} {body : Option QuoteRequest} {evm : EvmReads} {dateNow : DateNow}
      (hpending : id ∈ service.pending) :
      Stepped solAddr sign cfg service (.finish id body evm dateNow)
        ⟨service.limiter, service.seen, service.pending.erase id,
          service.sent ++ [(id, Service.reply solAddr sign cfg body evm dateNow)]⟩

theorem Service.step_cases (h : Service.step solAddr sign cfg event service = .ok next) :
    Service.Stepped solAddr sign cfg service event next := by
  cases event with
  | arrive id request =>
      simp only [step, bind_eq_ok, require_eq_ok, pure_eq_ok] at h
      obtain ⟨-, hfresh, rfl⟩ := h
      unfold arrive
      split
      case isTrue hhealth =>
        have hkey : request.key cfg.authTokens = none := by
          rw [Request.key, Request.isQuote_of_isHealth hhealth, if_neg Bool.false_ne_true]
        exact .turnedAway hfresh hkey (.inl rfl)
      case isFalse =>
        split
        case isTrue hquote =>
          split
          case h_1 hnone =>
            have hkey : request.key cfg.authTokens = none := by
              rw [Request.key, if_pos hquote, hnone]
            exact .turnedAway hfresh hkey (.inr (.inl rfl))
          case h_2 key hsome =>
            have hkey : request.key cfg.authTokens = some key := by
              rw [Request.key, if_pos hquote, hsome]
            cases haccepted : (service.limiter.consume request.call.now key 1).1 with
            | true =>
                simp only [haccepted, if_true]
                exact .admitted hfresh hkey haccepted
            | false =>
                simp only [haccepted, Bool.false_eq_true, if_false]
                exact .limited hfresh hkey haccepted
        case isFalse hquote =>
          have hkey : request.key cfg.authTokens = none := by
            rw [Request.key, if_neg hquote]
          exact .turnedAway hfresh hkey (.inr (.inr rfl))
  | finish id body evm dateNow =>
      simp only [step, bind_eq_ok, require_eq_ok, pure_eq_ok] at h
      obtain ⟨-, hpending, rfl⟩ := h
      exact .finished hpending

end Steps

/-! ## Requests that are let through -/

/-- The calls of the limiter, each with the connection that makes it. -/
def limiterCalls (authTokens : Option (List JsString)) (events : List ServiceEvent) :
    List (ℕ × Call) :=
  events.filterMap fun
    | .arrive id request => (request.key authTokens).map fun key ↦ (id, ⟨request.call.now, key⟩)
    | .finish _ _ _ _ => none

def limiterRun (cfg : ServiceConfig) (events : List ServiceEvent) : Answered :=
  Answered.run cfg.burst cfg.refillPerSecond ((limiterCalls cfg.authTokens events).map Prod.snd)

/-- The calls that are let through. -/
def admitted (cfg : ServiceConfig) (events : List ServiceEvent) : List (ℕ × Call) :=
  (((limiterCalls cfg.authTokens events).zip (limiterRun cfg events).answers).filter
    fun entry ↦ entry.2.2).map Prod.fst

section Admitted

variable {cfg : ServiceConfig} {events : List ServiceEvent}

theorem mem_limiterCalls {authTokens : Option (List JsString)} {id : ℕ} {call : Call} :
    (id, call) ∈ limiterCalls authTokens events ↔
      ∃ request, .arrive id request ∈ events ∧ request.key authTokens = some call.key ∧
        call.now = request.call.now := by
  rw [limiterCalls, List.mem_filterMap]
  constructor
  · rintro ⟨event, hmem, hsome⟩
    cases event with
    | arrive other request =>
        obtain ⟨key, hkey, hcall⟩ := Option.map_eq_some_iff.mp hsome
        obtain ⟨rfl, rfl⟩ := Prod.mk.inj hcall
        exact ⟨request, hmem, hkey, rfl⟩
    | finish _ _ _ _ => cases hsome
  · rintro ⟨request, hmem, hkey, hnow⟩
    refine ⟨_, hmem, Option.map_eq_some_iff.mpr ⟨call.key, hkey, ?_⟩⟩
    rw [← hnow]

theorem length_answers (capacity rate : ℚ) (calls : List Call) :
    (Answered.run capacity rate calls).answers.length = calls.length := by
  induction calls using List.reverseRecOn with
  | nil => rfl
  | append_singleton calls call ih => simp [Answered.run_snoc, Answered.next, ih]

theorem mem_limiterCalls_of_admitted {entry : ℕ × Call} (h : entry ∈ admitted cfg events) :
    entry ∈ limiterCalls cfg.authTokens events := by
  obtain ⟨⟨_, answer⟩, hmem, rfl⟩ := List.mem_map.mp h
  exact (List.of_mem_zip (List.mem_of_mem_filter hmem)).1

theorem limiterCalls_snoc (authTokens : Option (List JsString)) (event : ServiceEvent) :
    limiterCalls authTokens (events ++ [event]) =
      limiterCalls authTokens events ++ limiterCalls authTokens [event] :=
  List.filterMap_append

/-- An event that does not meet the limiter leaves it alone. -/
theorem limiterRun_snoc_none (events : List ServiceEvent) {event : ServiceEvent}
    (h : limiterCalls cfg.authTokens [event] = []) :
    limiterRun cfg (events ++ [event]) = limiterRun cfg events ∧
    admitted cfg (events ++ [event]) = admitted cfg events := by
  have hcalls : limiterCalls cfg.authTokens (events ++ [event]) =
      limiterCalls cfg.authTokens events := by
    rw [limiterCalls_snoc, h, List.append_nil]
  have hrun : limiterRun cfg (events ++ [event]) = limiterRun cfg events := by
    rw [limiterRun, hcalls, limiterRun]
  exact ⟨hrun, by rw [admitted, hcalls, hrun, admitted]⟩

/-- A call is let through if the limiter takes it. -/
theorem limiterRun_snoc_some (events : List ServiceEvent) {event : ServiceEvent} {id : ℕ}
    {call : Call} (h : limiterCalls cfg.authTokens [event] = [(id, call)]) :
    limiterRun cfg (events ++ [event]) = (limiterRun cfg events).next call ∧
    admitted cfg (events ++ [event]) = admitted cfg events ++
      if ((limiterRun cfg events).limiter.consume call.now call.key 1).1 then [(id, call)]
        else [] := by
  have hcalls : limiterCalls cfg.authTokens (events ++ [event]) =
      limiterCalls cfg.authTokens events ++ [(id, call)] := by
    rw [limiterCalls_snoc, h]
  have hrun : limiterRun cfg (events ++ [event]) = (limiterRun cfg events).next call := by
    rw [limiterRun, hcalls, List.map_append, List.map_singleton, Answered.run_snoc, limiterRun]
  have hlength : (limiterCalls cfg.authTokens events).length =
      (limiterRun cfg events).answers.length := by
    rw [limiterRun, length_answers, List.length_map]
  refine ⟨hrun, ?_⟩
  rw [admitted, hcalls, hrun, Answered.next, List.zip_append hlength, List.filter_append,
    List.map_append, admitted]
  cases ((limiterRun cfg events).limiter.consume call.now call.key 1).1 <;> simp

theorem limiterCalls_singleton (authTokens : Option (List JsString)) (event : ServiceEvent) :
    limiterCalls authTokens [event] = [] ∨
      ∃ call, limiterCalls authTokens [event] = [(event.id, call)] := by
  cases event with
  | arrive id request =>
      cases hkey : request.key authTokens with
      | none => exact .inl (by simp [limiterCalls, hkey])
      | some key =>
          exact .inr ⟨⟨request.call.now, key⟩, by simp [limiterCalls, hkey, ServiceEvent.id]⟩
  | finish _ _ _ _ => exact .inl rfl

/-- The times of the calls for a key that are let through. -/
theorem accepted_eq (cfg : ServiceConfig) (events : List ServiceEvent) (key : JsString) :
    (limiterRun cfg events).accepted key =
      ((admitted cfg events).filter fun entry ↦ entry.2.key = key).map fun entry ↦ entry.2.now := by
  induction events using List.reverseRecOn with
  | nil => rfl
  | append_singleton events event ih =>
      obtain hnone | ⟨call, hsome⟩ := limiterCalls_singleton cfg.authTokens event
      · obtain ⟨hrun, hadmitted⟩ := limiterRun_snoc_none events hnone
        rw [hrun, hadmitted, ih]
      · obtain ⟨hrun, hadmitted⟩ := limiterRun_snoc_some events hsome
        rw [hrun, hadmitted, Answered.accepted_next, ih, List.filter_append, List.map_append,
          RateLimiter.consume_answer]
        apply congrArg
        by_cases hlacks : ((limiterRun cfg events).limiter.refilled call.now call.key).tokens < 1
        · simp [hlacks]
        · by_cases hkey : call.key = key
          · subst hkey
            rw [decide_eq_false hlacks, if_neg (not_or.mpr ⟨hlacks, not_not.mpr rfl⟩)]
            simp
          · simp [hkey]

end Admitted

/-! ## Runs -/

section Runs

variable {solAddr : JsString → Option Pubkey} {sign : List UInt8 → Bytes 64 → Bytes 64}
  {cfg : ServiceConfig} {events : List ServiceEvent} {service : Service}

/-- A quote that was sent after its request had been let through, with what it was made from. -/
structure Answers (solAddr : JsString → Option Pubkey) (sign : List UInt8 → Bytes 64 → Bytes 64)
    (cfg : ServiceConfig) (events : List ServiceEvent) (id : ℕ) (response : QuoteResponse)
    (body : QuoteRequest) (evm : EvmReads) (dateNow : DateNow) : Prop where
  letThrough : ∃ earlier, earlier ++ [.finish id (some body) evm dateNow] <+: events ∧
    ∃ call, (id, call) ∈ admitted cfg earlier
  quoted : handleQuote solAddr sign evm cfg.toConfig dateNow body = .ok response

/-- The process keeps account of its connections. -/
structure Service.Faithful (solAddr : JsString → Option Pubkey)
    (sign : List UInt8 → Bytes 64 → Bytes 64) (cfg : ServiceConfig) (events : List ServiceEvent)
    (service : Service) : Prop where
  limiter : service.limiter = (limiterRun cfg events).limiter
  once : (service.pending ++ service.sent.map Prod.fst).Nodup
  known : ∀ id ∈ service.pending ++ service.sent.map Prod.fst, id ∈ service.seen
  arrived : ∀ id request, .arrive id request ∈ events → id ∈ service.seen
  arrivedOnce : ∀ id first second, .arrive id first ∈ events → .arrive id second ∈ events →
    first = second
  pending : ∀ id ∈ service.pending, ∃ call, (id, call) ∈ admitted cfg events
  admittedOnce : ((admitted cfg events).map Prod.fst).Nodup
  admittedKnown : ∀ entry ∈ admitted cfg events, entry.1 ∈ service.seen
  quotes : ∀ id response, (id, .quoted response) ∈ service.sent →
    ∃ body evm dateNow, Answers solAddr sign cfg events id response body evm dateNow

theorem admitted_isPrefix (event : ServiceEvent) :
    admitted cfg events <+: admitted cfg (events ++ [event]) := by
  obtain hnone | ⟨call, hsome⟩ := limiterCalls_singleton cfg.authTokens event
  · rw [(limiterRun_snoc_none events hnone).2]
  · rw [(limiterRun_snoc_some events hsome).2]
    exact List.prefix_append _ _

theorem Answers.snoc {id : ℕ} {response : QuoteResponse} {body : QuoteRequest} {evm : EvmReads}
    {dateNow : DateNow} (h : Answers solAddr sign cfg events id response body evm dateNow)
    (event : ServiceEvent) :
    Answers solAddr sign cfg (events ++ [event]) id response body evm dateNow where
  letThrough := h.letThrough.imp fun _ hearlier ↦
    ⟨hearlier.1.trans (List.prefix_append _ _), hearlier.2⟩
  quoted := h.quoted

theorem quoted_of_reply {body : Option QuoteRequest} {evm : EvmReads} {dateNow : DateNow}
    {response : QuoteResponse}
    (h : Service.reply solAddr sign cfg body evm dateNow = .quoted response) :
    ∃ request, body = some request ∧
      handleQuote solAddr sign evm cfg.toConfig dateNow request = .ok response := by
  unfold Service.reply at h
  split at h
  case h_1 => cases h
  case h_2 request =>
    split at h
    case h_1 found hfound =>
      obtain rfl : found = response := Response.quoted.inj h
      exact ⟨request, rfl, hfound⟩
    case h_2 => cases h

theorem Service.faithful_start : Faithful solAddr sign cfg [] (start cfg) where
  limiter := rfl
  once := List.nodup_nil
  known _ h := absurd h List.not_mem_nil
  arrived _ _ h := absurd h List.not_mem_nil
  arrivedOnce _ _ _ h := absurd h List.not_mem_nil
  pending _ h := absurd h List.not_mem_nil
  admittedOnce := List.nodup_nil
  admittedKnown _ h := absurd h List.not_mem_nil
  quotes _ _ h := absurd h List.not_mem_nil

/-- A connection that is new gets one place among those that are open or answered. -/
theorem nodup_of_fresh {pending sent seen places : List ℕ} {id : ℕ} (hfresh : id ∉ seen)
    (hknown : ∀ other ∈ pending ++ sent, other ∈ seen) (honce : (pending ++ sent).Nodup)
    (hplaces : places.Perm (id :: (pending ++ sent))) :
    places.Nodup ∧ ∀ other ∈ places, other ∈ seen ++ [id] := by
  constructor
  · rw [hplaces.nodup_iff]
    exact List.nodup_cons.mpr ⟨fun hmem ↦ hfresh (hknown id hmem), honce⟩
  · intro other hother
    obtain rfl | hold := List.mem_cons.mp (hplaces.mem_iff.mp hother)
    · exact List.mem_append_right _ (List.mem_singleton_self _)
    · exact List.mem_append_left _ (hknown other hold)

/-- One more answer, which is a quote only if it was made from what is known. -/
theorem Service.Faithful.quotes_append (h : Faithful solAddr sign cfg events service)
    (event : ServiceEvent) {id : ℕ} {response : Response}
    (hnew : ∀ reply, response = .quoted reply → ∃ body evm dateNow,
      Answers solAddr sign cfg (events ++ [event]) id reply body evm dateNow) :
    ∀ other reply, (other, .quoted reply) ∈ service.sent ++ [(id, response)] →
      ∃ body evm dateNow,
        Answers solAddr sign cfg (events ++ [event]) other reply body evm dateNow := by
  intro other reply hmem
  obtain hold | hlast := List.mem_append.mp hmem
  · obtain ⟨body, evm, dateNow, hanswers⟩ := h.quotes other reply hold
    exact ⟨body, evm, dateNow, hanswers.snoc event⟩
  · obtain ⟨rfl, rfl⟩ := Prod.mk.inj (List.mem_singleton.mp hlast)
    exact hnew reply rfl

theorem Service.Faithful.arrived_snoc (h : Faithful solAddr sign cfg events service) {id : ℕ}
    (request : Request) (hfresh : id ∉ service.seen) :
    (∀ other found, .arrive other found ∈ events ++ [.arrive id request] →
      other ∈ service.seen ++ [id]) ∧
    ∀ other first second, .arrive other first ∈ events ++ [.arrive id request] →
      .arrive other second ∈ events ++ [.arrive id request] → first = second := by
  have hcases {other : ℕ} {found : Request}
      (hmem : .arrive other found ∈ events ++ [.arrive id request]) :
      .arrive other found ∈ events ∨ other = id ∧ found = request := by
    obtain hold | hnew := List.mem_append.mp hmem
    · exact .inl hold
    · obtain ⟨hid, hrequest⟩ := ServiceEvent.arrive.inj (List.mem_singleton.mp hnew)
      exact .inr ⟨hid, hrequest⟩
  constructor
  · intro other found hmem
    obtain hold | ⟨rfl, -⟩ := hcases hmem
    · exact List.mem_append_left _ (h.arrived other found hold)
    · exact List.mem_append_right _ (List.mem_singleton_self _)
  · intro other first second hfirst hsecond
    obtain hold | ⟨rfl, rfl⟩ := hcases hfirst
    · obtain hold' | ⟨rfl, rfl⟩ := hcases hsecond
      · exact h.arrivedOnce other first second hold hold'
      · exact absurd (h.arrived other first hold) hfresh
    · obtain hold' | ⟨-, rfl⟩ := hcases hsecond
      · exact absurd (h.arrived other second hold') hfresh
      · rfl

theorem Service.faithful_step {next : Service} {event : ServiceEvent}
    (h : Faithful solAddr sign cfg events service)
    (hstep : step solAddr sign cfg event service = .ok next) :
    Faithful solAddr sign cfg (events ++ [event]) next := by
  have hkept : ∀ entry ∈ admitted cfg events, entry ∈ admitted cfg (events ++ [event]) :=
    fun _ hmem ↦ (admitted_isPrefix event).mem hmem
  have hpendings : ∀ id ∈ service.pending, ∃ call, (id, call) ∈ admitted cfg (events ++ [event]) :=
    fun id hmem ↦ (h.pending id hmem).imp fun _ hcall ↦ hkept _ hcall
  cases step_cases hstep with
  | @admitted id request key hfresh hkey haccepted =>
      have hcall : limiterCalls cfg.authTokens [.arrive id request] =
          [(id, ⟨request.call.now, key⟩)] := by
        simp [limiterCalls, hkey]
      obtain ⟨hrun, hadmitted⟩ := limiterRun_snoc_some events hcall
      have hplaces : (service.pending ++ [id] ++ service.sent.map Prod.fst).Perm
          (id :: (service.pending ++ service.sent.map Prod.fst)) := by
        rw [List.append_assoc]
        exact List.perm_middle
      obtain ⟨honce, hknown⟩ := nodup_of_fresh hfresh h.known h.once hplaces
      obtain ⟨harrived, harrivedOnce⟩ := h.arrived_snoc request hfresh
      rw [h.limiter] at haccepted
      rw [if_pos haccepted] at hadmitted
      refine ⟨?_, honce, hknown, harrived, harrivedOnce, ?_, ?_, ?_, ?_⟩
      · rw [hrun, h.limiter]
        rfl
      · intro other hother
        obtain hold | hnew := List.mem_append.mp hother
        · exact hpendings other hold
        · rw [List.mem_singleton.mp hnew, hadmitted]
          exact ⟨_, List.mem_append_right _ (List.mem_singleton_self _)⟩
      · rw [hadmitted, List.map_append]
        refine List.Nodup.append h.admittedOnce (List.nodup_singleton _) ?_
        rw [List.map_singleton, List.disjoint_singleton]
        intro hmem
        obtain ⟨entry, hentry, hid⟩ := List.mem_map.mp hmem
        have hseen := h.admittedKnown entry hentry
        rw [hid] at hseen
        exact hfresh hseen
      · intro entry hentry
        rw [hadmitted] at hentry
        obtain hold | hnew := List.mem_append.mp hentry
        · exact List.mem_append_left _ (h.admittedKnown entry hold)
        · rw [List.mem_singleton.mp hnew]
          exact List.mem_append_right _ (List.mem_singleton_self _)
      · intro other reply hmem
        obtain ⟨body, evm, dateNow, hanswers⟩ := h.quotes other reply hmem
        exact ⟨body, evm, dateNow, hanswers.snoc _⟩
  | @limited id request key hfresh hkey hrefused =>
      have hcall : limiterCalls cfg.authTokens [.arrive id request] =
          [(id, ⟨request.call.now, key⟩)] := by
        simp [limiterCalls, hkey]
      obtain ⟨hrun, hadmitted⟩ := limiterRun_snoc_some events hcall
      have hplaces : (service.pending ++
          (service.sent ++ [(id, Response.rateLimited)]).map Prod.fst).Perm
          (id :: (service.pending ++ service.sent.map Prod.fst)) := by
        rw [List.map_append, ← List.append_assoc]
        exact List.perm_append_singleton _ _
      obtain ⟨honce, hknown⟩ := nodup_of_fresh hfresh h.known h.once hplaces
      obtain ⟨harrived, harrivedOnce⟩ := h.arrived_snoc request hfresh
      rw [h.limiter] at hrefused
      rw [hrefused, if_neg Bool.false_ne_true, List.append_nil] at hadmitted
      refine ⟨?_, honce, hknown, harrived, harrivedOnce, hpendings, ?_, ?_, ?_⟩
      · rw [hrun, h.limiter]
        rfl
      · rw [hadmitted]
        exact h.admittedOnce
      · intro entry hentry
        rw [hadmitted] at hentry
        exact List.mem_append_left _ (h.admittedKnown entry hentry)
      · exact h.quotes_append _ fun reply hreply ↦ by cases hreply
  | @turnedAway id request response hfresh hkey hresponse =>
      have hcall : limiterCalls cfg.authTokens [.arrive id request] = [] := by
        simp [limiterCalls, hkey]
      obtain ⟨hrun, hadmitted⟩ := limiterRun_snoc_none events hcall
      have hplaces : (service.pending ++ (service.sent ++ [(id, response)]).map Prod.fst).Perm
          (id :: (service.pending ++ service.sent.map Prod.fst)) := by
        rw [List.map_append, ← List.append_assoc]
        exact List.perm_append_singleton _ _
      obtain ⟨honce, hknown⟩ := nodup_of_fresh hfresh h.known h.once hplaces
      obtain ⟨harrived, harrivedOnce⟩ := h.arrived_snoc request hfresh
      refine ⟨?_, honce, hknown, harrived, harrivedOnce, hpendings, ?_, ?_, ?_⟩
      · rw [hrun]
        exact h.limiter
      · rw [hadmitted]
        exact h.admittedOnce
      · intro entry hentry
        rw [hadmitted] at hentry
        exact List.mem_append_left _ (h.admittedKnown entry hentry)
      · refine h.quotes_append _ fun reply hreply ↦ ?_
        obtain rfl | rfl | rfl := hresponse <;> cases hreply
  | @finished id body evm dateNow hpending =>
      have hcall : limiterCalls cfg.authTokens [.finish id body evm dateNow] = [] := rfl
      obtain ⟨hrun, hadmitted⟩ := limiterRun_snoc_none events hcall
      have hplaces : (service.pending.erase id ++
          (service.sent ++
            [(id, Service.reply solAddr sign cfg body evm dateNow)]).map Prod.fst).Perm
          (service.pending ++ service.sent.map Prod.fst) := by
        rw [List.map_append, ← List.append_assoc]
        refine (List.perm_append_singleton _ _).trans ?_
        exact ((List.perm_cons_erase hpending).symm.append_right _)
      have hold {other : ℕ} {found : Request}
          (hmem : .arrive other found ∈ events ++ [.finish id body evm dateNow]) :
          .arrive other found ∈ events := by simpa using hmem
      refine ⟨?_, ?_, ?_, ?_, ?_, ?_, ?_, ?_, ?_⟩
      · rw [hrun]
        exact h.limiter
      · exact hplaces.nodup_iff.mpr h.once
      · exact fun other hother ↦ h.known other (hplaces.mem_iff.mp hother)
      · exact fun other found hmem ↦ h.arrived other found (hold hmem)
      · exact fun other first second hfirst hsecond ↦
          h.arrivedOnce other first second (hold hfirst) (hold hsecond)
      · exact fun other hother ↦ hpendings other (List.mem_of_mem_erase hother)
      · rw [hadmitted]
        exact h.admittedOnce
      · rw [hadmitted]
        exact h.admittedKnown
      · refine h.quotes_append _ fun reply hreply ↦ ?_
        obtain ⟨request, rfl, hquoted⟩ := quoted_of_reply hreply
        exact ⟨request, evm, dateNow, ⟨events, List.prefix_rfl, h.pending id hpending⟩, hquoted⟩

theorem Service.run_faithful (hrun : run solAddr sign cfg events = .ok service) :
    Faithful solAddr sign cfg events service :=
  Execution.run_induction (motive := fun events service ↦
    Faithful solAddr sign cfg events service) faithful_start
    (fun _ _ _ _ _ h hstep ↦ faithful_step h hstep) hrun

end Runs

end CredMesh.Bridge
