import Mathlib.Data.List.DropRight
import CredMesh.Safety.OneShotNonces

/-!
# The expiration time of a sign-in

The message that a request signs ends with its expiration time, five minutes after the timestamp.
The server tolerates timestamps up to ten minutes old and reads no expiration time, so the message
of a request that it accepts may have expired. It has not if the nonce was issued before the
timestamp, because nonces live for five minutes as well.
-/

namespace CredMesh.Server

open EcmaScript Outcome

section

variable {host : Host} {toleranceNow consumeNow now : ℤ} {request : Request} {headers : Headers}
  {store : NonceStore} {context : AuthContext} {uri message : JsString}

def lastLine (message : JsString) : JsString := message.rtakeWhile (· ≠ 0x0A)

/-- The expiration time that the last line of a message states. -/
def writtenExpiry (message : JsString) : Option ℤ :=
  if expirationLabel.isPrefixOf (lastLine message) then
    readIso ((lastLine message).drop expirationLabel.length)
  else none

/-- The request carries a signature of the message that the server expects, and at the given time
the message has not expired. -/
def Unexpired (host : Host) (toleranceNow : ℤ) (request : Request) (now : ℤ) : Prop :=
  ∃ headers message expiry, checkHeaders host toleranceNow request = .ok headers ∧
    expectedMessage host request.url headers = .ok message ∧ Signed host headers message ∧
    writtenExpiry message = some expiry ∧ now ≤ expiry

/-! ## The last line -/

theorem lastLine_append (front : JsString) {line : JsString} (h : ∀ unit ∈ line, unit ≠ 0x0A) :
    lastLine (front ++ 0x0A :: line) = line := by
  have hline : ∀ unit ∈ line.reverse, decide (unit ≠ 0x0A) = true := fun unit hunit ↦
    decide_eq_true (h unit (List.mem_reverse.mp hunit))
  rw [lastLine, List.rtakeWhile, List.reverse_append, List.reverse_cons, List.append_assoc,
    List.takeWhile_append_of_pos hline, List.singleton_append, List.takeWhile_cons_of_neg (by simp),
    List.append_nil, List.reverse_reverse]

theorem buildSiwsMessage_eq (p : SiwsPayload) (h : p.resources = []) :
    ∃ front, buildSiwsMessage p = front ++ 0x0A :: (expirationLabel ++ p.expirationTime) := by
  have hconcat (first : JsString) (middle : List JsString) (line : JsString) :
      ∃ front, List.intercalate [0x0A] (first :: middle ++ [line]) = front ++ 0x0A :: line := by
    induction middle generalizing first with
    | nil => exact ⟨first, by simp [List.intercalate]⟩
    | cons second rest ih =>
        obtain ⟨front, hfront⟩ := ih second
        refine ⟨first ++ 0x0A :: front, ?_⟩
        rw [List.cons_append, List.cons_append, List.intercalate_cons_cons, ← List.cons_append,
          hfront]
        simp
  simp only [buildSiwsMessage, h]
  exact hconcat _ [_, _, _, _, _, _, _, _, _] _

theorem ne_newline_of_mem_isoText {time : ℤ} {unit : UInt16} (h : unit ∈ isoText time) :
    unit ≠ 0x0A := by
  rintro rfl
  exact absurd (le_of_mem_isoText h) (by decide)

/-- The message says that it expires five minutes after its timestamp. -/
theorem writtenExpiry_expectedMessage (h : expectedMessage host uri headers = .ok message) :
    writtenExpiry message = some (headers.issuedAt + 5 * 60 * 1000) := by
  simp only [expectedMessage, bind_eq_ok, okOr_eq_ok, pure_eq_ok] at h
  obtain ⟨expirationTime, htext, rfl⟩ := h
  unfold toISOString at htext
  split_ifs at htext with hrange
  obtain rfl := Option.some.inj htext
  obtain ⟨front, hfront⟩ := buildSiwsMessage_eq {
    domain := host.siwsDomain
    address := headers.address
    statement := jsText "Authenticate to CredMesh"
    uri
    version := jsText "1"
    chainId := jsText "solana:" ++ headers.cluster.text
    nonce := headers.nonce
    issuedAt := headers.timestamp
    expirationTime := isoText (headers.issuedAt + 5 * 60 * 1000)
    resources := [] } rfl
  have hline : ∀ unit ∈ expirationLabel ++ isoText (headers.issuedAt + 5 * 60 * 1000),
      unit ≠ 0x0A := by
    intro unit hunit
    obtain hlabel | htime := List.mem_append.mp hunit
    · have hall : expirationLabel.all (fun unit ↦ unit ≠ 0x0A) = true := by decide +kernel
      exact of_decide_eq_true (List.all_eq_true.mp hall unit hlabel)
    · exact ne_newline_of_mem_isoText htime
  rw [hfront, writtenExpiry, lastLine_append front hline,
    if_pos (List.isPrefixOf_iff_prefix.mpr (List.prefix_append _ _)), List.drop_left]
  exact readIso_isoText hrange

/-! ## Accepted requests -/

/-- The headers of a request determine whether the message it signed has expired. -/
theorem unexpired_iff (hheaders : checkHeaders host toleranceNow request = .ok headers)
    (hmessage : expectedMessage host request.url headers = .ok message)
    (hsigned : Signed host headers message) :
    Unexpired host toleranceNow request now ↔ now - headers.issuedAt ≤ 5 * 60 * 1000 := by
  have hexpiry := writtenExpiry_expectedMessage hmessage
  constructor
  · rintro ⟨headers', message', expiry, hheaders', hmessage', -, hexpiry', hnow⟩
    obtain rfl := Except.ok.inj (hheaders.symm.trans hheaders')
    obtain rfl := Except.ok.inj (hmessage.symm.trans hmessage')
    obtain rfl := Option.some.inj (hexpiry.symm.trans hexpiry')
    exact sub_le_iff_le_add'.mpr hnow
  · intro hnow
    exact ⟨headers, message, _, hheaders, hmessage, hsigned, hexpiry, sub_le_iff_le_add'.mp hnow⟩

/-- The same for a request that is accepted, whose nonce has been consumed. -/
theorem unexpired_iff_of_accepted
    (haccepted : (authMiddleware host toleranceNow consumeNow request store).1 =
      .ok (some context)) :
    ∃ headers, Checked host toleranceNow request headers ∧
      (store.consume consumeNow headers.nonce headers.address).1 = true ∧
      ∀ now, Unexpired host toleranceNow request now ↔ now - headers.issuedAt ≤ 5 * 60 * 1000 := by
  obtain ⟨-, headers, hheaders, hconsumed, hverified⟩ := authMiddleware_eq_ok.mp haccepted
  obtain ⟨⟨message, hmessage, hsigned⟩, -⟩ := verifySignature_eq_ok.mp hverified
  exact ⟨headers, checked_of_checkHeaders hheaders, hconsumed,
    fun now ↦ unexpired_iff hheaders hmessage hsigned⟩

/-- The message of an accepted request has not expired at a given time exactly if by then at most
five minutes have passed since its timestamp. -/
theorem sign_in_unexpired_iff
    (haccepted : (authMiddleware host toleranceNow consumeNow request store).1 =
      .ok (some context)) (now : ℤ) :
    Unexpired host toleranceNow request now ↔
      ∃ timestamp issuedAt, request.timestamp = some timestamp ∧
        host.dateParse timestamp = some issuedAt ∧ now - issuedAt ≤ 5 * 60 * 1000 := by
  obtain ⟨headers, hchecked, -, hunexpired⟩ := unexpired_iff_of_accepted haccepted
  rw [hunexpired]
  constructor
  · intro hnow
    exact ⟨headers.timestamp, headers.issuedAt, hchecked.timestamp, hchecked.parsed, hnow⟩
  · rintro ⟨timestamp, issuedAt, htimestamp, hparsed, hnow⟩
    obtain rfl := Option.some.inj (hchecked.timestamp.symm.trans htimestamp)
    obtain rfl := Option.some.inj (hchecked.parsed.symm.trans hparsed)
    exact hnow

end

namespace Localnet

/-- The agent got its nonce a second before. -/
def storeAt (now : ℤ) : NonceStore := run host [.issueNonce (now - 1000) (now - 1000) agent random]

/-- Four and nine minutes after its timestamp, the request signs in with a nonce of that time. -/
theorem signsIn_at : ∀ minutes ∈ [4, 9],
    (authMiddleware host (signInTime + minutes * 60000) (signInTime + minutes * 60000)
      signInRequest (storeAt (signInTime + minutes * 60000))).1 =
        .ok (some ⟨agent, .devnet⟩) := by
  decide +kernel

end Localnet

open Localnet in
theorem sign_in_unexpired_iff_localnet :
    Unexpired host (signInTime + 4 * 60000) signInRequest (signInTime + 4 * 60000) :=
  (sign_in_unexpired_iff (signsIn_at 4 (by decide)) _).mpr
    ⟨_, signInTime, rfl, by decide +kernel, by decide⟩

open Localnet in
/-- Nine minutes after its timestamp the request is accepted, and its message expired four minutes
ago. -/
theorem expired_sign_in_accepted :
    SignsIn host [.issueNonce (signInTime + 9 * 60000 - 1000) (signInTime + 9 * 60000 - 1000) agent
        Localnet.random]
      (signInTime + 9 * 60000) (signInTime + 9 * 60000) signInRequest ⟨agent, .devnet⟩ ∧
    ¬ Unexpired host (signInTime + 9 * 60000) signInRequest (signInTime + 9 * 60000) := by
  have haccepted := signsIn_at 9 (by decide)
  refine ⟨haccepted, ?_⟩
  obtain ⟨headers, hchecked, -, hunexpired⟩ := unexpired_iff_of_accepted haccepted
  have htimestamp : headers.timestamp = jsText "2026-01-01T00:00:00.000Z" :=
    (Option.some.inj hchecked.timestamp).symm
  have hparsed : readIso (jsText "2026-01-01T00:00:00.000Z") = some signInTime := by decide +kernel
  have hissued : headers.issuedAt = signInTime := by
    apply Option.some.inj
    rw [← hparsed, ← htimestamp]
    exact hchecked.parsed.symm
  rw [hunexpired, hissued]
  decide

end CredMesh.Server
