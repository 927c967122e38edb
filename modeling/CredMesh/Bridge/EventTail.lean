import Mathlib.Data.List.TakeWhile
import CredMesh.Escrow.State
import CredMesh.Foundation.BaseEncoding

/-!
# The event tail

The bridge follows the logs of transactions that mention the escrow and forwards the advance
events it finds there to the EVM credit worker. It recognises an event by the eight bytes at the
start of a `Program data:` line. This file holds the escrow's side, the bytes that `emit!` logs,
and the loop over the log lines of one transaction.
-/

namespace CredMesh.Escrow.Event

open ByteString

/-- The first eight bytes of the SHA-256 digest of `event:` and the name of the event. -/
def discriminator : Event → List UInt8
  | poolInitialized _ _ _ _ => [100, 118, 173, 87, 12, 198, 254, 229]
  | deposited _ _ _ _ => [111, 141, 26, 45, 161, 35, 100, 57]
  | withdrew _ _ _ _ => [15, 125, 249, 65, 130, 86, 20, 166]
  | advanceIssued _ _ _ _ _ _ _ => [217, 23, 68, 242, 156, 108, 78, 113]
  | advanceSettled _ _ _ _ _ _ _ _ => [189, 170, 219, 207, 123, 203, 16, 138]
  | advanceLiquidated _ _ _ _ => [38, 93, 243, 154, 126, 0, 247, 7]
  | paramsProposed _ _ => [29, 64, 243, 241, 75, 135, 93, 142]
  | paramsExecuted _ _ _ _ => [43, 82, 27, 103, 223, 157, 65, 40]
  | protocolFeesSkimmed _ _ _ => [166, 249, 52, 183, 245, 114, 5, 174]

/-- The fields of an event in Borsh, in the order of their declaration. -/
def fields : Event → List UInt8
  | poolInitialized pool assetMint shareMint governance =>
      pool.toList ++ assetMint.toList ++ shareMint.toList ++ governance.toList
  | deposited pool lp amount sharesMinted =>
      pool.toList ++ lp.toList ++ leBytes 8 amount.toNat ++ leBytes 8 sharesMinted.toNat
  | withdrew pool lp sharesBurned assetsReturned =>
      pool.toList ++ lp.toList ++ leBytes 8 sharesBurned.toNat ++ leBytes 8 assetsReturned.toNat
  | advanceIssued pool agent advance principal feeOwed expiresAt attestor =>
      pool.toList ++ agent.toList ++ advance.toList ++ leBytes 8 principal.toNat ++
        leBytes 8 feeOwed.toNat ++ leBytes 8 expiresAt.toUInt64.toNat ++ attestor.toList
  | advanceSettled pool agent advance principal lpCut protocolCut agentNet lateDays =>
      pool.toList ++ agent.toList ++ advance.toList ++ leBytes 8 principal.toNat ++
        leBytes 8 lpCut.toNat ++ leBytes 8 protocolCut.toNat ++ leBytes 8 agentNet.toNat ++
        leBytes 4 lateDays.toNat
  | advanceLiquidated pool agent advance loss =>
      pool.toList ++ agent.toList ++ advance.toList ++ leBytes 8 loss.toNat
  | paramsProposed pool executeAfter => pool.toList ++ leBytes 8 executeAfter.toUInt64.toNat
  | paramsExecuted pool maxAdvancePctBps maxAdvanceAbs agentWindowCap =>
      pool.toList ++ leBytes 2 maxAdvancePctBps.toNat ++ leBytes 8 maxAdvanceAbs.toNat ++
        leBytes 8 agentWindowCap.toNat
  | protocolFeesSkimmed pool amount recipient =>
      pool.toList ++ leBytes 8 amount.toNat ++ recipient.toList

def encode (event : Event) : List UInt8 := event.discriminator ++ event.fields

theorem length_discriminator (event : Event) : event.discriminator.length = 8 := by
  cases event <;> rfl

end CredMesh.Escrow.Event

namespace CredMesh.Bridge

open ByteString Escrow

/-- A line of a log. -/
abbrev Line := List Char

inductive EventName
  | advanceIssued
  | advanceSettled
  | advanceLiquidated
  deriving DecidableEq

def eventNames : List EventName := [.advanceIssued, .advanceSettled, .advanceLiquidated]

def anchorEventDiscriminator : EventName → List UInt8
  | .advanceIssued => [217, 23, 68, 242, 156, 108, 78, 113]
  | .advanceSettled => [189, 170, 219, 207, 123, 203, 16, 138]
  | .advanceLiquidated => [38, 93, 243, 154, 126, 0, 247, 7]

structure EventTailConfig where
  agentBindings : List Char → Option (List Char)

/-- The fields of an event; those it does not have are absent. -/
structure EventPayload where
  pool : List Char
  agentSolanaPubkey : List Char
  advance : List Char
  principalAtoms : Option ℕ := none
  feeOwedAtoms : Option ℕ := none
  expiresAt : Option ℤ := none
  attestor : Option (List Char) := none
  lpCutAtoms : Option ℕ := none
  protocolCutAtoms : Option ℕ := none
  agentNetAtoms : Option ℕ := none
  lateDays : Option ℕ := none
  lossAtoms : Option ℕ := none
  deriving DecidableEq

structure AdvanceEvent where
  kind : EventName
  rawB64 : List Char
  slot : ℕ
  signature : List Char
  evmAddress : Option (List Char)
  payload : EventPayload
  deriving DecidableEq

/-- Reading a number past the end of a buffer throws. -/
inductive TailError
  | rangeError
  deriving DecidableEq

/-! ## Base 58 -/

/-- Multiply the digits by 256 and add a carry, least significant digit first. -/
def shiftDigits : List ℕ → ℕ → List ℕ × ℕ
  | [], carry => ([], carry)
  | digit :: digits, carry =>
      let carry := carry + digit * 256
      let (rest, out) := shiftDigits digits (carry / 58)
      (carry % 58 :: rest, out)

/-- The digits of the bytes behind the leading zeros, with what is left of the carry pushed. -/
def base58Digits (bytes : List UInt8) : List ℕ :=
  bytes.foldl (fun digits byte ↦
    let (digits, carry) := shiftDigits digits byte.toNat
    digits ++ Nat.digits 58 carry) [0]

/-- The digits start from a single zero, so a string of zeros gets one letter too many. -/
def bytesToBase58 (bytes : List UInt8) : List Char :=
  let zeros := (bytes.takeWhile (· = 0)).length
  List.replicate zeros '1' ++ (base58Digits (bytes.drop zeros)).reverse.map Base58.letter

theorem shiftDigits_length (digits : List ℕ) (carry : ℕ) :
    (shiftDigits digits carry).1.length = digits.length := by
  induction digits generalizing carry with
  | nil => rfl
  | cons digit digits ih => simp [shiftDigits, ih]

theorem shiftDigits_lt (digits : List ℕ) (carry : ℕ) :
    ∀ digit ∈ (shiftDigits digits carry).1, digit < 58 := by
  induction digits generalizing carry with
  | nil => simp [shiftDigits]
  | cons digit digits ih =>
      simp only [shiftDigits, List.forall_mem_cons]
      exact ⟨Nat.mod_lt _ (by norm_num), ih _⟩

/-- The digits with the carry left over are those before, shifted. -/
theorem shiftDigits_value (digits : List ℕ) (carry : ℕ) :
    Nat.ofDigits 58 (shiftDigits digits carry).1 +
        58 ^ digits.length * (shiftDigits digits carry).2 =
      carry + 256 * Nat.ofDigits 58 digits := by
  induction digits generalizing carry with
  | nil => simp [shiftDigits]
  | cons digit digits ih =>
      have hrest := ih ((carry + digit * 256) / 58)
      have hsplit := Nat.mod_add_div (carry + digit * 256) 58
      simp only [shiftDigits, Nat.ofDigits_cons, List.length_cons, pow_succ] at hrest ⊢
      linarith

theorem base58Digits_snoc (bytes : List UInt8) (byte : UInt8) :
    base58Digits (bytes ++ [byte]) =
      (shiftDigits (base58Digits bytes) byte.toNat).1 ++
        Nat.digits 58 (shiftDigits (base58Digits bytes) byte.toNat).2 := by
  simp [base58Digits]

theorem base58Digits_lt (bytes : List UInt8) : ∀ digit ∈ base58Digits bytes, digit < 58 := by
  induction bytes using List.reverseRecOn with
  | nil => simp [base58Digits]
  | append_singleton bytes byte ih =>
      rw [base58Digits_snoc, List.forall_mem_append]
      exact ⟨shiftDigits_lt _ _, fun digit hdigit ↦ Nat.digits_lt_base (by norm_num) hdigit⟩

/-- The digits are those of the bytes, the first of which is the most significant. -/
theorem base58Digits_value (bytes : List UInt8) :
    Nat.ofDigits 58 (base58Digits bytes) = readLE bytes.reverse := by
  induction bytes using List.reverseRecOn with
  | nil => rfl
  | append_singleton bytes byte ih =>
      rw [base58Digits_snoc, Nat.ofDigits_append, Nat.ofDigits_digits, shiftDigits_length,
        shiftDigits_value, ih, List.reverse_append]
      rfl

/-- The leading zeros are those that the digits leave out. -/
theorem drop_zeros (bytes : List UInt8) :
    bytes.drop (bytes.takeWhile (· = 0)).length = bytes.dropWhile (· = 0) := by
  have hbehind : (bytes.takeWhile (· = 0) ++ bytes.dropWhile (· = 0)).drop
    (bytes.takeWhile (· = 0)).length = bytes.dropWhile (· = 0) := List.drop_left
  rwa [List.takeWhile_append_dropWhile] at hbehind

theorem bytesToBase58_value (bytes : List UInt8) :
    Base58.value (bytesToBase58 bytes) = readLE bytes.reverse := by
  calc
    _ = Nat.ofDigits 58 (base58Digits (bytes.drop (bytes.takeWhile (· = 0)).length)) :=
      Base58.value_letters (base58Digits_lt _) _
    _ = readLE (bytes.dropWhile (· = 0)).reverse := by
      rw [base58Digits_value, drop_zeros]
    _ = readLE bytes.reverse := readLE_reverse_dropWhile bytes

/-- Keys with the same text are the same key. -/
theorem bytesToBase58_inj {length : ℕ} {first second : Bytes length} :
    bytesToBase58 first.toList = bytesToBase58 second.toList ↔ first = second := by
  refine ⟨fun h ↦ ?_, fun h ↦ by rw [h]⟩
  have hvalue : readLE first.toList.reverse = readLE second.toList.reverse := by
    rw [← bytesToBase58_value, ← bytesToBase58_value, h]
  have hreverse := readLE_inj (by simp) hvalue
  exact List.Vector.toList_injective (List.reverse_injective hreverse)

/-! ## Decoding -/

def readPubkey (data : List UInt8) (offset : ℕ) : List Char :=
  bytesToBase58 (slice data offset 32)

/-- An unsigned number of `width` bytes. -/
def readUInt (width : ℕ) (data : List UInt8) (offset : ℕ) : Except TailError ℕ :=
  if offset + width ≤ data.length then .ok (readLE (slice data offset width))
  else .error .rangeError

def readU64 : List UInt8 → ℕ → Except TailError ℕ := readUInt 8

def readU32 : List UInt8 → ℕ → Except TailError ℕ := readUInt 4

def readI64 (data : List UInt8) (offset : ℕ) : Except TailError ℤ := do
  let value ← readUInt 8 data offset
  pure (UInt64.ofNat value).toInt64.toInt

def decodeEvent (kind : EventName) (data : List UInt8) : Except TailError EventPayload :=
  match kind with
  | .advanceIssued => do
      let principalAtoms ← readU64 data 96
      let feeOwedAtoms ← readU64 data 104
      let expiresAt ← readI64 data 112
      pure {
        pool := readPubkey data 0
        agentSolanaPubkey := readPubkey data 32
        advance := readPubkey data 64
        principalAtoms, feeOwedAtoms, expiresAt
        attestor := readPubkey data 120 }
  | .advanceSettled => do
      let principalAtoms ← readU64 data 96
      let lpCutAtoms ← readU64 data 104
      let protocolCutAtoms ← readU64 data 112
      let agentNetAtoms ← readU64 data 120
      let lateDays ← readU32 data 128
      pure {
        pool := readPubkey data 0
        agentSolanaPubkey := readPubkey data 32
        advance := readPubkey data 64
        principalAtoms, lpCutAtoms, protocolCutAtoms, agentNetAtoms, lateDays }
  | .advanceLiquidated => do
      let lossAtoms ← readU64 data 96
      pure {
        pool := readPubkey data 0
        agentSolanaPubkey := readPubkey data 32
        advance := readPubkey data 64
        lossAtoms }

/-! ## The loop over the log -/

def dataMarker : Line := "Program data: ".toList

/-- What `.` does not match in a regular expression. -/
def isLineTerminator (c : Char) : Bool :=
  c = '\n' ∨ c = '\r' ∨ c = '\u2028' ∨ c = '\u2029'

/-- The group of `/^Program data: (.+)$/`. -/
def matchData (line : Line) : Option (List Char) :=
  if dataMarker.isPrefixOf line then
    let rest := line.drop dataMarker.length
    if rest ≠ [] ∧ !rest.any isLineTerminator then some rest else none
  else none

/-- The text of a data line, the event it starts with and the bytes that follow. -/
def recognise (line : Line) : Option (List Char × EventName × List UInt8) :=
  (matchData line).bind fun b64 ↦
    let decoded := Base64.decode b64
    if decoded.length < 8 then none
    else
      let discB64 := Base64.encode (decoded.take 8)
      (eventNames.find? fun name ↦
        Base64.encode (anchorEventDiscriminator name) = discB64).map fun name ↦
          (b64, name, decoded.drop 8)

/-- A notification about a transaction. -/
structure Notification where
  err : Bool
  signature : List Char
  slot : ℕ
  logs : List Line

variable (cfg : EventTailConfig) (notification : Notification)

/-- The event that an iteration forwards, if any. -/
def readLine (line : Line) : Except TailError (Option AdvanceEvent) :=
  match recognise line with
  | none => .ok none
  | some (b64, kind, data) => do
      let payload ← decodeEvent kind data
      pure (some {
        kind
        rawB64 := b64
        slot := notification.slot
        signature := notification.signature
        evmAddress := cfg.agentBindings payload.agentSolanaPubkey
        payload })

/-- What has been forwarded, and the error that ended the tail if one did. -/
structure Tailed where
  forwarded : List AdvanceEvent
  stopped : Option TailError
  deriving DecidableEq

def tailLine (state : Tailed) (line : Line) : Tailed :=
  match state.stopped, readLine cfg notification line with
  | some _, _ => state
  | none, .error error => { state with stopped := some error }
  | none, .ok none => state
  | none, .ok (some event) => { state with forwarded := state.forwarded ++ [event] }

/-- The loop of `startEventTail` over the lines of one notification. -/
def tailLogs (logs : List Line) : Tailed :=
  logs.foldl (tailLine cfg notification) ⟨[], none⟩

/-- The tail skips failed transactions. -/
def tailNotification : Tailed :=
  if notification.err then ⟨[], none⟩ else tailLogs cfg notification notification.logs

def tailNext (state : Tailed) (notification : Notification) : Tailed :=
  match state.stopped with
  | some _ => state
  | none =>
      let found := tailNotification cfg notification
      ⟨state.forwarded ++ found.forwarded, found.stopped⟩

/-- The subscription delivers one notification after the other. -/
def startEventTail (notifications : List Notification) : Tailed :=
  notifications.foldl (tailNext cfg) ⟨[], none⟩

/-- The exit code of the process, once the handler of `main` has caught an error of the tail. -/
def exitCode (tail : Tailed) : Option ℕ :=
  tail.stopped.map fun _ ↦ 2

end CredMesh.Bridge
