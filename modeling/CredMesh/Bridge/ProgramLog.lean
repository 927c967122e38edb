import CredMesh.Bridge.EventTail

/-!
# Program logs

What the runtime writes while a transaction runs, line by line, and which program each line is to
be ascribed to: the innermost one running, according to the invocations and returns before it.
Programs choose freely what they log, but each line starts with a marker of the runtime. A line
that the escrow emitted is read back by the event tail as the event that it is.
-/

namespace CredMesh.Bridge

open ByteString Escrow

/-- A line that the runtime writes. -/
inductive LogEntry
  | invoke (program : Pubkey) (depth : ℕ)
  | success (program : Pubkey)
  | consumed (program : Pubkey) (used budget : ℕ)
  | log (message : List Char)
  | data (chunks : List (List UInt8))
  | returned (program : Pubkey) (bytes : List UInt8)
  deriving DecidableEq

namespace LogEntry

def programText (program : Pubkey) : List Char := Base58.encode program.toList

def render : LogEntry → Line
  | invoke program depth =>
      "Program ".toList ++ (programText program ++ (" invoke [".toList ++ Nat.toDigits 10 depth ++
        "]".toList))
  | success program => "Program ".toList ++ (programText program ++ " success".toList)
  | consumed program used budget =>
      "Program ".toList ++ (programText program ++ (" consumed ".toList ++ Nat.toDigits 10 used ++
        " of ".toList ++ Nat.toDigits 10 budget ++ " compute units".toList))
  | log message => "Program log: ".toList ++ message
  | data chunks => dataMarker ++ [' '].intercalate (chunks.map Base64.encode)
  | returned program bytes =>
      "Program return: ".toList ++ programText program ++ " ".toList ++ Base64.encode bytes

/-- The running programs after a line, innermost first. -/
def after (running : List Pubkey) : LogEntry → List Pubkey
  | invoke program _ => program :: running
  | success _ => running.tail
  | _ => running

end LogEntry

/-- Each line of a log with the innermost program running when it was written. -/
def ascribe : List Pubkey → List LogEntry → List (Option Pubkey × LogEntry)
  | _, [] => []
  | running, entry :: rest => (running.head?, entry) :: ascribe (entry.after running) rest

theorem ascribe_map_snd (running : List Pubkey) (log : List LogEntry) :
    (ascribe running log).map Prod.snd = log := by
  induction log generalizing running with
  | nil => rfl
  | cons entry rest ih => simp [ascribe, ih]

/-! ## Lines that are not data -/

theorem matchData_eq_none {line : Line} (h : dataMarker.isPrefixOf line = false) :
    matchData line = none := by
  simp [matchData, h]

/-- A program identifier ends in a space, the marker of a data line in a colon. -/
theorem isPrefixOf_programText (program : Pubkey) (rest : List Char) :
    dataMarker.isPrefixOf ("Program ".toList ++ (LogEntry.programText program ++ ' ' :: rest)) =
      false := by
  let separates (c : Char) : Bool := c = ':' ∨ c = ' '
  have hletters : (LogEntry.programText program).find? separates = none := by
    rw [List.find?_eq_none]
    intro c hc
    have hnone : Base58.alphabet.find? separates = none := by decide +kernel
    exact List.find?_eq_none.mp hnone c (Base58.mem_encode hc)
  rw [Bool.eq_false_iff]
  intro hmarked
  obtain ⟨behind, hline⟩ := List.isPrefixOf_iff_prefix.mp hmarked
  have hmarker : dataMarker = "Program ".toList ++ "data: ".toList := rfl
  rw [hmarker, List.append_assoc, List.append_cancel_left_eq] at hline
  have hfirst := congrArg (List.find? separates) hline
  have hcolon : "data: ".toList.find? separates = some ':' := rfl
  rw [List.find?_append, List.find?_append, hletters, hcolon] at hfirst
  exact absurd hfirst (by simp [separates])

theorem matchData_render {entry : LogEntry} (h : ∀ chunks, entry ≠ .data chunks) :
    matchData entry.render = none := by
  apply matchData_eq_none
  cases entry with
  | invoke program depth => exact isPrefixOf_programText program _
  | success program => exact isPrefixOf_programText program _
  | consumed program used budget => exact isPrefixOf_programText program _
  | log message => rfl
  | data chunks => exact absurd rfl (h chunks)
  | returned program bytes => rfl

/-! ## Lines that the escrow emitted -/

/-- The text that `emit!` produces passes the regular expression. -/
theorem matchData_encode {bytes : List UInt8} (h : bytes ≠ []) :
    matchData (LogEntry.data [bytes]).render = some (Base64.encode bytes) := by
  have hplain : (Base64.encode bytes).any isLineTerminator = false := by
    have hnone : Base64.alphabet.any isLineTerminator = false := by decide +kernel
    rw [List.any_eq_false] at hnone ⊢
    intro c hc
    obtain hletter | rfl := Base64.mem_encode hc
    · exact hnone c hletter
    · decide
  have hline : (LogEntry.data [bytes]).render = dataMarker ++ Base64.encode bytes :=
    congrArg (dataMarker ++ ·) (List.append_nil (Base64.encode bytes))
  have hmarked : dataMarker.isPrefixOf (dataMarker ++ Base64.encode bytes) = true :=
    List.isPrefixOf_iff_prefix.mpr (List.prefix_append _ _)
  rw [hline, matchData, if_pos hmarked, List.drop_left]
  exact if_pos ⟨mt Base64.encode_eq_nil.mp h, by rw [hplain]; rfl⟩

/-- The name under which the tail knows an event. -/
def nameOf : Event → Option EventName
  | .advanceIssued _ _ _ _ _ _ _ => some .advanceIssued
  | .advanceSettled _ _ _ _ _ _ _ _ => some .advanceSettled
  | .advanceLiquidated _ _ _ _ => some .advanceLiquidated
  | _ => none

theorem find_discriminator (event : Event) :
    (eventNames.find? fun name ↦
      Base64.encode (anchorEventDiscriminator name) = Base64.encode event.discriminator) =
        nameOf event := by
  simp only [Base64.encode_injective.eq_iff]
  cases event <;> rfl

theorem recognise_emitted (event : Event) :
    recognise (LogEntry.data [event.encode]).render =
      (nameOf event).map fun name ↦ (Base64.encode event.encode, name, event.fields) := by
  have hlength := event.length_discriminator
  have hencoded : event.encode ≠ [] := by
    intro hnil
    have := congrArg List.length hnil
    simp [Event.encode, hlength] at this
  have hlong : ¬ event.encode.length < 8 := by
    simp [Event.encode, hlength]
  have htake : event.encode.take 8 = event.discriminator := by
    rw [Event.encode, ← hlength, List.take_left]
  have hdrop : event.encode.drop 8 = event.fields := by
    rw [Event.encode, ← hlength, List.drop_left]
  simp only [recognise, matchData_encode hencoded, Option.bind_some, Base64.decode_encode,
    if_neg hlong, htake, hdrop, find_discriminator]

/-- The payload that the tail reports for an event. -/
def payloadOf : Event → Option EventPayload
  | .advanceIssued pool agent advance principal feeOwed expiresAt attestor => some {
      pool := bytesToBase58 pool.toList
      agentSolanaPubkey := bytesToBase58 agent.toList
      advance := bytesToBase58 advance.toList
      principalAtoms := principal.toNat
      feeOwedAtoms := feeOwed.toNat
      expiresAt := expiresAt.toInt
      attestor := bytesToBase58 attestor.toList }
  | .advanceSettled pool agent advance principal lpCut protocolCut agentNet lateDays => some {
      pool := bytesToBase58 pool.toList
      agentSolanaPubkey := bytesToBase58 agent.toList
      advance := bytesToBase58 advance.toList
      principalAtoms := principal.toNat
      lpCutAtoms := lpCut.toNat
      protocolCutAtoms := protocolCut.toNat
      agentNetAtoms := agentNet.toNat
      lateDays := lateDays.toNat }
  | .advanceLiquidated pool agent advance loss => some {
      pool := bytesToBase58 pool.toList
      agentSolanaPubkey := bytesToBase58 agent.toList
      advance := bytesToBase58 advance.toList
      lossAtoms := loss.toNat }
  | _ => none

theorem readUInt_append {first rest : List UInt8} {width offset : ℕ}
    (h : first.length ≤ offset) :
    readUInt width (first ++ rest) offset = readUInt width rest (offset - first.length) := by
  have hfits : offset + width ≤ (first ++ rest).length ↔
      offset - first.length + width ≤ rest.length := by
    rw [List.length_append]
    omega
  simp only [readUInt, hfits, slice_append_right h]

theorem readUInt_leBytes {width value : ℕ} (h : value < 256 ^ width) (rest : List UInt8) :
    readUInt width (leBytes width value ++ rest) 0 = .ok value := by
  have hfits : 0 + width ≤ (leBytes width value ++ rest).length := by simp
  rw [readUInt, if_pos hfits, slice_append_left (length_leBytes width value), readLE_leBytes h]

theorem readUInt_u64 (value : UInt64) (rest : List UInt8) :
    readUInt 8 (leBytes 8 value.toNat ++ rest) 0 = .ok value.toNat :=
  readUInt_leBytes (by simpa using value.toNat_lt) rest

/-- The tail reads back what the escrow wrote. -/
theorem decodeEvent_fields (event : Event) :
    (nameOf event).map (fun name ↦ decodeEvent name event.fields) =
      (payloadOf event).map .ok := by
  cases event with
  | advanceIssued pool agent advance principal feeOwed expiresAt attestor =>
      have hlast : slice attestor.toList 0 32 = attestor.toList := slice_zero_length _ (by simp)
      simp (disch := simp) only [nameOf, payloadOf, Option.map_some, decodeEvent, readU64,
        readI64, readPubkey, Event.fields, List.append_assoc, readUInt_append, readUInt_u64,
        slice_append_right, slice_append_left, List.Vector.toList_length, length_leBytes,
        Nat.reduceSub, hlast, Outcome.ok_bind, UInt64.ofNat_toNat]
      rfl
  | advanceSettled pool agent advance principal lpCut protocolCut agentNet lateDays =>
      have hlast := readUInt_leBytes (show lateDays.toNat < 256 ^ 4 by
        simpa using lateDays.toNat_lt) []
      rw [List.append_nil] at hlast
      simp (disch := simp) only [nameOf, payloadOf, Option.map_some, decodeEvent, readU64,
        readU32, readPubkey, Event.fields, List.append_assoc, readUInt_append, readUInt_u64,
        slice_append_right, slice_append_left, List.Vector.toList_length, length_leBytes,
        Nat.reduceSub, hlast, Outcome.ok_bind]
      rfl
  | advanceLiquidated pool agent advance loss =>
      have hlast := readUInt_u64 loss []
      rw [List.append_nil] at hlast
      simp (disch := simp) only [nameOf, payloadOf, Option.map_some, decodeEvent, readU64,
        readPubkey, Event.fields, List.append_assoc, readUInt_append, slice_append_right,
        slice_append_left, List.Vector.toList_length, Nat.reduceSub, hlast, Outcome.ok_bind]
      rfl
  | _ => rfl

/-- How much of an event the tail needs in order not to throw. -/
def EventName.leastLength : EventName → ℕ
  | .advanceIssued => 120
  | .advanceSettled => 132
  | .advanceLiquidated => 104

theorem readUInt_eq_ok {width offset value : ℕ} {data : List UInt8} :
    readUInt width data offset = .ok value ↔
      offset + width ≤ data.length ∧ value = readLE (slice data offset width) := by
  unfold readUInt
  split <;> simp_all [eq_comm]

theorem readI64_eq_ok {offset : ℕ} {value : ℤ} {data : List UInt8} :
    readI64 data offset = .ok value ↔
      offset + 8 ≤ data.length ∧
        value = (UInt64.ofNat (readLE (slice data offset 8))).toInt64.toInt := by
  simp only [readI64, Outcome.bind_eq_ok, readUInt_eq_ok, Outcome.pure_eq_ok]
  constructor
  · rintro ⟨_, ⟨hfits, rfl⟩, rfl⟩
    exact ⟨hfits, rfl⟩
  · rintro ⟨hfits, rfl⟩
    exact ⟨_, ⟨hfits, rfl⟩, rfl⟩

/-- The tail throws exactly on events that end before the last number in them does. -/
theorem exists_decodeEvent_iff {kind : EventName} {data : List UInt8} :
    (∃ payload, decodeEvent kind data = .ok payload) ↔ kind.leastLength ≤ data.length := by
  cases kind <;>
    simp only [decodeEvent, readU64, readU32, Outcome.exists_bind_eq_ok, readUInt_eq_ok,
      readI64_eq_ok, Outcome.exists_pure_eq_ok, EventName.leastLength, and_assoc, exists_and_left,
      exists_eq_left, exists_eq, and_true] <;>
    omega

/-! ## Reading a line -/

variable (cfg : EventTailConfig) (notification : Notification)

/-- The event that the tail is to forward for an event of the escrow. -/
def advanceEventOf (event : Event) : Option AdvanceEvent :=
  match nameOf event, payloadOf event with
  | some kind, some payload => some {
      kind
      rawB64 := Base64.encode event.encode
      slot := notification.slot
      signature := notification.signature
      evmAddress := cfg.agentBindings payload.agentSolanaPubkey
      payload }
  | _, _ => none

theorem readLine_emitted (event : Event) :
    readLine cfg notification (LogEntry.data [event.encode]).render =
      .ok (advanceEventOf cfg notification event) := by
  have hdecoded := decodeEvent_fields event
  rw [readLine, recognise_emitted, advanceEventOf]
  cases hname : nameOf event with
  | none => rfl
  | some name =>
      rw [hname] at hdecoded
      obtain ⟨payload, hpayload, hread⟩ := Option.map_eq_some_iff.mp hdecoded.symm
      simp only [Option.map_some, hpayload, ← hread, Outcome.ok_bind]
      rfl

/-- A line is read without an error exactly if it is not the beginning of an event. -/
theorem exists_readLine_iff {line : Line} :
    (∃ result, readLine cfg notification line = .ok result) ↔
      ∀ b64 kind data, recognise line = some (b64, kind, data) →
        kind.leastLength ≤ data.length := by
  unfold readLine
  cases hline : recognise line with
  | none => simp
  | some found =>
      obtain ⟨b64, kind, data⟩ := found
      simp only [Outcome.exists_bind_eq_ok, Outcome.exists_pure_eq_ok, and_true,
        exists_decodeEvent_iff, Option.some_inj, Prod.mk.injEq, and_imp]
      constructor
      · rintro hlength _ _ _ - rfl rfl
        exact hlength
      · intro hlength
        exact hlength b64 kind data rfl rfl rfl

theorem recognise_of_readLine {line : Line} {event : AdvanceEvent}
    (h : readLine cfg notification line = .ok (some event)) :
    ∃ b64 kind data, recognise line = some (b64, kind, data) := by
  unfold readLine at h
  cases hline : recognise line with
  | none => simp [hline] at h
  | some found => exact ⟨found.1, found.2.1, found.2.2, rfl⟩

theorem exists_readLine_some {line : Line} {b64 : List Char} {kind : EventName}
    {data : List UInt8} (hline : recognise line = some (b64, kind, data))
    (hlength : kind.leastLength ≤ data.length) :
    ∃ event, readLine cfg notification line = .ok (some event) := by
  obtain ⟨payload, hpayload⟩ := exists_decodeEvent_iff.mpr hlength
  refine ⟨⟨kind, b64, notification.slot, notification.signature,
    cfg.agentBindings payload.agentSolanaPubkey, payload⟩, ?_⟩
  simp only [readLine, hline, hpayload, Outcome.ok_bind]
  rfl

end CredMesh.Bridge
