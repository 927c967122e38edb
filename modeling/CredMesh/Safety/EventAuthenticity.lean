import CredMesh.Bridge.ProgramLog
import CredMesh.Chain.Localnet

/-!
# Authenticity of forwarded events

The event tail looks at the text of a line and not at the program that wrote it. It forwards
exactly the escrow's advance events as long as no other program writes a data line that begins like
one of them. The exact condition also covers the lines on which the tail throws: a forged event
that is too short stops the loop, and does no harm only if no event of the escrow comes later.
-/

namespace CredMesh

open Bridge Escrow

/-- The line is a data line that the escrow wrote, with an event of the escrow in it. -/
def EmittedAt (log : List LogEntry) (i : ℕ) (event : Event) : Prop :=
  (ascribe [] log)[i]? = some (some ProgramIds.escrow, LogEntry.data [event.encode])

/-- The escrow writes data lines only by emitting an event. -/
def EscrowEmits (log : List LogEntry) : Prop :=
  ∀ (i : ℕ) (chunks : List (List UInt8)),
    (ascribe [] log)[i]? = some (some ProgramIds.escrow, LogEntry.data chunks) →
    ∃ event : Event, chunks = [event.encode]

/-- The notification of a successful transaction with the given log. -/
structure Reports (notification : Notification) (log : List LogEntry) : Prop where
  succeeded : notification.err = false
  lines : notification.logs = log.map LogEntry.render
  emits : EscrowEmits log

/-- A line outside the escrow that begins like an advance event, and the rest of its bytes. -/
def ForgedAt (log : List LogEntry) (i : ℕ) (kind : EventName) (data : List UInt8) : Prop :=
  ∃ program entry b64, (ascribe [] log)[i]? = some (program, entry) ∧
    program ≠ some ProgramIds.escrow ∧ recognise entry.render = some (b64, kind, data)

/-- A forged line too short for the event that it begins. -/
def JamsAt (log : List LogEntry) (i : ℕ) : Prop :=
  ∃ kind data, ForgedAt log i kind data ∧ data.length < kind.leastLength

section Tail

variable (cfg : EventTailConfig) (notification : Notification)

/-- The iteration over the line forwards the event. -/
def ForwardsAt (i : ℕ) (event : AdvanceEvent) : Prop :=
  (tailNotification cfg { notification with logs := notification.logs.take (i + 1) }).forwarded =
    (tailNotification cfg { notification with logs := notification.logs.take i }).forwarded ++
      [event]

instance (i : ℕ) (event : AdvanceEvent) : Decidable (ForwardsAt cfg notification i event) :=
  inferInstanceAs (Decidable (_ = _))

theorem tailLogs_snoc (lines : List Line) (line : Line) :
    tailLogs cfg notification (lines ++ [line]) =
      tailLine cfg notification (tailLogs cfg notification lines) line := by
  simp [tailLogs]

/-- The loop goes on as long as every line can be read. -/
theorem tailLogs_stopped (lines : List Line) :
    (tailLogs cfg notification lines).stopped = none ↔
      ∀ line ∈ lines, ∃ result, readLine cfg notification line = .ok result := by
  induction lines using List.reverseRecOn with
  | nil => simp [tailLogs]
  | append_singleton lines line ih =>
      rw [tailLogs_snoc, List.forall_mem_append, ← ih, List.forall_mem_singleton, tailLine]
      cases hstopped : (tailLogs cfg notification lines).stopped with
      | some error => simp [hstopped]
      | none =>
          cases hread : readLine cfg notification line with
          | error error => simp
          | ok result => cases result <;> simp [hstopped]

variable {cfg notification}

theorem forwardsAt_iff (herr : notification.err = false) {i : ℕ} {event : AdvanceEvent} :
    ForwardsAt cfg notification i event ↔
      (∀ line ∈ notification.logs.take i,
        ∃ result, readLine cfg notification line = .ok result) ∧
      ∃ line, notification.logs[i]? = some line ∧
        readLine cfg notification line = .ok (some event) := by
  have htail (lines : List Line) :
      tailNotification cfg { notification with logs := lines } =
        tailLogs cfg notification lines := by
    rw [tailNotification, if_neg (by simp [herr])]
    rfl
  rw [ForwardsAt, htail, htail, ← tailLogs_stopped, List.take_add_one]
  cases hline : notification.logs[i]? with
  | none => simp
  | some line =>
      rw [Option.toList_some, tailLogs_snoc, tailLine]
      cases hstopped : (tailLogs cfg notification (notification.logs.take i)).stopped with
      | some error => simp
      | none =>
          cases hread : readLine cfg notification line with
          | error error => simp [hread]
          | ok result => cases result <;> simp [hread]

end Tail

/-! ## Lines and programs -/

variable {log : List LogEntry} {cfg : EventTailConfig} {notification : Notification}

theorem exists_ascribed {i : ℕ} {entry : LogEntry} :
    log[i]? = some entry ↔ ∃ program, (ascribe [] log)[i]? = some (program, entry) := by
  have hlog := congrArg (fun entries ↦ entries[i]?) (ascribe_map_snd [] log)
  simp only [List.getElem?_map] at hlog
  rw [← hlog, Option.map_eq_some_iff]
  constructor
  · rintro ⟨⟨program, _⟩, hfound, rfl⟩
    exact ⟨program, hfound⟩
  · rintro ⟨program, hfound⟩
    exact ⟨(program, entry), hfound, rfl⟩

theorem recognise_render {entry : LogEntry} (h : ∀ chunks, entry ≠ .data chunks) :
    recognise entry.render = none := by
  rw [recognise, matchData_render h, Option.bind_none]

/-- Only a data line can be forged. -/
theorem not_forgedAt (hdata : ∀ (i : ℕ) program chunks,
    (ascribe [] log)[i]? = some (program, LogEntry.data chunks) →
      program = some ProgramIds.escrow)
    {i : ℕ} {kind : EventName} {data : List UInt8} : ¬ ForgedAt log i kind data := by
  rintro ⟨program, entry, b64, hentry, hforeign, hrecognised⟩
  have hother : ∀ chunks, entry ≠ .data chunks := by
    rintro chunks rfl
    exact hforeign (hdata i program chunks hentry)
  rw [recognise_render hother] at hrecognised
  cases hrecognised

/-- The lines that stop the tail are the forged ones that are too short. -/
theorem readable_iff (hemits : EscrowEmits log) {i : ℕ} {entry : LogEntry}
    (hentry : log[i]? = some entry) :
    (∃ result, readLine cfg notification entry.render = .ok result) ↔ ¬ JamsAt log i := by
  obtain ⟨program, hascribed⟩ := exists_ascribed.mp hentry
  constructor
  · rintro hread ⟨kind, data, ⟨_, _, b64, hother, -, hrecognised⟩, hshort⟩
    obtain ⟨rfl, rfl⟩ : _ ∧ entry = _ := by simpa [hascribed] using hother
    have hlong := (exists_readLine_iff cfg notification).mp hread b64 kind data hrecognised
    omega
  · intro hjam
    by_cases hescrow : program = some ProgramIds.escrow
    · subst hescrow
      by_cases hdata : ∃ chunks, entry = .data chunks
      · obtain ⟨chunks, rfl⟩ := hdata
        obtain ⟨event, rfl⟩ := hemits i chunks hascribed
        exact ⟨_, readLine_emitted cfg notification event⟩
      · have hnone := recognise_render fun chunks hchunks ↦ hdata ⟨chunks, hchunks⟩
        exact ⟨none, by rw [readLine, hnone]⟩
    · refine (exists_readLine_iff cfg notification).mpr fun b64 kind data hrecognised ↦ ?_
      by_contra hshort
      exact hjam ⟨kind, data, ⟨program, entry, b64, hascribed, hescrow, hrecognised⟩, by omega⟩

/-- A forged line is not one of the escrow. -/
theorem not_emittedAt_of_forgedAt {i : ℕ} {kind : EventName} {data : List UInt8} {event : Event}
    (h : ForgedAt log i kind data) : ¬ EmittedAt log i event := by
  obtain ⟨program, entry, -, hascribed, hforeign, -⟩ := h
  intro hemitted
  rw [EmittedAt, hascribed] at hemitted
  exact hforeign (congrArg Prod.fst (Option.some_inj.mp hemitted))

namespace Reports

variable (h : Reports notification log)

include h

/-- The tail gets past the first lines exactly if none of them jams it. -/
theorem reached_iff {i : ℕ} (hi : i ≤ log.length) :
    (∀ line ∈ notification.logs.take i, ∃ result, readLine cfg notification line = .ok result) ↔
      ∀ j < i, ¬ JamsAt log j := by
  rw [h.lines, ← List.map_take, List.forall_mem_map]
  constructor
  · intro hread j hj
    obtain ⟨entry, hentry⟩ : ∃ entry, log[j]? = some entry :=
      ⟨_, List.getElem?_eq_getElem (by omega)⟩
    refine (readable_iff h.emits hentry).mp (hread entry ?_)
    exact List.mem_of_getElem? (by rw [List.getElem?_take_of_lt hj, hentry])
  · intro hjam entry hentry
    obtain ⟨j, hj⟩ := List.mem_iff_getElem?.mp hentry
    rw [List.getElem?_take] at hj
    split at hj
    case isTrue hlt => exact (readable_iff h.emits hj).mpr (hjam j hlt)
    case isFalse => cases hj

/-- An iteration forwards what it reads in its line, if the loop gets there. -/
theorem forwardsAt_iff_line {i : ℕ} {forwarded : AdvanceEvent} :
    ForwardsAt cfg notification i forwarded ↔
      (∀ j < i, ¬ JamsAt log j) ∧ ∃ entry, log[i]? = some entry ∧
        readLine cfg notification entry.render = .ok (some forwarded) := by
  rw [forwardsAt_iff h.succeeded]
  constructor
  · rintro ⟨hreached, line, hline, hread⟩
    rw [h.lines, List.getElem?_map] at hline
    obtain ⟨entry, hentry, rfl⟩ := Option.map_eq_some_iff.mp hline
    have hlength := (List.getElem?_eq_some_iff.mp hentry).1.le
    exact ⟨(h.reached_iff hlength).mp hreached, entry, hentry, hread⟩
  · rintro ⟨hclear, entry, hentry, hread⟩
    have hlength := (List.getElem?_eq_some_iff.mp hentry).1.le
    refine ⟨(h.reached_iff hlength).mpr hclear, entry.render, ?_, hread⟩
    rw [h.lines, List.getElem?_map, hentry, Option.map_some]

theorem forwardsAt_of_emittedAt {i : ℕ} {event : Event} {forwarded : AdvanceEvent}
    (hclear : ∀ j < i, ¬ JamsAt log j) (hemitted : EmittedAt log i event)
    (hforwarded : advanceEventOf cfg notification event = some forwarded) :
    ForwardsAt cfg notification i forwarded := by
  have hentry := exists_ascribed.mpr ⟨_, hemitted⟩
  refine h.forwardsAt_iff_line.mpr ⟨hclear, _, hentry, ?_⟩
  rw [readLine_emitted, hforwarded]

theorem exists_forwardsAt_of_forgedAt {i : ℕ} {kind : EventName} {data : List UInt8}
    (hclear : ∀ j ≤ i, ¬ JamsAt log j) (hforged : ForgedAt log i kind data) :
    ∃ forwarded, ForwardsAt cfg notification i forwarded := by
  have hlong : kind.leastLength ≤ data.length := by
    by_contra hshort
    exact hclear i le_rfl ⟨kind, data, hforged, by omega⟩
  obtain ⟨program, entry, b64, hascribed, -, hrecognised⟩ := hforged
  have hentry := exists_ascribed.mpr ⟨program, hascribed⟩
  obtain ⟨forwarded, hread⟩ := exists_readLine_some cfg notification hrecognised hlong
  exact ⟨forwarded, h.forwardsAt_iff_line.mpr
    ⟨fun j hj ↦ hclear j hj.le, entry, hentry, hread⟩⟩

/-- What is forwarded is either an event of the escrow or a forged one. -/
theorem forwardsAt_cases {i : ℕ} {forwarded : AdvanceEvent}
    (hforwards : ForwardsAt cfg notification i forwarded) :
    (∀ j ≤ i, ¬ JamsAt log j) ∧
    ((∃ event, EmittedAt log i event ∧ advanceEventOf cfg notification event = some forwarded) ∨
      ∃ kind data, ForgedAt log i kind data) := by
  obtain ⟨hclear, entry, hentry, hread⟩ := h.forwardsAt_iff_line.mp hforwards
  have hhere := (readable_iff h.emits hentry).mp ⟨_, hread⟩
  refine ⟨fun j hj ↦ (Nat.lt_or_eq_of_le hj).elim (hclear j) (fun heq ↦ heq ▸ hhere), ?_⟩
  obtain ⟨program, hascribed⟩ := exists_ascribed.mp hentry
  obtain ⟨b64, kind, data, hrecognised⟩ := recognise_of_readLine cfg notification hread
  by_cases hescrow : program = some ProgramIds.escrow
  · subst hescrow
    obtain ⟨chunks, rfl⟩ : ∃ chunks, entry = .data chunks := by
      by_contra hother
      rw [recognise_render fun chunks hchunks ↦ hother ⟨chunks, hchunks⟩] at hrecognised
      cases hrecognised
    obtain ⟨event, rfl⟩ := h.emits i chunks hascribed
    rw [readLine_emitted] at hread
    exact .inl ⟨event, hascribed, Except.ok.inj hread⟩
  · exact .inr ⟨kind, data, program, entry, b64, hascribed, hescrow, hrecognised⟩

end Reports

theorem nameOf_eq_none_iff (cfg : EventTailConfig) (notification : Notification) (event : Event) :
    nameOf event = none ↔ advanceEventOf cfg notification event = none := by
  cases event <;> simp [nameOf, payloadOf, advanceEventOf]

/-! ## Exactly the escrow's events -/

namespace Localnet

/-- A tail that knows no agent. -/
def tailConfig : EventTailConfig := ⟨fun _ ↦ none⟩

/-- The advance account of the receivable `keyOf 1`. -/
def advanceAddress : Pubkey := (runtime.advancePda pool agent (keyOf 1)).1

def issuedEvent : Event :=
  .advanceIssued pool agent advanceAddress 100000000 2500000 (t₀ + 86400) bridge

/-- A settlement that never took place. -/
def forgedEvent : Event :=
  .advanceSettled pool agent advanceAddress 100000000 102125000 375000 0 0

/-- The log of the first request, behind a memo. -/
def requestLog : List LogEntry := [
  .invoke ProgramIds.memo 1,
  .success ProgramIds.memo,
  .invoke ProgramIds.escrow 1,
  .data [issuedEvent.encode],
  .success ProgramIds.escrow]

/-- A program of the intruder deposits into the pool and logs the forged event. -/
def forgedLog : List LogEntry := [
  .invoke (keyOf 66) 1,
  .invoke ProgramIds.escrow 2,
  .data [(Event.deposited pool (keyOf 66) 1000000 1000000000).encode],
  .success ProgramIds.escrow,
  .data [forgedEvent.encode],
  .success (keyOf 66)]

def notify (log : List LogEntry) : Notification where
  err := false
  signature := List.replicate 88 '1'
  slot := 1
  logs := log.map LogEntry.render

theorem reports_requestLog : Reports (notify requestLog) requestLog where
  succeeded := rfl
  lines := rfl
  emits i chunks hchunks := by
    have hmem := List.mem_of_getElem? hchunks
    simp only [requestLog, ascribe, LogEntry.after, List.mem_cons, Prod.mk.injEq, reduceCtorEq,
      and_false, LogEntry.data.injEq, false_or, or_false, List.not_mem_nil] at hmem
    exact ⟨issuedEvent, hmem.2⟩

theorem reports_forgedLog : Reports (notify forgedLog) forgedLog where
  succeeded := rfl
  lines := rfl
  emits i chunks hchunks := by
    have hforeign : ProgramIds.escrow ≠ keyOf 66 := by decide +kernel
    have hmem := List.mem_of_getElem? hchunks
    simp only [forgedLog, ascribe, LogEntry.after, List.mem_cons, Prod.mk.injEq, reduceCtorEq,
      and_false, LogEntry.data.injEq, false_or, or_false, List.not_mem_nil, List.head?_cons,
      List.tail_cons, Option.some_inj, hforeign, false_and] at hmem
    exact ⟨_, hmem.2⟩

end Localnet

end CredMesh
