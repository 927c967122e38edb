import Mathlib.Data.List.ReduceOption
import CredMesh.Safety.EventAuthenticity

/-!
# What the event tail survives

Reading a number past the end of an event throws, nothing in the loop catches it, and the handler
of `main` ends the bridge. A log gets through the tail exactly if each of its data lines that begins
like an advance event is long enough for the numbers in it.
-/

namespace CredMesh.Bridge

/-- The line does not begin like an event that it is too short for. -/
def LongEnough (line : Line) : Prop :=
  ∀ b64 kind data, recognise line = some (b64, kind, data) → kind.leastLength ≤ data.length

instance (line : Line) : Decidable (LongEnough line) :=
  match h : recognise line with
  | none => .isTrue (by simp [LongEnough, h])
  | some (_, kind, data) =>
      decidable_of_iff (kind.leastLength ≤ data.length) (by simp [LongEnough, h])

/-- The lines that the tail looks at. -/
def Notification.read (notification : Notification) : List Line :=
  if notification.err then [] else notification.logs

/-- Every line is processed and yields one event or is skipped. -/
structure Completes (cfg : EventTailConfig) (notification : Notification) : Prop where
  running : (tailNotification cfg notification).stopped = none
  results : ∃ results : List (Option AdvanceEvent),
    notification.read.map (readLine cfg notification) = results.map .ok ∧
    (tailNotification cfg notification).forwarded = results.reduceOption

section Notification

variable (cfg : EventTailConfig) (notification : Notification)

theorem tailNotification_eq :
    tailNotification cfg notification = tailLogs cfg notification notification.read := by
  unfold tailNotification Notification.read
  split <;> rfl

/-- A line that can be read adds its event to those forwarded. -/
theorem tailLine_of_ok {state : Tailed} {line : Line} {result : Option AdvanceEvent}
    (hrunning : state.stopped = none) (hread : readLine cfg notification line = .ok result) :
    tailLine cfg notification state line = ⟨state.forwarded ++ result.toList, none⟩ := by
  obtain ⟨forwarded, stopped⟩ := state
  obtain rfl : stopped = none := hrunning
  rw [tailLine, hread]
  cases result with
  | none => rw [Option.toList_none, List.append_nil]
  | some event => rfl

/-- As long as all lines can be read, their events are forwarded in order. -/
theorem tailLogs_of_ok {lines : List Line} {results : List (Option AdvanceEvent)}
    (hread : lines.map (readLine cfg notification) = results.map .ok) :
    tailLogs cfg notification lines = ⟨results.reduceOption, none⟩ := by
  induction lines using List.reverseRecOn generalizing results with
  | nil =>
      obtain rfl : results = [] := by simpa [eq_comm] using hread
      rfl
  | append_singleton lines line ih =>
      rw [List.map_append, List.map_singleton] at hread
      obtain ⟨before, last, rfl, hbefore, hlast⟩ := List.map_eq_append_iff.mp hread.symm
      obtain ⟨result, rfl, hresult⟩ := List.map_eq_singleton_iff.mp hlast
      rw [tailLogs_snoc, ih hbefore.symm, tailLine_of_ok cfg notification rfl hresult.symm,
        List.reduceOption_append]
      rfl

theorem completes_iff :
    Completes cfg notification ↔ ∀ line ∈ notification.read, LongEnough line := by
  have hlines : (∀ line ∈ notification.read,
      ∃ result, readLine cfg notification line = .ok result) ↔
        ∀ line ∈ notification.read, LongEnough line := by
    refine forall₂_congr fun line _ ↦ ?_
    exact exists_readLine_iff cfg notification
  constructor
  · intro h
    rw [← hlines, ← tailLogs_stopped, ← tailNotification_eq]
    exact h.running
  · intro hlong
    obtain ⟨results, hresults⟩ : ∃ results : List (Option AdvanceEvent),
        notification.read.map (readLine cfg notification) = results.map .ok := by
      have hread := hlines.mpr hlong
      generalize notification.read = lines at hread
      induction lines with
      | nil => exact ⟨[], rfl⟩
      | cons line lines ih =>
          obtain ⟨⟨result, hresult⟩, hrest⟩ := List.forall_mem_cons.mp hread
          obtain ⟨results, hresults⟩ := ih hrest
          exact ⟨result :: results, by rw [List.map_cons, List.map_cons, hresult, hresults]⟩
    have htail := tailNotification_eq cfg notification
    rw [tailLogs_of_ok cfg notification hresults] at htail
    exact ⟨congrArg Tailed.stopped htail, results, hresults, congrArg Tailed.forwarded htail⟩

end Notification

/-- The tail runs on exactly if it gets through every notification. -/
theorem startEventTail_stopped (cfg : EventTailConfig) (notifications : List Notification) :
    (startEventTail cfg notifications).stopped = none ↔
      ∀ notification ∈ notifications, (tailNotification cfg notification).stopped = none := by
  induction notifications using List.reverseRecOn with
  | nil => simp [startEventTail]
  | append_singleton notifications notification ih =>
      have hsnoc : startEventTail cfg (notifications ++ [notification]) =
          tailNext cfg (startEventTail cfg notifications) notification := by
        simp [startEventTail]
      rw [hsnoc, List.forall_mem_append, List.forall_mem_singleton, ← ih, tailNext]
      cases hstopped : (startEventTail cfg notifications).stopped with
      | some error => simp [hstopped]
      | none => simp

/-- The tail gets through a notification, line by line and without an error, exactly if each line of
it that begins like an advance event is long enough for one; and the bridge stays up exactly if this
is so for all the notifications it receives. -/
theorem event_tail_survives_iff (cfg : EventTailConfig) :
    (∀ notification, Completes cfg notification ↔
      ∀ line ∈ notification.read, LongEnough line) ∧
    ∀ notifications, exitCode (startEventTail cfg notifications) = none ↔
      ∀ notification ∈ notifications, ∀ line ∈ notification.read, LongEnough line := by
  refine ⟨completes_iff cfg, fun notifications ↦ ?_⟩
  rw [exitCode, Option.map_eq_none_iff, startEventTail_stopped]
  refine forall₂_congr fun notification _ ↦ ?_
  rw [← completes_iff cfg]
  constructor
  · intro hrunning
    refine (completes_iff cfg notification).mpr fun line hline ↦ ?_
    rw [tailNotification_eq, tailLogs_stopped] at hrunning
    exact (exists_readLine_iff cfg notification).mp (hrunning line hline)
  · exact Completes.running

/-- A notification of a successful transaction that logged one data line: the discriminator of
`AdvanceIssued` and nothing else. -/
def bareDiscriminator : Notification where
  err := false
  signature := List.replicate 88 '1'
  slot := 1
  logs := ["Program data: 2RdE8pxsTnE=".toList]

/-- The line ends the tail, and the bridge exits with code 2. -/
theorem bare_discriminator_ends_bridge :
    ¬ Completes Localnet.tailConfig bareDiscriminator ∧
    exitCode (startEventTail Localnet.tailConfig [bareDiscriminator]) = some 2 := by
  have hstopped : (tailNotification Localnet.tailConfig bareDiscriminator).stopped =
      some .rangeError := by decide +kernel
  refine ⟨fun h ↦ ?_, ?_⟩
  · rw [h.running] at hstopped
    cases hstopped
  · exact congrArg (Option.map fun _ ↦ 2) hstopped

end CredMesh.Bridge
