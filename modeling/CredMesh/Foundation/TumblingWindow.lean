import Mathlib.Algebra.Order.BigOperators.Group.List
import Mathlib.Algebra.Order.Ring.Nat
import Mathlib.Data.Int.ConditionallyCompleteOrder
import Mathlib.Data.Rat.Floor
import Mathlib.Order.Interval.Set.Basic

/-!
# Counters over a tumbling window

A limiter that keeps one window, its start and what was counted since. An event more than a width
after the start opens a new window with nothing in it. What such a counter says about an interval
that straddles two windows depends on what the reset forgot: if every reset happens after a width
without events, the counter bounds the events of every interval of that width. Whatever is
forgotten, the starts of the windows are a width apart, so a capped counter bounds the events of a
long interval by one cap for each width of it and one more.
-/

namespace TumblingWindow

/-- The amounts of the events at times in a set. -/
def totalDuring (times : Set ℤ) [DecidablePred (· ∈ times)] (events : List (ℤ × ℕ)) : ℕ :=
  ((events.filter fun event ↦ event.1 ∈ times).map Prod.snd).sum

/-- The last times up to some time, one width of them. -/
def trailing (width t : ℤ) : Set ℤ := {time | t - width < time ∧ time ≤ t}

/-- The times that still matter to a window with the given start. -/
def recent (width start : ℤ) : Set ℤ := {time | start - width < time}

theorem mem_recent {width start time : ℤ} : time ∈ recent width start ↔ start - width < time :=
  Iff.rfl

instance (width t : ℤ) : DecidablePred (· ∈ trailing width t) :=
  fun time ↦ inferInstanceAs (Decidable (t - width < time ∧ time ≤ t))

instance (width start : ℤ) : DecidablePred (· ∈ recent width start) :=
  fun time ↦ inferInstanceAs (Decidable (start - width < time))

structure Window where
  start : ℤ
  count : ℕ

/-- The window in which an event is counted: the present one, or a new one. -/
def current (width now : ℤ) : Option Window → Window
  | none => ⟨now, 0⟩
  | some window => if width ≤ now - window.start then ⟨now, 0⟩ else window

def charge (width now : ℤ) (amount : ℕ) (window : Option Window) : Window :=
  { current width now window with count := (current width now window).count + amount }

/-- If the event resets the counter, nothing has happened for a whole width. -/
def ResetsClean (width : ℤ) (events : List (ℤ × ℕ)) (now : ℤ) : Option Window → Prop
  | none => True
  | some window => width ≤ now - window.start →
      totalDuring (trailing width now) events = 0

instance (width : ℤ) (events : List (ℤ × ℕ)) (now : ℤ) (window : Option Window) :
    Decidable (ResetsClean width events now window) :=
  match window with
  | none => inferInstanceAs (Decidable True)
  | some window => inferInstanceAs (Decidable (width ≤ now - window.start → _ = 0))

/-- The window was opened by one of the events and counts all those since one width before. -/
structure Counts (width : ℤ) (events : List (ℤ × ℕ)) (window : Window) : Prop where
  start : ∃ event ∈ events, event.1 = window.start
  count : totalDuring (recent width window.start) events ≤ window.count

/-- There is no counter as long as there are no events. -/
def Accounts (width : ℤ) (events : List (ℤ × ℕ)) : Option Window → Prop
  | none => events = []
  | some window => Counts width events window

section Totals

variable (times : Set ℤ) [DecidablePred (· ∈ times)] {events : List (ℤ × ℕ)} {now : ℤ}
  {amount : ℕ}

@[simp]
theorem totalDuring_nil : totalDuring times [] = 0 := rfl

theorem totalDuring_snoc :
    totalDuring times (events ++ [(now, amount)]) =
      totalDuring times events + if now ∈ times then amount else 0 := by
  by_cases hnow : now ∈ times <;> simp [totalDuring, List.filter_append, hnow]

variable {times}

/-- More events are counted in a larger set of times, as far as there are events in it. -/
theorem totalDuring_mono {larger : Set ℤ} [DecidablePred (· ∈ larger)]
    (h : ∀ event ∈ events, event.1 ∈ times → event.1 ∈ larger) :
    totalDuring times events ≤ totalDuring larger events := by
  have hsublist : (events.filter fun event ↦ event.1 ∈ times).Sublist
      (events.filter fun event ↦ event.1 ∈ larger) := by
    have hnarrow : (events.filter fun event ↦ event.1 ∈ times) =
        (events.filter fun event ↦ event.1 ∈ larger).filter fun event ↦ event.1 ∈ times := by
      rw [List.filter_filter]
      refine List.filter_congr fun event hevent ↦ ?_
      by_cases hin : event.1 ∈ times
      · simp [hin, h event hevent hin]
      · simp [hin]
    rw [hnarrow]
    exact List.filter_sublist
  exact (hsublist.map Prod.snd).sum_le_sum fun _ _ ↦ Nat.zero_le _

/-- Events outside a set of times count for nothing in it. -/
theorem totalDuring_eq_zero (h : ∀ event ∈ events, event.1 ∉ times) :
    totalDuring times events = 0 := by
  have hnone : (events.filter fun event ↦ event.1 ∈ times) = [] :=
    List.filter_eq_nil_iff.mpr fun event hevent ↦ by simpa using h event hevent
  rw [totalDuring, hnone]
  rfl

/-- An event at the present comes after the earlier ones. -/
theorem le_of_mem_snoc (hpast : ∀ event ∈ events, event.1 ≤ now) {event : ℤ × ℕ}
    (h : event ∈ events ++ [(now, amount)]) : event.1 ≤ now := by
  obtain hold | hnew := List.mem_append.mp h
  · exact hpast event hold
  · rw [List.mem_singleton.mp hnew]

end Totals

variable {width now : ℤ} {amount cap : ℕ} {events : List (ℤ × ℕ)} {window : Option Window}

/-- A charge keeps the account, if it comes after all earlier events and resets clean. -/
theorem Accounts.charge (h : Accounts width events window) (hwidth : 0 < width)
    (hpast : ∀ event ∈ events, event.1 ≤ now) (hclean : ResetsClean width events now window) :
    Counts width (events ++ [(now, amount)]) (charge width now amount window) := by
  have hlast : ∃ event ∈ events ++ [(now, amount)], event.1 = now := ⟨(now, amount), by simp, rfl⟩
  -- A new window counts this event only, so nothing earlier may still matter.
  have hfresh (hnothing : totalDuring (recent width now) events = 0) :
      Counts width (events ++ [(now, amount)]) ⟨now, 0 + amount⟩ := by
    refine ⟨hlast, ?_⟩
    dsimp only
    rw [totalDuring_snoc, hnothing, if_pos (mem_recent.mpr (by omega))]
  cases window with
  | none =>
      obtain rfl : events = [] := h
      exact hfresh (totalDuring_nil _)
  | some old =>
      obtain ⟨⟨first, hfirst, hstart⟩, hcount⟩ : Counts width events old := h
      simp only [TumblingWindow.charge, current]
      split
      case isTrue hreset =>
        refine hfresh (Nat.le_zero.mp ((totalDuring_mono fun event hevent hin ↦ ?_).trans_eq
          (hclean hreset)))
        exact ⟨hin, hpast event hevent⟩
      case isFalse hreset =>
        refine ⟨⟨first, List.mem_append_left _ hfirst, hstart⟩, ?_⟩
        rw [totalDuring_snoc]
        dsimp only
        split <;> omega

/-- After a charge that leaves the counter within the cap, so is every interval of one width. -/
theorem Counts.trailing_le {charged : Window}
    (h : Counts width (events ++ [(now, amount)]) charged)
    (hpast : ∀ event ∈ events, event.1 ≤ now) (hcap : charged.count ≤ cap)
    (hbefore : ∀ t, totalDuring (trailing width t) events ≤ cap) (t : ℤ) :
    totalDuring (trailing width t) (events ++ [(now, amount)]) ≤ cap := by
  by_cases hnow : now ≤ t
  · have hstart : charged.start ≤ now := by
      obtain ⟨first, hfirst, hstart⟩ := h.start
      rw [← hstart]
      exact le_of_mem_snoc hpast hfirst
    refine (totalDuring_mono fun event _ hin ↦ ?_).trans (h.count.trans hcap)
    have hlow : t - width < event.1 := hin.1
    exact mem_recent.mpr (by omega)
  · rw [totalDuring_snoc, if_neg fun hin ↦ hnow hin.2, add_zero]
    exact hbefore t

/-! ## Intervals of many windows -/

/-- How many widths cover a length. -/
def spans (width length : ℤ) : ℕ := ⌈(length : ℚ) / width⌉₊

section Spans

variable {width length : ℤ}

theorem spans_mono (hwidth : 0 < width) {shorter : ℤ} (h : shorter ≤ length) :
    spans width shorter ≤ spans width length := by
  apply Nat.ceil_mono
  apply div_le_div_of_nonneg_right
  · exact_mod_cast h
  · exact_mod_cast hwidth.le

theorem spans_pos (hwidth : 0 < width) (hlength : 0 < length) : 0 < spans width length := by
  apply Nat.ceil_pos.mpr
  apply div_pos
  · exact_mod_cast hlength
  · exact_mod_cast hwidth

theorem spans_add_width (hwidth : 0 < width) (hlength : 0 ≤ length) :
    spans width (length + width) = spans width length + 1 := by
  have hne : (width : ℚ) ≠ 0 := by exact_mod_cast hwidth.ne'
  have hsplit : ((length + width : ℤ) : ℚ) / width = length / width + 1 := by
    rw [Int.cast_add, add_div, div_self hne]
  rw [spans, hsplit]
  apply Nat.ceil_add_one
  apply div_nonneg
  · exact_mod_cast hlength
  · exact_mod_cast hwidth.le

end Spans

/-- The window counts exactly the events since its start. From any earlier time on there are no
more than that and one cap for each width up to the start. -/
structure Tallies (width : ℤ) (cap : ℕ) (events : List (ℤ × ℕ)) (window : Window) : Prop where
  start : ∃ event ∈ events, event.1 = window.start
  current : ∀ event ∈ events, event.1 < window.start + width
  count : window.count = totalDuring (Set.Ici window.start) events
  capped : window.count ≤ cap
  since : ∀ t ≤ window.start, totalDuring (Set.Ici t) events ≤
    window.count + spans width (window.start - t) * cap

def Tallied (width : ℤ) (cap : ℕ) (events : List (ℤ × ℕ)) : Option Window → Prop
  | none => events = []
  | some window => Tallies width cap events window

/-- A charge keeps the window or opens one at least a width later. -/
theorem charge_start (width now : ℤ) (amount : ℕ) (window : Window) :
    (charge width now amount (some window)).start = window.start ∨
      window.start + width ≤ (charge width now amount (some window)).start := by
  simp only [charge, current]
  split
  case isTrue h =>
    right
    dsimp only
    omega
  case isFalse => exact .inl rfl

/-- An event inside the window is counted in it. -/
theorem Tallies.keep {old : Window} (h : Tallies width cap events old)
    (hpast : ∀ event ∈ events, event.1 ≤ now) (hopen : now < old.start + width)
    (hcap : old.count + amount ≤ cap) :
    Tallies width cap (events ++ [(now, amount)]) ⟨old.start, old.count + amount⟩ := by
  obtain ⟨first, hfirst, hstart⟩ := h.start
  have hstarted : old.start ≤ now := hstart ▸ hpast first hfirst
  constructor
  case start => exact ⟨first, List.mem_append_left _ hfirst, hstart⟩
  case current =>
    intro event hevent
    obtain hevent | hevent := List.mem_append.mp hevent
    · exact h.current event hevent
    · rw [List.mem_singleton.mp hevent]
      exact hopen
  case count =>
    dsimp only
    rw [totalDuring_snoc, ← h.count, if_pos (Set.mem_Ici.mpr hstarted)]
  case capped => exact hcap
  case since =>
    intro t ht
    have hbefore := h.since t ht
    rw [totalDuring_snoc]
    dsimp only
    split <;> omega

/-- A width after the start of its window there are no events. -/
theorem Tallies.totalDuring_after {old : Window} (h : Tallies width cap events old) {t : ℤ}
    (ht : old.start + width ≤ t) : totalDuring (Set.Ici t) events = 0 := by
  apply totalDuring_eq_zero
  intro event hevent hin
  have hlate : t ≤ event.1 := hin
  have hearly := h.current event hevent
  omega

/-- Once the window is over, what it counted fits one more cap. -/
theorem Tallies.totalDuring_le {old : Window} (h : Tallies width cap events old)
    (hwidth : 0 < width) (hclosed : old.start + width ≤ now) {t : ℤ} (ht : t ≤ now) :
    totalDuring (Set.Ici t) events ≤ spans width (now - t) * cap := by
  by_cases hbefore : t ≤ old.start
  · calc
      totalDuring (Set.Ici t) events ≤ old.count + spans width (old.start - t) * cap :=
        h.since t hbefore
      _ ≤ (spans width (old.start - t) + 1) * cap := by
        have hcapped := h.capped
        rw [Nat.add_one_mul]
        omega
      _ = spans width (old.start - t + width) * cap := by
        rw [spans_add_width hwidth (by omega)]
      _ ≤ spans width (now - t) * cap :=
        Nat.mul_le_mul_right _ (spans_mono hwidth (by omega))
  · by_cases hafter : old.start + width ≤ t
    · rw [h.totalDuring_after hafter]
      exact Nat.zero_le _
    · calc
        totalDuring (Set.Ici t) events ≤ totalDuring (Set.Ici old.start) events :=
          totalDuring_mono fun event _ hin ↦ (not_le.mp hbefore).le.trans hin
        _ = old.count := h.count.symm
        _ ≤ cap := h.capped
        _ ≤ spans width (now - t) * cap :=
          Nat.le_mul_of_pos_left _ (spans_pos hwidth (by omega))

/-- An event after the window opens one that counts this event only. -/
theorem Tallies.reopen {old : Window} (h : Tallies width cap events old) (hwidth : 0 < width)
    (hclosed : old.start + width ≤ now) (hcap : amount ≤ cap) :
    Tallies width cap (events ++ [(now, amount)]) ⟨now, amount⟩ := by
  constructor
  case start => exact ⟨(now, amount), by simp, rfl⟩
  case current =>
    intro event hevent
    obtain hevent | hevent := List.mem_append.mp hevent
    · have hearly := h.current event hevent
      dsimp only
      omega
    · rw [List.mem_singleton.mp hevent]
      dsimp only
      omega
  case count =>
    dsimp only
    rw [totalDuring_snoc, h.totalDuring_after hclosed, zero_add, if_pos (Set.mem_Ici.mpr le_rfl)]
  case capped => exact hcap
  case since =>
    intro t ht
    have hbefore := h.totalDuring_le hwidth hclosed ht
    rw [totalDuring_snoc]
    dsimp only
    split <;> omega

/-- A charge within the cap keeps the tally, if it comes after all earlier events. -/
theorem Tallied.charge (h : Tallied width cap events window) (hwidth : 0 < width)
    (hpast : ∀ event ∈ events, event.1 ≤ now)
    (hcap : (charge width now amount window).count ≤ cap) :
    Tallies width cap (events ++ [(now, amount)]) (charge width now amount window) := by
  cases window with
  | none =>
      obtain rfl : events = [] := h
      simp only [TumblingWindow.charge, current, zero_add] at hcap ⊢
      constructor
      case start => exact ⟨(now, amount), by simp, rfl⟩
      case current => simpa using hwidth
      case count => simp [totalDuring]
      case capped => exact hcap
      case since =>
        intro t ht
        rw [totalDuring_snoc, totalDuring_nil]
        dsimp only
        split <;> omega
  | some old =>
      have htally : Tallies width cap events old := h
      simp only [TumblingWindow.charge, current] at hcap ⊢
      split at hcap
      case isTrue hreset =>
        rw [if_pos hreset]
        rw [zero_add] at hcap ⊢
        exact htally.reopen hwidth (by omega) hcap
      case isFalse hreset =>
        rw [if_neg hreset]
        exact htally.keep hpast (by omega) hcap

/-- After a charge, every interval holds at most one cap for each width of it and one more. -/
theorem Tallies.interval_le {charged : Window} {t length : ℤ}
    (h : Tallies width cap (events ++ [(now, amount)]) charged) (hwidth : 0 < width)
    (hpast : ∀ event ∈ events, event.1 ≤ now)
    (hbefore : totalDuring (Set.Ico t (t + length)) events ≤ (spans width length + 1) * cap) :
    totalDuring (Set.Ico t (t + length)) (events ++ [(now, amount)]) ≤
      (spans width length + 1) * cap := by
  by_cases hnow : now < t + length
  · obtain ⟨first, hfirst, hstart⟩ := h.start
    have hstarted : charged.start ≤ now := by
      rw [← hstart]
      exact le_of_mem_snoc hpast hfirst
    have hcapped := h.capped
    rw [Nat.add_one_mul]
    by_cases ht : t ≤ charged.start
    · calc
        totalDuring (Set.Ico t (t + length)) (events ++ [(now, amount)]) ≤
            totalDuring (Set.Ici t) (events ++ [(now, amount)]) :=
          totalDuring_mono fun _ _ hin ↦ hin.1
        _ ≤ charged.count + spans width (charged.start - t) * cap := h.since t ht
        _ ≤ charged.count + spans width length * cap := by
          apply Nat.add_le_add_left
          exact Nat.mul_le_mul_right _ (spans_mono hwidth (by omega))
        _ ≤ spans width length * cap + cap := by omega
    · calc
        totalDuring (Set.Ico t (t + length)) (events ++ [(now, amount)]) ≤
            totalDuring (Set.Ici charged.start) (events ++ [(now, amount)]) :=
          totalDuring_mono fun _ _ hin ↦ (not_le.mp ht).le.trans hin.1
        _ = charged.count := h.count.symm
        _ ≤ spans width length * cap + cap := by omega
  · rw [totalDuring_snoc, if_neg fun hin ↦ hnow hin.2, add_zero]
    exact hbefore

end TumblingWindow
