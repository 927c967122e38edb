import CredMesh.Safety.IssuanceWindow

/-!
# The issuance rate

The ledger of an agent counts exactly what was issued to it since its window began, and its windows
begin at least a day apart. Under a constant cap an interval of any length then holds at most one
cap for every day of it, begun or whole, and one more for the window that it begins in.
-/

namespace CredMesh

open Escrow TumblingWindow

variable {rt : Runtime} {trace : List Input} {s : Chain} {p agent : Pubkey}

/-- The tally of the agent's counter, and what it implies for every interval. -/
structure Metered (p agent : Pubkey) (cap : ℕ) (trace : List Input) (s : Chain) : Prop where
  tallied : Tallied agentWindowSeconds.toInt cap (issuances p agent trace) (s.window p agent)
  intervals : ∀ t length : ℤ, 0 < length →
    totalDuring (Set.Ico t (t + length)) (issuances p agent trace) ≤
      (spans agentWindowSeconds.toInt length + 1) * cap

theorem Chain.step_metered {input : Input} {s' : Chain} {cap : UInt64} (hpositive : 0 < cap)
    (hrun : Chain.run rt trace = .ok s) (hstep : Chain.step rt input s = .ok s')
    (hclock : ∀ earlier ∈ trace, earlier.env.now ≤ input.env.now)
    (hcap : ∀ ps, s.pools.lookup p = some ps → ps.pool.agentWindowCap = cap)
    (hmetered : Metered p agent cap.toNat trace s) :
    Metered p agent cap.toNat (trace ++ [input]) s' := by
  have hday : 0 < agentWindowSeconds.toInt := by decide
  obtain ⟨hnone, hwindow⟩ | ⟨amount, ps, hissued, hp, hwindow, hcharged⟩ :=
    Chain.step_window hrun hstep p agent
  · have hissuances := issuances_snoc_none trace hnone
    constructor
    case tallied =>
      rw [hissuances, hwindow]
      exact hmetered.tallied
    case intervals =>
      rw [hissuances]
      exact hmetered.intervals
  · have hissuances := issuances_snoc_some trace hissued
    have hpast := issuances_past p agent hclock
    rw [hcap ps hp] at hcharged
    have htally : Tallies agentWindowSeconds.toInt cap.toNat
        (issuances p agent trace ++ [(input.env.now.toInt, amount.toNat)])
        (charge agentWindowSeconds.toInt input.env.now.toInt amount.toNat (s.window p agent)) :=
      hmetered.tallied.charge hday hpast (hcharged hpositive)
    constructor
    case tallied =>
      rw [hissuances, hwindow]
      exact htally
    case intervals =>
      intro t length hlength
      rw [hissuances]
      exact htally.interval_le hday hpast (hmetered.intervals t length hlength)

theorem Chain.run_metered {cap : UInt64} (hpositive : 0 < cap)
    (hclock : trace.Pairwise fun earlier later ↦ earlier.env.now ≤ later.env.now)
    (hcap : ∀ part state ps, part <+: trace → Chain.run rt part = .ok state →
      state.pools.lookup p = some ps → ps.pool.agentWindowCap = cap) :
    ∀ part state, part <+: trace → Chain.run rt part = .ok state →
      Metered p agent cap.toNat part state := by
  apply Execution.prefix_induction
  · exact ⟨rfl, fun _ _ _ ↦ Nat.zero_le _⟩
  · intro part input state next hpart hstate hbefore hstep
    have hordered := (List.pairwise_append.mp (hclock.sublist hpart.sublist)).2.2
    have hinitial : part <+: trace := (List.prefix_append part [input]).trans hpart
    exact Chain.step_metered hpositive hstate hstep
      (fun earlier hearlier ↦ hordered earlier hearlier input (by simp))
      (fun ps ↦ hcap part state ps hinitial hstate) hbefore

/-- An agent's counter is never dropped, and its window is kept or begins at least a day later. -/
theorem Chain.window_apart {part : List Input} {state : Chain} {window : Window}
    (hrun : Chain.run rt trace = .ok s) (hpart : part <+: trace)
    (hstate : Chain.run rt part = .ok state) (hwindow : state.window p agent = some window) :
    ∃ later, s.window p agent = some later ∧ (later.start = window.start ∨
      window.start + agentWindowSeconds.toInt ≤ later.start) := by
  refine Execution.run_induction (motive := fun trace s ↦ ∀ part state, part <+: trace →
    Chain.run rt part = .ok state → state.window p agent = some window →
    ∃ later, s.window p agent = some later ∧ (later.start = window.start ∨
      window.start + agentWindowSeconds.toInt ≤ later.start)) ?_ ?_ hrun part state hpart hstate
      hwindow
  · intro part state hpart hstate hwindow
    obtain rfl : part = [] := List.prefix_nil.mp hpart
    obtain rfl : genesis = state := by simpa [Chain.run] using hstate
    exact ⟨window, hwindow, .inl rfl⟩
  · intro trace s input s' hrun ih hstep part state hpart hstate hwindow
    obtain rfl | hearlier := List.prefix_concat_iff.mp hpart
    · have hsame : Chain.run rt (trace ++ [input]) = .ok s' :=
        Execution.run_snoc.mpr ⟨s, hrun, hstep⟩
      obtain rfl : state = s' := Except.ok.inj (hstate.symm.trans hsame)
      exact ⟨window, hwindow, .inl rfl⟩
    · obtain ⟨middle, hmiddle, hapart⟩ := ih part state hearlier hstate hwindow
      obtain ⟨-, hkept⟩ | ⟨amount, -, -, -, hcharged, -⟩ := Chain.step_window hrun hstep p agent
      · exact ⟨middle, hkept.trans hmiddle, hapart⟩
      · rw [hmiddle] at hcharged
        have hday : 0 ≤ agentWindowSeconds.toInt := by decide
        have hstart := charge_start agentWindowSeconds.toInt input.env.now.toInt amount.toNat middle
        exact ⟨_, hcharged, by omega⟩

/-- The counter is read off the ledger. -/
theorem Chain.window_of_ledger {ps : PoolState} {ledger : AgentIssuanceLedger}
    (hp : s.pools.lookup p = some ps) (hledger : ps.ledgers.lookup agent = some ledger) :
    s.window p agent = some ledger.window := by
  simp [Chain.window, PoolState.window, hp, hledger]

/-- In every run under a constant cap and a clock that does not go back, each ledger counts exactly
the principal issued since its window began, its windows begin at least a day apart, and an interval
of any length holds at most one cap for each day of it and one more. -/
theorem issuance_rate_bounded {cap : UInt64} (hrun : Chain.run rt trace = .ok s)
    (hclock : trace.Pairwise fun earlier later ↦ earlier.env.now ≤ later.env.now)
    (hpositive : 0 < cap)
    (hcap : ∀ part state ps, part <+: trace → Chain.run rt part = .ok state →
      state.pools.lookup p = some ps → ps.pool.agentWindowCap = cap) :
    (∀ part state ps ledger, part <+: trace → Chain.run rt part = .ok state →
      state.pools.lookup p = some ps → ps.ledgers.lookup agent = some ledger →
      ledger.issuedInWindow.toNat =
        totalDuring (Set.Ici ledger.windowStart.toInt) (issuances p agent part) ∧
      ∀ longer state' ps' later, part <+: longer → longer <+: trace →
        Chain.run rt longer = .ok state' → state'.pools.lookup p = some ps' →
        ps'.ledgers.lookup agent = some later →
        later.windowStart.toInt = ledger.windowStart.toInt ∨
        ledger.windowStart.toInt + agentWindowSeconds.toInt ≤ later.windowStart.toInt) ∧
    ∀ t length : ℤ, 0 < length →
      totalDuring (Set.Ico t (t + length)) (issuances p agent trace) ≤
        (spans agentWindowSeconds.toInt length + 1) * cap.toNat ∧
      totalDuring (Set.Ioc t (t + length)) (issuances p agent trace) ≤
        (spans agentWindowSeconds.toInt length + 1) * cap.toNat := by
  have hmetered : ∀ part state, part <+: trace → Chain.run rt part = .ok state →
      Metered p agent cap.toNat part state := Chain.run_metered hpositive hclock hcap
  constructor
  · intro part state ps ledger hpart hstate hp hledger
    have hwindow := Chain.window_of_ledger hp hledger
    constructor
    · have htallied := (hmetered part state hpart hstate).tallied
      rw [hwindow] at htallied
      exact Tallies.count htallied
    · intro longer state' ps' later hlonger _ hstate' hp' hlater
      obtain ⟨found, hfound, hapart⟩ := Chain.window_apart hstate' hlonger hstate hwindow
      rw [Chain.window_of_ledger hp' hlater] at hfound
      obtain rfl : later.window = found := Option.some.inj hfound
      exact hapart
  · intro t length hlength
    have hbound := (hmetered trace s (List.prefix_refl trace) hrun).intervals
    refine ⟨hbound t length hlength, ?_⟩
    calc
      totalDuring (Set.Ioc t (t + length)) (issuances p agent trace) ≤
          totalDuring (Set.Ico (t + 1) (t + 1 + length)) (issuances p agent trace) := by
        apply totalDuring_mono
        intro event _ hin
        have hafter : t < event.1 := hin.1
        have huntil : event.1 ≤ t + length := hin.2
        exact ⟨by omega, by omega⟩
      _ ≤ _ := hbound (t + 1) length hlength

/-- With a cap of 150 USDC the 290 drawn in two seconds fit the bound, and the counter that was
reset between them tells of the last 150. -/
theorem issuance_rate_bounded_straddling : ∃ s ps ledger,
    Chain.run Localnet.runtime Localnet.straddling = .ok s ∧
    s.pools.lookup Localnet.pool = some ps ∧ ps.ledgers.lookup Localnet.agent = some ledger ∧
    ledger.issuedInWindow = 150000000 ∧
    totalDuring (Set.Ici ledger.windowStart.toInt)
      (issuances Localnet.pool Localnet.agent Localnet.straddling) = 150000000 ∧
    totalDuring (Set.Ico (Localnet.t₀.toInt + 86399) (Localnet.t₀.toInt + 86399 + 2))
      (issuances Localnet.pool Localnet.agent Localnet.straddling) = 290000000 ∧
    totalDuring (Set.Ico (Localnet.t₀.toInt + 86399) (Localnet.t₀.toInt + 86399 + 2))
      (issuances Localnet.pool Localnet.agent Localnet.straddling) ≤
        (spans agentWindowSeconds.toInt 2 + 1) * 150000000 := by
  obtain ⟨s, ps, hrun, hp, htest⟩ := Localnet.reaches_iff.mp
    (show Localnet.reaches Localnet.straddling (fun _ ps ↦
      (ps.ledgers.lookup Localnet.agent).any fun ledger ↦
        ledger.issuedInWindow = 150000000) = true by decide +kernel)
  obtain ⟨ledger, hledger, hissued⟩ := (Option.any_eq_true _ _).mp htest
  have hcap : Localnet.everyState Localnet.straddling
      (fun ps ↦ ps.pool.agentWindowCap = 150000000) = true := by decide +kernel
  obtain ⟨hexact, hrate⟩ := issuance_rate_bounded hrun (by decide +kernel)
    (show (0 : UInt64) < 150000000 by decide) (fun part state ps hpart hstate hp ↦
      of_decide_eq_true (Localnet.everyState_spec hcap hpart hstate hp))
  have hissued' := of_decide_eq_true hissued
  obtain ⟨hcount, -⟩ := hexact _ s ps ledger (List.prefix_refl _) hrun hp hledger
  rw [hissued'] at hcount
  exact ⟨s, ps, ledger, hrun, hp, hledger, hissued', hcount.symm, by decide +kernel,
    (hrate _ 2 (by decide)).1⟩

end CredMesh
