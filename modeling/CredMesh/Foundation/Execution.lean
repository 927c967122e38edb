import Mathlib.Data.List.Induction
import CredMesh.Foundation.Outcome

/-!
# Runs of a fallible machine

A machine is a step function that may refuse an input. A run is a list of inputs, all of them
accepted. Refused inputs leave no trace, so a run records exactly what happened. Properties of
runs are proved from the rules `run_induction` and `prefix_induction`: they hold initially and
each accepted input keeps them, where the property may speak about the inputs accepted so far.
-/

namespace Execution

variable {σ ι ε : Type} {step : ι → σ → Except ε σ} {start : σ}

/-- The state after feeding a list of inputs, if none of them is refused. -/
def run (step : ι → σ → Except ε σ) (start : σ) (inputs : List ι) : Except ε σ :=
  inputs.foldlM (fun state input ↦ step input state) start

@[simp]
theorem run_nil : run step start [] = .ok start := rfl

theorem run_append {first second : List ι} {final : σ} :
    run step start (first ++ second) = .ok final ↔
      ∃ middle, run step start first = .ok middle ∧ run step middle second = .ok final := by
  rw [run, List.foldlM_append, Outcome.bind_eq_ok]
  rfl

theorem run_singleton {input : ι} {final : σ} :
    run step start [input] = .ok final ↔ step input start = .ok final := by
  simp only [run, List.foldlM_cons, List.foldlM_nil, Outcome.bind_eq_ok, Outcome.pure_eq_ok,
    exists_eq_right]

/-- A run that begins with an input goes on from the state that the input leads to. -/
theorem run_cons {input : ι} {inputs : List ι} {final : σ} :
    run step start (input :: inputs) = .ok final ↔
      ∃ next, step input start = .ok next ∧ run step next inputs = .ok final := by
  simp only [run, List.foldlM_cons, Outcome.bind_eq_ok]

/-- A run that ends with an input reaches the state on which that input was accepted. -/
theorem run_snoc {inputs : List ι} {input : ι} {final : σ} :
    run step start (inputs ++ [input]) = .ok final ↔
      ∃ middle, run step start inputs = .ok middle ∧ step input middle = .ok final := by
  simp only [run_append, run_singleton]

/-- Two ways to feed the same data, of which the second is accepted wherever the first is. -/
theorem run_map_of_step {α : Type} {first second : α → ι} {final : σ}
    (haccepted : ∀ a state next, step (first a) state = .ok next → step (second a) state = .ok next)
    {data : List α} (hrun : run step start (data.map first) = .ok final) :
    run step start (data.map second) = .ok final := by
  induction data generalizing start with
  | nil => exact hrun
  | cons a data ih =>
      obtain ⟨next, hstep, hrest⟩ := run_cons.mp hrun
      exact run_cons.mpr ⟨next, haccepted a start next hstep, ih hrest⟩

/-- Every initial part of a run is a run. -/
theorem run_of_isPrefix {inputs initial : List ι} {final : σ} (hinitial : initial <+: inputs)
    (hrun : run step start inputs = .ok final) :
    ∃ state, run step start initial = .ok state := by
  obtain ⟨rest, rfl⟩ := hinitial
  obtain ⟨middle, hmiddle, -⟩ := run_append.mp hrun
  exact ⟨middle, hmiddle⟩

/-- Every input of a run was accepted, on the state before it. -/
theorem exists_step {inputs part : List ι} {input : ι} {final : σ}
    (hpart : part ++ [input] <+: inputs) (hrun : run step start inputs = .ok final) :
    ∃ state next, run step start part = .ok state ∧ step input state = .ok next ∧
      run step start (part ++ [input]) = .ok next := by
  obtain ⟨next, hnext⟩ := run_of_isPrefix hpart hrun
  obtain ⟨state, hstate, hstep⟩ := run_snoc.mp hnext
  exact ⟨state, next, hstate, hstep, hnext⟩

/-- The state before an input of a run accepts it. -/
theorem step_of_isPrefix {inputs part : List ι} {input : ι} {state final : σ}
    (hpart : part ++ [input] <+: inputs) (hrun : run step start inputs = .ok final)
    (hstate : run step start part = .ok state) :
    ∃ next, run step start (part ++ [input]) = .ok next ∧ step input state = .ok next := by
  obtain ⟨middle, next, hmiddle, hstep, hnext⟩ := exists_step hpart hrun
  obtain rfl : middle = state := by simpa [hmiddle] using hstate
  exact ⟨next, hnext, hstep⟩

/-- Induction along the initial parts of a list of inputs: each step may use what is known of the
inputs up to it. -/
theorem prefix_induction {motive : List ι → σ → Prop} {inputs : List ι}
    (initial : motive [] start)
    (preserved : ∀ part input state next, part ++ [input] <+: inputs →
      run step start part = .ok state → motive part state → step input state = .ok next →
      motive (part ++ [input]) next) :
    ∀ part state, part <+: inputs → run step start part = .ok state → motive part state := by
  intro part
  induction part using List.reverseRecOn with
  | nil =>
      intro state _ hstate
      obtain rfl : start = state := by simpa using hstate
      exact initial
  | append_singleton part input ih =>
      intro state hpart hstate
      obtain ⟨middle, hmiddle, hstep⟩ := run_snoc.mp hstate
      have hbefore := ih middle ((List.prefix_append part [input]).trans hpart) hmiddle
      exact preserved part input middle state hpart hmiddle hbefore hstep

/-- Induction over runs, for a property of the inputs accepted so far and the state reached. -/
theorem run_induction {motive : List ι → σ → Prop} (initial : motive [] start)
    (preserved : ∀ inputs state input next, run step start inputs = .ok state →
      motive inputs state → step input state = .ok next → motive (inputs ++ [input]) next)
    {inputs : List ι} {final : σ} (hrun : run step start inputs = .ok final) :
    motive inputs final :=
  prefix_induction initial
    (fun part input state next _ hstate h hstep ↦ preserved part state input next hstate h hstep)
    inputs final (List.prefix_refl inputs) hrun

/-- A state property that each accepted input keeps holds at the end of every run. -/
theorem run_invariant {motive : σ → Prop} (initial : motive start)
    (preserved : ∀ state input next, motive state → step input state = .ok next → motive next)
    {inputs : List ι} {final : σ} (hrun : run step start inputs = .ok final) :
    motive final :=
  run_induction (motive := fun _ state ↦ motive state) initial
    (fun _ state input next _ h hstep ↦ preserved state input next h hstep) hrun

/-- What holds at some point of a run and is kept by each accepted input holds from then on. -/
theorem invariant_of_isPrefix {motive : σ → Prop} {inputs part : List ι} {state final : σ}
    (hpart : part <+: inputs) (hrun : run step start inputs = .ok final)
    (hstate : run step start part = .ok state) (h : motive state)
    (preserved : ∀ state input next, motive state → step input state = .ok next → motive next) :
    motive final := by
  obtain ⟨rest, rfl⟩ := hpart
  obtain ⟨middle, hmiddle, hrest⟩ := run_append.mp hrun
  obtain rfl : middle = state := by simpa [hmiddle] using hstate
  exact run_invariant h preserved hrest

/-- If each step keeps a property exactly when it meets a condition, then the property holds all
along a run exactly when every step of it meets the condition. -/
theorem forall_states_iff (property : σ → Prop) (condition : σ → ι → Prop)
    (initial : property start)
    (exact_step : ∀ inputs state input next, run step start inputs = .ok state →
      property state → step input state = .ok next → (property next ↔ condition state input))
    {inputs : List ι} {final : σ} (hrun : run step start inputs = .ok final) :
    (∀ part state, part <+: inputs → run step start part = .ok state → property state) ↔
      ∀ part input state, part ++ [input] <+: inputs → run step start part = .ok state →
        condition state input := by
  constructor
  · intro hproperty part input state hpart hstate
    obtain ⟨next, hnext, hstep⟩ := step_of_isPrefix hpart hrun hstate
    have hbefore := hproperty part state ((List.prefix_append part [input]).trans hpart) hstate
    exact (exact_step part state input next hstate hbefore hstep).mp
      (hproperty (part ++ [input]) next hpart hnext)
  · intro hcondition
    refine prefix_induction initial fun part input state next hpart hstate hbefore hstep ↦ ?_
    exact (exact_step part state input next hstate hbefore hstep).mpr
      (hcondition part input state hpart hstate)

end Execution
