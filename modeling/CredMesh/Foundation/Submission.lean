import CredMesh.Foundation.Execution

/-!
# Submissions

Whoever sends inputs to a machine does not know which of them it will accept. A refused input
changes nothing, so whatever is sent, the machine ends where a run of some of it ends.
-/

namespace Execution

variable {σ ι ε : Type} {step : ι → σ → Except ε σ} {state : σ} {inputs : List ι}

def attempt (step : ι → σ → Except ε σ) (state : σ) (input : ι) : σ :=
  (step input state).toOption.getD state

def submit (step : ι → σ → Except ε σ) (state : σ) (inputs : List ι) : σ :=
  inputs.foldl (attempt step) state

theorem attempt_of_ok {input : ι} {next : σ} (h : step input state = .ok next) :
    attempt step state input = next := by
  rw [attempt, h]
  rfl

theorem attempt_cases (step : ι → σ → Except ε σ) (state : σ) (input : ι) :
    attempt step state input = state ∨ step input state = .ok (attempt step state input) := by
  cases h : step input state with
  | error error =>
      left
      rw [attempt, h]
      rfl
  | ok next =>
      right
      rw [attempt_of_ok h]

theorem submit_snoc (step : ι → σ → Except ε σ) (state : σ) (inputs : List ι) (input : ι) :
    submit step state (inputs ++ [input]) = attempt step (submit step state inputs) input := by
  rw [submit, List.foldl_append]
  rfl

/-- Induction along what is submitted: refused inputs change nothing, and accepted ones keep the
motive, which may rely on what is known of the inputs and of the states in between. -/
theorem submit_induction {motive : σ → Prop} (initial : motive state)
    (preserved : ∀ part input next, part ++ [input] <+: inputs →
      motive (submit step state part) → step input (submit step state part) = .ok next →
      motive next) :
    ∀ part, part <+: inputs → motive (submit step state part) := by
  intro part
  induction part using List.reverseRecOn with
  | nil => exact fun _ ↦ initial
  | append_singleton part input ih =>
      intro hpart
      have hbefore := ih ((List.prefix_append part [input]).trans hpart)
      rw [submit_snoc]
      obtain hrefused | haccepted := attempt_cases step (submit step state part) input
      · rw [hrefused]
        exact hbefore
      · exact preserved part input _ hpart hbefore haccepted

/-- What one input brings about, whenever it comes, and no other input undoes is there in the
end. -/
theorem submit_of_mem {motive : σ → Prop} (goal : σ → Prop) {input : ι} (hmem : input ∈ inputs)
    (invariant : ∀ part, part <+: inputs → motive (submit step state part))
    (attained : ∀ state, motive state → goal (attempt step state input))
    (kept : ∀ part other next, part ++ [other] <+: inputs → motive (submit step state part) →
      goal (submit step state part) → step other (submit step state part) = .ok next →
      goal next) :
    goal (submit step state inputs) := by
  obtain ⟨earlier, later, rfl⟩ := List.append_of_mem hmem
  rw [List.append_cons] at invariant kept ⊢
  induction later using List.reverseRecOn with
  | nil =>
      rw [List.append_nil, submit_snoc]
      exact attained _ (invariant earlier ((List.prefix_append _ _).trans (List.prefix_append _ _)))
  | append_singleton later other ih =>
      rw [← List.append_assoc] at invariant kept ⊢
      have hpart := List.prefix_append (earlier ++ [input] ++ later) [other]
      have hbefore := ih (by simp) (fun part h ↦ invariant part (h.trans hpart))
        fun part other next h ↦ kept part other next (h.trans hpart)
      rw [submit_snoc]
      obtain hrefused | haccepted :=
        attempt_cases step (submit step state (earlier ++ [input] ++ later)) other
      · rw [hrefused]
        exact hbefore
      · exact kept _ other _ List.prefix_rfl (invariant _ hpart) hbefore haccepted

end Execution
