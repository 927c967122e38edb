import CredMesh.Foundation.Execution
import CredMesh.Foundation.History

/-!
# Parts of a run

Some inputs of a machine may be of no consequence to what one looks at. If those that are kept lead
related states to related ones, and the others leave a state related to where it was, then the run
without the others is accepted as well and ends in a state that is related to the end of the whole.
Where the inputs that matter are seen as moves of another machine, a run is a run of that machine.
-/

namespace Execution

variable {ι σ ε : Type} {step : ι → σ → Except ε σ}

section Filter

variable (keep : ι → Bool) (related : σ → σ → Prop)

/-- A run is simulated by the part of it that is kept. -/
theorem run_filter {inputs : List ι} {state final other : σ}
    (kept : ∀ input ∈ inputs, keep input = true → ∀ state next other, related state other →
      step input state = .ok next → ∃ next', step input other = .ok next' ∧ related next next')
    (dropped : ∀ input ∈ inputs, keep input = false → ∀ state next other, related state other →
      step input state = .ok next → related next other)
    (hrelated : related state other) (hrun : run step state inputs = .ok final) :
    ∃ final', run step other (inputs.filter keep) = .ok final' ∧ related final final' := by
  induction inputs generalizing state other with
  | nil =>
      obtain rfl : state = final := Except.ok.inj hrun
      exact ⟨other, run_nil, hrelated⟩
  | cons input inputs ih =>
      obtain ⟨next, hstep, hrest⟩ := run_cons.mp hrun
      obtain ⟨hkept, hkepts⟩ := List.forall_mem_cons.mp kept
      obtain ⟨hdropped, hdroppeds⟩ := List.forall_mem_cons.mp dropped
      cases hkeep : keep input with
      | true =>
          obtain ⟨next', hstep', hnext⟩ := hkept hkeep state next other hrelated hstep
          obtain ⟨final', hfinal, hrelated'⟩ := ih hkepts hdroppeds hnext hrest
          rw [List.filter_cons_of_pos hkeep]
          exact ⟨final', run_cons.mpr ⟨next', hstep', hfinal⟩, hrelated'⟩
      | false =>
          have hnext := hdropped hkeep state next other hrelated hstep
          rw [List.filter_cons_of_neg (by rw [hkeep]; exact Bool.false_ne_true)]
          exact ih hkepts hdroppeds hnext hrest

end Filter

section Observed

variable {κ τ δ : Type} {move : κ → τ → Except δ τ} {observe : ι → Option κ} {view : σ → τ}

/-- What is seen of a step is a move of the other machine, or nothing at all. -/
def SeenAs (move : κ → τ → Except δ τ) (before after : τ) : Option κ → Prop
  | none => after = before
  | some seen => move seen before = .ok after

/-- A run is a run of the machine as which its steps are seen. -/
theorem run_observed {start final : σ} {inputs : List ι}
    (hstep : ∀ input state next, step input state = .ok next →
      SeenAs move (view state) (view next) (observe input))
    (hrun : run step start inputs = .ok final) :
    run move (view start) (inputs.filterMap observe) = .ok (view final) := by
  refine run_induction (motive := fun inputs state ↦
    run move (view start) (inputs.filterMap observe) = .ok (view state)) run_nil ?_ hrun
  intro inputs state input next _ ih hnext
  have hseen := hstep input state next hnext
  rw [List.filterMap_append]
  cases hobserve : observe input with
  | none =>
      rw [hobserve] at hseen
      have hsame : view next = view state := hseen
      rw [List.filterMap_cons_none hobserve, List.filterMap_nil, List.append_nil, hsame]
      exact ih
  | some seen =>
      rw [hobserve] at hseen
      rw [List.filterMap_cons_some hobserve, List.filterMap_nil]
      exact run_snoc.mpr ⟨view state, ih, hseen⟩

/-- The last input that is seen is the last move. -/
theorem LastOf.filterMap {inputs earlier : List ι} {input : ι} {seen : κ}
    (h : LastOf (fun input ↦ (observe input).isSome) inputs earlier input)
    (hseen : observe input = some seen) :
    inputs.filterMap observe = earlier.filterMap observe ++ [seen] := by
  obtain ⟨middle, rfl, hmiddle⟩ := h.since
  have hnothing : middle.filterMap observe = [] := by
    apply List.filterMap_eq_nil_iff.mpr
    intro other hother
    exact Option.not_isSome_iff_eq_none.mp (hmiddle other hother)
  rw [List.filterMap_append, List.filterMap_append, hnothing, List.append_nil,
    List.filterMap_cons_some hseen, List.filterMap_nil]

/-- The last move is what is seen of the last input that is seen. -/
theorem exists_lastOf {inputs : List ι} {moves : List κ} {seen : κ}
    (h : inputs.filterMap observe = moves ++ [seen]) :
    ∃ earlier input, LastOf (fun input ↦ (observe input).isSome) inputs earlier input ∧
      observe input = some seen := by
  induction inputs using List.reverseRecOn with
  | nil => simp at h
  | append_singleton inputs input ih =>
      rw [List.filterMap_append] at h
      cases hobserve : observe input with
      | none =>
          rw [List.filterMap_cons_none hobserve, List.filterMap_nil, List.append_nil] at h
          obtain ⟨earlier, last, hlast, hseen⟩ := ih h
          exact ⟨earlier, last, hlast.snoc (by simp [hobserve]), hseen⟩
      | some found =>
          rw [List.filterMap_cons_some hobserve, List.filterMap_nil] at h
          obtain rfl := (List.append_singleton_inj.mp h).2
          exact ⟨inputs, input, .now inputs (by simp [hobserve]), hobserve⟩

end Observed

end Execution
