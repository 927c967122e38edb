import CredMesh.Foundation.Execution

/-!
# Journals

A machine may keep a journal, to which its steps only append. An observer who sees nothing but the
journal replays its entries on a record of its own. If every step takes a record that agrees with
the machine to one that agrees with it again, so does every run, from wherever the observer starts.
-/

/-- Replaying what a step appends keeps a record in agreement with the machine. -/
def Journal.Follows {ι σ ε entry record : Type} (step : ι → σ → Except ε σ)
    (journal : σ → List entry) (replay : record → entry → record) (agrees : record → σ → Prop) :
    Prop :=
  ∀ input state next observed, step input state = .ok next → agrees observed state →
    ∃ entries, journal next = journal state ++ entries ∧ agrees (entries.foldl replay observed) next

namespace Journal.Follows

variable {ι σ ε entry record : Type} {step : ι → σ → Except ε σ} {journal : σ → List entry}
  {replay : record → entry → record} {agrees : record → σ → Prop} {start final : σ}
  {inputs : List ι}

/-- Whoever agreed with the machine once and replays what it has appended since agrees with it
now. -/
theorem catch_up (h : Follows step journal replay agrees) {observed : record}
    (hstart : agrees observed start) (hrun : Execution.run step start inputs = .ok final) :
    ∃ entries, journal final = journal start ++ entries ∧
      agrees (entries.foldl replay observed) final := by
  refine Execution.run_induction (motive := fun _ state ↦ ∃ entries,
    journal state = journal start ++ entries ∧ agrees (entries.foldl replay observed) state)
    ⟨[], (List.append_nil _).symm, hstart⟩ ?_ hrun
  rintro _ state input next - ⟨entries, hentries, hagrees⟩ hstep
  obtain ⟨appended, happended, hnext⟩ := h input state next _ hstep hagrees
  refine ⟨entries ++ appended, ?_, ?_⟩
  · rw [happended, hentries, List.append_assoc]
  · rw [List.foldl_append]
    exact hnext

/-- The whole journal tells the state of a machine that started with an empty one. -/
theorem of_run (h : Follows step journal replay agrees) {initial : record}
    (hstart : agrees initial start) (hempty : journal start = [])
    (hrun : Execution.run step start inputs = .ok final) :
    agrees ((journal final).foldl replay initial) final := by
  obtain ⟨entries, hentries, hagrees⟩ := h.catch_up hstart hrun
  rw [hempty, List.nil_append] at hentries
  rw [hentries]
  exact hagrees

end Journal.Follows
