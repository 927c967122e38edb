import Mathlib.Data.List.Infix

/-!
# The last input of a kind

A state often keeps nothing but the outcome of the last input of some kind. `LastOf` says which one
that is and what came before it; it is extended one input at a time, like a run.
-/

namespace Execution

variable {ι : Type} {kind : ι → Prop} {inputs earlier part later : List ι} {input other : ι}

/-- After `earlier` came an input of the kind, and none since. -/
structure LastOf (kind : ι → Prop) (inputs earlier : List ι) (input : ι) : Prop where
  isKind : kind input
  since : ∃ middle, inputs = earlier ++ [input] ++ middle ∧ ∀ other ∈ middle, ¬ kind other

namespace LastOf

theorem now (earlier : List ι) (h : kind input) : LastOf kind (earlier ++ [input]) earlier input :=
  ⟨h, [], (List.append_nil _).symm, fun _ hother ↦ absurd hother List.not_mem_nil⟩

theorem snoc (h : LastOf kind inputs earlier input) (hother : ¬ kind other) :
    LastOf kind (inputs ++ [other]) earlier input := by
  obtain ⟨middle, rfl, hmiddle⟩ := h.since
  refine ⟨h.isKind, middle ++ [other], by simp, fun later hlater ↦ ?_⟩
  obtain hlater | hlater := List.mem_append.mp hlater
  · exact hmiddle later hlater
  · rwa [List.mem_singleton.mp hlater]

theorem isPrefix (h : LastOf kind inputs earlier input) : earlier ++ [input] <+: inputs := by
  obtain ⟨middle, rfl, -⟩ := h.since
  exact List.prefix_append _ _

/-- An input of the kind that came later would be the last one. -/
theorem not_before (h : LastOf kind inputs earlier input) (hpart : earlier ++ [input] <+: part)
    (hlater : part ++ [other] <+: inputs) : ¬ kind other := by
  obtain ⟨middle, rfl, hmiddle⟩ := h.since
  obtain ⟨between, rfl⟩ := hpart
  obtain ⟨rest, hrest⟩ := hlater
  have hsplit : between ++ [other] ++ rest = middle :=
    (List.append_right_inj (earlier ++ [input])).mp (by simpa using hrest)
  exact hmiddle other (by simp [← hsplit])

/-- Two inputs of the kind do not have the same last input of the kind before them. -/
theorem part_unique {first second : List ι} {a b : ι} (hfirst : first ++ [a] <+: inputs)
    (hsecond : second ++ [b] <+: inputs) (ha : kind a) (hb : kind b)
    (hlast : LastOf kind first earlier input) (hlast' : LastOf kind second earlier input) :
    first = second := by
  obtain hle | hle := List.prefix_or_prefix_of_prefix hfirst hsecond
  · obtain hshorter | hsame := List.prefix_concat_iff.mp hle |>.symm
    · exact absurd ha (hlast'.not_before hlast.isPrefix hshorter)
    · exact (List.append_inj' hsame rfl).1
  · obtain hshorter | hsame := List.prefix_concat_iff.mp hle |>.symm
    · exact absurd hb (hlast.not_before hlast'.isPrefix hshorter)
    · exact (List.append_inj' hsame rfl).1.symm

theorem unique {earlier' : List ι} {input' : ι} (h : LastOf kind inputs earlier input)
    (h' : LastOf kind inputs earlier' input') : earlier = earlier' ∧ input = input' := by
  obtain hle | hle := List.prefix_or_prefix_of_prefix h.isPrefix h'.isPrefix
  · obtain hshorter | hsame := List.prefix_concat_iff.mp hle |>.symm
    · exact absurd h'.isKind (h.not_before hshorter h'.isPrefix)
    · obtain ⟨hsame, hinput⟩ := List.append_inj' hsame rfl
      exact ⟨hsame, List.singleton_inj.mp hinput⟩
  · obtain hshorter | hsame := List.prefix_concat_iff.mp hle |>.symm
    · exact absurd h.isKind (h'.not_before hshorter h.isPrefix)
    · obtain ⟨hsame, hinput⟩ := List.append_inj' hsame rfl
      exact ⟨hsame.symm, (List.singleton_inj.mp hinput).symm⟩

/-- An input of another kind changes nothing. -/
theorem snoc_iff (kind : ι → Prop) (hother : ¬ kind other) :
    LastOf kind (inputs ++ [other]) earlier input ↔ LastOf kind inputs earlier input := by
  constructor
  · intro h
    obtain hsame | hshorter := List.prefix_concat_iff.mp h.isPrefix
    · obtain ⟨-, hinput⟩ := List.append_inj' hsame rfl
      exact absurd (List.singleton_inj.mp hinput ▸ h.isKind) hother
    · obtain ⟨middle, rfl⟩ := hshorter
      refine ⟨h.isKind, middle, rfl, fun later hlater hkind ↦ ?_⟩
      obtain ⟨between, rest, rfl⟩ := List.append_of_mem hlater
      exact h.not_before (List.prefix_append _ between)
        ⟨rest ++ [other], by simp⟩ hkind
  · exact fun h ↦ h.snoc hother

/-- An input of the kind is the last one when it has just come. -/
theorem now_iff (kind : ι → Prop) (h : kind other) :
    LastOf kind (inputs ++ [other]) earlier input ↔ earlier = inputs ∧ input = other := by
  constructor
  · exact fun hlast ↦ hlast.unique (now inputs h)
  · rintro ⟨rfl, rfl⟩
    exact now earlier h

end LastOf

end Execution
